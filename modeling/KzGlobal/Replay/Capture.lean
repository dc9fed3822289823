import KzGlobal.Replay.Laws

/-! # What a capture plays back

The law of the captures of one player on one map: the header is the reader's and names the map, the
first frame is a keyframe, and playing the records back gives the frames and events signalled while
the file was open. The open capture shows the last frame signalled, unless the next one is written
as a keyframe. So the file of a FINISH plays back what was recorded (`capture_lossless`). -/

namespace KzGlobal.Replay.Capture

open KzGlobal.Lib KzGlobal.Lib.Stdio KzGlobal.Lib.Runs
open KzGlobal.Krp.Format KzGlobal.Krp.Codec KzGlobal.Krp.Records KzGlobal.Krp.Sections
open KzGlobal.Krp.Walk KzGlobal.Krp.Roundtrip
open KzGlobal.Replay.Text KzGlobal.Replay.Writer KzGlobal.Replay.Frames
open KzGlobal.Replay.Headers KzGlobal.Replay.Effect KzGlobal.Replay.Laws

/-! ### Entries -/

/-- What is signalled into a capture and played back from it. -/
inductive Entry
  | frame (f : KrpFrame)
  | event (id : UInt8)
  deriving DecidableEq

/-- The entry a call of `on_frame` or `on_event` delivers. -/
def payload : Call → Entry
  | .onFrame _ _ f => .frame f
  | .onEvent _ id => .event id

/-- The entry of a signal. -/
def signalled : Signal → List Entry
  | .frame f => [.frame f]
  | .event id => [.event id]
  | _ => []

/-- The entry that a signal records: the one it carries, while a file is open. -/
def recordedBy (s : Slot) (i : Input) : List Entry :=
  if s.fd.isSome then signalled i.signal else []

/-- The entries signalled along a run while a file was open. -/
def recorded (dataDir : Bytes) : Slot → List Input → List Entry
  | _, [] => []
  | s, i :: is => recordedBy s i ++ recorded dataDir (next dataDir s i) is

/-- The entries that records play back. -/
def played (rs : List Record) : List Entry := (playback (fun _ => 0) 0 rs).map payload

/-- The frame a playback shows at its end. -/
def shown (rs : List Record) : ℕ → UInt8 := frameAfter (fun _ => 0) rs

theorem played_event (rs : List Record) (id : UInt8) :
    played (rs ++ [.event id]) = played rs ++ [.event id] := by
  rw [played, playback_append, List.map_append]; rfl

theorem played_frame (rs : List Record) {r : FrameRecord} {f : KrpFrame}
    (h : Shows (applyFrame (shown rs) r) f) :
    played (rs ++ [.frame r]) = played rs ++ [.frame f] := by
  have hp : ∀ t, playback (shown rs) t [.frame r] = [.onFrame t r.type f] := fun t => by
    rw [playback, h.ofFn_eq]; rfl
  rw [played, playback_append, List.map_append]
  exact congrArg (played rs ++ List.map payload ·) (hp _)

theorem shown_frame (rs : List Record) (r : FrameRecord) :
    shown (rs ++ [.frame r]) = applyFrame (shown rs) r := frameAfter_append ..

/-- The first frame is a keyframe. -/
def FirstKey (rs : List Record) : Prop := ∀ r ∈ (frames rs).head?, r.key = true

theorem FirstKey.append {rs : List Record} (h : FirstKey rs) {rs' : List Record}
    (h' : frames rs = [] → FirstKey rs') : FirstKey (rs ++ rs') := by
  intro r hr
  rw [frames_append, List.head?_append] at hr
  rcases hf : frames rs with _ | ⟨r', fs⟩
  · rw [hf] at hr
    exact h' hf r hr
  · rw [hf] at hr
    exact h r (by rw [hf]; exact hr)

/-! ### What the static arrays know of the open capture -/

/-- The open capture shows the last frame, unless the next one is written as a keyframe. -/
def Follows (r : Registers) (rs : List Record) : Prop :=
  r.counter ≠ 0 → frames rs ≠ [] ∧ Shows (shown rs) r.last

theorem Follows.event {r r' : Registers} {rs : List Record} (h : Follows r rs)
    (hl : r'.last = r.last) (hc : r'.counter = r.counter) (id : UInt8) :
    Follows r' (rs ++ [.event id]) := by
  intro h0
  obtain ⟨hf, hs⟩ := h (hc ▸ h0)
  rw [frames_append, shown, frameAfter_append, hl]
  exact ⟨by simpa [frames] using hf, hs⟩

/-- **The record of a FRAME shows the frame.** -/
theorem Follows.shows {s : Slot} {rs : List Record} (h : Follows (registers s) rs) (f : KrpFrame) :
    Shows (applyFrame (shown rs) (frameRecord s f)) f := by
  unfold frameRecord
  split_ifs with h0
  · exact shows_keyframe _ f
  · exact shows_delta (h h0).2 f

theorem Follows.frame {s : Slot} {rs : List Record} (h : Follows (registers s) rs) (f : KrpFrame) :
    Follows ⟨f, s.counter + 1, s.checkpoints, s.gochecks⟩ (rs ++ [.frame (frameRecord s f)]) := by
  intro _
  rw [frames_append, shown_frame]
  exact ⟨List.append_ne_nil_of_right_ne_nil _ (List.cons_ne_nil _ _), h.shows f⟩

theorem Follows.firstKey {s : Slot} {rs : List Record} (h : Follows (registers s) rs)
    (hk : FirstKey rs) (f : KrpFrame) : FirstKey (rs ++ [.frame (frameRecord s f)]) := by
  refine hk.append fun h0 r hr => ?_
  have hc : s.counter = 0 := not_not.mp fun hc => (h hc).1 h0
  rw [frameRecord, if_pos hc] at hr
  rw [← Option.some.inj hr]; rfl

/-! ### The law -/

/-- The records of a capture that has taken the entries `g` on the map `name`. -/
structure Captured (name : Bytes) (g : List Entry) (h : KrpHeader) (rs : List Record) : Prop where
  valid : ValidHeader h
  name : fileName h = name
  played : played rs = g
  firstKey : FirstKey rs

/-- The law of the captures of a player on a map. -/
def captureLaw (name : Bytes) : Law (List Entry) where
  tick g s i := g ++ recordedBy s i
  closed := Captured name
  opened g r h rs := Captured name g h rs ∧ Follows r rs

theorem run_captureLaw (dataDir name : Bytes) (is : List Input) (g : List Entry) (s : Slot) :
    (Runs.run (withGhost (next dataDir) (captureLaw name).tick) (g, s) is).1 =
      g ++ recorded dataDir s is := by
  induction is generalizing g s with
  | nil => exact (List.append_nil g).symm
  | cons i is ih =>
    rw [run_cons, recorded, ← List.append_assoc]
    exact ih _ _

/-- A signal of the mix: no START, REJECT or FINISH, the same player and map, and files that
open. -/
def Mixed (steamidShort : CString 35) (name : Bytes) (i : Input) : Prop :=
  match i.signal with
  | .frame _ | .event _ | .pause => True
  | .unpause sid => sid = steamidShort ∧ mapName i.env.header.header = name ∧ i.env.fopenOk = true
  | _ => False

theorem recordedBy_of_recording {s : Slot} {h : KrpHeader} {rs : List Record}
    (hr : Recording s h rs) (i : Input) : recordedBy s i = signalled i.signal := by
  rw [recordedBy, hr.fd]; rfl

theorem Mixed.of_abandons {dataDir : Bytes} {steamidShort : CString 35} {name : Bytes} {s : Slot}
    {i : Input} (h : Mixed steamidShort name i) (ha : Abandons dataDir s i) :
    ∃ sid, i.signal = .unpause sid := by
  unfold Mixed at h
  unfold Abandons at ha
  rcases hs : i.signal with f | id | ⟨ts, sid, nick⟩ | _ | sid | del | ⟨t, sub, cp, sid, nick⟩ <;>
    simp only [hs] at h ha
  exact ⟨sid, rfl⟩

section Tick
variable {name : Bytes} {g : List Entry} {s : Slot} {i : Input} {h : KrpHeader} {rs : List Record}

theorem tick_of_signalled (hs : signalled i.signal = []) : (captureLaw name).tick g s i = g := by
  have h0 : recordedBy s i = [] := by rw [recordedBy, hs, ite_self]
  exact (congrArg (g ++ ·) h0).trans (List.append_nil g)

theorem tick_of_fd (hfd : s.fd.isSome = false) : (captureLaw name).tick g s i = g := by
  have h0 : recordedBy s i = [] := by rw [recordedBy, hfd]; rfl
  exact (congrArg (g ++ ·) h0).trans (List.append_nil g)

theorem tick_of_recording (hr : Recording s h rs) :
    (captureLaw name).tick g s i = g ++ signalled i.signal :=
  congrArg (g ++ ·) (recordedBy_of_recording hr i)

end Tick

theorem captureLaw_lawful (dataDir : Bytes) (steamidShort : CString 35) (name : Bytes) :
    (captureLaw name).Lawful dataDir {tmpPath dataDir name steamidShort.bytes}
      fun _ i => Mixed steamidShort name i where
  keep _ hp hne hc := by
    rw [tick_of_fd (Bool.eq_false_iff.mpr fun hfd => ?_)]
    · exact hc
    · obtain ⟨hD, hn⟩ := hne hfd
      exact hn (hp.trans hD.symm)
  idle _ hs _ _ ho := by
    rw [tick_of_signalled (by rw [hs]; rfl)]
    exact ho
  domain hC hs _ := by
    rcases hs with ⟨ts, nick, hs⟩ | hs <;> simp only [Mixed, hs] at hC
    rw [openPath, hC.1, hC.2.1]
    rfl
  start hC hs _ := by simp only [Mixed, hs] at hC
  unpause _ _ _ hc := ⟨hc, fun h0 => absurd rfl h0⟩
  event {g s i id h rs} _ hs hr ho := by
    obtain ⟨hc, hf⟩ := ho
    rw [tick_of_recording hr, hs]
    refine ⟨⟨hc.valid, hc.name, ?_, hc.firstKey.append fun _ r hr => by cases hr⟩, ?_⟩
    · rw [played_event, hc.played]; rfl
    · exact hf.event (by rw [countEvent_eq]; rfl) (by rw [countEvent_eq]; rfl) id
  frame {g s i f h rs} _ hs hr ho := by
    obtain ⟨hc, hf⟩ := ho
    rw [tick_of_recording hr, hs]
    refine ⟨⟨hc.valid, hc.name, ?_, hf.firstKey hc.firstKey f⟩, hf.frame f⟩
    rw [played_frame rs (hf.shows f), hc.played]; rfl
  pause _ hs hr ho := by
    rw [tick_of_signalled (by rw [hs]; rfl)]
    obtain ⟨hc, -⟩ := ho
    exact ⟨runHeader_valid.mpr hc.valid, (fileName_runHeader ..).trans hc.name, hc.played,
      hc.firstKey⟩
  abandon hC ha hr ho := by
    obtain ⟨sid, hs⟩ := hC.of_abandons ha
    rw [tick_of_signalled (by rw [hs]; rfl)]
    exact ho.1
  finish hC hs := by simp only [Mixed, hs] at hC

/-! ### The file of a FINISH -/

theorem Captured.starts {name : Bytes} {g : List Entry} {h : KrpHeader} {rs : List Record}
    (hc : Captured name g h rs) {f : KrpFrame} (hg : g.head? = some (.frame f)) :
    StartsWithKeyframe rs := by
  have hp := hc.played
  rcases rs with _ | ⟨_ | r, rs⟩
  · rw [← hp] at hg; cases hg
  · rw [← hp] at hg; cases hg
  · exact ⟨r, rs, rfl, hc.firstKey r rfl⟩

/-- **The reader plays back what a capture has taken**, under the header of a FINISH. -/
theorem Captured.plays {name : Bytes} {g : List Entry} {h : KrpHeader} {rs : List Record}
    (hc : Captured name g h rs) {f : KrpFrame} (hg : g.head? = some (.frame f))
    (nickname : CString 32) (s : Slot)
    (hl : (krprOf (finishHeader nickname s h) rs).length < 2 ^ 32) :
    ∃ body sec calls, buildKrpzBody (krprOf (finishHeader nickname s h) rs) = .ok body ∧
      mapSections body = .ok sec ∧ forEachRecord sec = .ok calls ∧ calls.map payload = g :=
  ⟨_, _, _, buildKrpzBody_krprOf _ rs,
    mapSections_krpzOf (finishHeader_valid.mpr hc.valid) (hc.starts hg) (fits_of_length hl),
    forEachRecord_sectionsOf _ (fits_of_length hl), hc.played⟩

theorem holds_start (dataDir : Bytes) (s : Slot) {start : Input} {ts : ℕ}
    {steamidShort : CString 35}
    {nickname : CString 32} (hs : start.signal = .start ts steamidShort nickname)
    (ha : Accepted start.env steamidShort) (ho : start.env.fopenOk = true) :
    (captureLaw (mapName start.env.header.header)).Holds
      {openPath dataDir start.env steamidShort} [] (next dataDir s start) := by
  have hn : next dataDir s start = onStart dataDir start.env ts steamidShort nickname s := by
    unfold next step
    simp only [hs]
  rw [hn, onStart_accepted dataDir ha, if_pos ho]
  refine .opened ⟨rfl, Disk.store_self ..⟩ rfl ⟨?_, fun h0 => absurd rfl h0⟩ ?_
  · exact ⟨startHeader_valid ts _ _ ha.2, fileName_startHeader .., rfl, fun r hr => by cases hr⟩
  · exact fun p hp => absurd hp.1 hp.2

/-- **Capture is lossless.** An accepted START, then FRAME, EVENT, PAUSE and UNPAUSE signals of the
same player and map, of which the first recorded is a FRAME, then a FINISH with the file open: the
finished file is transposed, accepted, and plays back what was signalled while the file was open. -/
theorem capture_lossless (dataDir : Bytes) (s : Slot) {start finish : Input} {is : List Input}
    {ts timeMs : ℕ} {steamidShort : CString 35} {nickname nickname' : CString 32} {submit : Bool}
    {charPrefix : UInt8} (hstart : start.signal = .start ts steamidShort nickname)
    (hacc : Accepted start.env steamidShort) (hopen : start.env.fopenOk = true)
    (hmix : ∀ i ∈ is, Mixed steamidShort (mapName start.env.header.header) i)
    (hfirst : ∃ f, (recorded dataDir (next dataDir s start) is).head? = some (.frame f))
    (hfd : (run (next dataDir) (next dataDir s start) is).fd.isSome = true)
    (hfinish : finish.signal = .finish timeMs submit charPrefix steamidShort nickname')
    (hrename : finish.env.renameOk = true) :
    ∃ uid path krpr,
      .saved uid path ∈ (step dataDir (run (next dataDir) (next dataDir s start) is) finish).2 ∧
      (next dataDir (run (next dataDir) (next dataDir s start) is) finish).disk path = some krpr ∧
      (krpr.length < 2 ^ 32 → ∃ body sec calls, buildKrpzBody krpr = .ok body ∧
        mapSections body = .ok sec ∧ forEachRecord sec = .ok calls ∧
        calls.map payload = recorded dataDir (next dataDir s start) is) := by
  have hI := (captureLaw_lawful dataDir steamidShort _).run (along_of_forall hmix)
    (holds_start dataDir s hstart hacc hopen)
  rw [run_captureLaw, List.nil_append] at hI
  obtain ⟨h, rs, hr, hc, -⟩ := hI.recording hfd
  obtain ⟨uid, path, hsaved⟩ :=
    finish_saves hr hfinish hacc.1 (by rw [hc.name]; exact hacc.2) hrename
  obtain ⟨_, _, _, _, nick, -, -, -, -, hdisk⟩ := saved_of_finish hr hsaved
  obtain ⟨f, hf⟩ := hfirst
  exact ⟨uid, path, _, hsaved, hdisk, fun hl => hc.plays hf nick _ hl⟩

/-- A server on the map `a`. -/
def sampleServer : ServerHeader :=
  ⟨kzRpUpdateHeader 0 0 0 (str "a") .zero, .update 0 0 0 (str "a") (by decide) .zero⟩

/-- A server where files open, are renamed and may be submitted. -/
def sampleEnv : Env := ⟨sampleServer, false, true, true⟩

/-- The name of a player in file names. -/
def samplePlayer : CString 35 := ⟨str "0123", by decide, by decide⟩

/-- The nickname of a player. -/
def sampleNickname : CString 32 := ⟨str "kz", by decide, by decide⟩

/-- A frame whose bytes are all the same. -/
def sampleFrame (v : UInt8) : KrpFrame := ⟨List.replicate sizeofKrpFrame v, List.length_replicate⟩

/-- A signal of the sample player on the sample server. -/
def sampleInput (s : Signal) : Input := ⟨s, sampleEnv⟩

/-- A run starts. -/
def sampleStart : Input := sampleInput (.start 36 samplePlayer sampleNickname)

/-- The run is finished and submitted. -/
def sampleFinish : Input := sampleInput (.finish 12345 true 0 samplePlayer sampleNickname)

/-- Two frames and an event, a pause that drops a frame, and one more frame. -/
def sampleMix : List Input :=
  [.frame (sampleFrame 1), .frame (sampleFrame 3), .event krpEventGocheck, .pause,
    .frame (sampleFrame 4), .unpause samplePlayer, .frame (sampleFrame 5)].map sampleInput

theorem sampleMix_mixed : ∀ i ∈ sampleMix,
    Mixed samplePlayer (mapName sampleStart.env.header.header) i := by
  simp only [sampleMix, List.map_cons, List.map_nil, List.forall_mem_cons]
  exact ⟨trivial, trivial, trivial, trivial, trivial, ⟨rfl, rfl, rfl⟩, trivial,
    fun _ h => absurd h List.not_mem_nil⟩

theorem capture_lossless_sample : ∃ uid path krpr,
    .saved uid path ∈ (step (str "d") (run (next (str "d"))
      (next (str "d") (.init fun _ => none) sampleStart) sampleMix) sampleFinish).2 ∧
    (next (str "d") (run (next (str "d")) (next (str "d") (.init fun _ => none) sampleStart)
      sampleMix) sampleFinish).disk path = some krpr ∧
    (krpr.length < 2 ^ 32 → ∃ body sec calls, buildKrpzBody krpr = .ok body ∧
      mapSections body = .ok sec ∧ forEachRecord sec = .ok calls ∧ calls.map payload =
        recorded (str "d") (next (str "d") (.init fun _ => none) sampleStart) sampleMix) :=
  capture_lossless (str "d") (.init fun _ => none) rfl (by decide +kernel) rfl sampleMix_mixed
    ⟨sampleFrame 1, by decide +kernel⟩ (by decide +kernel) rfl rfl

end KzGlobal.Replay.Capture
