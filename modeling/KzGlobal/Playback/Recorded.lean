import KzGlobal.Replay.Ticks
import KzGlobal.Playback.Threads

/-! # A run is played back

From the calls of the engine to the bot: the ticks of a run are captured, written, transposed, read
and kept as the frames of a playback. The playback has one frame for each tick of the run that was
not paused, in order, with the members that the bot shows, and it is told to be of the map that the
run was recorded on (`run_played_back`). -/

namespace KzGlobal.Playback.Recorded

open KzGlobal.Lib KzGlobal.Lib.Stdio KzGlobal.Lib.Runs
open KzGlobal.Krp.Format KzGlobal.Krp.Frame KzGlobal.Krp.Frame.FrameMember KzGlobal.Krp.Codec
open KzGlobal.Krp.Records KzGlobal.Krp.Sections KzGlobal.Krp.Walk KzGlobal.Krp.Roundtrip
open KzGlobal.Replay.Text KzGlobal.Replay.Writer KzGlobal.Replay.Headers KzGlobal.Replay.Effect
open KzGlobal.Replay.Laws KzGlobal.Replay.Capture KzGlobal.Replay.Ticks
open KzGlobal.Playback.Threads (headerMap parsePlayback frameOf)

/-! ### Frames of a playback -/

/-- `krp_playback_frame`. -/
structure KrpPlaybackFrame where
  origin : V3f
  vAngle : V3f
  flags : UInt32
  button : UInt32
  oldbuttons : UInt32
  deriving DecidableEq, Repr

/-- What `parse_playback` keeps of a frame. -/
def playbackFrame (f : KrpFrame) : KrpPlaybackFrame where
  origin := v3f f origin
  vAngle := v3f f vAngle
  flags := u32 f flags
  button := u32 f button
  oldbuttons := u32 f oldbuttons

/-- What a playback shows of a tick. -/
def Tick.playback (t : Tick) : KrpPlaybackFrame where
  origin := t.vars.origin
  vAngle := t.vars.vAngle
  flags := t.vars.flags
  button := t.vars.button
  oldbuttons := t.vars.oldbuttons

/-- The tick of what a capture shows. -/
def tick? : Shown → Option Tick
  | .tick t => some t
  | .event _ => none

theorem filterMap_frameOf (calls : List Call) :
    (calls.filterMap frameOf).map tickOf =
      ((calls.map payload).map showEntry).filterMap tick? := by
  rw [List.map_map, List.filterMap_map, List.map_filterMap]
  refine List.filterMap_congr fun c _ => ?_
  cases c <;> rfl

/-! ### The map in the header -/

theorem headerMap_of_terminated {h : KrpHeader} {n rest : Bytes}
    (hg : h.get .mapName = n ++ 0 :: rest) (h0 : (0 : UInt8) ∉ n) : headerMap h = n := by
  have hd : h.bytes.drop Member.mapName.field.off =
      h.get .mapName ++ (h.bytes.drop Member.mapName.field.off).drop Member.mapName.field.size :=
    (List.take_append_drop _ _).symm
  rw [headerMap, hd, hg, List.append_assoc, List.cons_append, cstr_append_zero h0]

theorem get_headerOf (h : KrpHeader) (rs : List Record) :
    (headerOf h rs).get .mapName = h.get .mapName := by
  unfold headerOf KrpHeader.setNum
  rw [KrpHeader.get_set_of_ne (by decide), KrpHeader.get_set_of_ne (by decide),
    KrpHeader.get_set_of_ne (by decide), KrpHeader.get_set_of_ne (by decide)]

/-- The law of captures whose map name is `field`. -/
def nameLaw (field : Bytes) : Law Unit where
  tick _ _ _ := ()
  closed _ h _ := h.get .mapName = field
  opened _ _ h _ := h.get .mapName = field

theorem nameLaw_lawful (dataDir field : Bytes) (steamidShort : CString 35) (name : Bytes) :
    (nameLaw field).Lawful dataDir {tmpPath dataDir name steamidShort.bytes}
      fun _ i => Mixed steamidShort name i where
  keep _ _ _ h := h
  idle _ _ _ _ h := h
  domain hC hs _ := by
    rcases hs with ⟨ts, nick, hs⟩ | hs <;> simp only [Mixed, hs] at hC
    rw [openPath, hC.1, hC.2.1]
    rfl
  start hC hs _ := by simp only [Mixed, hs] at hC
  unpause _ _ _ h := h
  event _ _ _ h := h
  frame _ _ _ h := h
  pause _ _ _ h := (get_runHeader _ _ _ (by decide) (by decide)).trans h
  abandon _ _ _ h := h
  finish hC hs := by simp only [Mixed, hs] at hC

/-! ### A START -/

section
variable (dataDir : Bytes) (s : Slot) {start : Input} {ts : ℕ} {steamidShort : CString 35}
  {nickname : CString 32} (hstart : start.signal = .start ts steamidShort nickname)
  (hacc : Accepted start.env steamidShort) (hopen : start.env.fopenOk = true)
include hstart hacc hopen

theorem next_start : next dataDir s start =
    { rewrite { s with filepath := openPath dataDir start.env steamidShort }
        (startHeader ts steamidShort nickname start.env.header.header) [] with
      last := zeroFrame, counter := 0, checkpoints := 0, gochecks := 0 } := by
  unfold next step
  simp only [hstart]
  rw [onStart_accepted dataDir hacc, if_pos hopen]

theorem going_start : Going (tmpPath dataDir (mapName start.env.header.header) steamidShort.bytes)
    true (next dataDir s start) := by
  rw [next_start dataDir s hstart hacc hopen]
  exact ⟨rfl, Option.isSome_of_eq_some (Disk.store_self ..)⟩

theorem holds_nameLaw : (nameLaw (start.env.header.header.get .mapName)).Holds
    {tmpPath dataDir (mapName start.env.header.header) steamidShort.bytes} ()
    (next dataDir s start) := by
  rw [next_start dataDir s hstart hacc hopen]
  refine .opened ⟨rfl, Disk.store_self ..⟩ rfl ?_ fun p hp => absurd hp.1 hp.2
  exact get_startHeader _ _ _ _ (by decide) (by decide) (by decide)

end

/-! ### The playback -/

theorem Recording.header_unique {s : Slot} {h h' : KrpHeader} {rs rs' : List Record}
    (hr : Recording s h rs) (hr' : Recording s h' rs') : h = h' := by
  have he := Option.some.inj (hr.disk.symm.trans hr'.disk)
  exact KrpHeader.ext (List.append_inj he (h.size_eq.trans h'.size_eq.symm)).1

theorem parsePlayback_krprOf {h : KrpHeader} {rs : List Record} (hv : ValidHeader h)
    (hk : StartsWithKeyframe rs) (hl : (krprOf h rs).length < 2 ^ 32)
    {unzstd : Bytes → Option Bytes} {krpz : Bytes} (hz : unzstd krpz = some (krpzOf h rs)) :
    parsePlayback unzstd krpz =
      (headerOf h rs, (playback (fun _ => 0) 0 rs).filterMap frameOf) := by
  have hf := fits_of_length hl
  unfold parsePlayback
  simp only [hz, mapSections_krpzOf hv hk hf, forEachRecord_sectionsOf h hf]
  rfl

/-- The ticks of a run, of those that were to be recorded. -/
def runTicks (f : KrpFrame) (cs : List EngineCall) : List Tick :=
  (shown true (cmdOf f) cs).filterMap tick?

/-- **A run is played back as it was run.** After an accepted START, whatever the engine and the
plugin call, of which the first to be recorded is a tick, and a FINISH of a run that is not paused:
the saved file is transposed, and a playback of what it is transposed to is of the map of the START
and has the frames of the ticks. -/
theorem run_played_back (dataDir : Bytes) (s : Slot) (f : KrpFrame) {start finish : Input}
    {cs : List EngineCall} {ts timeMs : ℕ} {steamidShort : CString 35}
    {nickname nickname' : CString 32} {submit : Bool} {charPrefix : UInt8}
    (hstart : start.signal = .start ts steamidShort nickname)
    (hacc : Accepted start.env steamidShort) (hopen : start.env.fopenOk = true)
    (hmix : ∀ i ∈ inputs f cs, Mixed steamidShort (mapName start.env.header.header) i)
    (hfirst : ∃ t, (shown true (cmdOf f) cs).head? = some (.tick t))
    (hon : cs.foldl onAfter true = true)
    (hfinish : finish.signal = .finish timeMs submit charPrefix steamidShort nickname')
    (hrename : finish.env.renameOk = true) :
    ∃ uid path krpr,
      .saved uid path ∈
        (step dataDir (run (next dataDir) (next dataDir s start) (inputs f cs)) finish).2 ∧
      (next dataDir (run (next dataDir) (next dataDir s start) (inputs f cs)) finish).disk path =
        some krpr ∧
      (krpr.length < 2 ^ 32 → ∃ body, buildKrpzBody krpr = .ok body ∧
        ∀ unzstd krpz, unzstd krpz = some body →
          headerMap (parsePlayback unzstd krpz).1 = mapName start.env.header.header ∧
          (parsePlayback unzstd krpz).2.map tickOf = runTicks f cs ∧
          (parsePlayback unzstd krpz).2.map playbackFrame =
            (runTicks f cs).map Tick.playback) := by
  obtain ⟨hrec, hgo⟩ := recorded_inputs hacc.1 hacc.2 cs f _ true
    (going_start dataDir s hstart hacc hopen) hmix
  have hfd := hgo.fd.trans hon
  -- the law of the captures and that of their map name hold of the same open file
  have hI := (captureLaw_lawful dataDir steamidShort _).run (along_of_forall hmix)
    (holds_start dataDir s hstart hacc hopen)
  rw [run_captureLaw, List.nil_append] at hI
  obtain ⟨h, rs, hr, hc, -⟩ := hI.recording hfd
  obtain ⟨h', rs', hr', hname⟩ := ((nameLaw_lawful dataDir _ steamidShort _).run
    (along_of_forall hmix) (holds_nameLaw dataDir s hstart hacc hopen)).recording hfd
  obtain rfl := Recording.header_unique hr hr'
  obtain ⟨uid, path, hsaved⟩ :=
    finish_saves hr hfinish hacc.1 (by rw [hc.name]; exact hacc.2) hrename
  obtain ⟨_, _, _, _, nick, -, -, -, -, hdisk⟩ := saved_of_finish hr hsaved
  refine ⟨uid, path, _, hsaved, hdisk, fun hl => ⟨_, buildKrpzBody_krprOf _ rs, ?_⟩⟩
  intro unzstd krpz hz
  have hframe : ∃ f', (recorded dataDir (next dataDir s start) (inputs f cs)).head? =
      some (.frame f') := by
    obtain ⟨t, ht⟩ := hfirst
    rw [← hrec, List.head?_map] at ht
    rcases hh : (recorded dataDir (next dataDir s start) (inputs f cs)).head? with _ | e
    · rw [hh] at ht
      cases ht
    · cases e with
      | frame f' => exact ⟨f', rfl⟩
      | event id =>
        rw [hh] at ht
        cases ht
  obtain ⟨f', hf'⟩ := hframe
  have hticks : ((playback (fun _ => 0) 0 rs).filterMap frameOf).map tickOf = runTicks f cs := by
    rw [filterMap_frameOf, runTicks, ← hrec]
    exact congrArg (fun es => (es.map showEntry).filterMap tick?) hc.played
  rw [parsePlayback_krprOf (finishHeader_valid.mpr hc.valid) (hc.starts hf') hl hz]
  refine ⟨?_, hticks, ?_⟩
  · obtain ⟨n, rest, hn, h0, hlen⟩ := GHeader.terminated start.env.header.reached
    have hget (s' : Slot) :
        (headerOf (finishHeader nick s' h) rs).get .mapName = n ++ 0 :: rest := by
      rw [get_headerOf, get_finishHeader _ _ h (by decide) (by decide) (by decide)]
      exact Eq.trans hname hn
    rw [headerMap_of_terminated (hget _) h0, (fileName_of_terminated hn h0 hlen).2]
  · rw [← hticks, List.map_map]
    rfl

/-! ### A sample run -/

/-- Three numbers for the samples. -/
def sampleV3f : V3f := ⟨0x3f800000, 0, 0x40000000⟩

/-- A command of ten milliseconds with a button held. -/
def sampleCmd : UserCmd := ⟨100, 10, sampleV3f, 0, 0, 0, 0, 2, 0, 0, 0, sampleV3f⟩

/-- The variables of an entity, with a button. -/
def sampleVars (button : UInt32) : EntVars :=
  ⟨sampleV3f, sampleV3f, sampleV3f, 0, 3, 512, button, 0⟩

/-- A living player. -/
def sampleAlive : Player := ⟨true, false, true⟩

/-- A packet that the queue takes. -/
def samplePacket : Packet := ⟨true, sampleEnv⟩

/-- A tick, a checkpoint taken back, a tick in a pause, one after it, and one of a dead player. -/
def sampleCalls : List EngineCall :=
  [.cmdStart sampleAlive sampleCmd,
    .playerPostThink sampleAlive (sampleVars 2) 7 samplePacket,
    .native ⟨.event krpEventGocheck, fun _ h => Signal.noConfusion h⟩ samplePacket,
    .native ⟨.pause, fun _ h => Signal.noConfusion h⟩ samplePacket,
    .playerPostThink sampleAlive (sampleVars 3) 7 samplePacket,
    .native ⟨.unpause samplePlayer, fun _ h => Signal.noConfusion h⟩ samplePacket,
    .playerPostThink sampleAlive (sampleVars 4) 7 samplePacket,
    .playerPostThink ⟨true, false, false⟩ (sampleVars 5) 7 samplePacket]

example : (runTicks zeroFrame sampleCalls).map Tick.playback =
    [⟨sampleV3f, sampleV3f, 512, 2, 0⟩, ⟨sampleV3f, sampleV3f, 512, 4, 0⟩] := rfl

theorem sampleCalls_mixed : ∀ i ∈ inputs zeroFrame sampleCalls,
    Mixed samplePlayer (mapName sampleStart.env.header.header) i := by
  have h : ∃ f₁ f₂ f₃, inputs zeroFrame sampleCalls =
      [.frame f₁, .event krpEventGocheck, .pause, .frame f₂, .unpause samplePlayer,
        .frame f₃].map sampleInput := ⟨_, _, _, rfl⟩
  obtain ⟨f₁, f₂, f₃, h⟩ := h
  rw [h]
  simp only [List.map_cons, List.map_nil, List.forall_mem_cons]
  exact ⟨trivial, trivial, trivial, trivial, ⟨rfl, rfl, rfl⟩, trivial,
    fun _ h => absurd h List.not_mem_nil⟩

theorem run_played_back_sample : ∃ uid path krpr,
    .saved uid path ∈ (step (str "d") (run (next (str "d"))
      (next (str "d") (.init fun _ => none) sampleStart)
      (inputs zeroFrame sampleCalls)) sampleFinish).2 ∧
    (next (str "d") (run (next (str "d")) (next (str "d") (.init fun _ => none) sampleStart)
      (inputs zeroFrame sampleCalls)) sampleFinish).disk path = some krpr ∧
    (krpr.length < 2 ^ 32 → ∃ body, buildKrpzBody krpr = .ok body ∧
      ∀ unzstd krpz, unzstd krpz = some body →
        headerMap (parsePlayback unzstd krpz).1 = mapName sampleStart.env.header.header ∧
        (parsePlayback unzstd krpz).2.map tickOf = runTicks zeroFrame sampleCalls ∧
        (parsePlayback unzstd krpz).2.map playbackFrame =
          (runTicks zeroFrame sampleCalls).map Tick.playback) :=
  run_played_back (str "d") (.init fun _ => none) zeroFrame rfl (by decide +kernel) rfl
    sampleCalls_mixed ⟨_, rfl⟩ rfl rfl rfl

end KzGlobal.Playback.Recorded
