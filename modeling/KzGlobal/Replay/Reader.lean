import KzGlobal.Replay.Capture

/-! # Files the reader accepts

The reader wants a KEYFRAME as the first record. The writer appends the records of EVENTs whenever a
file is open, so an EVENT before the first FRAME makes a capture that no reader accepts
(`finished_unreadable`); where no EVENT comes at an empty capture, every finished file with a frame
is accepted (`finished_readable`). -/

namespace KzGlobal.Replay.Reader

open KzGlobal.Lib KzGlobal.Lib.Stdio KzGlobal.Lib.Runs
open KzGlobal.Krp.Format KzGlobal.Krp.Codec KzGlobal.Krp.Records KzGlobal.Krp.Sections
open KzGlobal.Krp.Roundtrip
open KzGlobal.Replay.Text KzGlobal.Replay.Writer KzGlobal.Replay.Frames
open KzGlobal.Replay.Headers KzGlobal.Replay.Effect KzGlobal.Replay.Laws KzGlobal.Replay.Capture

/-! ### The reader's verdict -/

/-- A raw replay is transposed and its body accepted. -/
def Readable (krpr : Bytes) : Prop :=
  ∃ body sec, buildKrpzBody krpr = .ok body ∧ mapSections body = .ok sec

/-- A raw replay with at least one FRAME record. -/
def HasFrame (krpr : Bytes) : Prop := ∃ h rs, krpr = krprOf h rs ∧ frames rs ≠ []

/-- A capture that is empty or that the reader accepts. -/
def Playable (h : KrpHeader) (rs : List Record) : Prop :=
  ValidHeader h ∧ (rs = [] ∨ StartsWithKeyframe rs)

theorem HasFrame.ne_nil {h : KrpHeader} {rs : List Record} (hf : HasFrame (krprOf h rs)) :
    rs ≠ [] := by
  rintro rfl
  obtain ⟨_, _, he, hne⟩ := hf
  obtain ⟨-, rfl⟩ := krprOf_inj he
  exact hne rfl

theorem Playable.readable {h : KrpHeader} {rs : List Record} (hp : Playable h rs)
    (hf : HasFrame (krprOf h rs)) (hl : (krprOf h rs).length < krpMaxDecompressedBytes) :
    Readable (krprOf h rs) := by
  have hlt : (krprOf h rs).length < 2 ^ 32 := hl.trans (by decide)
  refine ⟨_, _, buildKrpzBody_krprOf h rs, mapSections_krpzOf hp.1 ?_ (fits_of_length hlt)⟩
  exact hp.2.resolve_left hf.ne_nil

/-- **The reader rejects a raw replay that begins with an EVENT.** -/
theorem not_readable_event (h : KrpHeader) (id : UInt8) (rs : List Record) :
    ¬ Readable (krprOf h (.event id :: rs)) := by
  rintro ⟨body, sec, hb, hm⟩
  rw [buildKrpzBody_krprOf, Except.ok.injEq] at hb
  obtain ⟨h', rs', tail, -, ⟨r, rest, rfl, hk⟩, -, he, -⟩ := mapSections_eq_ok.mp hm
  -- the byte behind the header is the type of the first record
  rw [← hb, krpzOf, krpzOf] at he
  have hd := congrArg (List.drop sizeofKrpHeader) he
  simp only [List.append_assoc] at hd
  rw [List.drop_left' (headerOf h _).size_eq, List.drop_left' (headerOf h' _).size_eq] at hd
  have htype : krpFrametypeEvent = (Record.frame r).type := (List.cons.inj hd).1
  rw [Record.type, FrameRecord.type, if_pos hk] at htype
  exact absurd htype (by decide)

/-! ### The law -/

/-- Every path that a START or UNPAUSE may open. -/
def tmpPaths (dataDir : Bytes) : Set Bytes :=
  {p | ∃ env sid, Accepted env sid ∧ p = openPath dataDir env sid}

/-- The open file holds a record behind its header, if a file is open. -/
def HasRecord (s : Slot) : Prop := ∀ fd ∈ s.fd, sizeofKrpHeader < (s.file fd).bytes.length

instance (s : Slot) : Decidable (HasRecord s) := by unfold HasRecord; infer_instance

/-- An EVENT does not come at an open file that holds its header alone. -/
def AfterFrame (s : Slot) (i : Input) : Prop :=
  match i.signal with
  | .event _ => HasRecord s
  | _ => True

theorem HasRecord.ne_nil {s : Slot} {h : KrpHeader} {rs : List Record} (hs : HasRecord s)
    (hr : Recording s h rs) : rs ≠ [] := by
  rintro rfl
  have hl := hs _ hr.fd
  rw [hr.file] at hl
  simp [atEnd, krprOf, encodeAll, h.size_eq] at hl

theorem startsWithKeyframe_append {rs : List Record} (h : StartsWithKeyframe rs)
    (rs' : List Record) :
    StartsWithKeyframe (rs ++ rs') := by
  obtain ⟨r, rest, rfl, hk⟩ := h
  exact ⟨r, rest ++ rs', rfl, hk⟩

/-- Captures are playable, and the first FRAME of the open one is written as a keyframe. -/
def readableLaw : Law Unit where
  tick _ _ _ := ()
  closed _ := Playable
  opened _ r h rs := Playable h rs ∧ (rs = [] → r.counter = 0)

theorem readableLaw_lawful (dataDir : Bytes) :
    readableLaw.Lawful dataDir (tmpPaths dataDir) AfterFrame where
  keep _ _ _ hc := hc
  idle _ _ _ _ ho := ho
  domain _ _ ha := ⟨_, _, ha, rfl⟩
  start {_ _ i ts sid nick} _ _ ha :=
    ⟨⟨startHeader_valid ts sid nick ha.2, Or.inl rfl⟩, fun _ => rfl⟩
  unpause _ _ _ hc := ⟨hc, fun _ => rfl⟩
  event {g s i id h rs} hC hs hr ho := by
    simp only [AfterFrame, hs] at hC
    have hne : rs ≠ [] := hC.ne_nil hr
    obtain ⟨⟨hv, hk⟩, -⟩ := ho
    refine ⟨⟨hv, Or.inr (startsWithKeyframe_append (hk.resolve_left hne) _)⟩, fun h0 => ?_⟩
    exact absurd h0 (List.append_ne_nil_of_left_ne_nil hne _)
  frame {g s i f h rs} _ _ _ ho := by
    obtain ⟨⟨hv, hk⟩, h0⟩ := ho
    refine ⟨⟨hv, Or.inr ?_⟩,
      fun h => absurd h (List.append_ne_nil_of_right_ne_nil _ (List.cons_ne_nil _ _))⟩
    rcases hk with rfl | hk
    · have hc : s.counter = 0 := h0 rfl
      rw [List.nil_append, frameRecord, if_pos hc]
      exact ⟨_, [], rfl, rfl⟩
    · exact startsWithKeyframe_append hk _
  pause _ _ _ ho := ⟨runHeader_valid.mpr ho.1.1, ho.1.2⟩
  abandon _ _ _ ho := ho.1
  finish _ _ _ ho := ⟨finishHeader_valid.mpr ho.1.1, ho.1.2⟩

/-- **Every finished run can be played back**, where no EVENT comes at an open file that holds its
header alone. -/
theorem finished_readable (dataDir : Bytes) {disk : Disk Bytes UInt8}
    (hd : Files (tmpPaths dataDir) Playable disk) {is : List Input}
    (hC : Along (next dataDir) AfterFrame (.init disk) is) (finish : Input) {uid path : Bytes}
    (hs : .saved uid path ∈ (step dataDir (run (next dataDir) (.init disk) is) finish).2) :
    ∃ krpr, (next dataDir (run (next dataDir) (.init disk) is) finish).disk path = some krpr ∧
      (HasFrame krpr → krpr.length < krpMaxDecompressedBytes → Readable krpr) := by
  obtain ⟨h, rs, hr, ho⟩ :=
    ((readableLaw_lawful dataDir).run hC (.closed rfl hd : readableLaw.Holds _ () _)).saved hs
  obtain ⟨_, _, _, _, nick, -, -, -, -, hdisk⟩ := saved_of_finish hr hs
  refine ⟨_, hdisk, fun hf hl => Playable.readable ⟨finishHeader_valid.mpr ho.1.1, ho.1.2⟩ hf hl⟩

theorem afterFrame_sample :
    Along (next (str "d")) AfterFrame (.init fun _ => none) (sampleStart :: sampleMix) := by
  refine ⟨trivial, trivial, trivial, ?_, trivial, trivial, trivial, trivial, trivial⟩
  have hr : HasRecord (run (next (str "d")) (.init fun _ => none)
      (sampleStart :: sampleMix.take 2)) := by decide +kernel
  exact hr

theorem finished_readable_sample : ∃ krpr,
    (next (str "d") (run (next (str "d")) (.init fun _ => none) (sampleStart :: sampleMix))
      sampleFinish).disk (str "d/kz_global/replays/1_00012345_0123_10.krpr") = some krpr ∧
    (HasFrame krpr → krpr.length < krpMaxDecompressedBytes → Readable krpr) :=
  finished_readable (str "d") (fun _ _ _ h => by cases h) afterFrame_sample sampleFinish
    (show Output.saved (str "1_00012345_0123_10") _ ∈ _ by decide +kernel)

/-- An EVENT before the first FRAME. -/
def eventFirst : List Input :=
  [sampleStart, sampleInput (.event krpEventCheckpoint), sampleInput (.frame (sampleFrame 1))]

theorem recording_eventFirst : Recording (run (next (str "d")) (.init fun _ => none) eventFirst)
    (startHeader 36 samplePlayer sampleNickname sampleServer.header)
    [.event krpEventCheckpoint, .frame (keyframe (sampleFrame 1))] :=
  ⟨by decide +kernel, by decide +kernel⟩

/-- A run whose finished file holds a frame and is rejected. -/
theorem finished_unreadable : ∃ uid path krpr,
    .saved uid path ∈ (step (str "d") (run (next (str "d")) (.init fun _ => none) eventFirst)
      sampleFinish).2 ∧
    (next (str "d") (run (next (str "d")) (.init fun _ => none) eventFirst) sampleFinish).disk
    path =
      some krpr ∧
    HasFrame krpr ∧ krpr.length < krpMaxDecompressedBytes ∧ ¬ Readable krpr := by
  have hr := recording_eventFirst
  obtain ⟨uid, path, hs⟩ :=
    finish_saves hr (i := sampleFinish) rfl (by decide) (by decide +kernel) rfl
  obtain ⟨_, _, _, _, nick, -, -, -, -, hdisk⟩ := saved_of_finish hr hs
  refine ⟨uid, path, _, hs, hdisk, ⟨_, _, rfl, List.cons_ne_nil _ _⟩, ?_, not_readable_event _ _ _⟩
  rw [krprOf, List.length_append, KrpHeader.size_eq, length_encodeAll]
  decide

end KzGlobal.Replay.Reader
