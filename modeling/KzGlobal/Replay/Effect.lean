import KzGlobal.Krp.Roundtrip
import KzGlobal.Replay.Frames
import KzGlobal.Replay.Headers

/-! # What a signal does to a capture

A slot is `Recording` a header and records when its file is open, holds their raw layout and is
positioned at its end. Then an EVENT or a FRAME appends one record (`onEvent_eq`, `onFrame_eq`), a
PAUSE writes the counts into the header and closes (`onPause_eq`), and a FINISH completes the
header, closes and renames (`onFinish_cases`); an UNPAUSE of such a file makes it the recorded one
again (`onUnpause_eq`). -/

namespace KzGlobal.Replay.Effect

open KzGlobal.Lib KzGlobal.Lib.Packed KzGlobal.Lib.Stdio
open KzGlobal.Krp.Format KzGlobal.Krp.Records KzGlobal.Krp.Roundtrip
open KzGlobal.Replay.Text KzGlobal.Replay.Writer KzGlobal.Replay.Frames
open KzGlobal.Replay.Headers

/-! ### Writing at the end -/

/-- A file positioned at its end. -/
def atEnd (b : Bytes) : File := ⟨b, b.length⟩

theorem write_atEnd (b v : Bytes) : (atEnd b).write v = atEnd (b ++ v) := OpenFile.write_end rfl v

theorem krprOf_append (h : KrpHeader) (rs : List Record) (r : Record) :
    krprOf h (rs ++ [r]) = krprOf h rs ++ r.encode := by
  simp [krprOf, encodeAll, List.append_assoc]

theorem writeEvent_atEnd (b : Bytes) (id : UInt8) :
    kzRpWriteEvent (kzRpWriteFrametype (atEnd b) krpFrametypeEvent) id =
      atEnd (b ++ (Record.event id).encode) := by
  have hne : ¬ krpFrametypeEvent = krpFrametypeKeyframe := by decide
  rw [kzRpWriteEvent, kzRpWriteFrametype, if_neg hne, write_atEnd, write_atEnd, List.append_assoc]
  rfl

theorem writeKeyframe_atEnd (b : Bytes) (f : KrpFrame) :
    kzRpWriteKeyframe (kzRpWriteFrametype (atEnd b) krpFrametypeKeyframe) f =
      atEnd (b ++ (Record.frame (keyframe f)).encode) := by
  have h108 : (f.bytes.drop 48).drop 60 = f.bytes.drop 108 := List.drop_drop
  rw [kzRpWriteKeyframe, kzRpWriteFrametype, if_pos rfl]
  simp only [write_atEnd, List.append_assoc]
  rw [← h108, List.take_append_drop, List.take_append_drop]
  rfl

theorem writeDelta_atEnd (b : Bytes) (curr last : KrpFrame) :
    kzRpWriteDelta (kzRpWriteFrametype (atEnd b) krpFrametypeDelta) curr last =
      atEnd (b ++ (Record.frame (delta curr last)).encode) := by
  have hne : ¬ krpFrametypeDelta = krpFrametypeKeyframe := by decide
  have he : (Record.frame (delta curr last)).encode = krpFrametypeDelta ::
      ((deltaLoop curr last sizeofKrpFrame).1 ++ (deltaLoop curr last sizeofKrpFrame).2) := rfl
  rw [kzRpWriteDelta, kzRpWriteFrametype, if_neg hne, write_atEnd, write_atEnd, he]
  split_ifs with h0
  · rw [write_atEnd]; simp
  · rw [List.eq_nil_of_length_eq_zero (Nat.eq_zero_of_not_pos h0)]; simp

/-! ### The header at the beginning of a file -/

theorem put_header (h : KrpHeader) (m : Member) (rest : Bytes) {v : Bytes}
    (hv : v.length = m.field.size) :
    m.field.put v (h.bytes ++ rest) = (h.set m v).bytes ++ rest := by
  have hf := m.field_fits
  have hs := h.size_eq
  rw [KrpHeader.bytes_set, List.take_of_length_le hv.le, Field.put, Field.put,
    List.take_append_of_le_length (by omega), List.drop_append_of_le_length (by omega),
    List.append_assoc, List.append_assoc, List.append_assoc]

theorem get_header (h : KrpHeader) (m : Member) (rest : Bytes) :
    m.field.get (h.bytes ++ rest) = h.get m := by
  have hf := m.field_fits
  have hs := h.size_eq
  rw [KrpHeader.get, Field.get, Field.get, List.drop_append_of_le_length (by omega),
    List.take_append_of_le_length (by rw [List.length_drop]; omega)]

theorem length_krprOf (h h' : KrpHeader) (rs : List Record) :
    (krprOf h rs).length = (krprOf h' rs).length := by
  rw [krprOf, krprOf, List.length_append, List.length_append, h.size_eq, h'.size_eq]

theorem writeRun_atEnd (h : KrpHeader) (rs : List Record) (checkpoints teleports : ℕ) :
    kzRpWriteRunToHeader (atEnd (krprOf h rs)) checkpoints teleports =
      atEnd (krprOf (runHeader h checkpoints teleports) rs) := by
  have hb : (kzRpWriteRunToHeader (atEnd (krprOf h rs)) checkpoints teleports).bytes =
      krprOf (runHeader h checkpoints teleports) rs := by
    change Member.runTeleports.field.put _ (Member.runCheckpoints.field.put _ (krprOf h rs)) = _
    rw [krprOf, put_header _ _ _ (length_leBytes 4 _), put_header _ _ _ (length_leBytes 4 _)]
    rfl
  have hl := length_krprOf h (runHeader h checkpoints teleports) rs
  unfold atEnd at hb ⊢
  rw [← hl, ← hb]
  rfl

theorem runFromHeader_atEnd (h : KrpHeader) (rs : List Record) :
    kzRpRunFromHeader (atEnd (krprOf h rs)) =
      ((h.num .runCheckpoints, h.num .runTeleports), atEnd (krprOf h rs)) := by
  have hcp : ((atEnd (krprOf h rs)).seek Member.runCheckpoints.field.off).peek 4 =
      h.get .runCheckpoints := get_header h .runCheckpoints _
  have htp : ((((atEnd (krprOf h rs)).seek Member.runCheckpoints.field.off).read 4).2.seek
      Member.runTeleports.field.off).peek 4 = h.get .runTeleports := get_header h .runTeleports _
  simp only [kzRpRunFromHeader, OpenFile.read, hcp]
  simp only [OpenFile.read, hcp] at htp
  rw [htp, if_pos ⟨h.length_get .runCheckpoints, h.length_get .runTeleports⟩]
  rfl

theorem mapnameFromHeader_atEnd (h : KrpHeader) (rs : List Record) :
    kzRpMapnameFromHeader (atEnd (krprOf h rs)) = (fileName h, atEnd (krprOf h rs)) := by
  have hg : ((atEnd (krprOf h rs)).seek Member.mapName.field.off).peek 63 =
      (h.get .mapName).take 63 := by
    have := get_header h .mapName (encodeAll rs)
    rw [← this, Field.get, List.take_take]
    rfl
  have hl : ((h.get .mapName).take 63).length = 63 := by
    rw [List.length_take, h.length_get]; rfl
  simp only [kzRpMapnameFromHeader, OpenFile.read, hg]
  rw [if_neg (by rw [hl]; decide)]
  rfl

theorem timestampFromHeader_atEnd (h : KrpHeader) (rs : List Record) :
    kzRpTimestampFromHeader (atEnd (krprOf h rs)) = (h.num .timestamp, atEnd (krprOf h rs)) := by
  have hg : ((atEnd (krprOf h rs)).seek Member.timestamp.field.off).peek 8 = h.get .timestamp :=
    get_header h .timestamp _
  simp only [kzRpTimestampFromHeader, OpenFile.read, hg]
  have hl : (h.get .timestamp).length = 8 := h.length_get .timestamp
  rw [if_pos hl]
  rfl

theorem bytes_finishFile (nickname : CString 32) (s : Slot) (h : KrpHeader) (rs : List Record) :
    (finishFile nickname s (atEnd (krprOf h rs))).bytes =
    krprOf (finishHeader nickname s h) rs := by
  have hp : ((atEnd (krprOf h rs)).seek 0).peek sizeofKrpHeader = h.bytes :=
    List.take_left' h.size_eq
  simp only [finishFile, OpenFile.read, hp]
  rw [dif_pos h.size_eq]
  change (krprOf h rs).take 0 ++ (finishHeader nickname s h).bytes ++
    (krprOf h rs).drop (0 + (finishHeader nickname s h).bytes.length) = _
  have hd : (krprOf h rs).drop sizeofKrpHeader = encodeAll rs := List.drop_left' h.size_eq
  rw [List.take_zero, List.nil_append, Nat.zero_add, (finishHeader nickname s h).size_eq, hd]
  rfl

/-! ### Recording -/

/-- The slot's file is open, holds the raw layout of `rs` under `h`, and is positioned at its
end. -/
structure Recording (s : Slot) (h : KrpHeader) (rs : List Record) : Prop where
  fd : s.fd = some ⟨s.filepath, (krprOf h rs).length⟩
  disk : s.disk s.filepath = some (krprOf h rs)

/-- The slot with another capture in its open file. -/
def rewrite (s : Slot) (h : KrpHeader) (rs : List Record) : Slot :=
  { s with
    disk := s.disk.store s.filepath (krprOf h rs)
    fd := some ⟨s.filepath, (krprOf h rs).length⟩ }

theorem sync_atEnd (s : Slot) (p : ℕ) (h : KrpHeader) (rs : List Record) :
    s.sync ⟨s.filepath, p⟩ (atEnd (krprOf h rs)) = rewrite s h rs := rfl

/-- The record a FRAME is written as. -/
def frameRecord (s : Slot) (f : KrpFrame) : FrameRecord :=
  if s.counter = 0 then keyframe f else delta f s.last

section Recording
variable {s : Slot} {h : KrpHeader} {rs : List Record} (hr : Recording s h rs)
include hr

theorem Recording.file : s.file ⟨s.filepath, (krprOf h rs).length⟩ = atEnd (krprOf h rs) := by
  rw [Slot.file, hr.disk]; rfl

/-- **An EVENT appends its record.** -/
theorem onEvent_eq (id : UInt8) :
    onEvent id s = countEvent id (rewrite s h (rs ++ [.event id])) := by
  unfold onEvent
  rw [hr.fd]
  simp only [hr.file, writeEvent_atEnd]
  rw [← krprOf_append, sync_atEnd]

/-- **A FRAME appends its record.** -/
theorem onFrame_eq (f : KrpFrame) : onFrame f s =
    { rewrite s h (rs ++ [.frame (frameRecord s f)]) with
      last := f, counter := s.counter + 1 } := by
  unfold onFrame
  rw [hr.fd]
  simp only [hr.file, writeKeyframe_atEnd, writeDelta_atEnd]
  unfold frameRecord
  split_ifs with h0
  · rw [← krprOf_append, sync_atEnd]
  · rw [← krprOf_append, sync_atEnd]

/-- **A PAUSE writes the counts and closes.** -/
theorem onPause_eq : onPause s =
    { rewrite s (runHeader h s.checkpoints s.gochecks) rs with fd := none } := by
  unfold onPause
  rw [hr.fd]
  simp only [hr.file, writeRun_atEnd, sync_atEnd]

end Recording

/-! ### Counts -/

/-- The number of CHECKPOINT, or of GOCHECK, records. -/
def countEvents (id : UInt8) (rs : List Record) : ℕ := (eventIds rs).count id

theorem countEvent_eq (id : UInt8) (s : Slot) : countEvent id s =
    { s with
      checkpoints :=
        if id = krpEventCheckpoint then (s.checkpoints + 1) % 2 ^ 32 else s.checkpoints
      gochecks := if id = krpEventGocheck then (s.gochecks + 1) % 2 ^ 32 else s.gochecks } := by
  unfold countEvent
  by_cases h0 : id = krpEventCheckpoint
  · have h1 : id ≠ krpEventGocheck := by rw [h0]; decide
    rw [if_pos h0, if_pos h0, if_neg h1]
  · rw [if_neg h0, if_neg h0]
    split_ifs <;> rfl

/-! ### START, UNPAUSE and REJECT -/

section Open
variable (dataDir : Bytes) {env : Env} {steamidShort : CString 35}

/-- A START or UNPAUSE whose player and map name the handler accepts. -/
def Accepted (env : Env) (steamidShort : CString 35) : Prop :=
  kzWsValidReplaySegment steamidShort.bytes = true ∧
    kzWsValidReplaySegment (mapName env.header.header) = true

instance : Decidable (Accepted env steamidShort) := by unfold Accepted; infer_instance

/-- The path a START or UNPAUSE opens. -/
def openPath (env : Env) (steamidShort : CString 35) : Bytes :=
  tmpPath dataDir (mapName env.header.header) steamidShort.bytes

theorem not_accepted : ¬ Accepted env steamidShort ↔
    ¬ kzWsValidReplaySegment steamidShort.bytes = true ∨
      ¬ kzWsValidReplaySegment (mapName env.header.header) = true := by
  rw [Accepted, not_and_or]

theorem onStart_refused (h : ¬ Accepted env steamidShort) (ts : ℕ) (nickname : CString 32)
    (s : Slot) : onStart dataDir env ts steamidShort nickname s = { s with fd := none } := by
  unfold onStart
  exact if_pos (not_accepted.mp h)

/-- **An accepted START begins a capture.** -/
theorem onStart_accepted (h : Accepted env steamidShort) (ts : ℕ) (nickname : CString 32)
    (s : Slot) : onStart dataDir env ts steamidShort nickname s =
      if env.fopenOk then
        { rewrite { s with filepath := openPath dataDir env steamidShort }
            (startHeader ts steamidShort nickname env.header.header) [] with
          last := zeroFrame, counter := 0, checkpoints := 0, gochecks := 0 }
      else
        { s with
          fd := none, filepath := openPath dataDir env steamidShort, last := zeroFrame
          counter := 0, checkpoints := 0, gochecks := 0 } := by
  unfold onStart
  rw [if_neg (not_accepted.not.mp (not_not.mpr h))]
  split_ifs with hopen
  · have hw : ((⟨[], 0⟩ : File).write (startHeader ts steamidShort nickname
        env.header.header).bytes) =
        atEnd (krprOf (startHeader ts steamidShort nickname env.header.header) []) := by
      rw [OpenFile.write_end rfl, krprOf]
      simp [atEnd, encodeAll]
    simp only [hw]
    rfl
  · rfl

theorem onUnpause_refused (h : ¬ Accepted env steamidShort) (s : Slot) :
    onUnpause dataDir env steamidShort s = s := by
  unfold onUnpause
  exact if_pos (not_accepted.mp h)

theorem onUnpause_missing (h : Accepted env steamidShort) {s : Slot}
    (hm : s.disk (openPath dataDir env steamidShort) = none ∨ env.fopenOk = false) :
    onUnpause dataDir env steamidShort s =
      { s with fd := none, filepath := openPath dataDir env steamidShort, counter := 0 } := by
  unfold onUnpause
  rw [if_neg (not_accepted.not.mp (not_not.mpr h))]
  unfold openPath at hm
  rcases hm with hm | hm
  · simp only [hm]; rfl
  · simp only [hm]
    cases s.disk (tmpPath dataDir (mapName env.header.header) steamidShort.bytes) <;> rfl

/-- **An UNPAUSE of a capture records it again**, with the counts its header holds. -/
theorem onUnpause_eq (h : Accepted env steamidShort) {s : Slot} {hd : KrpHeader} {rs : List Record}
    (hf : s.disk (openPath dataDir env steamidShort) = some (krprOf hd rs))
    (hopen : env.fopenOk = true) : onUnpause dataDir env steamidShort s =
      { rewrite { s with filepath := openPath dataDir env steamidShort, counter := 0 } hd rs with
        checkpoints := hd.num .runCheckpoints
        gochecks := hd.num .runTeleports } := by
  unfold onUnpause
  rw [if_neg (not_accepted.not.mp (not_not.mpr h))]
  unfold openPath at hf
  simp only [hf, hopen]
  have hr : kzRpRunFromHeader (⟨krprOf hd rs, 0⟩ : File).seekEnd =
      ((hd.num .runCheckpoints, hd.num .runTeleports), atEnd (krprOf hd rs)) :=
    runFromHeader_atEnd hd rs
  simp only [hr]
  rfl

end Open

theorem onReject_eq (deleteFile : Bool) (s : Slot) : onReject deleteFile s =
    { s with
      fd := none
      disk := if s.fd.isSome ∧ deleteFile then s.disk.unlink s.filepath else s.disk
      checkpoints := 0
      gochecks := 0 } := by
  unfold onReject
  cases hfd : s.fd with
  | none => simp [hfd]
  | some fd => cases deleteFile <;> simp

/-! ### FINISH -/

section Finish
variable {dataDir : Bytes} {env : Env} {timeMs : ℕ} {submit : Bool} {charPrefix : UInt8}
  {steamidShort : CString 35} {nickname : CString 32}

theorem onFinish_none {s : Slot} (hfd : s.fd = none) :
    onFinish dataDir env timeMs submit charPrefix steamidShort nickname s = (s, []) := by
  unfold onFinish; rw [hfd]

variable {s : Slot} {h : KrpHeader} {rs : List Record} (hr : Recording s h rs)
include hr

theorem onFinish_refused (hv : ¬ (kzWsValidReplaySegment steamidShort.bytes = true ∧
    kzWsValidReplaySegment (fileName h) = true)) :
    onFinish dataDir env timeMs submit charPrefix steamidShort nickname s =
      ({ s with fd := none, disk := s.disk.unlink s.filepath }, []) := by
  unfold onFinish
  rw [hr.fd]
  simp only [hr.file, mapnameFromHeader_atEnd]
  rw [if_pos (not_and_or.mp hv)]

/-- **A FINISH completes the header and renames the file.** -/
theorem onFinish_accepted (hv : kzWsValidReplaySegment steamidShort.bytes = true ∧
    kzWsValidReplaySegment (fileName h) = true) :
    let uid := uidStr s.gochecks (timeMs % 2 ^ 32) steamidShort.bytes (h.num .timestamp)
      env.noSubmit charPrefix
    let disk := s.disk.store s.filepath (krprOf (finishHeader nickname s h) rs)
    onFinish dataDir env timeMs submit charPrefix steamidShort nickname s =
      match disk.rename s.filepath ((finishPath dataDir uid).take 254), env.renameOk with
      | some disk, true =>
        ({ s with fd := none, disk }, .saved uid ((finishPath dataDir uid).take 254) ::
          finishOutputs env timeMs submit steamidShort (fileName h) uid (finishPath dataDir uid) s)
      | _, _ => ({ s with fd := none, disk }, []) := by
  unfold onFinish
  rw [hr.fd]
  simp only [hr.file, mapnameFromHeader_atEnd, timestampFromHeader_atEnd]
  rw [if_neg (not_and_or.not.mp (not_not.mpr hv))]
  simp only [Slot.sync, bytes_finishFile]
  rfl

end Finish

end KzGlobal.Replay.Effect
