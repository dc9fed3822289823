import KzGlobal.Replay.Reader

/-! # Checkpoint and teleport counts

The counts of a run are in memory, in the header on the disk and in the body as records. Memory and
body move together while a file is open; the header follows at PAUSE and FINISH, and an UNPAUSE
reads it back. A START, an UNPAUSE or a REJECT without deletion closes an open file and leaves its
header behind: where the header is then out of date, a later UNPAUSE loses the counts
(`finished_disagrees`). Where none of them finds it so, and the counters do not wrap, all counts of
a finished run agree (`finished_agrees`). -/

namespace KzGlobal.Replay.Counts

open KzGlobal.Lib KzGlobal.Lib.Packed KzGlobal.Lib.Stdio KzGlobal.Lib.Runs
open KzGlobal.Krp.Format KzGlobal.Krp.Records
open KzGlobal.Replay.Text KzGlobal.Replay.Writer KzGlobal.Replay.Frames
open KzGlobal.Replay.Headers KzGlobal.Replay.Effect KzGlobal.Replay.Laws KzGlobal.Replay.Capture
open KzGlobal.Replay.Reader

/-! ### Counting -/

/-- Two counts are the numbers of CHECKPOINT and GOCHECK records. -/
def CountsOf (checkpoints gochecks : ℕ) (rs : List Record) : Prop :=
  checkpoints = countEvents krpEventCheckpoint rs ∧ gochecks = countEvents krpEventGocheck rs

/-- The header of a capture holds the counts of its records. -/
def HeaderCounts (h : KrpHeader) (rs : List Record) : Prop :=
  CountsOf (h.num .runCheckpoints) (h.num .runTeleports) rs

theorem countEvents_event (id id' : UInt8) (rs : List Record) :
    countEvents id (rs ++ [.event id']) = countEvents id rs + if id' = id then 1 else 0 := by
  rw [countEvents, eventIds_append, List.count_append]
  simp only [countEvents, eventIds, List.count_singleton, beq_iff_eq]

theorem countEvents_frame (id : UInt8) (rs : List Record) (r : FrameRecord) :
    countEvents id (rs ++ [.frame r]) = countEvents id rs := by
  rw [countEvents, eventIds_append]
  exact congrArg (List.count id) (List.append_nil _)

/-- A counter follows the records, as long as it does not wrap. -/
theorem count_step {c : ℕ} {id id' : UInt8} {rs : List Record} (hc : c = countEvents id rs)
    (hl : c < 2 ^ 32) (hroom : id' = id → c + 1 < 2 ^ 32) :
    (if id' = id then (c + 1) % 2 ^ 32 else c) = countEvents id (rs ++ [.event id']) ∧
      (if id' = id then (c + 1) % 2 ^ 32 else c) < 2 ^ 32 := by
  rw [countEvents_event, ← hc]
  split_ifs with h
  · rw [Nat.mod_eq_of_lt (hroom h)]
    exact ⟨rfl, hroom h⟩
  · exact ⟨rfl, hl⟩

theorem num_run_lt (h : KrpHeader) :
    h.num .runCheckpoints < 2 ^ 32 ∧ h.num .runTeleports < 2 ^ 32 :=
  ⟨h.num_lt .runCheckpoints, h.num_lt .runTeleports⟩

/-! ### The law -/

/-- The header of the open file, if there is one, holds the counts in memory. -/
def Written (s : Slot) : Prop :=
  ∀ fd ∈ s.fd, (kzRpRunFromHeader (s.file fd)).1 = (s.checkpoints, s.gochecks)

instance (s : Slot) : Decidable (Written s) := by unfold Written; infer_instance

/-- An EVENT at an open file finds room in its counter. -/
def HasRoom (s : Slot) (i : Input) : Prop :=
  match i.signal with
  | .event id => s.fd.isSome = true →
    (id = krpEventCheckpoint → s.checkpoints + 1 < 2 ^ 32) ∧
      (id = krpEventGocheck → s.gochecks + 1 < 2 ^ 32)
  | _ => True

/-- No signal leaves an open file behind whose header is out of date, and no counter wraps. -/
def Counted (dataDir : Bytes) (s : Slot) (i : Input) : Prop :=
  (Abandons dataDir s i → Written s) ∧ HasRoom s i

theorem Written.header {s : Slot} {h : KrpHeader} {rs : List Record} (hw : Written s)
    (hr : Recording s h rs) :
    h.num .runCheckpoints = s.checkpoints ∧ h.num .runTeleports = s.gochecks := by
  have hf := hw _ hr.fd
  rw [hr.file, runFromHeader_atEnd, Prod.mk.injEq] at hf
  exact hf

/-- A closed capture's header holds the counts of its records, and memory holds those of the open
one. -/
def countLaw : Law Unit where
  tick _ _ _ := ()
  closed _ := HeaderCounts
  opened _ r _ rs :=
    CountsOf r.checkpoints r.gochecks rs ∧ r.checkpoints < 2 ^ 32 ∧ r.gochecks < 2 ^ 32

theorem countLaw_lawful (dataDir : Bytes) :
    countLaw.Lawful dataDir (tmpPaths dataDir) (Counted dataDir) where
  keep _ _ _ hc := hc
  idle _ _ _ _ ho := ho
  domain _ _ ha := ⟨_, _, ha, rfl⟩
  start _ _ _ := ⟨⟨rfl, rfl⟩, by decide, by decide⟩
  unpause {g s i sid h rs} _ _ _ hc := ⟨hc, num_run_lt h⟩
  event {g s i id h rs} hC hs hr ho := by
    obtain ⟨⟨hcp, hgc⟩, hlc, hlg⟩ := ho
    have hroom := hC.2
    simp only [HasRoom, hs, hr.fd, Option.isSome_some, true_implies] at hroom
    obtain ⟨hc, hlc⟩ := count_step hcp hlc hroom.1
    obtain ⟨hg, hlg⟩ := count_step hgc hlg hroom.2
    simp only [countLaw, CountsOf, registers, countEvent_eq]
    exact ⟨⟨hc, hg⟩, hlc, hlg⟩
  frame {g s i f h rs} _ _ _ ho := by
    obtain ⟨⟨hcp, hgc⟩, hl⟩ := ho
    exact ⟨⟨by rw [countEvents_frame]; exact hcp, by rw [countEvents_frame]; exact hgc⟩, hl⟩
  pause {g s i h rs} _ _ _ ho := by
    obtain ⟨hc, hlc, hlg⟩ := ho
    obtain ⟨h1, h2⟩ := runHeader_counts h hlc hlg
    exact ⟨h1.trans hc.1, h2.trans hc.2⟩
  abandon {g s i h rs} hC ha hr ho := by
    obtain ⟨h1, h2⟩ := (hC.1 ha).header hr
    exact ⟨h1.trans ho.1.1, h2.trans ho.1.2⟩
  finish {g s i timeMs submit charPrefix sid nick h rs} _ _ _ ho := by
    obtain ⟨hc, hlc, hlg⟩ := ho
    obtain ⟨h1, h2⟩ := finishHeader_counts nick h hlc hlg
    exact ⟨h1.trans hc.1, h2.trans hc.2⟩

/-! ### The file of a FINISH -/

/-- The class flag, where neither a ban nor a prefix replaces it. -/
theorem head_uidStr (gochecks timeMs : ℕ) (steamidShort : Bytes) (ts : ℕ) :
    (uidStr gochecks timeMs steamidShort ts false 0).head? =
      some (if 0 < gochecks then 49 else 48) := rfl

theorem addRecord_of_finishOutputs {env : Env} {timeMs : ℕ} {submit : Bool}
    {steamidShort : CString 35} {mapname uid npath : Bytes} {s : Slot} {r : AddRecord}
    (h : .addRecord r ∈ finishOutputs env timeMs submit steamidShort mapname uid npath s) :
    r.checkpoints = s.checkpoints ∧ r.gochecks = s.gochecks := by
  unfold finishOutputs at h
  split_ifs at h
  · simp at h
  · rw [List.mem_singleton, Output.addRecord.injEq] at h
    rw [h]
    exact ⟨rfl, rfl⟩

theorem exists_addRecord {env : Env} (hn : env.noSubmit = false) (timeMs : ℕ)
    (steamidShort : CString 35) (mapname uid npath : Bytes) (s : Slot) :
    ∃ r, .addRecord r ∈ finishOutputs env timeMs true steamidShort mapname uid npath s := by
  unfold finishOutputs
  rw [hn, if_neg (by decide)]
  exact ⟨_, List.mem_singleton_self _⟩

/-- **The counts of a finished run agree**, where no START, UNPAUSE or REJECT leaves an open file
behind whose header is out of date and no counter wraps. -/
theorem finished_agrees (dataDir : Bytes) {disk : Disk Bytes UInt8}
    (hd : Files (tmpPaths dataDir) HeaderCounts disk) {is : List Input}
    (hC : Along (next dataDir) (Counted dataDir) (.init disk) is) {finish : Input} {timeMs : ℕ}
    {submit : Bool} {charPrefix : UInt8} {steamidShort : CString 35} {nickname : CString 32}
    (hf : finish.signal = .finish timeMs submit charPrefix steamidShort nickname) {uid path : Bytes}
    (hs : .saved uid path ∈ (step dataDir (run (next dataDir) (.init disk) is) finish).2) :
    ∃ h rs,
      (next dataDir (run (next dataDir) (.init disk) is) finish).disk path = some (krprOf h rs) ∧
      path = (finishPath dataDir uid).take 254 ∧
      HeaderCounts h rs ∧
      (∀ r, .addRecord r ∈ (step dataDir (run (next dataDir) (.init disk) is) finish).2 →
        CountsOf r.checkpoints r.gochecks rs) ∧
      (charPrefix = 0 → finish.env.noSubmit = false →
        (uid.head? = some 49 ↔ 0 < countEvents krpEventGocheck rs)) := by
  obtain ⟨h, rs, hr, hc, hlc, hlg⟩ :=
    ((countLaw_lawful dataDir).run hC (.closed rfl hd : countLaw.Holds _ () _)).saved hs
  obtain ⟨t, sub, cp, sid, nick, hsig, huid, hpath, hout, hdisk⟩ := saved_of_finish hr hs
  rw [hf, Signal.finish.injEq] at hsig
  obtain ⟨rfl, rfl, rfl, rfl, rfl⟩ := hsig
  obtain ⟨h1, h2⟩ := finishHeader_counts nickname h hlc hlg
  refine ⟨_, rs, hdisk, hpath, ⟨h1.trans hc.1, h2.trans hc.2⟩, fun r hm => ?_, fun h0 hn => ?_⟩
  · rw [hout, List.mem_cons] at hm
    obtain ⟨hcp, hgc⟩ := addRecord_of_finishOutputs (hm.resolve_left fun he => by cases he)
    rw [hcp, hgc]
    exact hc
  · rw [huid, h0, hn, head_uidStr, ← hc.2]
    change some (if 0 < (run (next dataDir) (.init disk) is).gochecks then (49 : UInt8) else 48) =
      _ ↔ 0 < (run (next dataDir) (.init disk) is).gochecks
    split_ifs with hg
    · exact iff_of_true rfl hg
    · exact iff_of_false (by decide) hg

theorem written_of_fd {s : Slot} (h : s.fd = none) : Written s := by
  intro fd hfd
  rw [h] at hfd
  cases hfd

theorem counted_sample :
    Along (next (str "d")) (Counted (str "d")) (.init fun _ => none)
    (sampleStart :: sampleMix) := by
  have hroom :
      HasRoom (run (next (str "d")) (.init fun _ => none) (sampleStart :: sampleMix.take 2))
      (sampleInput (.event krpEventGocheck)) := fun _ => by decide +kernel
  have hpaused : (run (next (str "d")) (.init fun _ => none)
      (sampleStart :: sampleMix.take 5)).fd = none := by decide +kernel
  exact ⟨⟨fun _ => written_of_fd rfl, trivial⟩, ⟨False.elim, trivial⟩, ⟨False.elim, trivial⟩,
    ⟨False.elim, hroom⟩, ⟨False.elim, trivial⟩, ⟨False.elim, trivial⟩,
    ⟨fun _ => written_of_fd hpaused, trivial⟩, ⟨False.elim, trivial⟩, trivial⟩

theorem finished_agrees_sample : ∃ h rs,
    (next (str "d") (run (next (str "d")) (.init fun _ => none) (sampleStart :: sampleMix))
      sampleFinish).disk (str "d/kz_global/replays/1_00012345_0123_10.krpr") = some (krprOf h rs) ∧
    str "d/kz_global/replays/1_00012345_0123_10.krpr" =
      (finishPath (str "d") (str "1_00012345_0123_10")).take 254 ∧
    HeaderCounts h rs ∧
    (∀ r, .addRecord r ∈ (step (str "d") (run (next (str "d")) (.init fun _ => none)
      (sampleStart :: sampleMix)) sampleFinish).2 → CountsOf r.checkpoints r.gochecks rs) ∧
    ((0 : UInt8) = 0 → sampleFinish.env.noSubmit = false →
      ((str "1_00012345_0123_10").head? = some 49 ↔ 0 < countEvents krpEventGocheck rs)) :=
  finished_agrees (str "d") (fun _ _ _ h => by cases h) counted_sample rfl (by decide +kernel)

/-- An UNPAUSE without a PAUSE before it, after a GOCHECK. -/
def unpauseOpen : List Input :=
  [sampleStart, sampleInput (.frame (sampleFrame 1)), sampleInput (.event krpEventGocheck),
    sampleInput (.unpause samplePlayer)]

theorem recording_unpauseOpen : Recording (run (next (str "d")) (.init fun _ => none) unpauseOpen)
    (startHeader 36 samplePlayer sampleNickname sampleServer.header)
    [.frame (keyframe (sampleFrame 1)), .event krpEventGocheck] :=
  ⟨by decide +kernel, by decide +kernel⟩

/-- A run whose finished file has a GOCHECK record, and its header, message and name have none. -/
theorem finished_disagrees : ∃ uid path h rs r,
    .saved uid path ∈ (step (str "d") (run (next (str "d")) (.init fun _ => none) unpauseOpen)
      sampleFinish).2 ∧
    (next (str "d") (run (next (str "d")) (.init fun _ => none) unpauseOpen) sampleFinish).disk
    path =
      some (krprOf h rs) ∧
    .addRecord r ∈ (step (str "d") (run (next (str "d")) (.init fun _ => none) unpauseOpen)
      sampleFinish).2 ∧
    countEvents krpEventGocheck rs = 1 ∧ h.num .runTeleports = 0 ∧ r.gochecks = 0 ∧
    uid.head? = some 48 := by
  have hr := recording_unpauseOpen
  have hg : (run (next (str "d")) (.init fun _ => none) unpauseOpen).gochecks = 0 := by
    decide +kernel
  have hc : (run (next (str "d")) (.init fun _ => none) unpauseOpen).checkpoints = 0 := by
    decide +kernel
  obtain ⟨uid, path, hs⟩ :=
    finish_saves hr (i := sampleFinish) rfl (by decide) (by decide +kernel) rfl
  obtain ⟨t, sub, cp, sid, nick, hsig, huid, -, hout, hdisk⟩ := saved_of_finish hr hs
  obtain ⟨rfl, rfl, rfl, rfl, rfl⟩ := Signal.finish.inj hsig
  obtain ⟨-, ht⟩ := finishHeader_counts sampleNickname
    (startHeader 36 samplePlayer sampleNickname sampleServer.header)
    (by rw [hc]; decide) (by rw [hg]; decide)
  obtain ⟨r, hadd⟩ := exists_addRecord (rfl : sampleFinish.env.noSubmit = false) 12345 samplePlayer
    (fileName (startHeader 36 samplePlayer sampleNickname sampleServer.header)) uid
    (finishPath (str "d") uid) (run (next (str "d")) (.init fun _ => none) unpauseOpen)
  refine ⟨uid, path, _, _, r, hs, hdisk, hout ▸ List.mem_cons_of_mem _ hadd, by decide, ht.trans hg,
    (addRecord_of_finishOutputs hadd).2.trans hg, ?_⟩
  rw [huid, hg]
  rfl

end KzGlobal.Replay.Counts
