import KzGlobal.Replay.Paths
import KzGlobal.Replay.Laws

/-! # What the writer does to saved runs

A signal writes to captures, and a FINISH puts one at the path of its run. So the saved runs stay
whatever signals come (`step_keeps`), and the run that a FINISH saves is there after it
(`step_saves`). -/

namespace KzGlobal.Replay.Saves

open KzGlobal.Lib.Stdio KzGlobal.Krp.Format
open KzGlobal.Replay.Text KzGlobal.Replay.Writer KzGlobal.Replay.Paths

/-- The entries of a player point at no saved run. -/
structure Tidy (dataDir : Bytes) (e : Entries) : Prop where
  filepath : Apart dataDir e.filepath
  fd : ∀ fd, e.fd = some fd → Apart dataDir fd.path

theorem Tidy.init (dataDir : Bytes) : Tidy dataDir .init :=
  ⟨apart_of_getLast? (by decide) dataDir, fun _ h => by cases h⟩

/-- The saved runs of a disk, but for some, are on another one. -/
def KeepsRuns (dataDir : Bytes) (E : Set Bytes) (d d' : Disk Bytes UInt8) : Prop :=
  ∀ uid, RunUid uid → uid ∉ E → (d (replayPath dataDir uid (str ".krpr"))).isSome →
    (d' (replayPath dataDir uid (str ".krpr"))).isSome

section Disks
variable {dataDir : Bytes} {E : Set Bytes} {d d' d'' : Disk Bytes UInt8} {p q : Bytes}

theorem KeepsRuns.refl : KeepsRuns dataDir E d d := fun _ _ _ h => h

theorem KeepsRuns.trans (h : KeepsRuns dataDir E d d') (h' : KeepsRuns dataDir E d' d'') :
    KeepsRuns dataDir E d d'' := fun uid hu hE hd => h' uid hu hE (h uid hu hE hd)

theorem keepsRuns_store (b : Bytes) : KeepsRuns dataDir E d (d.store p b) := by
  intro uid _ _ hd
  rcases eq_or_ne (replayPath dataDir uid (str ".krpr")) p with he | hne
  · rw [he, Disk.store_self]; rfl
  · rwa [Disk.store_of_ne _ hne]

theorem keepsRuns_unlink (hp : Apart dataDir p) : KeepsRuns dataDir E d (d.unlink p) := by
  intro uid hu _ hd
  rwa [Disk.unlink_of_ne _ (hp uid hu).symm]

theorem keepsRuns_unlink_run {uid : Bytes} (h : RunUid uid) :
    KeepsRuns dataDir {uid} d (d.unlink (replayPath dataDir uid (str ".krpr"))) := by
  intro uid' hu hne hd
  rwa [Disk.unlink_of_ne _ fun he => hne (replayPath_inj hu h he)]

theorem keepsRuns_rename (hp : Apart dataDir p) (h : d.rename p q = some d') :
    KeepsRuns dataDir E d d' := by
  unfold Disk.rename at h
  obtain ⟨b, -, he⟩ := Option.map_eq_some_iff.mp h
  split_ifs at he
  · rw [← he]
    exact .refl
  · rw [← he]
    exact (keepsRuns_unlink hp).trans (keepsRuns_store b)

end Disks

/-- A signal leaves the entries tidy and the saved runs where they are. -/
structure Keeps (dataDir : Bytes) (s s' : Slot) : Prop where
  tidy : Tidy dataDir s'.toEntries
  runs : KeepsRuns dataDir ∅ s.disk s'.disk

section Signals
variable {dataDir : Bytes} {s : Slot} (ht : Tidy dataDir s.toEntries)
include ht

theorem keeps_sync {fd : Handle} (hfd : Apart dataDir fd.path) (fp : File) :
    Keeps dataDir s (s.sync fd fp) where
  tidy := ⟨ht.filepath, fun fd' he => by rw [← Option.some.inj he]; exact hfd⟩
  runs := keepsRuns_store _

theorem keeps_close : Keeps dataDir s { s with fd := none } :=
  ⟨⟨ht.filepath, fun _ h => by cases h⟩, .refl⟩

theorem keeps_onStart (hd : ShortDir dataDir) (env : Env) (ts : ℕ) (steamidShort : CString 35)
    (nickname : CString 32) : Keeps dataDir s (onStart dataDir env ts steamidShort nickname s) := by
  unfold onStart
  dsimp only
  split_ifs with hv hopen
  · exact keeps_close ht
  all_goals
    rw [not_or, not_not, not_not] at hv
    have hp := (nested_tmpPath hd hv.2 (mapName_le env.header) hv.1).apart
  · exact ⟨⟨hp, fun fd he => by rw [← Option.some.inj he]; exact hp⟩, keepsRuns_store _⟩
  · exact ⟨⟨hp, fun _ he => by cases he⟩, .refl⟩

theorem keeps_countEvent (id : UInt8) : Keeps dataDir s (countEvent id s) := by
  unfold countEvent
  split_ifs
  · exact ⟨⟨ht.filepath, ht.fd⟩, .refl⟩
  · exact ⟨⟨ht.filepath, ht.fd⟩, .refl⟩
  · exact ⟨ht, .refl⟩

theorem keeps_onEvent (id : UInt8) : Keeps dataDir s (onEvent id s) := by
  unfold onEvent
  rcases hfd : s.fd with _ | fd
  · exact keeps_countEvent ht id
  · have h := keeps_sync ht (ht.fd fd hfd)
      (kzRpWriteEvent (kzRpWriteFrametype (s.file fd) krpFrametypeEvent) id)
    have h' := keeps_countEvent h.tidy id
    exact ⟨h'.tidy, h.runs.trans h'.runs⟩

theorem keeps_onFrame (f : KrpFrame) : Keeps dataDir s (onFrame f s) := by
  unfold onFrame
  rcases hfd : s.fd with _ | fd
  · exact ⟨ht, .refl⟩
  · have hp := ht.fd fd hfd
    exact ⟨⟨ht.filepath, fun fd' he => by rw [← Option.some.inj he]; exact hp⟩, keepsRuns_store _⟩

theorem keeps_onPause : Keeps dataDir s (onPause s) := by
  unfold onPause
  rcases hfd : s.fd with _ | fd
  · exact ⟨ht, .refl⟩
  · exact ⟨⟨ht.filepath, fun _ he => by cases he⟩, keepsRuns_store _⟩

theorem keeps_onUnpause (hd : ShortDir dataDir) (env : Env) (steamidShort : CString 35) :
    Keeps dataDir s (onUnpause dataDir env steamidShort s) := by
  unfold onUnpause
  dsimp only
  split_ifs with hv
  · exact ⟨ht, .refl⟩
  · rw [not_or, not_not, not_not] at hv
    have hp := (nested_tmpPath hd hv.2 (mapName_le env.header) hv.1).apart
    split
    · exact ⟨⟨hp, fun fd he => by rw [← Option.some.inj he]; exact hp⟩, keepsRuns_store _⟩
    · exact ⟨⟨hp, fun _ he => by cases he⟩, .refl⟩

theorem keeps_onReject (deleteFile : Bool) : Keeps dataDir s (onReject deleteFile s) := by
  rw [Effect.onReject_eq]
  refine ⟨⟨ht.filepath, fun _ he => by cases he⟩, ?_⟩
  change KeepsRuns dataDir ∅ s.disk (if _ then _ else _)
  split_ifs
  · exact keepsRuns_unlink ht.filepath
  · exact .refl

theorem keeps_onFinish (env : Env) (timeMs : ℕ) (submit : Bool) (charPrefix : UInt8)
    (steamidShort : CString 35) (nickname : CString 32) :
    Keeps dataDir s (onFinish dataDir env timeMs submit charPrefix steamidShort nickname s).1 := by
  unfold onFinish
  rcases hfd : s.fd with _ | fd
  · exact ⟨ht, .refl⟩
  · dsimp only
    split_ifs with hv
    · exact ⟨⟨ht.filepath, fun _ he => by cases he⟩, keepsRuns_unlink ht.filepath⟩
    · have h (fp : File) : KeepsRuns dataDir ∅ s.disk (s.sync fd fp).disk := keepsRuns_store _
      split
      · rename_i disk hren _
        exact ⟨⟨ht.filepath, fun _ he => by cases he⟩,
          (h _).trans (keepsRuns_rename ht.filepath hren)⟩
      · exact ⟨⟨ht.filepath, fun _ he => by cases he⟩, h _⟩

/-- **Saved runs stay.** -/
theorem step_keeps (hd : ShortDir dataDir) (i : Input) : Keeps dataDir s (step dataDir s i).1 := by
  unfold step
  rcases i.signal with f | id | ⟨ts, sid, nick⟩ | _ | sid | del | ⟨t, sub, cp, sid, nick⟩
  · exact keeps_onFrame ht f
  · exact keeps_onEvent ht id
  · exact keeps_onStart ht hd i.env ts sid nick
  · exact keeps_onPause ht
  · exact keeps_onUnpause ht hd i.env sid
  · exact keeps_onReject ht del
  · exact keeps_onFinish ht i.env t sub cp sid nick

end Signals

/-! ### The outputs of a FINISH -/

theorem length_uidStr_le (gochecks timeMs : ℕ) (steamidShort : Bytes) (ts : ℕ) (noSubmit : Bool)
    (charPrefix : UInt8) :
    (uidStr gochecks timeMs steamidShort ts noSubmit charPrefix).length ≤ 63 := by
  unfold uidStr
  dsimp only
  split_ifs <;> (try rw [List.length_set]) <;> (try rw [List.length_set]) <;>
    exact List.length_take_le ..

/-- What a FINISH hands on with the run that it saves. -/
def HandsOn (dataDir uid : Bytes) (o : Output) : Prop :=
  o = .compress (finishPath dataDir uid) ∨ ∃ r, o = .addRecord r ∧ r.localUid = uid

theorem handsOn_of_finishOutputs (dataDir : Bytes) (env : Env) (timeMs : ℕ) (submit : Bool)
    (steamidShort : CString 35) (mapname uid : Bytes) (s : Slot) : ∃ o, HandsOn dataDir uid o ∧
      finishOutputs env timeMs submit steamidShort mapname uid (finishPath dataDir uid) s =
      [o] := by
  unfold finishOutputs
  split_ifs
  · exact ⟨_, Or.inl rfl, rfl⟩
  · exact ⟨_, Or.inr ⟨_, rfl, rfl⟩, rfl⟩

/-- **What a signal puts out**: nothing, or a saved run, whose file is there, and what is to become
of it. -/
theorem step_saves (dataDir : Bytes) (s : Slot) (i : Input) : (step dataDir s i).2 = [] ∨
    ∃ uid o, uid.length ≤ 63 ∧ HandsOn dataDir uid o ∧
      (step dataDir s i).2 = [.saved uid ((finishPath dataDir uid).take 254), o] ∧
      ((step dataDir s i).1.disk ((finishPath dataDir uid).take 254)).isSome := by
  unfold step
  rcases i.signal with f | id | ⟨ts, sid, nick⟩ | _ | sid | del | ⟨t, sub, cp, sid, nick⟩
  case finish =>
    dsimp only
    unfold onFinish
    rcases hfd : s.fd with _ | fd
    · exact Or.inl rfl
    · dsimp only
      split_ifs with hv
      · exact Or.inl rfl
      · split
        · rename_i disk hren _
          obtain ⟨b, hb, -⟩ := Option.map_eq_some_iff.mp hren
          obtain ⟨o, ho, hout⟩ := handsOn_of_finishOutputs dataDir i.env t sub sid _ _ _
          refine Or.inr ⟨_, o, length_uidStr_le .., ho, by rw [hout], ?_⟩
          exact Option.isSome_of_eq_some (Disk.rename_eq_some hb hren).1
        · exact Or.inl rfl
  all_goals exact Or.inl rfl

end KzGlobal.Replay.Saves
