import Mathlib.Data.List.MinMax
import Mathlib.Data.Prod.Lex
import KzGlobal.Replay.Selection

/-! # The best replay and the order of the directory

The loop of `kz_replay_find_best_in_dir` takes a directory as it is listed. The selection from the
regular files is the least class and time of those whose names can be read, whatever their order
(`foldl_pickBest_eq`). But the loop shares one error code between the entries and does not clear it:
the first entry whose type cannot be found out, such as a link to nothing, hides all entries behind
it. So the best replay is found in every order exactly where there is no such entry, or no replay to
hide (`bestInAnyOrder_iff`). -/

namespace KzGlobal.Replay.Best

open KzGlobal.Krp.Format KzGlobal.Lib.FileProgram
open KzGlobal.Replay.Text KzGlobal.Replay.Paths KzGlobal.Replay.Selection

/-! ### The loop -/

/-- An entry of a directory: its path and the answer of `is_regular_file(ec)`, which is `none` where
it sets the error code. -/
structure DirEntry where
  path : Bytes
  isRegularFile : Option Bool
  deriving DecidableEq

/-- Whether `ec` is set, and the best file so far, with its class and time. -/
structure Scan where
  ec : Bool
  best : Option (Bytes × ℕ × ℕ)

/-- One pass. Where `ec` is set, the entry is not asked for its type. -/
def onEntry (s : Scan) (entry : DirEntry) : Scan :=
  if s.ec then s
  else
    match entry.isRegularFile with
    | none => { s with ec := true }
    | some false => s
    | some true => { s with best := pickBest s.best entry.path }

/-- `kz_replay_find_best_in_dir` on a directory with these entries; a directory that is not there or
cannot be opened has none. -/
def findBestInDir (entries : List DirEntry) : Option Bytes :=
  (entries.foldl onEntry ⟨false, none⟩).best.map Prod.fst

/-- The regular files before the first entry whose type cannot be found out. -/
def visible (entries : List DirEntry) : List Bytes :=
  ((entries.takeWhile fun e => e.isRegularFile.isSome).filter
    fun e => e.isRegularFile = some true).map DirEntry.path

theorem foldl_onEntry_ec (best : Option (Bytes × ℕ × ℕ)) (entries : List DirEntry) :
    entries.foldl onEntry ⟨true, best⟩ = ⟨true, best⟩ := by
  induction entries with
  | nil => rfl
  | cons e entries ih =>
    have hstep : onEntry ⟨true, best⟩ e = ⟨true, best⟩ := rfl
    rw [List.foldl_cons, hstep, ih]

/-- **The loop is the selection from the visible files.** -/
theorem foldl_onEntry : ∀ (entries : List DirEntry) (best : Option (Bytes × ℕ × ℕ)),
    (entries.foldl onEntry ⟨false, best⟩).best = (visible entries).foldl pickBest best
  | [], best => rfl
  | e :: entries, best => by
    rw [List.foldl_cons]
    cases he : e.isRegularFile with
    | none =>
      have hstep : onEntry ⟨false, best⟩ e = ⟨true, best⟩ := by simp [onEntry, he]
      have hvisible : visible (e :: entries) = [] := by simp [visible, he]
      rw [hstep, foldl_onEntry_ec, hvisible, List.foldl_nil]
    | some regular =>
      cases regular with
      | false =>
        have hstep : onEntry ⟨false, best⟩ e = ⟨false, best⟩ := by simp [onEntry, he]
        have hvisible : visible (e :: entries) = visible entries := by simp [visible, he]
        rw [hstep, hvisible, foldl_onEntry entries best]
      | true =>
        have hstep : onEntry ⟨false, best⟩ e = ⟨false, pickBest best e.path⟩ := by
          simp [onEntry, he]
        have hvisible : visible (e :: entries) = e.path :: visible entries := by
          simp [visible, he]
        rw [hstep, hvisible, List.foldl_cons, foldl_onEntry entries]

theorem findBestInDir_eq (entries : List DirEntry) :
    findBestInDir entries = ((visible entries).foldl pickBest none).map Prod.fst := by
  rw [findBestInDir, foldl_onEntry]

theorem run_kzReplayFindBestInDir {mapDir : Bytes} {entries : List DirEntry}
    {listing : Bytes → List Bytes} (h : listing mapDir = visible entries)
    (d : Lib.Stdio.Disk Bytes UInt8) :
    ((kzReplayFindBestInDir mapDir).run listing d).2 = findBestInDir entries := by
  rw [findBestInDir_eq, ← h]
  simp [kzReplayFindBestInDir]

/-! ### The selection -/

/-- Class and time of a file with the extension of the replays, from its name. -/
def runOf (path : Bytes) : Option (ℕ × ℕ) :=
  if extension path = str ".krpz" then kzReplayParseUid (filename path) else none

/-- The files whose names can be read, with their runs. -/
def candidates (paths : List Bytes) : List (Bytes × ℕ × ℕ) :=
  paths.filterMap fun p => (runOf p).map (Prod.mk p)

theorem mem_candidates {paths : List Bytes} {p : Bytes} {run : ℕ × ℕ} :
    (p, run) ∈ candidates paths ↔ p ∈ paths ∧ runOf p = some run := by
  unfold candidates
  simp only [List.mem_filterMap, Option.map_eq_some_iff, Prod.mk.injEq]
  constructor
  · rintro ⟨q, hq, r, hr, rfl, rfl⟩
    exact ⟨hq, hr⟩
  · rintro ⟨hp, hr⟩
    exact ⟨p, hp, run, hr, rfl, rfl⟩

theorem isBetter_iff_toLex {a b : ℕ × ℕ} :
    kzReplayUidIsBetter a b = true ↔ toLex a < toLex b := by
  rw [isBetter_iff, Prod.Lex.toLex_lt_toLex]

theorem pickBest_eq (best : Option (Bytes × ℕ × ℕ)) (p : Bytes) :
    pickBest best p = match (runOf p).map (Prod.mk p) with
      | none => best
      | some c => List.argAux (fun a b => toLex a.2 < toLex b.2) best c := by
  unfold pickBest runOf
  by_cases hext : extension p = str ".krpz"
  · rw [if_neg (not_not_intro hext), if_pos hext]
    cases kzReplayParseUid (filename p) with
    | none => rfl
    | some run =>
      cases best with
      | none => rfl
      | some b => simp only [List.argAux, Option.map_some, isBetter_iff_toLex]
  · rw [if_pos hext, if_neg hext]
    rfl

/-- **The selection is the least class and time.** -/
theorem foldl_pickBest_eq (paths : List Bytes) :
    paths.foldl pickBest none = (candidates paths).argmin fun c => toLex c.2 := by
  unfold candidates List.argmin
  rw [List.foldl_filterMap]
  congr 1
  funext best p
  rw [pickBest_eq]
  cases (runOf p).map (Prod.mk p) with
  | none => rfl
  | some c => rfl

/-! ### The best in any order -/

/-- Class and time of an entry that is a replay: a regular file with the extension and a name that
can be read. -/
def replayRun (e : DirEntry) : Option (ℕ × ℕ) :=
  if e.isRegularFile = some true then runOf e.path else none

/-- **The best replay**: one that no other beats, and none where there is no replay. -/
def IsBest (entries : List DirEntry) : Option Bytes → Prop
  | none => ∀ e ∈ entries, replayRun e = none
  | some p => ∃ e ∈ entries, e.path = p ∧ ∃ run, replayRun e = some run ∧
      ∀ e' ∈ entries, ∀ run', replayRun e' = some run' → kzReplayUidIsBetter run' run = false

/-- Class and time of what is found. -/
def foundRun (entries : List DirEntry) : Option (ℕ × ℕ) := (findBestInDir entries).bind runOf

/-- In every order of the directory the best replay is found, with the same class and time. -/
def BestInAnyOrder (entries : List DirEntry) : Prop :=
  ∀ es : List DirEntry, es.Perm entries →
    IsBest es (findBestInDir es) ∧ foundRun es = foundRun entries

theorem visible_of_isSome {entries : List DirEntry} (h : ∀ e ∈ entries, e.isRegularFile ≠ none) :
    visible entries =
      (entries.filter fun e => e.isRegularFile = some true).map DirEntry.path := by
  have htake : (entries.takeWhile fun e => e.isRegularFile.isSome) = entries :=
    List.takeWhile_eq_self_iff.mpr fun e he => Option.isSome_iff_ne_none.mpr (h e he)
  rw [visible, htake]

theorem visible_subset {entries : List DirEntry} {p : Bytes} (h : p ∈ visible entries) :
    ∃ e ∈ entries, e.isRegularFile = some true ∧ e.path = p := by
  obtain ⟨e, he, rfl⟩ := List.mem_map.mp h
  obtain ⟨hmem, hregular⟩ := List.mem_filter.mp he
  exact ⟨e, (List.takeWhile_sublist _).mem hmem, of_decide_eq_true hregular, rfl⟩

theorem findBestInDir_eq_some {entries : List DirEntry} {p : Bytes}
    (h : findBestInDir entries = some p) : ∃ run, p ∈ visible entries ∧ runOf p = some run ∧
      ∀ q ∈ visible entries, ∀ run', runOf q = some run' →
        kzReplayUidIsBetter run' run = false := by
  rw [findBestInDir_eq, foldl_pickBest_eq] at h
  obtain ⟨⟨p', run⟩, hargmin, rfl⟩ := Option.map_eq_some_iff.mp h
  obtain ⟨hp, hrun⟩ := mem_candidates.mp (List.argmin_mem hargmin)
  refine ⟨run, hp, hrun, fun q hq run' hrun' => ?_⟩
  have hle := List.not_lt_of_mem_argmin (mem_candidates.mpr ⟨hq, hrun'⟩) hargmin
  rw [Bool.eq_false_iff, Ne, isBetter_iff_toLex]
  exact hle

theorem findBestInDir_eq_none {entries : List DirEntry} :
    findBestInDir entries = none ↔ ∀ q ∈ visible entries, runOf q = none := by
  rw [findBestInDir_eq, foldl_pickBest_eq, Option.map_eq_none_iff, List.argmin_eq_none, candidates,
    List.filterMap_eq_nil_iff]
  simp only [Option.map_eq_none_iff]

/-- **With no entry that hides others** the best replay is found. -/
theorem isBest_findBestInDir {entries : List DirEntry}
    (h : ∀ e ∈ entries, e.isRegularFile ≠ none) : IsBest entries (findBestInDir entries) := by
  have hvisible : ∀ e ∈ entries, ∀ run, replayRun e = some run →
      e.path ∈ visible entries ∧ runOf e.path = some run := by
    intro e he run hrun
    unfold replayRun at hrun
    split_ifs at hrun with hregular
    rw [visible_of_isSome h]
    exact ⟨List.mem_map_of_mem (List.mem_filter.mpr ⟨he, decide_eq_true hregular⟩), hrun⟩
  cases hfind : findBestInDir entries with
  | none =>
    intro e he
    rw [findBestInDir_eq_none] at hfind
    by_contra hne
    obtain ⟨run, hrun⟩ := Option.ne_none_iff_exists'.mp hne
    obtain ⟨hmem, hrun'⟩ := hvisible e he run hrun
    rw [hfind _ hmem] at hrun'
    exact nomatch hrun'
  | some p =>
    obtain ⟨run, hp, hrun, hleast⟩ := findBestInDir_eq_some hfind
    obtain ⟨e, he, hregular, rfl⟩ := visible_subset hp
    refine ⟨e, he, rfl, run, by rw [replayRun, if_pos hregular, hrun], fun e' he' run' hrun' => ?_⟩
    obtain ⟨hmem, hread⟩ := hvisible e' he' run' hrun'
    exact hleast e'.path hmem run' hread

theorem runOf_of_replayRun {e : DirEntry} {run : ℕ × ℕ} (h : replayRun e = some run) :
    runOf e.path = some run := by
  unfold replayRun at h
  split_ifs at h
  exact h

/-- The best replays of a directory in two orders have one class and time. -/
theorem IsBest.run_eq {entries es : List DirEntry} {r r' : Option Bytes} (hperm : es.Perm entries)
    (h : IsBest es r) (h' : IsBest entries r') : r.bind runOf = r'.bind runOf := by
  cases r with
  | none =>
    cases r' with
    | none => rfl
    | some p' =>
      obtain ⟨e', he', -, run', hrun', -⟩ := h'
      have hnone := h e' (hperm.mem_iff.mpr he')
      rw [hnone] at hrun'
      exact nomatch hrun'
  | some p =>
    obtain ⟨e, he, rfl, run, hrun, hleast⟩ := h
    cases r' with
    | none =>
      have hnone := h' e (hperm.mem_iff.mp he)
      rw [hnone] at hrun
      exact nomatch hrun
    | some p' =>
      obtain ⟨e', he', rfl, run', hrun', hleast'⟩ := h'
      have h1 := hleast e' (hperm.mem_iff.mpr he') run' hrun'
      have h2 := hleast' e (hperm.mem_iff.mp he) run hrun
      rw [not_isBetter_iff] at h1 h2
      have heq : run = run' := Prod.ext (by omega) (by omega)
      rw [Option.bind_some, Option.bind_some, runOf_of_replayRun hrun, runOf_of_replayRun hrun',
        heq]

/-- **The best replay in any order** is found exactly where no entry's type cannot be found out or
there is no replay to hide. -/
theorem bestInAnyOrder_iff (entries : List DirEntry) : BestInAnyOrder entries ↔
    (∀ e ∈ entries, e.isRegularFile ≠ none) ∨ ∀ e ∈ entries, replayRun e = none := by
  constructor
  · intro h
    by_contra hnot
    push Not at hnot
    obtain ⟨⟨e, he, hfails⟩, c, hc, hrun⟩ := hnot
    -- with `e` first, nothing is found
    have hperm : (e :: entries.erase e).Perm entries := (List.perm_cons_erase he).symm
    have hvisible : visible (e :: entries.erase e) = [] := by simp [visible, hfails]
    have hnone : findBestInDir (e :: entries.erase e) = none := by
      rw [findBestInDir_eq_none, hvisible]
      exact nofun
    have hbest := (h _ hperm).1
    rw [hnone] at hbest
    exact hrun (hbest c (hperm.mem_iff.mpr hc))
  · rintro (h | h) es hperm
    · have hes : ∀ e ∈ es, e.isRegularFile ≠ none := fun e he => h e (hperm.mem_iff.mp he)
      have hbest := isBest_findBestInDir hes
      exact ⟨hbest, hbest.run_eq hperm (isBest_findBestInDir h)⟩
    · have hnone : ∀ es' : List DirEntry, es'.Perm entries → findBestInDir es' = none := by
        intro es' hperm'
        rw [findBestInDir_eq_none]
        intro q hq
        obtain ⟨e, he, hregular, rfl⟩ := visible_subset hq
        have hrun := h e (hperm'.mem_iff.mp he)
        rwa [replayRun, if_pos hregular] at hrun
      rw [foundRun, foundRun, hnone es hperm, hnone entries (List.Perm.refl _)]
      exact ⟨fun e he => h e (hperm.mem_iff.mp he), rfl⟩

/-- A link to nothing, listed before the only replay. -/
def sampleEntries : List DirEntry :=
  [⟨str "kz_a/old.krpz", none⟩, ⟨str "kz_a/0_00012345_a.krpz", some true⟩]

theorem bestInAnyOrder_fails : ¬ ∀ entries, BestInAnyOrder entries := by
  intro h
  have hbest := (h sampleEntries sampleEntries (List.Perm.refl _)).1
  have hnone : findBestInDir sampleEntries = none := by decide +kernel
  rw [hnone] at hbest
  have hrun := hbest ⟨str "kz_a/0_00012345_a.krpz", some true⟩ (by simp [sampleEntries])
  exact absurd hrun (by decide +kernel)

end KzGlobal.Replay.Best
