import Mathlib.Data.List.Sort
import KzGlobal.Replay.Selection

/-! # Pruning

`kz_rp_prune_replays` keeps the first files of a map in the order of their names as texts, and
`kz_replay_find_best_in_dir` compares the runs that the names give. The two agree on a directory,
whatever the number of files that are kept, exactly where the names are in the order of their
runs: no time of nine digits or more stands before a shorter one, and the first listed of the best
runs has the least name of them (`prune_agrees_iff`). -/

namespace KzGlobal.Replay.Prune

open KzGlobal.Lib.Stdio KzGlobal.Lib.FileProgram KzGlobal.Krp.Format
open KzGlobal.Replay.Text KzGlobal.Replay.Writer KzGlobal.Replay.Paths KzGlobal.Replay.Selection

/-! ### Cuts of a sorted list -/

section Cuts
variable {α : Type*} {lt r : α → α → Prop} {l : List α} (hl : l.Pairwise lt)
  (hasymm : ∀ a b, lt a b → ¬ lt b a)
include hl hasymm

/-- **A relation agrees with every cut** of a sorted list where it is part of the order. -/
theorem cuts_agree_iff (hirr : ∀ a, ¬ r a a) :
    (∀ m, 1 ≤ m → ∀ k ∈ l.take m, ∀ x ∈ l.drop m, ¬ r x k) ↔ ∀ a ∈ l, ∀ b ∈ l, r a b → lt a b := by
  constructor
  · intro h a ha b hb hr
    obtain ⟨l₁, l₂, rfl⟩ := List.append_of_mem ha
    have hne : b ≠ a := fun h0 => hirr a (h0 ▸ hr)
    rcases List.mem_append.mp hb with hb | hb
    · -- The cut before `a` keeps `b`.
      have hcut := h l₁.length (List.length_pos_of_mem hb) b (by simpa using hb) a (by simp)
      exact absurd hr hcut
    · have hb := (List.mem_cons.mp hb).resolve_left hne
      exact List.rel_of_pairwise_cons (List.pairwise_append.mp hl).2.1 hb
  · intro h m _ k hk x hx hr
    rw [← List.take_append_drop m l] at hl
    have hkx := (List.pairwise_append.mp hl).2.2 k hk x hx
    exact hasymm _ _ hkx (h x (List.mem_of_mem_drop hx) k (List.mem_of_mem_take hk) hr)

theorem mem_cuts_iff {c : α} (hc : c ∈ l) :
    (∀ m, 1 ≤ m → c ∈ l.take m) ↔ ∀ b ∈ l, b ≠ c → lt c b := by
  rcases l with _ | ⟨a, l⟩
  · cases hc
  · constructor
    · intro h b hb hne
      obtain rfl : c = a := by simpa using h 1 le_rfl
      exact List.rel_of_pairwise_cons hl ((List.mem_cons.mp hb).resolve_left hne)
    · intro h m hm
      have hac : a = c := by
        by_contra hne
        have hcl := (List.mem_cons.mp hc).resolve_left fun h0 => hne h0.symm
        exact hasymm _ _ (List.rel_of_pairwise_cons hl hcl) (h a List.mem_cons_self hne)
      obtain ⟨m, rfl⟩ : ∃ k, m = k + 1 := ⟨m - 1, by omega⟩
      rw [hac, List.take_succ_cons]
      exact List.mem_cons_self

end Cuts

/-! ### The source -/

/-- The removal of some files, one after another. -/
def removeEach : List Bytes → Files Unit
  | [] => pure ()
  | p :: ps => do
    let _ ← removeFile p
    removeEach ps

/-- A directory that is not there has no entries. -/
def kzRpPruneReplays (dataDir mapname : Bytes) (maxReplays pruneTrigger : ℤ)
    (gEarlyMapchange : Bool) :
    Files Unit :=
  if maxReplays < 0 then pure ()
  else do
    let entries ← listDirectory (joinPath (replaysDir dataDir) mapname)
    let replays := entries.filter fun p => extension p = str ".krpz"
    if replays.length ≤ maxReplays.toNat then pure ()
    else
      let replays := replays.insertionSort fun a b => filename a ≤ filename b
      if pruneTrigger = 0 ∨ gEarlyMapchange then removeEach (replays.drop maxReplays.toNat)
      else pure ()

/-! ### What is removed -/

theorem run_removeEach (entries : Bytes → List Bytes) : ∀ (ps : List Bytes) (d : Disk Bytes UInt8)
    (p : Bytes), ((removeEach ps).run entries d).1 p = if p ∈ ps then none else d p
  | [], d, p => by simp [removeEach]
  | q :: ps, d, p => by
    simp only [removeEach, Prog.run_bind, run_removeFile, run_removeEach entries ps, List.mem_cons]
    by_cases hp : p ∈ ps
    · simp [hp]
    · by_cases hq : p = q
      · subst hq
        simp
      · simp [hp, hq, Disk.unlink_of_ne]

/-- The compressed replays of a listing, in the order of their names. -/
def sorted (entries : List Bytes) : List Bytes :=
  (entries.filter fun p => extension p = str ".krpz").insertionSort fun a b =>
    filename a ≤ filename b

/-- **What pruning does to the disk**: where it prunes at all, the files behind the first ones
go. -/
theorem run_prune (entries : Bytes → List Bytes) (dataDir mapname : Bytes) {maxReplays : ℤ}
    (h0 : 0 ≤ maxReplays) (pruneTrigger : ℤ) (gEarlyMapchange : Bool) (d : Disk Bytes UInt8)
    (p : Bytes) :
    ((kzRpPruneReplays dataDir mapname maxReplays pruneTrigger gEarlyMapchange).run entries d).1 p =
      if (pruneTrigger = 0 ∨ gEarlyMapchange) ∧
        p ∈ (sorted (entries (joinPath (replaysDir dataDir) mapname))).drop
        maxReplays.toNat then none
      else d p := by
  let replays := (entries (joinPath (replaysDir dataDir) mapname)).filter fun p => extension p =
    str ".krpz"
  have hlen : (sorted (entries (joinPath (replaysDir dataDir) mapname))).length = replays.length :=
    List.length_insertionSort ..
  unfold kzRpPruneReplays
  rw [if_neg (not_lt.mpr h0), Prog.run_bind]
  change (Prog.run entries d (if replays.length ≤ maxReplays.toNat then pure ()
    else if pruneTrigger = 0 ∨ gEarlyMapchange then
      removeEach ((sorted (entries (joinPath (replaysDir dataDir) mapname))).drop maxReplays.toNat)
    else pure ())).1 p = _
  by_cases hl : replays.length ≤ maxReplays.toNat
  · rw [if_pos hl, List.drop_of_length_le (by omega)]
    simp
  · rw [if_neg hl]
    by_cases ht : pruneTrigger = 0 ∨ gEarlyMapchange
    · rw [if_pos ht, run_removeEach]
      simp [ht]
    · rw [if_neg ht]
      simp [ht]

section Directory
variable {dir : Bytes} {names : List Bytes} (hn : ∀ n ∈ names, Reads dir n)
include hn

theorem mem_sorted {p : Bytes} : p ∈ sorted (names.map (joinPath dir)) ↔
    ∃ n ∈ names, joinPath dir n = p := by
  rw [sorted, List.mem_insertionSort, List.mem_filter, List.mem_map, decide_eq_true_iff]
  constructor
  · exact And.left
  · rintro ⟨n, hm, rfl⟩
    exact ⟨⟨n, hm, rfl⟩, (hn n hm).krpz⟩

/-- **The sorted files are in the order of their names.** -/
theorem pairwise_sorted (hnd : names.Nodup) :
    (sorted (names.map (joinPath dir))).Pairwise fun p q => filename p < filename q := by
  have hinj : ∀ p ∈ sorted (names.map (joinPath dir)), ∀ q ∈ sorted (names.map (joinPath dir)),
      filename p = filename q → p = q := by
    intro p hp q hq he
    obtain ⟨n, hm, rfl⟩ := (mem_sorted hn).mp hp
    obtain ⟨n', hm', rfl⟩ := (mem_sorted hn).mp hq
    rw [filename_joinPath (hn n hm).no_slash, filename_joinPath (hn n' hm').no_slash] at he
    rw [he]
  have hmap : (names.map (joinPath dir)).Nodup := hnd.map_on fun n hm n' hm' he => by
    have := congrArg filename he
    rwa [filename_joinPath (hn n hm).no_slash, filename_joinPath (hn n' hm').no_slash] at this
  have hnodup : (sorted (names.map (joinPath dir))).Nodup :=
    (List.perm_insertionSort ..).nodup_iff.mpr (hmap.filter _)
  have hle : (sorted (names.map (joinPath dir))).Pairwise fun p q => filename p ≤ filename q :=
    List.pairwise_insertionSort ..
  refine (hle.and hnodup).imp_of_mem fun {p q} hp hq h => ?_
  rcases Std.lt_trichotomy (filename p) (filename q) with hlt | heq | hgt
  · exact hlt
  · exact absurd (hinj p hp q hq heq) h.2
  · exact absurd hgt (Std.not_lt.mpr h.1)

/-- **What is kept** where pruning leaves `m` files. -/
theorem kept_iff (hnd : names.Nodup) {d d' : Disk Bytes UInt8}
    (hd : ∀ n ∈ names, (d (joinPath dir n)).isSome)
    {m : ℕ} (hd' : ∀ p, d' p = if p ∈ (sorted (names.map (joinPath dir))).drop m then none else d p)
    {n : Bytes} (hm : n ∈ names) :
    ((d' (joinPath dir n)).isSome ↔ joinPath dir n ∈ (sorted (names.map (joinPath dir))).take m) ∧
      (d' (joinPath dir n) = none ↔
        joinPath dir n ∈ (sorted (names.map (joinPath dir))).drop m) := by
  have hmem := (mem_sorted hn).mpr ⟨n, hm, rfl⟩
  have hnodup := (pairwise_sorted hn hnd).imp fun {p q} h (h0 : p = q) => by
    rw [h0] at h
    exact Std.lt_irrefl h
  have hsplit := hmem
  rw [← List.take_append_drop m (sorted (names.map (joinPath dir)))] at hsplit hnodup
  have hdisj := (List.nodup_append.mp hnodup).2.2
  rw [hd']
  split_ifs with hdrop
  · refine ⟨⟨fun h => (by cases h), fun h => absurd rfl (hdisj _ h _ hdrop)⟩, fun _ => hdrop,
      fun _ => rfl⟩
  · have htake := (List.mem_append.mp hsplit).resolve_right hdrop
    have hs := hd n hm
    refine ⟨⟨fun _ => htake, fun _ => hs⟩, fun h => ?_, fun h => absurd h hdrop⟩
    rw [h] at hs
    cases hs

end Directory

/-! ### Selection and pruning -/

/-- The chosen file is still there, and no file that was removed is better than one that was
kept. -/
def Agrees (dir : Bytes) (names : List Bytes) (chosen : Option Bytes) (disk : Disk Bytes UInt8) :
    Prop :=
  (∀ best, chosen = some best → (disk best).isSome) ∧
  ∀ k ∈ names, ∀ x ∈ names, (disk (joinPath dir k)).isSome → disk (joinPath dir x) = none →
    ∀ kept removed, kzReplayParseUid k = some kept → kzReplayParseUid x = some removed →
      kzReplayUidIsBetter removed kept = false

/-- No time has a wider field than a shorter time of its class whose digits come first, and the
first listed of the best runs has the least name of them. -/
def InOrder (names : List Bytes) : Prop :=
  (∀ a ∈ names, ∀ b ∈ names, ∀ cls t t', kzReplayParseUid a = some (cls, t) →
    kzReplayParseUid b = some (cls, t') → t < t' →
      t < t' / 10 ^ ((decimal8 t').length - (decimal8 t).length)) ∧
  ∀ first run, FirstBest names first run →
    ∀ b ∈ names, kzReplayParseUid b = some run → b ≠ first → first < b

section Names
variable {dataDir : Bytes} {names : List Bytes} (hb : ∀ n ∈ names, BuiltName dataDir n)
include hb

theorem better_lt_iff :
    (∀ a ∈ names, ∀ b ∈ names, ∀ ra rb, kzReplayParseUid a = some ra →
      kzReplayParseUid b = some rb → kzReplayUidIsBetter ra rb = true → a < b) ↔
    ∀ a ∈ names, ∀ b ∈ names, ∀ cls t t', kzReplayParseUid a = some (cls, t) →
      kzReplayParseUid b = some (cls, t') → t < t' →
        t < t' / 10 ^ ((decimal8 t').length - (decimal8 t).length) := by
  refine forall₄_congr fun a ha b hmb => ?_
  obtain ⟨c, t, rest, hc, ht, -, rfl⟩ := builtName_eq (hb a ha)
  obtain ⟨c', t', rest', hc', ht', -, rfl⟩ := builtName_eq (hb b hmb)
  simp only [parse_finishName (show c < 10 by omega) ht,
    parse_finishName (show c' < 10 by omega) ht', Option.some.injEq, isBetter_iff]
  constructor
  · rintro h cls u u' hu hu' hlt
    rw [Prod.mk.injEq] at hu hu'
    obtain ⟨rfl, rfl⟩ := hu
    obtain ⟨rfl, rfl⟩ := hu'
    exact (finishName_lt_iff hlt ht' _ _ _).mp (h _ _ rfl rfl (Or.inr ⟨rfl, hlt⟩))
  · rintro h _ _ rfl rfl (hlt | ⟨heq, hlt⟩)
    · exact finishName_lt_of_class hlt (by omega) _ _ _ _
    · obtain rfl : c = c' := heq
      exact (finishName_lt_iff hlt ht' _ _ _).mpr (h c t t' rfl rfl hlt)

/-- The run of one file is better than that of another. -/
def Better (p q : Bytes) : Prop :=
  ∃ a b, kzReplayParseUid (filename p) = some a ∧ kzReplayParseUid (filename q) = some b ∧
    kzReplayUidIsBetter a b = true

omit hb in
theorem better_irrefl (p : Bytes) : ¬ Better p p := by
  rintro ⟨a, b, ha, hb, h⟩
  obtain rfl : a = b := Option.some.inj (ha.symm.trans hb)
  rw [isBetter_iff] at h
  omega

omit hb in
theorem better_paths_iff {dir : Bytes} {names : List Bytes} (hn : ∀ n ∈ names, Reads dir n) :
    (∀ p ∈ sorted (names.map (joinPath dir)), ∀ q ∈ sorted (names.map (joinPath dir)),
      Better p q → filename p < filename q) ↔
      ∀ a ∈ names, ∀ b ∈ names, ∀ ra rb, kzReplayParseUid a = some ra →
      kzReplayParseUid b = some rb →
        kzReplayUidIsBetter ra rb = true → a < b := by
  constructor
  · intro h a ha b hmb ra rb hra hrb hbetter
    have hlt := h _ ((mem_sorted hn).mpr ⟨a, ha, rfl⟩) _ ((mem_sorted hn).mpr ⟨b, hmb, rfl⟩)
    rw [Better, filename_joinPath (hn a ha).no_slash, filename_joinPath (hn b hmb).no_slash] at hlt
    exact hlt ⟨ra, rb, hra, hrb, hbetter⟩
  · intro h p hp q hq
    obtain ⟨a, ha, rfl⟩ := (mem_sorted hn).mp hp
    obtain ⟨b, hmb, rfl⟩ := (mem_sorted hn).mp hq
    rw [Better, filename_joinPath (hn a ha).no_slash, filename_joinPath (hn b hmb).no_slash]
    rintro ⟨ra, rb, hra, hrb, hbetter⟩
    exact h a ha b hmb ra rb hra hrb hbetter

/-- The agreement on a disk where the files behind the first `m` ones went, as a cut. -/
theorem agrees_cut_iff (hnd : names.Nodup) {dir : Bytes} {d d' : Disk Bytes UInt8}
    (hd : ∀ n ∈ names, (d (joinPath dir n)).isSome) {m : ℕ}
    (hd' : ∀ p, d' p = if p ∈ (sorted (names.map (joinPath dir))).drop m then none else d p)
    {chosen : Option Bytes} (hc : ∀ best, chosen = some best → ∃ n ∈ names, joinPath dir n = best) :
    Agrees dir names chosen d' ↔
      (∀ best, chosen = some best → best ∈ (sorted (names.map (joinPath dir))).take m) ∧
      ∀ k ∈ (sorted (names.map (joinPath dir))).take m,
        ∀ x ∈ (sorted (names.map (joinPath dir))).drop m, ¬ Better x k := by
  have hn : ∀ n ∈ names, Reads dir n := fun n hm => reads_of_builtName (hb n hm) dir
  refine and_congr (forall₂_congr fun best hbest => ?_) ⟨fun h k hk x hx hr => ?_,
    fun h k hk x hx => ?_⟩
  · obtain ⟨n, hm, rfl⟩ := hc best hbest
    exact (kept_iff hn hnd hd hd' hm).1
  · obtain ⟨n, hm, rfl⟩ := (mem_sorted hn).mp (List.mem_of_mem_take hk)
    obtain ⟨n', hm', rfl⟩ := (mem_sorted hn).mp (List.mem_of_mem_drop hx)
    obtain ⟨a, b, ha, hb, hbetter⟩ := hr
    rw [filename_joinPath (hn _ hm').no_slash] at ha
    rw [filename_joinPath (hn _ hm).no_slash] at hb
    have := h n hm n' hm' ((kept_iff hn hnd hd hd' hm).1.mpr hk)
      ((kept_iff hn hnd hd hd' hm').2.mpr hx)
      b a hb ha
    rw [this] at hbetter
    cases hbetter
  · intro hkept hgone kept removed hpk hpx
    by_contra hbetter
    refine h _ ((kept_iff hn hnd hd hd' hk).1.mp hkept) _ ((kept_iff hn hnd hd hd' hx).2.mp hgone)
      ⟨removed, kept, ?_, ?_, by simpa using hbetter⟩
    · rwa [filename_joinPath (hn _ hx).no_slash]
    · rwa [filename_joinPath (hn _ hk).no_slash]

/-- Where better runs have lesser names, the chosen name is the least of all if it is the least of
those that tie with it. -/
theorem least_iff {dir : Bytes} {n : Bytes} {run : ℕ × ℕ} (hfirst : FirstBest names n run)
    (hlt : ∀ a ∈ names, ∀ b ∈ names, ∀ ra rb, kzReplayParseUid a = some ra →
      kzReplayParseUid b = some rb → kzReplayUidIsBetter ra rb = true → a < b) :
    (∀ q ∈ sorted (names.map (joinPath dir)), q ≠ joinPath dir n →
      filename (joinPath dir n) < filename q) ↔ ∀ first run, FirstBest names first run →
        ∀ b ∈ names, kzReplayParseUid b = some run → b ≠ first → first < b := by
  have hn : ∀ n ∈ names, Reads dir n := fun n hm => reads_of_builtName (hb n hm) dir
  have hmem := hfirst.mem
  have h47 := (hn n hmem).no_slash
  rw [filename_joinPath h47]
  constructor
  · intro h first run' hfirst' b hmb _ hne
    obtain rfl := hfirst'.unique hfirst
    have hbs := (mem_sorted hn).mpr ⟨b, hmb, rfl⟩
    have := h _ hbs fun he => hne <| by
      have := congrArg filename he
      rwa [filename_joinPath (hn b hmb).no_slash, filename_joinPath h47] at this
    rwa [filename_joinPath (hn b hmb).no_slash] at this
  · intro h q hq hne
    obtain ⟨b, hmb, rfl⟩ := (mem_sorted hn).mp hq
    obtain ⟨rb, hrb⟩ := (hn b hmb).parses
    rw [filename_joinPath (hn b hmb).no_slash]
    have hbn : b ≠ n := fun h0 => hne (by rw [h0])
    have hworse := hfirst.2.1 b hmb rb hrb
    rw [not_isBetter_iff] at hworse
    by_cases htie : rb = run
    · exact h n run hfirst b hmb (htie ▸ hrb) hbn
    · refine hlt n hmem b hmb run rb hfirst.1 hrb (isBetter_iff.mpr ?_)
      have hfields : ¬ (rb.1 = run.1 ∧ rb.2 = run.2) := fun h0 => htie (Prod.ext h0.1 h0.2)
      omega

/-- **All cuts agree** where the names are in order. -/
theorem cuts_inOrder_iff (hnd : names.Nodup) (dir : Bytes) :
    (∀ m, 1 ≤ m → (∀ best, ((names.map (joinPath dir)).foldl pickBest none).map Prod.fst =
      some best →
        best ∈ (sorted (names.map (joinPath dir))).take m) ∧
      ∀ k ∈ (sorted (names.map (joinPath dir))).take m,
        ∀ x ∈ (sorted (names.map (joinPath dir))).drop m, ¬ Better x k) ↔ InOrder names := by
  have hn : ∀ n ∈ names, Reads dir n := fun n hm => reads_of_builtName (hb n hm) dir
  have hl := pairwise_sorted hn hnd
  have hasymm : ∀ p q : Bytes, filename p < filename q → ¬ filename q < filename p :=
    fun p q h h' => Std.lt_irrefl (List.lt_trans h h')
  rw [forall₂_and, cuts_agree_iff hl hasymm better_irrefl, better_paths_iff hn, InOrder,
    ← better_lt_iff hb, and_comm]
  refine and_congr_right fun hlt => ?_
  rcases eq_or_ne names [] with rfl | h0
  · simp [FirstBest]
  · obtain ⟨n, run, hfold, hfirst⟩ := foldl_pickBest hn h0
    rw [← least_iff hb hfirst hlt,
      ← mem_cuts_iff hl hasymm ((mem_sorted hn).mpr ⟨n, hfirst.mem, rfl⟩)]
    simp [hfold]

end Names

/-- **Pruning agrees with the selection** on a directory whose files have names that the FINISH
branch builds, whatever number of files it keeps, exactly where the names are in the order of their
runs. -/
theorem prune_agrees_iff (dataDir mapname : Bytes) {names : List Bytes} (hnd : names.Nodup)
    (hb : ∀ n ∈ names, BuiltName dataDir n) {d : Disk Bytes UInt8}
    (hd : ∀ n ∈ names, (d (joinPath (joinPath (replaysDir dataDir) mapname) n)).isSome)
    {entries : Bytes → List Bytes} (he : entries (joinPath (replaysDir dataDir) mapname) =
      names.map (joinPath (joinPath (replaysDir dataDir) mapname))) :
    (∀ maxReplays : ℤ, 1 ≤ maxReplays → ∀ (pruneTrigger : ℤ) (gEarlyMapchange : Bool),
      Agrees (joinPath (replaysDir dataDir) mapname) names
        ((kzReplayFindBestInDir (joinPath (replaysDir dataDir) mapname)).run entries d).2
        ((kzRpPruneReplays dataDir mapname maxReplays pruneTrigger gEarlyMapchange).run
          entries d).1) ↔
      InOrder names := by
  set dir := joinPath (replaysDir dataDir) mapname with hdir
  have hn : ∀ n ∈ names, Reads dir n := fun n hm => reads_of_builtName (hb n hm) dir
  have hchosen : ((kzReplayFindBestInDir dir).run entries d).2 =
      ((names.map (joinPath dir)).foldl pickBest none).map Prod.fst := by
    simp [kzReplayFindBestInDir, he]
  have hthere : ∀ best, ((names.map (joinPath dir)).foldl pickBest none).map Prod.fst = some best →
      ∃ n ∈ names, joinPath dir n = best := by
    intro best hbest
    rcases eq_or_ne names [] with rfl | h0
    · cases hbest
    · obtain ⟨n, run, hfold, hfirst⟩ := foldl_pickBest hn h0
      rw [hfold] at hbest
      exact ⟨n, hfirst.mem, Option.some.inj hbest⟩
  rw [hchosen, ← cuts_inOrder_iff hb hnd dir]
  constructor
  · intro h m hm
    refine (agrees_cut_iff hb hnd hd (fun p => ?_) hthere).mp (h m (by omega) 0 false)
    rw [run_prune entries dataDir mapname (by omega), ← hdir, he]
    simp
  · intro h maxReplays hmax pruneTrigger gEarlyMapchange
    by_cases ht : pruneTrigger = 0 ∨ gEarlyMapchange
    · refine (agrees_cut_iff hb hnd hd (fun p => ?_) hthere).mpr (h maxReplays.toNat (by omega))
      rw [run_prune entries dataDir mapname (by omega), ← hdir, he]
      simp [ht]
    · -- Nothing is removed.
      have hsame :
          ∀ p, ((kzRpPruneReplays dataDir mapname maxReplays pruneTrigger gEarlyMapchange).run
          entries d).1 p = d p := fun p => by
        rw [run_prune entries dataDir mapname (by omega)]
        simp [ht]
      refine ⟨fun best hbest => ?_, fun k hk x hx _ hgone => ?_⟩
      · obtain ⟨n, hm, rfl⟩ := hthere best hbest
        rw [hsame]
        exact hd n hm
      · have hx := hd x hx
        rw [hsame] at hgone
        rw [hgone] at hx
        cases hx

/-- Two runs of one player on the map `a`, of 10000 and of 100000 seconds. -/
def sampleNames : List Bytes := [str "0_10000000_0123_10.krpz", str "0_100000000_0123_11.krpz"]

/-- The folder of a map's replays. -/
def sampleDir : Bytes := joinPath (replaysDir (str "d")) (str "a")

/-- A disk with the files of these runs only. -/
def sampleDisk : Disk Bytes UInt8 :=
  fun p => if p ∈ sampleNames.map (joinPath sampleDir) then some [] else none

theorem builtName_sample : ∀ n ∈ sampleNames, BuiltName (str "d") n := by
  intro n hn
  rcases List.mem_cons.mp hn with rfl | hn
  · exact ⟨0, 10000000, 36,
      ⟨str "0123", by decide, by decide⟩, by decide, by decide, by decide +kernel⟩
  · obtain rfl := List.mem_singleton.mp hn
    exact ⟨0, 100000000, 37,
      ⟨str "0123", by decide, by decide⟩, by decide, by decide, by decide +kernel⟩

/-- The shorter run is chosen before, and removed. -/
theorem prune_disagrees : sampleNames.Nodup ∧ (∀ n ∈ sampleNames, BuiltName (str "d") n) ∧
    ¬ Agrees sampleDir sampleNames
      ((kzReplayFindBestInDir sampleDir).run (fun _ => sampleNames.map (joinPath sampleDir))
        sampleDisk).2
      ((kzRpPruneReplays (str "d") (str "a") 1 0 false).run
        (fun _ => sampleNames.map (joinPath sampleDir))
        sampleDisk).1 := by
  refine ⟨by decide +kernel, builtName_sample, fun h => ?_⟩
  have hgone := h.1 (joinPath sampleDir (str "0_10000000_0123_10.krpz")) (by decide +kernel)
  revert hgone
  decide +kernel

theorem prune_agrees_iff_sample :
    (∀ maxReplays : ℤ, 1 ≤ maxReplays → ∀ (pruneTrigger : ℤ) (gEarlyMapchange : Bool),
      Agrees sampleDir sampleNames
        ((kzReplayFindBestInDir sampleDir).run (fun _ => sampleNames.map (joinPath sampleDir))
          sampleDisk).2
        ((kzRpPruneReplays (str "d") (str "a") maxReplays pruneTrigger gEarlyMapchange).run
          (fun _ => sampleNames.map (joinPath sampleDir)) sampleDisk).1) ↔ InOrder sampleNames :=
  prune_agrees_iff (str "d") (str "a") (by decide +kernel) builtName_sample
    (by decide +kernel) rfl

end KzGlobal.Replay.Prune
