import Mathlib.Tactic

/-! # Sparse tables: rows, columns and columns laid out in a row

A sparse row is a list of cells `(k, v)`, at most one for each key `k`. The column `k` of a table is
the list of the values its rows have under `k`, in order. A table is determined by the keys of its
rows and its columns: the value a row has under `k` stands in column `k` after the values of the
rows before (`getElem?_column`), and columns of the right lengths are the columns of a table
(`exists_table`).

`concat c n` lays the columns `c 0, …, c (n-1)` out one after the other, column `i` beginning at
`start c i`; a list cut at the sums of given sizes is such a layout (`concat_cut`). -/

namespace KzGlobal.Lib.Sparse

variable {κ α : Type*}

/-! ### Cells and columns -/

/-- The keys of a row. -/
def keys (r : List (κ × α)) : List κ := r.map Prod.fst

@[simp] theorem keys_cons (c : κ × α) (r : List (κ × α)) : keys (c :: r) = c.1 :: keys r := rfl

/-- A row with given keys whose cells are the heads of the columns. -/
theorem exists_row {c : κ → List α} : ∀ {ks : List κ}, ks.Nodup → (∀ k ∈ ks, c k ≠ []) →
    ∃ r : List (κ × α), keys r = ks ∧ ∀ k ∈ ks, ∃ v, (k, v) ∈ r ∧ c k = v :: (c k).tail
  | [], _, _ => ⟨[], rfl, by simp⟩
  | k :: ks, hn, h => by
    rw [List.nodup_cons] at hn
    obtain ⟨r, hr, hc⟩ := exists_row (c := c) hn.2 fun k' hk' => h k' (List.mem_cons_of_mem _ hk')
    obtain ⟨v, t, hv⟩ := List.exists_cons_of_ne_nil (h k List.mem_cons_self)
    refine ⟨(k, v) :: r, by rw [keys_cons, hr], fun k' hk' => ?_⟩
    rcases List.mem_cons.mp hk' with rfl | hk'
    · exact ⟨v, List.mem_cons_self, by rw [hv]; rfl⟩
    · obtain ⟨v', hv', ht⟩ := hc k' hk'
      exact ⟨v', List.mem_cons_of_mem _ hv', ht⟩

variable [DecidableEq κ]

/-- The values of a row under the key `k`. -/
def cell (k : κ) (r : List (κ × α)) : List α := (r.filter fun c => c.1 = k).map Prod.snd

/-- The column `k` of a table. -/
def column (k : κ) (rows : List (List (κ × α))) : List α := rows.flatMap (cell k)

@[simp] theorem column_nil (k : κ) : column (α := α) k [] = [] := rfl

@[simp] theorem column_cons (k : κ) (r : List (κ × α)) (rows : List (List (κ × α))) :
    column k (r :: rows) = cell k r ++ column k rows := by
  simp [column]

@[simp] theorem column_append (k : κ) (rows rows' : List (List (κ × α))) :
    column k (rows ++ rows') = column k rows ++ column k rows' := by
  simp [column]

theorem cell_cons (k : κ) (c : κ × α) (r : List (κ × α)) :
    cell k (c :: r) = if c.1 = k then c.2 :: cell k r else cell k r := by
  unfold cell
  rw [List.filter_cons]
  by_cases h : c.1 = k <;> simp [h]

theorem cell_eq_nil {k : κ} : ∀ {r : List (κ × α)}, k ∉ keys r → cell k r = []
  | [], _ => rfl
  | c :: r, h => by
    rw [keys_cons, List.mem_cons, not_or] at h
    rw [cell_cons, if_neg (Ne.symm h.1), cell_eq_nil h.2]

theorem cell_eq_singleton {k : κ} {v : α} : ∀ {r : List (κ × α)}, (keys r).Nodup → (k, v) ∈ r →
    cell k r = [v]
  | c :: r, hn, h => by
    rw [keys_cons, List.nodup_cons] at hn
    rcases List.mem_cons.mp h with rfl | h
    · rw [cell_cons, if_pos rfl, cell_eq_nil hn.1]
    · have hk : k ∈ keys r := List.mem_map_of_mem h
      have hne : c.1 ≠ k := fun he => hn.1 (by rw [he]; exact hk)
      rw [cell_cons, if_neg hne, cell_eq_singleton hn.2 h]

theorem length_cell (k : κ) {r : List (κ × α)} (hn : (keys r).Nodup) :
    (cell k r).length = if k ∈ keys r then 1 else 0 := by
  split_ifs with h
  · obtain ⟨⟨k', v⟩, hc, rfl⟩ := List.mem_map.mp h
    rw [cell_eq_singleton hn hc]; rfl
  · rw [cell_eq_nil h]; rfl

/-- **A column has one entry for each row with that key.** -/
theorem length_column (k : κ) : ∀ {rows : List (List (κ × α))}, (∀ r ∈ rows, (keys r).Nodup) →
    (column k rows).length = rows.countP fun r => k ∈ keys r
  | [], _ => rfl
  | r :: rows, hn => by
    rw [column_cons, List.length_append, length_column k
      fun r' h => hn r' (List.mem_cons_of_mem _ h),
      length_cell k (hn r List.mem_cons_self), List.countP_cons]
    by_cases h : k ∈ keys r <;> simp [h, Nat.add_comm]

/-- **Where a cell stands in its column.** -/
theorem getElem?_column {k : κ} {v : α} {r : List (κ × α)} (pre post : List (List (κ × α)))
    (hn : (keys r).Nodup) (h : (k, v) ∈ r) :
    (column k (pre ++ r :: post))[(column k pre).length]? = some v := by
  rw [column_append, column_cons, cell_eq_singleton hn h, List.getElem?_append_right le_rfl]
  simp

/-- The keys of `ks` share out the cells of a row whose keys are among them. -/
theorem sum_length_cell {ks : List κ} (hks : ks.Nodup) : ∀ {r : List (κ × α)},
    (∀ k ∈ keys r, k ∈ ks) → (ks.map fun k => (cell k r).length).sum = r.length
  | [], _ => by simp [cell]
  | c :: r, h => by
    have ih := sum_length_cell hks (r := r) fun k hk => h k (List.mem_cons_of_mem _ hk)
    have hc : c.1 ∈ ks := h c.1 (by simp)
    have he : (ks.map fun k => (cell k (c :: r)).length) =
        ks.map fun k => (cell k r).length + if k = c.1 then 1 else 0 := by
      refine List.map_congr_left fun k _ => ?_
      rw [cell_cons]
      by_cases hk : c.1 = k
      · rw [if_pos hk, if_pos hk.symm]; rfl
      · rw [if_neg hk, if_neg (Ne.symm hk)]; rfl
    rw [he, List.sum_map_add, ih, List.length_cons]
    congr 1
    rw [List.sum_map_eq_nsmul_single c.1 _ fun k hk _ => if_neg hk, if_pos rfl,
      List.count_eq_one_of_mem hks hc]
    rfl

theorem sum_length_column {ks : List κ} (hks : ks.Nodup) : ∀ {rows : List (List (κ × α))},
    (∀ r ∈ rows, ∀ k ∈ keys r, k ∈ ks) →
      (ks.map fun k => (column k rows).length).sum = (rows.map List.length).sum
  | [], _ => by simp
  | r :: rows, h => by
    have ih := sum_length_column hks fun r' h' => h r' (List.mem_cons_of_mem _ h')
    simp only [column_cons, List.length_append, List.map_cons, List.sum_cons]
    rw [List.sum_map_add, ih, sum_length_cell hks (h r List.mem_cons_self)]

/-- **Columns of the right lengths are the columns of a table.** -/
theorem exists_table : ∀ (kss : List (List κ)) (c : κ → List α), (∀ ks ∈ kss, ks.Nodup) →
    (∀ k, (c k).length = kss.countP fun ks => k ∈ ks) →
      ∃ rows : List (List (κ × α)), rows.map keys = kss ∧ ∀ k, column k rows = c k
  | [], c, _, hc => ⟨[], rfl, fun k => by
      have := hc k
      simpa [eq_comm] using this⟩
  | ks :: kss, c, hn, hc => by
    have hks := hn ks List.mem_cons_self
    have hne : ∀ k ∈ ks, c k ≠ [] := fun k hk h0 => by
      have := hc k
      rw [h0, List.countP_cons, if_pos (by simpa using hk)] at this
      simp at this
    obtain ⟨r, hr, hcell⟩ := exists_row hks hne
    obtain ⟨rows, hrows, hcol⟩ := exists_table kss
      (fun k => if k ∈ ks then (c k).tail else c k)
      (fun ks' h' => hn ks' (List.mem_cons_of_mem _ h')) fun k => by
        have := hc k
        rw [List.countP_cons] at this
        by_cases hk : k ∈ ks
        · simp only [hk, decide_true, if_true, List.length_tail] at this ⊢; omega
        · simpa [hk] using this
    refine ⟨r :: rows, by rw [List.map_cons, hr, hrows], fun k => ?_⟩
    rw [column_cons, hcol]
    by_cases hk : k ∈ ks
    · obtain ⟨v, hv, ht⟩ := hcell k hk
      rw [if_pos hk, cell_eq_singleton (hr ▸ hks) hv, ht]; rfl
    · rw [if_neg hk, cell_eq_nil (hr ▸ hk), List.nil_append]

/-! ### Columns laid out one after the other -/

/-- The columns `c 0, …, c (n-1)` in a row. -/
def concat (c : ℕ → List α) (n : ℕ) : List α := (List.range n).flatMap c

/-- Where column `i` begins, for columns of sizes `s`. -/
def start (s : ℕ → ℕ) (i : ℕ) : ℕ := ((List.range i).map s).sum

@[simp] theorem start_zero (s : ℕ → ℕ) : start s 0 = 0 := rfl

@[simp] theorem start_succ (s : ℕ → ℕ) (i : ℕ) : start s (i + 1) = start s i + s i := by
  simp [start, List.range_succ]

theorem start_mono (s : ℕ → ℕ) {i j : ℕ} (h : i ≤ j) : start s i ≤ start s j := by
  induction j, h using Nat.le_induction with
  | base => exact le_rfl
  | succ j _ ih => rw [start_succ]; omega

@[simp] theorem concat_zero (c : ℕ → List α) : concat c 0 = [] := rfl

@[simp] theorem concat_succ (c : ℕ → List α) (n : ℕ) : concat c (n + 1) = concat c n ++ c n := by
  simp [concat, List.range_succ]

theorem length_concat (c : ℕ → List α) (n : ℕ) :
    (concat c n).length = start (fun i => (c i).length) n := by
  induction n with
  | zero => rfl
  | succ n ih => rw [concat_succ, List.length_append, ih, start_succ]

/-- **Entry `p` of column `i` stands at `start i + p`.** -/
theorem getElem?_concat {c : ℕ → List α} {i p : ℕ} (hp : p < (c i).length) :
    ∀ {n : ℕ}, i < n → (concat c n)[start (fun i => (c i).length) i + p]? = (c i)[p]?
  | n + 1, hi => by
    rw [concat_succ]
    rcases Nat.lt_or_ge i n with hlt | hge
    · have hm := start_mono (fun i => (c i).length) (i := i + 1) (j := n) hlt
      rw [start_succ] at hm
      rw [List.getElem?_append_left (by rw [length_concat]; omega), getElem?_concat hp hlt]
    · obtain rfl : i = n := by omega
      rw [List.getElem?_append_right (by rw [length_concat]; omega), length_concat,
        Nat.add_sub_cancel_left]

/-- The piece of size `s i` that begins at `start s i`. -/
def cut (s : ℕ → ℕ) (l : List α) (i : ℕ) : List α := (l.drop (start s i)).take (s i)

theorem length_cut {s : ℕ → ℕ} {l : List α} {i n : ℕ} (h : start s n = l.length) (hi : i < n) :
    (cut s l i).length = s i := by
  have hm := start_mono s (i := i + 1) (j := n) hi
  rw [start_succ] at hm
  simp only [cut, List.length_take, List.length_drop]
  omega

/-- **The pieces of a list, laid out again, are the list.** -/
theorem concat_cut (s : ℕ → ℕ) (l : List α) (n : ℕ) : concat (cut s l) n = l.take (start s n) := by
  induction n with
  | zero => simp
  | succ n ih => rw [concat_succ, ih, start_succ, List.take_add]; rfl

theorem concat_congr {c d : ℕ → List α} {n : ℕ} (h : ∀ i < n, c i = d i) :
    concat c n = concat d n := by
  unfold concat
  rw [List.flatMap_def, List.flatMap_def, List.map_congr_left
    fun i hi => h i (List.mem_range.mp hi)]

end KzGlobal.Lib.Sparse
