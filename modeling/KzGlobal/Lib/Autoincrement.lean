import Mathlib.Tactic

/-! # Tables with an AUTOINCREMENT key

A `Table` is a list of rows under distinct ids, with the largest id that was ever inserted (0 before
the first row). Inserting an id that is there fails and changes nothing; deleting rows leaves the
largest id alone, so `nextId` is new to the table at every time. -/

namespace KzGlobal.Lib.Autoincrement

variable {α : Type*}

/-- A table with an `AUTOINCREMENT` key: no key is there twice, and none is above `seq`. -/
structure Table (α : Type*) where
  rows : List (ℕ × α)
  seq : ℕ
  nodup : (rows.map Prod.fst).Nodup
  le_seq : ∀ r ∈ rows, r.1 ≤ seq

namespace Table

/-- The table before the first insert. -/
def empty : Table α := ⟨[], 0, List.nodup_nil, fun _ h => absurd h List.not_mem_nil⟩

/-- The id after the largest one. -/
def nextId (t : Table α) : ℕ := t.seq + 1

/-- `INSERT`, which fails where the id is there. -/
def insert (t : Table α) (id : ℕ) (a : α) : Table α :=
  if h : id ∈ t.rows.map Prod.fst then t
  else
    { rows := t.rows ++ [(id, a)]
      seq := max t.seq id
      nodup := by
        rw [List.map_append]
        exact t.nodup.append (List.nodup_singleton id) (by simpa using h)
      le_seq := by
        intro r hr
        rcases List.mem_append.mp hr with hr | hr
        · exact (t.le_seq r hr).trans (le_max_left ..)
        · rw [List.mem_singleton.mp hr]
          exact le_max_right .. }

/-- `DELETE` of the rows that meet a condition. -/
def deleteWhere (t : Table α) (p : ℕ × α → Bool) : Table α where
  rows := t.rows.filter fun r => !p r
  seq := t.seq
  nodup := t.nodup.sublist (List.filter_sublist.map Prod.fst)
  le_seq r hr := t.le_seq r (List.mem_of_mem_filter hr)

theorem mem_deleteWhere {t : Table α} {p : ℕ × α → Bool} {r : ℕ × α} :
    r ∈ (t.deleteWhere p).rows ↔ r ∈ t.rows ∧ p r = false := by
  simp [deleteWhere]

theorem seq_insert_le (t : Table α) (id : ℕ) (a : α) : t.seq ≤ (t.insert id a).seq := by
  unfold insert
  split_ifs
  · exact le_rfl
  · exact le_max_left ..

theorem mem_insert_of_mem {t : Table α} {r : ℕ × α} (h : r ∈ t.rows) (id : ℕ) (a : α) :
    r ∈ (t.insert id a).rows := by
  unfold insert
  split_ifs
  · exact h
  · exact List.mem_append_left _ h

/-- **What an insertion of the next id does.** -/
theorem insert_nextId (t : Table α) (a : α) :
    (t.insert t.nextId a).rows = t.rows ++ [(t.nextId, a)] ∧
    (t.insert t.nextId a).seq = t.nextId := by
  have hn : t.nextId ∉ t.rows.map Prod.fst := fun h => by
    obtain ⟨r, hr, he⟩ := List.mem_map.mp h
    have := t.le_seq r hr
    unfold nextId at he
    omega
  unfold insert
  rw [dif_neg hn]
  exact ⟨rfl, max_eq_right (Nat.le_succ _)⟩

end Table

end KzGlobal.Lib.Autoincrement
