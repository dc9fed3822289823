import KzGlobal.Lib.Packed

/-! # Records filled field by field

A packed record is filled by numbers stored in some of its fields, one after the other (`storeAll`).
Where no two of the fields overlap the order does not matter to a reader: each field holds what was
stored in it (`get_storeAll`), and a field apart from all of them what it held before
(`get_storeAll_of_disjoint`). -/

namespace KzGlobal.Lib.Layout

open KzGlobal.Lib.Packed

/-- A number and the field it is stored in. -/
abbrev Store := Field × ℕ

/-- Stores a number in its field, cut to the width of the field. -/
def store (s : Store) (b : List UInt8) : List UInt8 := s.1.put (leBytes s.1.size s.2) b

/-- Stores one after the other. -/
def storeAll (l : List Store) (b : List UInt8) : List UInt8 := l.foldl (fun b s => store s b) b

/-- The fields of the stores lie in a record of `n` bytes. -/
def Within (n : ℕ) (l : List Store) : Prop := ∀ s ∈ l, s.1.off + s.1.size ≤ n

/-- No two stores overlap. -/
def Apart (l : List Store) : Prop := l.Pairwise fun s t => s.1.Disjoint t.1

section
variable {f : Field} {s : Store} {l : List Store} {b : List UInt8}

theorem length_store (h : s.1.off + s.1.size ≤ b.length) : (store s b).length = b.length :=
  Field.length_put (by rw [length_leBytes]; exact h)

theorem length_storeAll (h : Within b.length l) : (storeAll l b).length = b.length := by
  induction l generalizing b with
  | nil => rfl
  | cons s l ih =>
    have hs := length_store (h s List.mem_cons_self)
    refine (ih fun t ht => ?_).trans hs
    rw [hs]
    exact h t (List.mem_cons_of_mem _ ht)

/-- **A field apart from all stores keeps its bytes.** -/
theorem get_storeAll_of_disjoint (h : Within b.length l) (hf : ∀ s ∈ l, s.1.Disjoint f) :
    f.get (storeAll l b) = f.get b := by
  induction l generalizing b with
  | nil => rfl
  | cons s l ih =>
    have hs := h s List.mem_cons_self
    have hrest : Within (store s b).length l := by
      rw [length_store hs]
      exact fun t ht => h t (List.mem_cons_of_mem _ ht)
    refine (ih hrest fun t ht => hf t (List.mem_cons_of_mem _ ht)).trans ?_
    exact Field.get_put_of_disjoint (hf s List.mem_cons_self) (length_leBytes _ _) hs

/-- **A field of the stores holds what was stored in it.** -/
theorem get_storeAll (h : Within b.length l) (ha : Apart l) (hs : s ∈ l) :
    s.1.get (storeAll l b) = leBytes s.1.size s.2 := by
  induction l generalizing b with
  | nil => exact absurd hs List.not_mem_nil
  | cons t l ih =>
    obtain ⟨ht, hl⟩ := List.pairwise_cons.mp ha
    have hin := h t List.mem_cons_self
    have hrest : Within (store t b).length l := by
      rw [length_store hin]
      exact fun s' hs' => h s' (List.mem_cons_of_mem _ hs')
    rcases List.mem_cons.mp hs with rfl | hs
    · have hkeep : s.1.get (storeAll l (store s b)) = s.1.get (store s b) :=
        get_storeAll_of_disjoint hrest fun s' hs' => (ht s' hs').symm
      exact hkeep.trans (Field.get_put hin (length_leBytes _ _))
    · exact ih hrest hl hs

theorem le_get_storeAll (h : Within b.length l) (ha : Apart l) (hs : s ∈ l) :
    le (s.1.get (storeAll l b)) = s.2 % 256 ^ s.1.size := by
  rw [get_storeAll h ha hs, le_leBytes]

end

end KzGlobal.Lib.Layout
