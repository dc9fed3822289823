import Mathlib.Tactic

/-! # Bits of machine words

A word of `w` bits holds a boolean for each of `w` indices, and an array of `n` words one for each
of `n * w` indices. Writing an index modulo the width (`setBit`, `clearBit`) changes the boolean of
that index and no other that the word has (`testBit_setBit`, `testBit_clearBit`); in an array, the
quotient is the word (`memSet_insertSet`). Reading one is a mask and a comparison with 0. -/

namespace KzGlobal.Lib.BitField

/-! ### One word -/

section Word
variable {w : ℕ} {field : BitVec w} {i j : ℕ}

/-- `1 << (i % w)`. -/
def mask (w i : ℕ) : BitVec w := BitVec.twoPow w (i % w)

/-- Bit `i` of one word is set. -/
def setBit (field : BitVec w) (i : ℕ) : BitVec w := field ||| mask w i

/-- Bit `i` of one word is read. -/
def testBit (field : BitVec w) (i : ℕ) : Bool := field &&& mask w i ≠ 0#w

/-- Bit `i` of one word is cleared. -/
def clearBit (field : BitVec w) (i : ℕ) : BitVec w := field &&& ~~~ mask w i

theorem getLsbD_mask (hw : 0 < w) (i j : ℕ) : (mask w i).getLsbD j = decide (i % w = j) := by
  rw [mask, BitVec.getLsbD_twoPow, decide_eq_true (Nat.mod_lt i hw), Bool.true_and]

theorem testBit_eq_getLsbD (hw : 0 < w) (field : BitVec w) (i : ℕ) :
    testBit field i = field.getLsbD (i % w) := by
  have hi : i % w < w := Nat.mod_lt i hw
  have hne : BitVec.twoPow w (i % w) ≠ 0#w := by
    intro h0
    have hbit := congrArg (fun x => x.getLsbD (i % w)) h0
    simp [hi] at hbit
  rw [testBit, mask, BitVec.and_twoPow]
  cases field.getLsbD (i % w) with
  | true => simpa using hne
  | false => simp

theorem testBit_zero (hw : 0 < w) (i : ℕ) : testBit (0#w) i = false := by
  rw [testBit_eq_getLsbD hw, BitVec.getLsbD_zero]

/-- **A bit that is set**, and the others. -/
theorem testBit_setBit (hw : 0 < w) :
    testBit (setBit field i) j = (testBit field j || decide (i % w = j % w)) := by
  rw [testBit_eq_getLsbD hw, testBit_eq_getLsbD hw, setBit, BitVec.getLsbD_or, getLsbD_mask hw]

/-- **A bit that is cleared**, and the others. -/
theorem testBit_clearBit (hw : 0 < w) :
    testBit (clearBit field i) j = (testBit field j && !decide (i % w = j % w)) := by
  rw [testBit_eq_getLsbD hw, testBit_eq_getLsbD hw, clearBit, BitVec.getLsbD_and,
    BitVec.getLsbD_not, getLsbD_mask hw, decide_eq_true (Nat.mod_lt j hw), Bool.true_and]

end Word

/-! ### An array of words -/

section Words
variable {w n : ℕ} {set : Vector (BitVec w) n} {i j : ℕ}

/-- The word of an index; there are none behind the array. -/
def word (set : Vector (BitVec w) n) (k : ℕ) : BitVec w := set[k]?.getD 0#w

/-- Bit `i` of a vector of words is set. -/
def insertSet (set : Vector (BitVec w) n) (i : ℕ) : Vector (BitVec w) n :=
  set.setIfInBounds (i / w) (setBit (word set (i / w)) i)

/-- Bit `i` of a vector of words is read. -/
def memSet (set : Vector (BitVec w) n) (i : ℕ) : Bool := testBit (word set (i / w)) i

theorem memSet_replicate (hw : 0 < w) (i : ℕ) :
    memSet (Vector.replicate n 0#w) i = false := by
  have hzero : word (Vector.replicate n 0#w) (i / w) = 0#w := by
    unfold word
    by_cases hk : i / w < n
    · simp [hk]
    · simp [hk]
  rw [memSet, hzero, testBit_zero hw]

/-- **An index that is added**, and the others. -/
theorem memSet_insertSet (hw : 0 < w) (hi : i < n * w) :
    memSet (insertSet set i) j = (memSet set j || decide (i = j)) := by
  have hk : i / w < n := Nat.div_lt_of_lt_mul (by rwa [Nat.mul_comm])
  unfold memSet insertSet word
  by_cases hword : i / w = j / w
  · have hiff : i % w = j % w ↔ i = j := by
      constructor
      · intro hmod
        rw [← Nat.div_add_mod i w, ← Nat.div_add_mod j w, hword, hmod]
      · rintro rfl
        rfl
    rw [← hword, Vector.getElem?_setIfInBounds, if_pos rfl, if_pos hk, Option.getD_some,
      testBit_setBit hw, decide_eq_decide.mpr hiff]
  · have hne : i ≠ j := fun h => hword (h ▸ rfl)
    rw [Vector.getElem?_setIfInBounds, if_neg hword, decide_eq_false hne, Bool.or_false]

/-- **A set that is filled in a loop.** -/
theorem memSet_foldl (hw : 0 < w) : ∀ (is : List ℕ) (set : Vector (BitVec w) n),
    (∀ i ∈ is, i < n * w) → memSet (is.foldl insertSet set) j = (memSet set j || decide (j ∈ is))
  | [], set, _ => by simp
  | i :: is, set, h => by
    rw [List.forall_mem_cons] at h
    rw [List.foldl_cons, memSet_foldl hw is _ h.2, memSet_insertSet hw h.1, Bool.or_assoc]
    congr 1
    simp [List.mem_cons, eq_comm]

end Words

end KzGlobal.Lib.BitField
