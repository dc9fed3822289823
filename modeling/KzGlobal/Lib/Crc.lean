import Mathlib.Tactic

/-! # Reflected cyclic redundancy checks

A register of `w` bits takes the bits of a message one after another, the lowest bit of a byte
first: the bit is added to the lowest bit of the register, the register moves down by one, and the
polynomial is added where a one falls out (`feed`). A table with the outcome of eight such steps for
every byte does a byte at once (`foldl_tableStep`), which rests on a step being linear (`step_xor`)
and on the bits above the lowest eight only moving down (`steps_of_low_zero`). -/

namespace KzGlobal.Lib.Crc

variable {w : ℕ} {poly : BitVec w}

/-! ### Bit by bit -/

/-- One step of the division. -/
def step (poly r : BitVec w) : BitVec w := if r.getLsbD 0 then r >>> 1 ^^^ poly else r >>> 1

/-- A register with a lowest bit alone. -/
def low (w : ℕ) (b : Bool) : BitVec w := BitVec.setWidth w (.ofBool b)

/-- The register takes a bit. -/
def feed (poly r : BitVec w) (b : Bool) : BitVec w := step poly (r ^^^ low w b)

/-- The bits of a byte, the lowest first. -/
def bits (b : UInt8) : List Bool := (List.range 8).map b.toBitVec.getLsbD

/-- The register after a message. -/
def register (poly init : BitVec w) (bs : List UInt8) : BitVec w :=
  (bs.flatMap bits).foldl (feed poly) init

/-- The check of a message. -/
def crc (poly init xorOut : BitVec w) (bs : List UInt8) : BitVec w :=
  register poly init bs ^^^ xorOut

/-- **A message in two parts.** -/
theorem register_append (init : BitVec w) (bs bs' : List UInt8) :
    register poly init (bs ++ bs') = register poly (register poly init bs) bs' := by
  rw [register, List.flatMap_append, List.foldl_append]
  rfl

/-! ### Steps -/

/-- **A step is linear.** -/
theorem step_xor (x y : BitVec w) : step poly (x ^^^ y) = step poly x ^^^ step poly y := by
  unfold step
  rw [BitVec.getLsbD_xor, BitVec.ushiftRight_xor_distrib]
  cases x.getLsbD 0 <;> cases y.getLsbD 0
  · rfl
  · simp [BitVec.xor_assoc]
  · simp only [Bool.true_xor, Bool.not_false, if_true, Bool.false_eq_true, if_false]
    ac_rfl
  · simp only [Bool.true_xor, Bool.not_true, if_true, Bool.false_eq_true, if_false]
    have h : x >>> 1 ^^^ poly ^^^ (y >>> 1 ^^^ poly) = x >>> 1 ^^^ y >>> 1 ^^^ (poly ^^^ poly) := by
      ac_rfl
    rw [h, BitVec.xor_self, BitVec.xor_zero]

theorem steps_xor (n : ℕ) (x y : BitVec w) :
    (step poly)^[n] (x ^^^ y) = (step poly)^[n] x ^^^ (step poly)^[n] y := by
  induction n generalizing x y with
  | zero => rfl
  | succ n ih => rw [Function.iterate_succ_apply, step_xor, ih]; rfl

theorem step_of_even {x : BitVec w} (h : x.getLsbD 0 = false) : step poly x = x >>> 1 := by
  rw [step, h, if_neg Bool.false_ne_true]

theorem steps_of_low_zero (n : ℕ) {x : BitVec w} (h : ∀ i < n, x.getLsbD i = false) :
    (step poly)^[n] x = x >>> n := by
  induction n generalizing x with
  | zero => simp
  | succ n ih =>
    have h1 : ∀ i < n, (x >>> 1).getLsbD i = false := fun i hi => by
      rw [BitVec.getLsbD_ushiftRight]
      exact h (1 + i) (by omega)
    rw [Function.iterate_succ_apply, step_of_even (h 0 n.succ_pos), ih h1, ← BitVec.shiftRight_add,
      Nat.add_comm]

theorem getLsbD_low (b : Bool) (i : ℕ) :
    (low w b).getLsbD i = (decide (i < w) && (decide (i = 0) && b)) := by
  rw [low, BitVec.getLsbD_setWidth, BitVec.getLsbD_ofBool]

theorem step_xor_eq_feed (r v : BitVec w) :
    step poly (r ^^^ v) = feed poly r (v.getLsbD 0) ^^^ v >>> 1 := by
  have hsplit : r ^^^ v = r ^^^ low w (v.getLsbD 0) ^^^ (low w (v.getLsbD 0) ^^^ v) := by
    have h : r ^^^ low w (v.getLsbD 0) ^^^ (low w (v.getLsbD 0) ^^^ v) =
        r ^^^ v ^^^ (low w (v.getLsbD 0) ^^^ low w (v.getLsbD 0)) := by ac_rfl
    rw [h, BitVec.xor_self, BitVec.xor_zero]
  have heven : (low w (v.getLsbD 0) ^^^ v).getLsbD 0 = false := by
    rw [BitVec.getLsbD_xor, getLsbD_low]
    rcases w with _ | w <;> simp
  have hshift : (low w (v.getLsbD 0) ^^^ v) >>> 1 = v >>> 1 := by
    refine BitVec.eq_of_getLsbD_eq fun i hi => ?_
    simp [getLsbD_low]
  rw [hsplit, step_xor, step_of_even heven, hshift]
  rfl

variable (poly) in
/-- **Bits that are fed one by one are `n` steps with all of them added first**, up to the bits that
are not fed. -/
theorem foldl_feed (n : ℕ) (r v : BitVec w) :
    ((List.range n).map v.getLsbD).foldl (feed poly) r ^^^ v >>> n =
      (step poly)^[n] (r ^^^ v) := by
  induction n generalizing r v with
  | zero => simp
  | succ n ih =>
    have hbits : (List.range (n + 1)).map v.getLsbD =
        v.getLsbD 0 :: (List.range n).map (v >>> 1).getLsbD := by
      rw [List.range_succ_eq_map, List.map_cons, List.map_map]
      refine congrArg _ (List.map_congr_left fun i _ => ?_)
      rw [BitVec.getLsbD_ushiftRight, Nat.add_comm]
      rfl
    rw [hbits, List.foldl_cons, Function.iterate_succ_apply, step_xor_eq_feed, ← ih,
      ← BitVec.shiftRight_add, Nat.add_comm]

/-! ### Byte by byte -/

/-- A byte in the lowest bits of a register. -/
def ofByte (w : ℕ) (b : UInt8) : BitVec w := b.toBitVec.setWidth w

/-- The lowest byte of a register. -/
def lowByte (r : BitVec w) : UInt8 := .ofBitVec (r.setWidth 8)

/-- The table has the outcome of eight steps for every byte. -/
def IsTable (poly : BitVec w) (t : UInt8 → BitVec w) : Prop :=
  ∀ b, t b = (step poly)^[8] (ofByte w b)

/-- The register takes a byte by a table. -/
def tableStep (t : UInt8 → BitVec w) (r : BitVec w) (b : UInt8) : BitVec w :=
  t (lowByte (r ^^^ ofByte w b)) ^^^ r >>> 8

theorem ofByte_ushiftRight (b : UInt8) : ofByte w b >>> 8 = 0#w := by
  refine BitVec.eq_of_getLsbD_eq fun i hi => ?_
  rw [BitVec.getLsbD_ushiftRight, ofByte, BitVec.getLsbD_setWidth,
    BitVec.getLsbD_of_ge _ _ (Nat.le_add_right 8 i), Bool.and_false, BitVec.getLsbD_zero]

theorem foldl_feed_bits (hw : 8 ≤ w) (r : BitVec w) (b : UInt8) :
    (bits b).foldl (feed poly) r = (step poly)^[8] (r ^^^ ofByte w b) := by
  have hbits : bits b = (List.range 8).map (ofByte w b).getLsbD := by
    refine List.map_congr_left fun i hi => ?_
    have hi8 : i < w := (List.mem_range.mp hi).trans_le hw
    rw [ofByte, BitVec.getLsbD_setWidth, decide_eq_true hi8, Bool.true_and]
  have h := foldl_feed poly 8 r (ofByte w b)
  rwa [ofByte_ushiftRight, BitVec.xor_zero, ← hbits] at h

/-- Eight steps of any register: the table for the lowest byte, the rest moves down. -/
theorem IsTable.steps {t : UInt8 → BitVec w} (h : IsTable poly t) (r : BitVec w) :
    (step poly)^[8] r = t (lowByte r) ^^^ r >>> 8 := by
  have hhigh : ∀ i < 8, (ofByte w (lowByte r) ^^^ r).getLsbD i = false := by
    intro i hi
    by_cases hw : i < w
    · simp [ofByte, lowByte, hi, hw]
    · exact BitVec.getLsbD_of_ge _ _ (not_lt.mp hw)
  have hsplit : r = ofByte w (lowByte r) ^^^ (ofByte w (lowByte r) ^^^ r) := by
    rw [← BitVec.xor_assoc, BitVec.xor_self, BitVec.zero_xor]
  have hshift : (ofByte w (lowByte r) ^^^ r) >>> 8 = r >>> 8 := by
    rw [BitVec.ushiftRight_xor_distrib, ofByte_ushiftRight, BitVec.zero_xor]
  conv_lhs => rw [hsplit]
  rw [steps_xor, ← h, steps_of_low_zero 8 hhigh, hshift]

/-- **The table computes the register.** -/
theorem foldl_tableStep {t : UInt8 → BitVec w} (hw : 8 ≤ w) (h : IsTable poly t) :
    ∀ (bs : List UInt8) (r : BitVec w), bs.foldl (tableStep t) r = register poly r bs
  | [], _ => rfl
  | b :: bs, r => by
    have hbyte : tableStep t r b = register poly r [b] := by
      rw [register, List.flatMap_singleton, foldl_feed_bits hw, h.steps, tableStep,
        BitVec.ushiftRight_xor_distrib, ofByte_ushiftRight, BitVec.xor_zero]
    rw [List.foldl_cons, hbyte, foldl_tableStep hw h bs, ← register_append, List.singleton_append]

end KzGlobal.Lib.Crc
