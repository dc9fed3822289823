import Mathlib.Tactic
import Mathlib.Data.Nat.Digits.Lemmas

/-! # Packed records: little-endian numbers and fields at fixed offsets

A packed record is a list of bytes and a field `⟨off, size⟩` names `size` of them from `off` on.
`get` reads the bytes of a field and `put` overwrites them; what `put` writes `get` reads back
(`get_put`), and a field that `put` does not overlap keeps its bytes (`get_put_of_disjoint`).
Numbers are stored little-endian: `le` reads one, `leBytes n` writes its low `n` bytes. -/

namespace KzGlobal.Lib.Packed

/-! ### Little-endian numbers -/

/-- The number stored in `bs`, the first byte being the lowest. -/
def le (bs : List UInt8) : ℕ := Nat.ofDigits 256 (bs.map UInt8.toNat)

/-- The low `n` bytes of `x`, the lowest first. -/
def leBytes : ℕ → ℕ → List UInt8
  | 0, _ => []
  | n + 1, x => UInt8.ofNat x :: leBytes n (x / 256)

@[simp] theorem le_nil : le [] = 0 := rfl

@[simp] theorem le_cons (b : UInt8) (bs : List UInt8) : le (b :: bs) = b.toNat + 256 * le bs := by
  simp [le, Nat.ofDigits_cons]

@[simp] theorem length_leBytes : ∀ (n x : ℕ), (leBytes n x).length = n
  | 0, _ => rfl
  | n + 1, x => by simp [leBytes, length_leBytes n]

theorem le_lt : ∀ (bs : List UInt8), le bs < 256 ^ bs.length
  | [] => by simp
  | b :: bs => by
    have h := le_lt bs
    have hb : b.toNat < 256 := b.toNat_lt
    rw [le_cons, List.length_cons, pow_succ]
    omega

theorem le_leBytes : ∀ (n x : ℕ), le (leBytes n x) = x % 256 ^ n
  | 0, x => by simp [leBytes, Nat.mod_one]
  | n + 1, x => by
    have h : (256 : ℕ) ^ (n + 1) = 256 * 256 ^ n := pow_succ' 256 n
    rw [leBytes, le_cons, le_leBytes n, UInt8.toNat_ofNat', h, Nat.mod_mul]

theorem leBytes_le : ∀ (bs : List UInt8), leBytes bs.length (le bs) = bs
  | [] => rfl
  | b :: bs => by
    have hb : b.toNat < 256 := b.toNat_lt
    have hd : (b.toNat + 256 * le bs) / 256 = le bs := by omega
    rw [List.length_cons, le_cons, leBytes, hd, leBytes_le bs]
    congr 1
    apply UInt8.toNat_inj.mp
    rw [UInt8.toNat_ofNat']
    omega

/-- **Bit `8 * i + j` of the number is bit `j` of byte `i`.** -/
theorem testBit_le : ∀ (bs : List UInt8) (k : ℕ),
    (le bs).testBit k = ((bs.getD (k / 8) 0).toNat).testBit (k % 8)
  | [], k => by simp
  | b :: bs, k => by
    have hb : b.toNat < 2 ^ 8 := b.toNat_lt
    rw [le_cons, Nat.add_comm, show (256 : ℕ) = 2 ^ 8 from rfl, Nat.testBit_two_pow_mul_add _ hb]
    by_cases hk : k < 8
    · simp [hk, Nat.div_eq_of_lt hk, Nat.mod_eq_of_lt hk]
    · obtain ⟨k', rfl⟩ : ∃ k', k = k' + 8 := ⟨k - 8, by omega⟩
      have hd : (k' + 8) / 8 = k' / 8 + 1 := by omega
      rw [if_neg hk, hd, Nat.add_mod_right, Nat.add_sub_cancel, List.getD_cons_succ]
      exact testBit_le bs k'

/-! ### Fields -/

/-- A field of a packed record: `size` bytes from `off` on. -/
structure Field where
  off : ℕ
  size : ℕ
  deriving DecidableEq, Repr

variable {α : Type*}

/-- The bytes of the field. -/
def Field.get (f : Field) (b : List α) : List α := (b.drop f.off).take f.size

/-- Overwrites the record from the field's offset on. -/
def Field.put (f : Field) (v b : List α) : List α := b.take f.off ++ v ++ b.drop (f.off + v.length)

/-- The field ends where `g` begins, or the other way round. -/
def Field.Disjoint (f g : Field) : Prop := f.off + f.size ≤ g.off ∨ g.off + g.size ≤ f.off

instance (f g : Field) : Decidable (f.Disjoint g) := by unfold Field.Disjoint; infer_instance

theorem Field.length_get {f : Field} {b : List α} (h : f.off + f.size ≤ b.length) :
    (f.get b).length = f.size := by
  simp only [get, List.length_take, List.length_drop]; omega

theorem Field.length_put {f : Field} {v b : List α} (h : f.off + v.length ≤ b.length) :
    (f.put v b).length = b.length := by
  simp only [put, List.length_append, List.length_take, List.length_drop]; omega

theorem Field.getElem?_put {f : Field} {v b : List α} (h : f.off + v.length ≤ b.length) (i : ℕ) :
    (f.put v b)[i]? = if f.off ≤ i ∧ i < f.off + v.length then v[i - f.off]? else b[i]? := by
  have hl : (b.take f.off).length = f.off := by simp; omega
  unfold put
  split_ifs with hi
  · rw [List.append_assoc, List.getElem?_append_right (by omega), hl,
      List.getElem?_append_left (by omega)]
  · rcases Nat.lt_or_ge i f.off with hlt | hge
    · rw [List.append_assoc, List.getElem?_append_left (by omega), List.getElem?_take_of_lt hlt]
    · rw [List.getElem?_append_right (by simp; omega), List.getElem?_drop]
      congr 1
      simp only [List.length_append, hl]
      omega

theorem Field.getElem?_get (f : Field) (b : List α) (i : ℕ) :
    (f.get b)[i]? = if i < f.size then b[f.off + i]? else none := by
  rw [get, List.getElem?_take, List.getElem?_drop]

/-- **What is written is read back.** -/
theorem Field.get_put {f : Field} {v b : List α} (hb : f.off + f.size ≤ b.length)
    (hv : v.length = f.size) : f.get (f.put v b) = v := by
  refine List.ext_getElem? fun i => ?_
  rw [getElem?_get, getElem?_put (by omega)]
  split_ifs with h1 h2
  · rw [Nat.add_sub_cancel_left]
  · omega
  · rw [List.getElem?_eq_none (by omega)]

/-- **A field apart from the one written keeps its bytes.** -/
theorem Field.get_put_of_disjoint {f g : Field} {v b : List α} (hd : f.Disjoint g)
    (hv : v.length = f.size) (hb : f.off + f.size ≤ b.length) : g.get (f.put v b) = g.get b := by
  refine List.ext_getElem? fun i => ?_
  unfold Disjoint at hd
  rw [getElem?_get, getElem?_get, getElem?_put (by omega)]
  split_ifs
  · omega
  · rfl
  · rfl

theorem Field.put_get {f : Field} {b : List α} (h : f.off + f.size ≤ b.length) :
    f.put (f.get b) b = b := by
  rw [put, length_get h, get, List.append_assoc, ← List.drop_drop, List.take_append_drop,
    List.take_append_drop]

end KzGlobal.Lib.Packed
