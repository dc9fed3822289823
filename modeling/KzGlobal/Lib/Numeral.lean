import Mathlib.Data.Nat.Digits.Defs
import Mathlib.Tactic.Ring

/-! # Numerals and the order of texts

A numeral is a list of characters that stand for digits, the most significant one first. Numerals of
one length are ordered as texts the way their values are (`lt_iff_value`). Where a numeral is
followed by a character above all digits, a longer numeral comes after it exactly where its first
digits do (`lt_wide_iff`). -/

namespace KzGlobal.Lib.Numeral

variable {α : Type*}

/-! ### Texts with a common beginning -/

section Order
variable [LT α] [Std.Irrefl (· < · : α → α → Prop)]

/-- **Different beginnings of one length decide.** -/
theorem append_lt_append_iff {l m : List α} (hlen : l.length = m.length) (x y : List α) :
    l ++ x < m ++ y ↔ l < m ∨ l = m ∧ x < y := by
  induction l generalizing m with
  | nil =>
    obtain rfl : m = [] := List.length_eq_zero_iff.mp hlen.symm
    simp [List.lt_irrefl]
  | cons a l ih =>
    rcases m with _ | ⟨b, m⟩
    · simp at hlen
    · have hlen' : l.length = m.length := by simpa using hlen
      rw [List.cons_append, List.cons_append, List.cons_lt_cons_iff,
        List.cons_lt_cons_iff, ih hlen', List.cons.injEq]
      tauto

end Order

/-! ### The value of a numeral -/

/-- The value of a numeral in base `B`, whose characters stand for the digits `v`. -/
def value (v : α → ℕ) (B : ℕ) (l : List α) : ℕ := Nat.ofDigits B (l.map v).reverse

section Value
variable (v : α → ℕ) (B : ℕ)

@[simp] theorem value_nil : value v B [] = 0 := rfl

theorem value_append (l m : List α) :
    value v B (l ++ m) = value v B l * B ^ m.length + value v B m := by
  rw [value, List.map_append, List.reverse_append, Nat.ofDigits_append, List.length_reverse,
    List.length_map, Nat.add_comm, Nat.mul_comm]
  rfl

@[simp] theorem value_singleton (c : α) : value v B [c] = v c := by
  rw [value, List.map_singleton, List.reverse_singleton, Nat.ofDigits_singleton]

theorem value_cons (c : α) (l : List α) :
    value v B (c :: l) = v c * B ^ l.length + value v B l := by
  rw [← List.singleton_append, value_append, value_singleton]

theorem foldl_eq_value (l : List α) (n : ℕ) :
    l.foldl (fun n c => n * B + v c) n = n * B ^ l.length + value v B l := by
  induction l generalizing n with
  | nil => simp
  | cons c l ih =>
    rw [List.foldl_cons, ih, value_cons, List.length_cons, Nat.pow_succ]
    ring

variable {v B}

theorem value_lt (hB : 1 < B) {l : List α} (h : ∀ c ∈ l, v c < B) : value v B l < B ^ l.length := by
  have hl : ∀ d ∈ (l.map v).reverse, d < B := by simpa using h
  simpa [value] using Nat.ofDigits_lt_base_pow_length hB hl

/-- **The first digits of a numeral.** -/
theorem value_take (hB : 1 < B) {l : List α} (h : ∀ c ∈ l, v c < B) (k : ℕ) :
    value v B (l.take k) = value v B l / B ^ (l.length - k) := by
  rw [value, value, Nat.ofDigits_div_pow_eq_ofDigits_drop _ (by omega) _ (by simpa using h),
    List.drop_reverse, List.length_map, ← List.map_take]
  rcases Nat.le_total k l.length with hk | hk
  · rw [show l.length - (l.length - k) = k by omega]
  · rw [List.take_of_length_le hk, List.take_of_length_le (by omega)]

end Value

/-! ### Values and order -/

section Digits
variable [LT α] {v : α → ℕ} {B : ℕ}

/-- Characters that stand for the digits below `B`, in their order. -/
structure Digits (v : α → ℕ) (B : ℕ) (D : α → Prop) : Prop where
  base : 1 < B
  lt {c : α} : D c → v c < B
  lt_iff {c d : α} : D c → D d → (c < d ↔ v c < v d)
  inj {c d : α} : D c → D d → v c = v d → c = d

variable {D : α → Prop} (hD : Digits v B D)
include hD

theorem Digits.value_lt {l : List α} (h : ∀ c ∈ l, D c) : value v B l < B ^ l.length :=
  Numeral.value_lt hD.base fun c hc => hD.lt (h c hc)

/-- **Numerals of one length are ordered as their values are**, and equal where these are. -/
theorem Digits.lt_iff_value {l m : List α} (hl : ∀ c ∈ l, D c) (hm : ∀ c ∈ m, D c)
    (hlen : l.length = m.length) :
    (l < m ↔ value v B l < value v B m) ∧ (value v B l = value v B m → l = m) := by
  induction l generalizing m with
  | nil =>
    obtain rfl : m = [] := List.length_eq_zero_iff.mp hlen.symm
    simp
  | cons c l ih =>
    rcases m with _ | ⟨d, m⟩
    · simp at hlen
    · rw [List.forall_mem_cons] at hl hm
      have hlen' : l.length = m.length := by simpa using hlen
      obtain ⟨ihlt, iheq⟩ := ih hl.2 hm.2 hlen'
      have hvl := hD.value_lt hl.2
      have hvm := hD.value_lt hm.2
      rw [List.cons_lt_cons_iff, hD.lt_iff hl.1 hm.1, ihlt, value_cons, value_cons, hlen']
      rw [hlen'] at hvl
      rcases Nat.lt_trichotomy (v c) (v d) with hcd | hcd | hcd
      · have hmul : (v c + 1) * B ^ m.length ≤ v d * B ^ m.length := Nat.mul_le_mul_right _ hcd
        rw [Nat.add_mul] at hmul
        refine ⟨⟨fun _ => by omega, fun _ => Or.inl hcd⟩, fun he => ?_⟩
        omega
      · obtain rfl := hD.inj hl.1 hm.1 hcd
        refine ⟨⟨fun h => ?_, fun h => Or.inr ⟨rfl, by omega⟩⟩, fun he => ?_⟩
        · rcases h with h | ⟨-, h⟩
          · omega
          · omega
        · rw [iheq (by omega)]
      · have hmul : (v d + 1) * B ^ m.length ≤ v c * B ^ m.length := Nat.mul_le_mul_right _ hcd
        rw [Nat.add_mul] at hmul
        refine ⟨⟨fun h => ?_, fun h => by omega⟩, fun he => ?_⟩
        · rcases h with h | ⟨rfl, -⟩
          · omega
          · omega
        · omega

/-- **A longer numeral comes after a shorter one** that a character above all digits ends, exactly
where its first digits do. -/
theorem Digits.lt_wide_iff [Std.Irrefl (· < · : α → α → Prop)] {l m x y : List α} {s : α}
    (hl : ∀ c ∈ l, D c) (hm : ∀ c ∈ m, D c) (hs : ∀ c, D c → ¬ s < c ∧ s ≠ c)
    (hlen : l.length < m.length) :
    l ++ s :: x < m ++ y ↔ value v B l < value v B m / B ^ (m.length - l.length) := by
  have ht : (m.take l.length).length = l.length := by
    rw [List.length_take]
    omega
  have htake : ∀ c ∈ m.take l.length, D c := fun c hc => hm c (List.mem_of_mem_take hc)
  obtain ⟨d, rest, hdrop⟩ : ∃ d rest, m.drop l.length = d :: rest :=
    List.exists_cons_of_ne_nil fun h0 => by
      have := congrArg List.length h0
      rw [List.length_drop, List.length_nil] at this
      omega
  have hd : D d := hm d (List.mem_of_mem_drop (hdrop ▸ List.mem_cons_self))
  have hno : ¬ s :: x < (d :: rest) ++ y := by
    rw [List.cons_append, List.cons_lt_cons_iff]
    rintro (h | ⟨h, -⟩)
    · exact (hs d hd).1 h
    · exact (hs d hd).2 h
  rw [← value_take hD.base fun c hc => hD.lt (hm c hc), ← (hD.lt_iff_value hl htake ht.symm).1]
  conv_lhs => rw [← List.take_append_drop l.length m, hdrop, List.append_assoc]
  rw [append_lt_append_iff ht.symm]
  constructor
  · rintro (h | ⟨-, h⟩)
    · exact h
    · exact absurd h hno
  · exact Or.inl

end Digits

end KzGlobal.Lib.Numeral
