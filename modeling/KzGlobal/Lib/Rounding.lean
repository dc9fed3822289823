import Mathlib.Data.Int.Log
import Mathlib.Tactic

/-! # Rounding to a binary format

A binary format keeps a number of significant bits and has a least exponent; what is computed is
rounded to the nearest number of the format, of two as near ones to the one with the even last place
(`Format.round`). Numbers of the format are kept (`Format.round_of_mul_zpow`), and what is not
negative is rounded monotonely (`Format.round_mono`), so an inequality between exact numbers
survives any computation that is monotone, and is decided at its bounds. -/

namespace KzGlobal.Lib.Rounding

/-! ### The nearest integer -/

/-- The nearest integer, and of two as near ones the even one. -/
def roundEven (x : ℚ) : ℤ :=
  if x - ⌊x⌋ < 1 / 2 then ⌊x⌋
  else if 1 / 2 < x - ⌊x⌋ then ⌊x⌋ + 1
  else if ⌊x⌋ % 2 = 0 then ⌊x⌋ else ⌊x⌋ + 1

theorem roundEven_intCast (n : ℤ) : roundEven n = n := by
  have h : (n : ℚ) - ⌊(n : ℚ)⌋ < 1 / 2 := by rw [Int.floor_intCast, sub_self]; norm_num
  rw [roundEven, if_pos h, Int.floor_intCast]

theorem floor_le_roundEven (x : ℚ) : ⌊x⌋ ≤ roundEven x := by
  unfold roundEven
  split_ifs <;> omega

theorem roundEven_le_floor_add_one (x : ℚ) : roundEven x ≤ ⌊x⌋ + 1 := by
  unfold roundEven
  split_ifs <;> omega

theorem roundEven_mono : Monotone roundEven := by
  intro x y hxy
  rcases (Int.floor_mono hxy).lt_or_eq with hlt | heq
  · calc roundEven x ≤ ⌊x⌋ + 1 := roundEven_le_floor_add_one x
      _ ≤ ⌊y⌋ := hlt
      _ ≤ roundEven y := floor_le_roundEven y
  · -- the same two integers are near
    unfold roundEven
    rw [heq]
    split_ifs <;> first | omega | (exfalso; linarith)

/-! ### Formats -/

/-- A binary format: the number of significant bits, and the exponent of the least number that has
so many. -/
structure Format where
  precision : ℕ
  minExponent : ℤ

namespace Format

variable (f : Format) {x y : ℚ}

/-- The exponent of the first bit. -/
def exponent (x : ℚ) : ℤ := max (Int.log 2 |x|) f.minExponent

/-- The unit in the last place. -/
def ulp (x : ℚ) : ℚ := 2 ^ (f.exponent x - (f.precision - 1))

/-- The number of the format nearest to `x`. -/
def round (x : ℚ) : ℚ := roundEven (x / f.ulp x) * f.ulp x

theorem ulp_pos (x : ℚ) : 0 < f.ulp x := zpow_pos (by norm_num) _

@[simp] theorem round_zero : f.round 0 = 0 := by
  rw [round, zero_div, ← Int.cast_zero, roundEven_intCast, Int.cast_zero, zero_mul]

theorem round_of_eq_mul_ulp {m : ℤ} (h : x = m * f.ulp x) : f.round x = x := by
  have hd : x / f.ulp x = m := by rw [div_eq_iff (f.ulp_pos x).ne']; exact h
  rw [round, hd, roundEven_intCast, ← h]

/-- **A number of the format is kept.** -/
theorem round_of_mul_zpow {m : ℕ} {e : ℤ} (hm : m < 2 ^ f.precision)
    (he : f.minExponent - (f.precision - 1) ≤ e) : f.round (m * 2 ^ e) = m * 2 ^ e := by
  rcases Nat.eq_zero_or_pos m with rfl | hpos
  · simp
  have hx : (0 : ℚ) < m * 2 ^ e := mul_pos (by exact_mod_cast hpos) (zpow_pos (by norm_num) _)
  have hlt : |(m * 2 ^ e : ℚ)| < 2 ^ (f.precision + e) := by
    rw [abs_of_pos hx, zpow_add₀ (by norm_num), zpow_natCast]
    exact mul_lt_mul_of_pos_right (by exact_mod_cast hm) (zpow_pos (by norm_num) _)
  have hlog : Int.log 2 |(m * 2 ^ e : ℚ)| < f.precision + e :=
    (Int.lt_zpow_iff_log_lt (by norm_num) (abs_pos.mpr hx.ne')).mp (by exact_mod_cast hlt)
  -- the last place of the format is not before the one of `m`
  have hexp : f.exponent (m * 2 ^ e) - (f.precision - 1) ≤ e := by
    unfold exponent
    omega
  obtain ⟨k, hk⟩ := Int.eq_ofNat_of_zero_le (sub_nonneg.mpr hexp)
  refine f.round_of_eq_mul_ulp (m := m * 2 ^ k) ?_
  have he' : e = (k : ℤ) + (f.exponent (m * 2 ^ e) - (f.precision - 1)) := by omega
  rw [ulp]
  push_cast
  rw [mul_assoc, ← zpow_natCast, ← zpow_add₀ (by norm_num), ← he']

theorem round_natCast {n : ℕ} (hn : n < 2 ^ f.precision)
    (he : f.minExponent - (f.precision - 1) ≤ 0) : f.round n = n := by
  have h := f.round_of_mul_zpow hn he
  rwa [zpow_zero, mul_one] at h

/-! ### Order -/

theorem round_nonneg (hx : 0 ≤ x) : 0 ≤ f.round x := by
  have h := roundEven_mono (div_nonneg hx (f.ulp_pos x).le)
  rw [← Int.cast_zero, roundEven_intCast] at h
  exact mul_nonneg (by exact_mod_cast h) (f.ulp_pos x).le

theorem round_le_zpow (hx : 0 < x) : f.round x ≤ 2 ^ (f.exponent x + 1) := by
  have hpow : (2 : ℚ) ^ (f.exponent x + 1) = ((2 ^ f.precision : ℕ) : ℤ) * f.ulp x := by
    push_cast
    rw [ulp, ← zpow_natCast, ← zpow_add₀ (by norm_num)]
    congr 1
    omega
  have hlt : x ≤ 2 ^ (f.exponent x + 1) := by
    have h := Int.lt_zpow_succ_log_self (b := 2) (by norm_num) |x|
    rw [abs_of_pos hx] at h
    refine (show x < 2 ^ (Int.log 2 x + 1) by exact_mod_cast h).le.trans ?_
    refine zpow_le_zpow_right₀ (by norm_num) ?_
    rw [exponent, abs_of_pos hx]
    omega
  rw [hpow] at hlt ⊢
  have h := roundEven_mono ((div_le_iff₀ (f.ulp_pos x)).mpr hlt)
  rw [roundEven_intCast] at h
  exact mul_le_mul_of_nonneg_right (by exact_mod_cast h) (f.ulp_pos x).le

theorem zpow_le_round (hp : 1 ≤ f.precision) (hx : 0 < x) (he : f.exponent x = Int.log 2 x) :
    2 ^ f.exponent x ≤ f.round x := by
  have hpow : (2 : ℚ) ^ f.exponent x = ((2 ^ (f.precision - 1) : ℕ) : ℤ) * f.ulp x := by
    push_cast
    rw [ulp, ← zpow_natCast, ← zpow_add₀ (by norm_num)]
    congr 1
    omega
  have hle : (2 : ℚ) ^ f.exponent x ≤ x := by
    rw [he]
    exact_mod_cast Int.zpow_log_le_self (b := 2) (by norm_num) hx
  rw [hpow] at hle ⊢
  have h := roundEven_mono ((le_div_iff₀ (f.ulp_pos x)).mpr hle)
  rw [roundEven_intCast] at h
  exact mul_le_mul_of_nonneg_right (by exact_mod_cast h) (f.ulp_pos x).le

/-- **Rounding is monotone** on what is not negative. -/
theorem round_mono (hp : 1 ≤ f.precision) (hx : 0 ≤ x) (hxy : x ≤ y) : f.round x ≤ f.round y := by
  rcases hx.eq_or_lt with rfl | hpos
  · rw [round_zero]
    exact f.round_nonneg hxy
  have hy := hpos.trans_le hxy
  have hexp : f.exponent x ≤ f.exponent y := by
    rw [exponent, exponent, abs_of_pos hpos, abs_of_pos hy]
    exact max_le_max_right _ (Int.log_mono_right hpos hxy)
  rcases hexp.eq_or_lt with he | hlt
  · -- the same unit in the last place
    have hu : f.ulp x = f.ulp y := by rw [ulp, ulp, he]
    rw [round, round, hu]
    have h := roundEven_mono (div_le_div_of_nonneg_right hxy (f.ulp_pos y).le)
    exact mul_le_mul_of_nonneg_right (by exact_mod_cast h) (f.ulp_pos y).le
  · -- a power of two is between them
    have hlog : f.exponent y = Int.log 2 y := by
      have hmin : f.minExponent ≤ f.exponent x := le_max_right ..
      have hy' : f.exponent y = max (Int.log 2 y) f.minExponent := by rw [exponent, abs_of_pos hy]
      omega
    calc f.round x ≤ 2 ^ (f.exponent x + 1) := f.round_le_zpow hpos
      _ ≤ 2 ^ f.exponent y := zpow_le_zpow_right₀ (by norm_num) hlt
      _ ≤ f.round y := f.zpow_le_round hp hy hlog

end Format

/-- The `float` of the machine. -/
def binary32 : Format := ⟨24, -126⟩

end KzGlobal.Lib.Rounding
