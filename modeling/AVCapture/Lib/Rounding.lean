import Mathlib.Algebra.Order.Field.Rat
import Mathlib.Algebra.Order.Floor.Ring
import Mathlib.Data.Rat.Floor
import Mathlib.Tactic.Linarith
import Mathlib.Tactic.NormNum
import Mathlib.Tactic.Positivity

/-!
# Rounded Arithmetic on Doubles

What a program can rely on when it divides or multiplies two integers as `double` and
converts the result back to an unsigned integer, in any rounding mode: rounding is
monotone and exact on the numbers that a `double` can represent (`Rounding`).

Zeros have no sign here, as those that come from integers have none.

## Contents

- `Rounding`, `Double`, `Double.div`, `Double.mul`, `Double.toSizeT`
- `toSizeT_div_pos_iff`, `toSizeT_mul_pos_iff`: when the conversion of a quotient or
  a product of 32-bit integers is defined and positive
-/

namespace Rounding

/-! ## The numbers -/

/-- A rounding mode of binary64. -/
structure Mode where
  rnd : ℚ → ℚ
  mono : ∀ {p q : ℚ}, p ≤ q → rnd p ≤ rnd q
  exact : ∀ (m e : ℤ), |m| < 2 ^ 53 → -1074 ≤ e → e ≤ 971 →
    rnd ((m : ℚ) * 2 ^ e) = (m : ℚ) * 2 ^ e

/-- Arithmetic without rounding errors satisfies the laws. -/
def Mode.ideal : Mode := ⟨id, fun h => h, fun _ _ _ _ _ => rfl⟩

inductive Double where
  | finite (q : ℚ)
  | infinite (negative : Bool)
  | nan
  deriving DecidableEq

/-- 32-bit integers. -/
def IsInt32 (i : ℤ) : Prop := -2 ^ 31 ≤ i ∧ i < 2 ^ 31

instance (i : ℤ) : Decidable (IsInt32 i) := inferInstanceAs (Decidable (_ ∧ _))

/-- The `double` next to a rational; from `2 ^ 1024` on it is an infinity. -/
def Mode.toDouble (r : Mode) (q : ℚ) : Double :=
  if |r.rnd q| < 2 ^ 1024 then .finite (r.rnd q) else .infinite (decide (r.rnd q < 0))

namespace Double

/-- The conversion of a 32-bit integer, which is exact. -/
def ofInt (i : ℤ) : Double := .finite i

def div (r : Mode) : Double → Double → Double
  | .finite p, .finite q =>
    if q = 0 then if p = 0 then .nan else .infinite (decide (p < 0)) else r.toDouble (p / q)
  | .finite _, .infinite _ => .finite 0
  | .infinite s, .finite q => .infinite (s ^^ decide (q < 0))
  | _, _ => .nan

def mul (r : Mode) : Double → Double → Double
  | .finite p, .finite q => r.toDouble (p * q)
  | .finite p, .infinite s | .infinite s, .finite p =>
    if p = 0 then .nan else .infinite (s ^^ decide (p < 0))
  | .infinite s, .infinite t => .infinite (s ^^ t)
  | _, _ => .nan

/-- `static_cast<size_t>`: truncation towards zero, undefined (`none`) where the result is
    not a 64-bit unsigned integer. -/
def toSizeT : Double → Option ℕ
  | .finite q => if -1 < q ∧ q < 2 ^ 64 then some ⌊q⌋.toNat else none
  | _ => none

/-- `static_cast<int>`: truncation towards zero, undefined outside 32 bits. -/
def toInt32 : Double → Option ℤ
  | .finite q =>
    let i := if 0 ≤ q then ⌊q⌋ else ⌈q⌉
    if IsInt32 i then some i else none
  | _ => none

theorem toInt32_ofInt {i : ℤ} (h : IsInt32 i) : (ofInt i).toInt32 = some i := by
  simp [ofInt, toInt32, h]

end Double

/-! ## Bounds through a rounding -/

section Bounds

variable (r : Mode)

theorem rnd_int {m : ℤ} (h : |m| < 2 ^ 53) : r.rnd m = m := by
  have hexact := r.exact m 0 h (by norm_num) (by norm_num)
  simpa using hexact

theorem rnd_one : r.rnd 1 = 1 := by
  simpa using rnd_int r (m := 1) (by norm_num)

theorem rnd_zero : r.rnd 0 = 0 := by
  simpa using rnd_int r (m := 0) (by norm_num)

/-- A quotient below 1 is rounded to a quotient below 1: the largest such quotient of
    32-bit integers can be represented. -/
theorem rnd_lt_one {q : ℚ} (h : q ≤ (2 ^ 31 - 1) / 2 ^ 31) : r.rnd q < 1 := by
  have hexact := r.exact (2 ^ 31 - 1) (-31) (by norm_num) (by norm_num) (by norm_num)
  have hbound : ((2 ^ 31 - 1 : ℤ) : ℚ) * 2 ^ (-31 : ℤ) = (2 ^ 31 - 1) / 2 ^ 31 := by norm_num
  rw [hbound] at hexact
  calc r.rnd q ≤ r.rnd ((2 ^ 31 - 1) / 2 ^ 31) := r.mono h
    _ = (2 ^ 31 - 1) / 2 ^ 31 := hexact
    _ < 1 := by norm_num

/-- Nothing of this size is rounded out of the range of a `size_t`. -/
theorem abs_rnd_le {q : ℚ} (h : |q| ≤ 2 ^ 62) : |r.rnd q| ≤ 2 ^ 62 := by
  have hbig : ((1 : ℤ) : ℚ) * 2 ^ (62 : ℤ) = 2 ^ 62 := by norm_num
  have hneg : ((-1 : ℤ) : ℚ) * 2 ^ (62 : ℤ) = -2 ^ 62 := by norm_num
  have hexact := r.exact 1 62 (by norm_num) (by norm_num) (by norm_num)
  have hexactNeg := r.exact (-1) 62 (by norm_num) (by norm_num) (by norm_num)
  rw [hbig] at hexact
  rw [hneg] at hexactNeg
  obtain ⟨hlow, hhigh⟩ := abs_le.mp h
  rw [abs_le]
  refine ⟨?_, ?_⟩
  · rw [← hexactNeg]
    exact r.mono hlow
  · rw [← hexact]
    exact r.mono hhigh

theorem toDouble_of_abs_le {q : ℚ} (h : |q| ≤ 2 ^ 62) : r.toDouble q = .finite (r.rnd q) := by
  have hlt : |r.rnd q| < 2 ^ 1024 := by
    calc |r.rnd q| ≤ 2 ^ 62 := abs_rnd_le r h
      _ < 2 ^ 1024 := pow_lt_pow_right₀ (by norm_num) (by norm_num)
  unfold Mode.toDouble
  rw [if_pos hlt]

end Bounds

/-! ## Conversions to an unsigned integer -/

theorem one_le_toSizeT_iff {q : ℚ} (h : q < 2 ^ 64) :
    (∃ n, Double.toSizeT (.finite q) = some n ∧ 1 ≤ n) ↔ 1 ≤ q := by
  unfold Double.toSizeT
  refine ⟨?_, ?_⟩
  · intro hex
    obtain ⟨n, hn, hpos⟩ := hex
    simp only [Option.ite_none_right_eq_some, Option.some.injEq] at hn
    obtain ⟨_, rfl⟩ := hn
    have hfloor : (1 : ℤ) ≤ ⌊q⌋ := by omega
    exact_mod_cast Int.le_floor.mp hfloor
  · intro hq
    have hfloor : (1 : ℤ) ≤ ⌊q⌋ := Int.le_floor.mpr (by exact_mod_cast hq)
    exact ⟨⌊q⌋.toNat, if_pos ⟨by linarith, h⟩, by omega⟩

/-- What is converted to a positive number is finite and positive. -/
theorem finite_of_toSizeT_pos {d : Double} {n : ℕ} (h : d.toSizeT = some n) (hpos : 1 ≤ n) :
    ∃ q, d = .finite q ∧ 1 ≤ q := by
  cases d with
  | finite q =>
    have hlt : q < 2 ^ 64 := by
      simp only [Double.toSizeT, Option.ite_none_right_eq_some] at h
      exact h.1.2
    exact ⟨q, rfl, (one_le_toSizeT_iff hlt).mp ⟨n, h, hpos⟩⟩
  | infinite negative => simp [Double.toSizeT] at h
  | nan => simp [Double.toSizeT] at h

/-- A quotient with a positive divisor stays on its side of 1. -/
theorem one_le_rnd_div_iff (r : Mode) {a b : ℤ} (hpos : 0 < b) (hb : b ≤ 2 ^ 31) :
    1 ≤ r.rnd ((a : ℚ) / b) ↔ b ≤ a := by
  have hposq : (0 : ℚ) < b := by exact_mod_cast hpos
  refine ⟨?_, ?_⟩
  · intro h
    by_contra hlt
    -- the quotient is at most `1 - 1 / b`, and `b` is at most `2 ^ 31`
    have hle : (a : ℚ) / b ≤ (2 ^ 31 - 1) / 2 ^ 31 := by
      rw [div_le_div_iff₀ hposq (by norm_num)]
      have hint : a * 2 ^ 31 ≤ (2 ^ 31 - 1) * b := by omega
      exact_mod_cast hint
    exact absurd h (not_le.mpr (rnd_lt_one r hle))
  · intro h
    have hone : (1 : ℚ) ≤ a / b := by
      rw [le_div_iff₀ hposq, one_mul]
      exact_mod_cast h
    calc (1 : ℚ) = r.rnd 1 := (rnd_one r).symm
      _ ≤ r.rnd (a / b) := r.mono hone

theorem abs_div_le {a b : ℤ} (ha : IsInt32 a) (hb : b ≠ 0) : |(a : ℚ) / b| ≤ 2 ^ 62 := by
  have hone : (1 : ℚ) ≤ |(b : ℚ)| := by exact_mod_cast Int.one_le_abs hb
  have habs : |(a : ℚ)| ≤ 2 ^ 31 := by
    have hint : |a| ≤ 2 ^ 31 := abs_le.mpr ⟨ha.1, ha.2.le⟩
    exact_mod_cast hint
  calc |(a : ℚ) / b| = |(a : ℚ)| / |(b : ℚ)| := abs_div _ _
    _ ≤ |(a : ℚ)| := div_le_self (abs_nonneg _) hone
    _ ≤ 2 ^ 31 := habs
    _ ≤ 2 ^ 62 := by norm_num

theorem abs_mul_le {a b : ℤ} (ha : IsInt32 a) (hb : IsInt32 b) : |(a : ℚ) * b| ≤ 2 ^ 62 := by
  have hint : |a * b| ≤ 2 ^ 31 * 2 ^ 31 := by
    rw [abs_mul]
    exact mul_le_mul (abs_le.mpr ⟨ha.1, ha.2.le⟩) (abs_le.mpr ⟨hb.1, hb.2.le⟩)
      (abs_nonneg _) (by norm_num)
  have hpow : (2 : ℤ) ^ 31 * 2 ^ 31 = 2 ^ 62 := by norm_num
  rw [hpow] at hint
  exact_mod_cast hint

/-- A conversion of a rounded number of moderate size. -/
theorem one_le_toSizeT_toDouble_iff (r : Mode) {q : ℚ} (h : |q| ≤ 2 ^ 62) :
    (∃ n, (r.toDouble q).toSizeT = some n ∧ 1 ≤ n) ↔ 1 ≤ r.rnd q := by
  rw [toDouble_of_abs_le r h]
  apply one_le_toSizeT_iff
  calc r.rnd q ≤ |r.rnd q| := le_abs_self _
    _ ≤ 2 ^ 62 := abs_rnd_le r h
    _ < 2 ^ 64 := by norm_num

/-- **Quotients**: converting the quotient of two 32-bit integers gives at least 1 exactly
    if they have the same sign and the divisor is not the larger one. -/
theorem toSizeT_div_pos_iff (r : Mode) {a b : ℤ} (ha : IsInt32 a) (hb : IsInt32 b) :
    (∃ n, (Double.div r (.ofInt a) (.ofInt b)).toSizeT = some n ∧ 1 ≤ n) ↔
      (0 < b ∧ b ≤ a) ∨ (a ≤ b ∧ b < 0) := by
  rcases eq_or_ne b 0 with rfl | hne
  · have hdiv : (Double.div r (.ofInt a) (.ofInt 0)).toSizeT = none := by
      by_cases hzero : a = 0 <;> simp [Double.div, Double.ofInt, Double.toSizeT, hzero]
    rw [hdiv]
    simp
  · have hneq : (b : ℚ) ≠ 0 := by exact_mod_cast hne
    have hdiv : Double.div r (.ofInt a) (.ofInt b) = r.toDouble ((a : ℚ) / b) := by
      simp [Double.div, Double.ofInt, hne]
    rw [hdiv, one_le_toSizeT_toDouble_iff r (abs_div_le ha hne)]
    rcases lt_or_gt_of_ne hne with hneg | hpos
    · -- both signs are turned round
      have hflip : (a : ℚ) / b = ((-a : ℤ) : ℚ) / ((-b : ℤ) : ℚ) := by
        push_cast
        exact (neg_div_neg_eq _ _).symm
      rw [hflip, one_le_rnd_div_iff r (by omega) (by have := hb.1; omega)]
      omega
    · rw [one_le_rnd_div_iff r hpos hb.2.le]
      omega

/-- **Products**: converting the product of two 32-bit integers gives at least 1 exactly
    if they have the same sign and neither is 0. -/
theorem toSizeT_mul_pos_iff (r : Mode) {a b : ℤ} (ha : IsInt32 a) (hb : IsInt32 b) :
    (∃ n, (Double.mul r (.ofInt a) (.ofInt b)).toSizeT = some n ∧ 1 ≤ n) ↔
      (0 < a ∧ 0 < b) ∨ (a < 0 ∧ b < 0) := by
  have hmul : Double.mul r (.ofInt a) (.ofInt b) = r.toDouble ((a : ℚ) * b) := rfl
  rw [hmul, one_le_toSizeT_toDouble_iff r (abs_mul_le ha hb), ← mul_pos_iff]
  refine ⟨?_, ?_⟩
  · intro h
    by_contra hnot
    have hle : (a : ℚ) * b ≤ 0 := by exact_mod_cast not_lt.mp hnot
    have hrnd : r.rnd ((a : ℚ) * b) ≤ 0 := by
      calc r.rnd ((a : ℚ) * b) ≤ r.rnd 0 := r.mono hle
        _ = 0 := rnd_zero r
    linarith
  · intro h
    have hone : (1 : ℚ) ≤ a * b := by exact_mod_cast (h : 1 ≤ a * b)
    calc (1 : ℚ) = r.rnd 1 := (rnd_one r).symm
      _ ≤ r.rnd (a * b) := r.mono hone

/-- The conversion of a product is defined exactly if the product is not negative. -/
theorem toSizeT_mul_isSome_iff (r : Mode) {a b : ℤ} (ha : IsInt32 a) (hb : IsInt32 b) :
    (Double.mul r (.ofInt a) (.ofInt b)).toSizeT.isSome ↔ 0 ≤ a * b := by
  have hmul : Double.mul r (.ofInt a) (.ofInt b) = r.toDouble ((a : ℚ) * b) := rfl
  have habs := abs_mul_le ha hb
  have hhigh : r.rnd ((a : ℚ) * b) < 2 ^ 64 := by
    calc r.rnd ((a : ℚ) * b) ≤ |r.rnd (a * b)| := le_abs_self _
      _ ≤ 2 ^ 62 := abs_rnd_le r habs
      _ < 2 ^ 64 := by norm_num
  rw [hmul, toDouble_of_abs_le r habs]
  simp only [Double.toSizeT, hhigh, and_true, Option.isSome_ite]
  refine ⟨?_, ?_⟩
  · intro h
    by_contra hneg
    -- a negative product is at most `-1`, and so is what it is rounded to
    have hle : (a : ℚ) * b ≤ ((-1 : ℤ) : ℚ) := by
      have hint : a * b ≤ -1 := by omega
      exact_mod_cast hint
    have hrnd : r.rnd ((a : ℚ) * b) ≤ -1 := by
      calc r.rnd ((a : ℚ) * b) ≤ r.rnd ((-1 : ℤ) : ℚ) := r.mono hle
        _ = ((-1 : ℤ) : ℚ) := rnd_int r (by norm_num)
        _ = -1 := by norm_num
    linarith
  · intro h
    have hzero : (0 : ℚ) ≤ a * b := by exact_mod_cast h
    calc (-1 : ℚ) < 0 := by norm_num
      _ = r.rnd 0 := (rnd_zero r).symm
      _ ≤ r.rnd (a * b) := r.mono hzero

end Rounding
