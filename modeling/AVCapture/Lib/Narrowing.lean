import Mathlib.Algebra.Order.Ring.Int
import Mathlib.Algebra.Ring.Divisibility.Basic
import Mathlib.Data.Nat.Notation
import Mathlib.Tactic.Positivity
import Mathlib.Tactic.Ring

/-!
# Conversions between Integer Types

An integer that is converted to a signed type of `w` bits becomes its balanced residue
modulo `2 ^ w`, and one that is converted to an unsigned type its least residue.

## Contents

- `toSigned`, `toUnsigned`: the conversions
- `toUnsigned_toSigned_eq_iff`: the values that a narrow signed type between two wide
  unsigned ones leaves as they are
-/

namespace Narrowing

def toSigned (w : ℕ) (n : ℤ) : ℤ := n.bmod (2 ^ w)

def toUnsigned (w : ℕ) (n : ℤ) : ℤ := n % 2 ^ w

theorem toSigned_eq_iff {w : ℕ} {n i : ℤ} :
    toSigned (w + 1) n = i ↔ -2 ^ w ≤ i ∧ i < 2 ^ w ∧ (2 ^ (w + 1) : ℤ) ∣ i - n := by
  have hhalf : ((2 ^ (w + 1) : ℕ) : ℤ) = 2 * 2 ^ w := by
    push_cast
    ring
  unfold toSigned
  rw [Int.bmod_eq_iff (Nat.two_pow_pos _), hhalf, show (2 : ℤ) ^ (w + 1) = 2 * 2 ^ w by ring]
  refine ⟨fun h => ⟨by omega, by omega, h.2.2⟩, fun h => ⟨by omega, by omega, h.2.2⟩⟩

theorem toSigned_of_lt {w : ℕ} {n : ℤ} (h0 : 0 ≤ n) (h : n < 2 ^ w) :
    toSigned (w + 1) n = n := by
  refine toSigned_eq_iff.mpr ⟨le_trans ?_ h0, h, ?_⟩
  · have hpos : (0 : ℤ) < 2 ^ w := by positivity
    omega
  · rw [sub_self]
    exact dvd_zero _

/-- The largest values of the wide type become negative. -/
theorem toSigned_of_le {v w : ℕ} (hvw : v < w) {n : ℤ} (h : 2 ^ w - 2 ^ v ≤ n) (hn : n < 2 ^ w) :
    toSigned (v + 1) n = n - 2 ^ w := by
  refine toSigned_eq_iff.mpr ⟨by omega, ?_, ?_⟩
  · have hpos : (0 : ℤ) < 2 ^ v := by positivity
    omega
  · rw [show n - 2 ^ w - n = -(2 ^ w : ℤ) by ring, dvd_neg]
    exact pow_dvd_pow 2 hvw

/-- **Back in the wide type** is what fits into the narrow one, and what has come from a
    negative number of it. -/
theorem toUnsigned_toSigned_eq_iff {v w : ℕ} (hvw : v < w) {n : ℤ} (h0 : 0 ≤ n)
    (hn : n < 2 ^ w) :
    toUnsigned w (toSigned (v + 1) n) = n ↔ n < 2 ^ v ∨ 2 ^ w - 2 ^ v ≤ n := by
  have hpow : (2 : ℤ) ^ v ≤ 2 ^ w := pow_le_pow_right₀ (by decide) hvw.le
  refine ⟨fun h => ?_, fun h => ?_⟩
  · obtain ⟨hlow, hhigh, _⟩ := toSigned_eq_iff.mp (Eq.refl (toSigned (v + 1) n))
    unfold toUnsigned at h
    rcases lt_or_ge (toSigned (v + 1) n) 0 with hneg | hnonneg
    · -- a negative number is taken from the top of the wide type
      have hwrap : toSigned (v + 1) n % 2 ^ w = toSigned (v + 1) n + 2 ^ w := by
        rw [← Int.add_emod_right, Int.emod_eq_of_lt (by omega) (by omega)]
      rw [hwrap] at h
      exact Or.inr (by omega)
    · rw [Int.emod_eq_of_lt hnonneg (by omega)] at h
      exact Or.inl (by omega)
  · unfold toUnsigned
    rcases h with hlt | hle
    · rw [toSigned_of_lt h0 hlt, Int.emod_eq_of_lt h0 hn]
    · rw [toSigned_of_le hvw hle hn, Int.sub_emod_right, Int.emod_eq_of_lt h0 hn]

end Narrowing
