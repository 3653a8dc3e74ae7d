import Mathlib.Algebra.BigOperators.Group.List.Basic
import Mathlib.Algebra.Order.Ring.Int
import Mathlib.Order.Lattice

/-!
# Sums that Saturate

Integers are added one after the other, and every partial sum is clamped to an interval
`[lo, hi]`. Clamping is not associative: what is cut off at one end is missing when a later
number leads back from it. This file says when the order of the numbers does not matter.

## Contents

- `clamp`, `add`, `sum`: saturating addition
- `posSum`, `negSum`: what the positive and what the negative numbers add up to
- `sum_eq_clamp_iff`: in every order the result is the sum, clamped once, exactly if the
  numbers have one sign or no partial sum can leave the interval
-/

namespace Saturation

def clamp (lo hi x : ℤ) : ℤ := max lo (min x hi)

def add (lo hi a b : ℤ) : ℤ := clamp lo hi (a + b)

def sum (lo hi : ℤ) (xs : List ℤ) : ℤ := xs.foldl (add lo hi) 0

/-- The sum of the positive numbers. -/
def posSum (xs : List ℤ) : ℤ := (xs.map (max · 0)).sum

/-- The sum of the negative numbers, without the sign. -/
def negSum (xs : List ℤ) : ℤ := (xs.map fun x => max (-x) 0).sum

/-- The numbers have one sign, or both sums stay inside the interval. -/
def Fits (lo hi : ℤ) (xs : List ℤ) : Prop :=
  posSum xs = 0 ∨ negSum xs = 0 ∨ (posSum xs ≤ hi ∧ negSum xs ≤ -lo)

instance (lo hi : ℤ) (xs : List ℤ) : Decidable (Fits lo hi xs) :=
  inferInstanceAs (Decidable (_ ∨ _ ∨ _ ∧ _))

theorem clamp_eq_self {lo hi x : ℤ} (hlo : lo ≤ x) (hhi : x ≤ hi) : clamp lo hi x = x := by
  rw [clamp, min_eq_left hhi, max_eq_right hlo]

section Sums

@[simp] theorem posSum_nil : posSum [] = 0 := rfl

@[simp] theorem negSum_nil : negSum [] = 0 := rfl

@[simp] theorem posSum_cons (x : ℤ) (xs : List ℤ) :
    posSum (x :: xs) = max x 0 + posSum xs := rfl

@[simp] theorem negSum_cons (x : ℤ) (xs : List ℤ) :
    negSum (x :: xs) = max (-x) 0 + negSum xs := rfl

theorem posSum_nonneg (xs : List ℤ) : 0 ≤ posSum xs := by
  induction xs with
  | nil => exact le_rfl
  | cons x xs ih =>
    rw [posSum_cons]
    omega

theorem negSum_nonneg (xs : List ℤ) : 0 ≤ negSum xs := by
  induction xs with
  | nil => exact le_rfl
  | cons x xs ih =>
    rw [negSum_cons]
    omega

theorem sum_eq_sub (xs : List ℤ) : xs.sum = posSum xs - negSum xs := by
  induction xs with
  | nil => rfl
  | cons x xs ih =>
    rw [List.sum_cons, posSum_cons, negSum_cons, ih]
    omega

theorem posSum_perm {xs ys : List ℤ} (h : xs.Perm ys) : posSum xs = posSum ys :=
  (h.map _).sum_eq

theorem negSum_perm {xs ys : List ℤ} (h : xs.Perm ys) : negSum xs = negSum ys :=
  (h.map _).sum_eq

end Sums

/-! ## Three ways to add up -/

section Orders

variable {lo hi : ℤ}

/-- Nothing is clamped if no order of the numbers leaves the interval. -/
theorem foldl_add_of_fits (xs : List ℤ) {a : ℤ} (hlo : lo ≤ a - negSum xs)
    (hhi : a + posSum xs ≤ hi) : xs.foldl (add lo hi) a = a + xs.sum := by
  induction xs generalizing a with
  | nil => simp
  | cons x xs ih =>
    have hpos := posSum_nonneg xs
    have hneg := negSum_nonneg xs
    rw [negSum_cons] at hlo
    rw [posSum_cons] at hhi
    have hadd : add lo hi a x = a + x := by
      unfold add clamp
      omega
    rw [List.foldl_cons, hadd, ih (by omega) (by omega), List.sum_cons]
    omega

/-- Numbers that are not negative are clamped at the upper end only. -/
theorem foldl_add_of_nonneg (xs : List ℤ) {a : ℤ} (hlo : lo ≤ a) (hhi : a ≤ hi)
    (hneg : negSum xs = 0) : xs.foldl (add lo hi) a = min (a + posSum xs) hi := by
  induction xs generalizing a with
  | nil => simp [hhi]
  | cons x xs ih =>
    have hneg' := negSum_nonneg xs
    have hpos := posSum_nonneg xs
    rw [negSum_cons] at hneg
    have hadd : add lo hi a x = min (a + x) hi := by
      unfold add clamp
      omega
    rw [List.foldl_cons, hadd, ih (by omega) (by omega) (by omega), posSum_cons]
    omega

/-- Numbers that are not positive are clamped at the lower end only. -/
theorem foldl_add_of_nonpos (xs : List ℤ) {a : ℤ} (hlo : lo ≤ a) (hhi : a ≤ hi)
    (hpos : posSum xs = 0) : xs.foldl (add lo hi) a = max lo (a - negSum xs) := by
  induction xs generalizing a with
  | nil => simp [hlo]
  | cons x xs ih =>
    have hpos' := posSum_nonneg xs
    have hneg := negSum_nonneg xs
    rw [posSum_cons] at hpos
    have hadd : add lo hi a x = max lo (a + x) := by
      unfold add clamp
      omega
    rw [List.foldl_cons, hadd, ih (by omega) (by omega) (by omega), negSum_cons]
    omega

/-! ## The order of the numbers -/

/-- Numbers that add nothing can be left out. -/
theorem sum_map_filter {f : ℤ → ℤ} {p : ℤ → Bool} (h : ∀ x, p x = false → f x = 0)
    (xs : List ℤ) : ((xs.filter p).map f).sum = (xs.map f).sum := by
  induction xs with
  | nil => rfl
  | cons x xs ih =>
    cases hx : p x with
    | false => simp [hx, ih, h x hx]
    | true => simp [hx, ih]

theorem sum_map_filter_eq_zero {f : ℤ → ℤ} {p : ℤ → Bool} (h : ∀ x, p x = true → f x = 0)
    (xs : List ℤ) : ((xs.filter p).map f).sum = 0 := by
  induction xs with
  | nil => rfl
  | cons x xs ih =>
    cases hx : p x with
    | false => simp [hx, ih]
    | true => simp [hx, ih, h x hx]

theorem posSum_filter_nonneg (xs : List ℤ) :
    posSum (xs.filter fun x => decide (0 ≤ x)) = posSum xs := by
  refine sum_map_filter (fun x hx => ?_) xs
  have hneg := of_decide_eq_false hx
  omega

theorem negSum_filter_nonneg (xs : List ℤ) :
    negSum (xs.filter fun x => decide (0 ≤ x)) = 0 := by
  refine sum_map_filter_eq_zero (fun x hx => ?_) xs
  have hnonneg := of_decide_eq_true hx
  omega

theorem posSum_filter_neg (xs : List ℤ) :
    posSum (xs.filter fun x => !decide (0 ≤ x)) = 0 := by
  refine sum_map_filter_eq_zero (fun x hx => ?_) xs
  have hneg := of_decide_eq_false (Bool.not_eq_true' _ ▸ hx)
  omega

theorem negSum_filter_neg (xs : List ℤ) :
    negSum (xs.filter fun x => !decide (0 ≤ x)) = negSum xs := by
  refine sum_map_filter (fun x hx => ?_) xs
  have hnonneg := of_decide_eq_true (Bool.not_eq_false' _ ▸ hx)
  omega

/-- The positive numbers before the negative ones. -/
theorem sum_positive_first (h0 : lo ≤ 0) (h1 : 0 ≤ hi) (xs : List ℤ) :
    sum lo hi ((xs.filter fun x => decide (0 ≤ x)) ++ xs.filter fun x => !decide (0 ≤ x)) =
      max lo (min (posSum xs) hi - negSum xs) := by
  have hpos := posSum_nonneg xs
  unfold sum
  rw [List.foldl_append, foldl_add_of_nonneg _ h0 h1 (negSum_filter_nonneg xs),
    posSum_filter_nonneg, foldl_add_of_nonpos _ (by omega) (by omega) (posSum_filter_neg xs),
    negSum_filter_neg, zero_add]

/-- The negative numbers before the positive ones. -/
theorem sum_negative_first (h0 : lo ≤ 0) (h1 : 0 ≤ hi) (xs : List ℤ) :
    sum lo hi ((xs.filter fun x => !decide (0 ≤ x)) ++ xs.filter fun x => decide (0 ≤ x)) =
      min (max lo (-negSum xs) + posSum xs) hi := by
  have hneg := negSum_nonneg xs
  unfold sum
  rw [List.foldl_append, foldl_add_of_nonpos _ h0 h1 (posSum_filter_neg xs),
    negSum_filter_neg, foldl_add_of_nonneg _ (by omega) (by omega) (negSum_filter_nonneg xs),
    posSum_filter_nonneg, zero_sub]

/-- In the order at hand. -/
theorem sum_eq_clamp (h0 : lo ≤ 0) (h1 : 0 ≤ hi) {xs : List ℤ} (h : Fits lo hi xs) :
    sum lo hi xs = clamp lo hi xs.sum := by
  have hpos := posSum_nonneg xs
  have hneg := negSum_nonneg xs
  have hsum := sum_eq_sub xs
  unfold sum clamp
  rcases h with hzero | hzero | ⟨hhi, hlo⟩
  · rw [foldl_add_of_nonpos xs h0 h1 hzero]
    omega
  · rw [foldl_add_of_nonneg xs h0 h1 hzero]
    omega
  · rw [foldl_add_of_fits xs (by omega) (by omega)]
    omega

/-- **The order does not matter** exactly if the numbers have one sign or no partial sum can
    leave the interval: then every order gives the sum, clamped once. -/
theorem sum_eq_clamp_iff (h0 : lo ≤ 0) (h1 : 0 ≤ hi) (hne : lo < hi) (xs : List ℤ) :
    (∀ ys : List ℤ, ys.Perm xs → sum lo hi ys = clamp lo hi xs.sum) ↔ Fits lo hi xs := by
  refine ⟨?_, ?_⟩
  · intro h
    -- two orders are enough to tell: the positive numbers first, or the negative ones
    have hfirst := h _ (List.filter_append_perm (fun x => decide (0 ≤ x)) xs)
    have hlast := h _ (List.perm_append_comm.trans
      (List.filter_append_perm (fun x => decide (0 ≤ x)) xs))
    rw [sum_positive_first h0 h1, sum_eq_sub] at hfirst
    rw [sum_negative_first h0 h1, sum_eq_sub] at hlast
    have hpos := posSum_nonneg xs
    have hneg := negSum_nonneg xs
    unfold clamp at hfirst hlast
    unfold Fits
    omega
  · intro h ys hperm
    have hys : Fits lo hi ys := by
      unfold Fits at h ⊢
      rwa [posSum_perm hperm, negSum_perm hperm]
    rw [sum_eq_clamp h0 h1 hys, hperm.sum_eq]

/-- One number has one sign. -/
theorem fits_of_one (x : ℤ) : Fits lo hi [x] := by
  unfold Fits
  simp only [posSum_cons, posSum_nil, negSum_cons, negSum_nil]
  omega

/-- Two numbers of the interval fit, whatever they are. -/
theorem fits_of_two {x y : ℤ} (hx : lo ≤ x ∧ x ≤ hi) (hy : lo ≤ y ∧ y ≤ hi) :
    Fits lo hi [x, y] := by
  unfold Fits
  simp only [posSum_cons, posSum_nil, negSum_cons, negSum_nil]
  omega

end Orders

end Saturation
