import Mathlib.Data.List.Basic
import Mathlib.Data.List.TakeWhile
import Mathlib.Data.Nat.Notation

/-!
# Numbers with a Unit

Text that is a decimal number and, directly behind it, the name of a unit in any letter
case. No name begins with a digit, so that the two parts of a text can be told apart.

## Contents

- `decimal`: the number that digits are written for
- `UnitNames`, `UnitNames.Denotes`: the texts for so many of a unit
- `denotes_iff`: the digits that a text begins with, and the rest of it
-/

namespace Quantity

def decimal (digits : List Char) : ℕ :=
  digits.foldl (fun n c => 10 * n + (c.toNat - '0'.toNat)) 0

/-- The digits that a text begins with. -/
def leadingDigits (text : List Char) : List Char := text.takeWhile Char.isDigit

def afterDigits (text : List Char) : List Char := text.drop (leadingDigits text).length

/-- Names of units, in lower case, and what each one stands for. -/
structure UnitNames (α : Type*) where
  names : List (List Char × α)
  noDigit : ∀ entry ∈ names, leadingDigits entry.1 = []
  unique : ∀ entry ∈ names, ∀ entry' ∈ names, entry.1 = entry'.1 → entry = entry'

variable {α : Type*}

/-- The text is the number `n`, followed by a name of the unit. -/
def UnitNames.Denotes (units : UnitNames α) (text : List Char) (n : ℕ) (unit : α) : Prop :=
  ∃ digits name, text = digits ++ name ∧ digits ≠ [] ∧ (∀ c ∈ digits, c.isDigit = true) ∧
    decimal digits = n ∧ (name.map Char.toLower, unit) ∈ units.names

theorem leadingDigits_append_afterDigits (text : List Char) :
    leadingDigits text ++ afterDigits text = text := by
  have htake : leadingDigits text = text.take (leadingDigits text).length :=
    List.prefix_iff_eq_take.mp (List.takeWhile_prefix _)
  unfold afterDigits
  nth_rewrite 1 [htake]
  exact List.take_append_drop _ text

theorem isDigit_of_mem_leadingDigits {text : List Char} {c : Char}
    (h : c ∈ leadingDigits text) : c.isDigit = true := List.mem_takeWhile_imp h

/-! ## Reading -/

theorem toLower_of_isDigit {c : Char} (h : c.isDigit = true) : c.toLower = c := by
  unfold Char.isDigit at h
  rw [Bool.and_eq_true, decide_eq_true_eq, decide_eq_true_eq] at h
  unfold Char.toLower
  rw [dif_neg]
  intro hupper
  have hle : 'A'.val ≤ '9'.val := UInt32.le_trans hupper.1 h.2
  revert hle
  decide

theorem leadingDigits_eq_nil_iff (text : List Char) :
    leadingDigits text = [] ↔ ∀ c ∈ text.head?, c.isDigit = false := by
  cases text with
  | nil => simp [leadingDigits]
  | cons c text => simp [leadingDigits, List.takeWhile_cons]

/-- A name in any letter case does not begin with a digit either. -/
theorem UnitNames.leadingDigits_name (units : UnitNames α) {name : List Char} {unit : α}
    (h : (name.map Char.toLower, unit) ∈ units.names) : leadingDigits name = [] := by
  have hlower : leadingDigits (name.map Char.toLower) = [] := units.noDigit _ h
  rw [leadingDigits_eq_nil_iff] at hlower ⊢
  intro c hc
  have hfirst : c.toLower.isDigit = false :=
    hlower c.toLower (by rw [List.head?_map, hc]; rfl)
  cases hdigit : c.isDigit with
  | false => rfl
  | true =>
    rw [toLower_of_isDigit hdigit, hdigit] at hfirst
    cases hfirst

theorem leadingDigits_append {digits name : List Char} (hdigits : ∀ c ∈ digits, c.isDigit = true)
    (hname : leadingDigits name = []) : leadingDigits (digits ++ name) = digits := by
  unfold leadingDigits at hname ⊢
  rw [List.takeWhile_append_of_pos hdigits, hname, List.append_nil]

/-- **What a text denotes** is read off its leading digits and the rest. -/
theorem UnitNames.denotes_iff (units : UnitNames α) {text : List Char} {n : ℕ} {unit : α} :
    units.Denotes text n unit ↔ leadingDigits text ≠ [] ∧ decimal (leadingDigits text) = n ∧
      ((afterDigits text).map Char.toLower, unit) ∈ units.names := by
  refine ⟨fun h => ?_, fun h => ?_⟩
  · obtain ⟨digits, name, rfl, hne, hdigits, hn, hname⟩ := h
    have hleading := leadingDigits_append hdigits (units.leadingDigits_name hname)
    have hafter : afterDigits (digits ++ name) = name := by
      rw [afterDigits, hleading, List.drop_left]
    rw [hleading, hafter]
    exact ⟨hne, hn, hname⟩
  · obtain ⟨hne, hn, hname⟩ := h
    exact ⟨leadingDigits text, afterDigits text, (leadingDigits_append_afterDigits text).symm,
      hne, fun c hc => isDigit_of_mem_leadingDigits hc, hn, hname⟩

/-- A text denotes at most one quantity. -/
theorem UnitNames.Denotes.unique {units : UnitNames α} {text : List Char} {n n' : ℕ}
    {unit unit' : α} (h : units.Denotes text n unit) (h' : units.Denotes text n' unit') :
    n = n' ∧ unit = unit' := by
  obtain ⟨_, hn, hname⟩ := units.denotes_iff.mp h
  obtain ⟨_, hn', hname'⟩ := units.denotes_iff.mp h'
  refine ⟨hn.symm.trans hn', ?_⟩
  exact congrArg Prod.snd (units.unique _ hname _ hname' rfl)

end Quantity
