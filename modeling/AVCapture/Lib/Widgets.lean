import AVCapture.Lib.Saturation

/-!
# Input Widgets

Two widgets that cannot show every value: a number box keeps the number inside its range,
and a choice box shows one of its items. Each carries this in its type. A value that is put
into one of them and read back is the same exactly if it is among those it can show.

## Contents

- `SpinBox`, `SpinBox.setValue`: numbers in a range
- `ComboBox`, `ComboBox.findText`: items of a list
-/

namespace Widgets

open Saturation

/-- A number between `minimum` and `maximum`. -/
structure SpinBox (minimum maximum : ℤ) where
  value : ℤ
  minimum_le : minimum ≤ value
  le_maximum : value ≤ maximum
  deriving DecidableEq

/-- One item of a list, by its position. -/
structure ComboBox (items : List String) where
  currentIndex : Fin items.length
  deriving DecidableEq

namespace SpinBox

variable {minimum maximum : ℤ}

/-- A range is set: the number is moved into it. -/
def ofRange (h : minimum ≤ maximum) (value : ℤ) : SpinBox minimum maximum where
  value := clamp minimum maximum value
  minimum_le := le_max_left _ _
  le_maximum := max_le h (min_le_right _ _)

def setValue (box : SpinBox minimum maximum) (value : ℤ) : SpinBox minimum maximum :=
  ofRange (box.minimum_le.trans box.le_maximum) value

end SpinBox

namespace ComboBox

variable {items : List String}

def currentText (box : ComboBox items) : String := items.get box.currentIndex

/-- The position of an item with this text. -/
def findText (_ : ComboBox items) (text : String) : Option (Fin items.length) :=
  items.finIdxOf? text

def setCurrentIndex (_ : ComboBox items) (index : Fin items.length) : ComboBox items :=
  ⟨index⟩

/-- What is found is shown. -/
theorem currentText_of_findText {box : ComboBox items} {text : String}
    {index : Fin items.length} (h : box.findText text = some index) :
    (box.setCurrentIndex index).currentText = text := by
  obtain ⟨hget, _⟩ := List.finIdxOf?_eq_some_iff.mp h
  exact hget

theorem findText_of_mem {text : String} (h : text ∈ items) (box : ComboBox items) :
    ∃ index, box.findText text = some index := by
  cases hfind : box.findText text with
  | none => exact absurd h (List.finIdxOf?_eq_none_iff.mp hfind)
  | some index => exact ⟨index, rfl⟩

end ComboBox

end Widgets
