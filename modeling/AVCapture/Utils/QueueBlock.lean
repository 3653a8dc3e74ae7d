import AVCapture.Utils.ReaderWriterQueue
import Mathlib.Tactic.Ring

/-!
# One Block of the Lock-Free Queue

A block by itself: what its indices and its slots mean, and what the two threads do to them.
The indices of the code are wrapped; here they are counted on in numbers that never wrap, from
which the code's are taken modulo the size.

## Main results

- `Holds`: a block with its numbers and objects
- `Holds.after_tail_localFront`, `Holds.front_localTail`: what the comparisons of wrapped
  indices mean
- `Holds.construct`, `Holds.publish`, `Holds.takeOut`, `Holds.release`: one object more, one
  object less
-/

namespace AVCapture.Utils

variable {α : Type}

/-- The indices of a block as numbers that never wrap, and its objects: those between the
    front and the tail, `fresh` behind the tail before it is advanced. Where an object has been
    taken out and the front not been advanced yet, `gone` is 1. -/
structure View (α : Type) where
  front : ℕ := 0
  tail : ℕ := 0
  localFront : ℕ := 0
  localTail : ℕ := 0
  gone : ℕ := 0
  live : List α := []
  fresh : List α := []

namespace View

def refreshFront (v : View α) : View α := { v with localFront := v.front }

def refreshTail (v : View α) : View α := { v with localTail := v.tail }

def construct (v : View α) (element : α) : View α := { v with fresh := [element] }

def publish (v : View α) : View α :=
  { v with tail := v.tail + 1, live := v.live ++ v.fresh, fresh := [] }

def takeOut (v : View α) : View α := { v with gone := 1, live := v.live.tail }

def release (v : View α) : View α := { v with front := v.front + 1, gone := 0 }

end View

/-- The producer's `localFront` lags behind the front, the consumer's `localTail` behind the
    tail; one slot of a block is never used. -/
structure Block.Holds (b : Block α) (v : View α) : Prop where
  size : ∃ k, 1 ≤ k ∧ b.sizeMask + 1 = 2 ^ k
  front : b.front = v.front % (b.sizeMask + 1)
  tail : b.tail = v.tail % (b.sizeMask + 1)
  localFront : b.localFront = v.localFront % (b.sizeMask + 1)
  localTail : b.localTail = v.localTail % (b.sizeMask + 1)
  count : v.front + v.gone + v.live.length = v.tail
  localFront_le : v.localFront ≤ v.front
  le_localTail : v.front + v.gone ≤ v.localTail
  localTail_le : v.localTail ≤ v.tail
  fits : v.tail + v.fresh.length ≤ v.localFront + b.sizeMask
  cells : Slots.Shows (b.sizeMask + 1) b.data (v.front + v.gone) (v.live ++ v.fresh)

namespace Block

/-! ## Writes -/

/-- `localFront = front` -/
def refreshFront (b : Block α) : Block α := { b with localFront := b.front }

/-- `localTail = tail` -/
def refreshTail (b : Block α) : Block α := { b with localTail := b.tail }

/-- A new object behind the last one. -/
def construct (b : Block α) (element : α) : Block α :=
  { b with data := Function.update b.data b.tail (some element) }

/-- The new object is shown to the consumer. -/
def publish (b : Block α) : Block α := { b with tail := b.after b.tail }

/-- The object in front is moved out and destroyed. -/
def takeOut (b : Block α) : Block α :=
  { b with data := Function.update b.data b.front none }

/-- The slot in front is given back to the producer. -/
def release (b : Block α) : Block α := { b with front := b.after b.front }

namespace Holds

variable {b : Block α} {v : View α} {element : α} {l : List α}

/-! ## Wrapped indices -/

theorem mask_pos (h : b.Holds v) : 1 ≤ b.sizeMask := by
  obtain ⟨k, hk, hsize⟩ := h.size
  have htwo : 2 ^ 1 ≤ 2 ^ k := Nat.pow_le_pow_right (by omega) hk
  omega

theorem after_mod (h : b.Holds v) (i : ℕ) :
    b.after (i % (b.sizeMask + 1)) = (i + 1) % (b.sizeMask + 1) := by
  obtain ⟨k, _, hsize⟩ := h.size
  -- for a mask of ones, `&` is the remainder
  have hmask : b.sizeMask = 2 ^ k - 1 := by omega
  rw [after, hmask, Nat.and_two_pow_sub_one_eq_mod, ← hmask, ← hsize, Nat.mod_add_mod]

theorem after_tail (h : b.Holds v) : b.after b.tail = (v.tail + 1) % (b.sizeMask + 1) := by
  rw [h.tail, h.after_mod]

/-- The tail has caught up with a number `i` that is at most a round behind. -/
theorem after_tail_eq_iff (h : b.Holds v) {i : ℕ} (hle : i ≤ v.tail)
    (hfits : v.tail ≤ i + b.sizeMask) :
    b.after b.tail = i % (b.sizeMask + 1) ↔ v.tail = i + b.sizeMask := by
  rw [h.after_tail]
  constructor
  · -- both numbers lie within one round, so that equal indices mean equal numbers
    intro heq
    by_contra hne
    rw [eq_comm, Slots.mod_eq_iff_of_lt (by omega) (by omega)] at heq
    omega
  · intro heq
    rw [heq, Nat.add_assoc, Nat.add_mod_right]

/-- **Full**, as far as the producer knows. -/
theorem after_tail_localFront (h : b.Holds v) :
    b.after b.tail = b.localFront ↔ v.tail = v.localFront + b.sizeMask := by
  have hcount := h.count
  have hle := h.localFront_le
  have hfits := h.fits
  rw [h.localFront]
  exact h.after_tail_eq_iff (by omega) (by omega)

/-- **Full** now. -/
theorem after_tail_front (h : b.Holds v) :
    b.after b.tail = b.front ↔ v.tail = v.front + b.sizeMask := by
  have hcount := h.count
  have hle := h.localFront_le
  have hfits := h.fits
  rw [h.front]
  exact h.after_tail_eq_iff (by omega) (by omega)

/-- **Empty**, as far as the consumer knows. -/
theorem front_localTail (h : b.Holds v) : b.front = b.localTail ↔ v.front = v.localTail := by
  have hle := h.le_localTail
  have hle' := h.localTail_le
  have hlag := h.localFront_le
  have hfits := h.fits
  rw [h.front, h.localTail]
  exact Slots.mod_eq_iff_of_lt (by omega) (by omega)

/-- **Empty** now. -/
theorem front_tail (h : b.Holds v) : b.front = b.tail ↔ v.front = v.tail := by
  have hcount := h.count
  have hlag := h.localFront_le
  have hfits := h.fits
  rw [h.front, h.tail]
  exact Slots.mod_eq_iff_of_lt (by omega) (by omega)

theorem live_eq_nil (h : b.Holds v) (heq : v.front = v.tail) : v.live = [] := by
  have hcount := h.count
  exact List.eq_nil_of_length_eq_zero (by omega)

/-! ## Slots -/

theorem length_lt (h : b.Holds v) : (v.live ++ v.fresh).length < b.sizeMask + 1 := by
  have hcount := h.count
  have hlag := h.localFront_le
  have hfits := h.fits
  rw [List.length_append]
  omega

/-- The producer's slot is free. -/
theorem data_tail (h : b.Holds v) (hfresh : v.fresh = []) : b.data b.tail = none := by
  -- the slot at the tail is the first one behind the objects
  have hlen := h.length_lt
  have hcells := h.cells
  rw [hfresh, List.append_nil] at hlen hcells
  rw [h.tail, ← h.count]
  exact hcells.free hlen

/-- The consumer's slot has the first object in it. -/
theorem data_front (h : b.Holds v) (hgone : v.gone = 0) (hlive : v.live = element :: l) :
    b.data b.front = some element := by
  have hcells := h.cells
  rw [hgone, hlive, Nat.add_zero, List.cons_append] at hcells
  rw [h.front]
  exact hcells.head (Nat.succ_pos _)

/-! ## What the threads do -/

theorem refreshFront (h : b.Holds v) : b.refreshFront.Holds v.refreshFront := by
  have hfits := h.fits
  -- the producer learns of a front that has only gone on
  have hlag := h.localFront_le
  refine { h with localFront := h.front, localFront_le := Nat.le_refl _, fits := ?_ }
  show v.tail + v.fresh.length ≤ v.front + b.sizeMask
  omega

theorem refreshTail (h : b.Holds v) : b.refreshTail.Holds v.refreshTail := by
  -- and the consumer of a tail that has only gone on
  have hcount := h.count
  refine { h with
    localTail := h.tail, le_localTail := ?_, localTail_le := Nat.le_refl _ }
  show v.front + v.gone ≤ v.tail
  omega

theorem construct (h : b.Holds v) (hfresh : v.fresh = [])
    (hroom : v.tail < v.localFront + b.sizeMask) (element : α) :
    (b.construct element).Holds (v.construct element) := by
  -- the free slot takes the object, behind those that are there
  have hlen := h.length_lt
  have hcells := h.cells
  rw [hfresh, List.append_nil] at hlen hcells
  refine { h with fits := hroom, cells := ?_ }
  have happend := hcells.append hlen element
  rw [h.count, ← h.tail] at happend
  exact happend

theorem publish (h : b.Holds v) (hfresh : v.fresh = [element]) :
    b.publish.Holds v.publish := by
  have hcount := h.count
  have hfits := h.fits
  have hlocal := h.localTail_le
  rw [hfresh] at hfits
  refine { h with
    tail := h.after_tail, count := ?_, localTail_le := Nat.le_succ_of_le hlocal,
    fits := hfits, cells := ?_ }
  · -- the object counts from now on, and the tail has passed it
    show v.front + v.gone + (v.live ++ v.fresh).length = v.tail + 1
    rw [hfresh, List.length_append, List.length_singleton]
    omega
  · show Slots.Shows _ _ _ (v.live ++ v.fresh ++ [])
    rw [List.append_nil]
    exact h.cells

theorem takeOut (h : b.Holds v) (hgone : v.gone = 0) (hlive : v.live = element :: l)
    (hlocal : v.front < v.localTail) : b.takeOut.Holds v.takeOut := by
  have hcount := h.count
  have hlen := h.length_lt
  have hcells := h.cells
  rw [hgone, hlive] at hcount hcells
  rw [hlive] at hlen
  refine { h with count := ?_, le_localTail := hlocal, cells := ?_ }
  · -- the first object goes out of the list and out of its slot
    show v.front + 1 + v.live.tail.length = v.tail
    rw [hlive, List.tail_cons]
    rw [List.length_cons] at hcount
    omega
  · show Slots.Shows _ (Function.update b.data b.front none) (v.front + 1)
      (v.live.tail ++ v.fresh)
    rw [h.front, hlive, List.tail_cons]
    exact hcells.tail (Nat.lt_of_succ_lt hlen)

theorem release (h : b.Holds v) (hgone : v.gone = 1) : b.release.Holds v.release := by
  have hcount := h.count
  have hlocal := h.le_localTail
  have hcells := h.cells
  rw [hgone] at hcount hlocal hcells
  refine { h with
    front := ?_, count := hcount, localFront_le := Nat.le_succ_of_le h.localFront_le,
    le_localTail := hlocal, cells := hcells }
  -- the slot taken from comes behind the others
  show b.after b.front = (v.front + 1) % (b.sizeMask + 1)
  rw [h.front, h.after_mod]

/-- A block by itself, empty. -/
theorem empty {k : ℕ} (hk : 1 ≤ k) (next : ℕ) :
    Block.Holds { (ReaderWriterQueue.makeBlock (2 ^ k) : Block α) with next := next } {} := by
  have hpos : 0 < 2 ^ k := Nat.two_pow_pos k
  refine
    { size := ⟨k, hk, Nat.sub_add_cancel hpos⟩, front := rfl, tail := rfl, localFront := rfl,
      localTail := rfl, count := rfl, localFront_le := Nat.le_refl _,
      le_localTail := Nat.le_refl _, localTail_le := Nat.le_refl _,
      fits := Nat.zero_le _, cells := Slots.shows_nil _ _ }

/-- A block with a first object in it, which both threads have seen. -/
theorem first {k : ℕ} (hk : 1 ≤ k) (element : α) (next : ℕ) :
    Block.Holds
      { (ReaderWriterQueue.makeBlock (2 ^ k) : Block α) with
        data := Function.update (fun _ => none) 0 (some element)
        tail := 1
        localTail := 1
        next := next }
      { tail := 1, localTail := 1, live := [element] } := by
  have hempty := empty (α := α) hk next
  have hmask := hempty.mask_pos
  -- the slot of the first object is within the block
  have hone : 1 = 1 % ((ReaderWriterQueue.makeBlock (2 ^ k) : Block α).sizeMask + 1) :=
    (Nat.mod_eq_of_lt (Nat.lt_succ_of_le hmask)).symm
  refine { hempty with
    tail := hone, localTail := hone, count := rfl, le_localTail := Nat.zero_le _,
    localTail_le := Nat.le_refl _, fits := ?_, cells := ?_ }
  · show 1 ≤ 0 + _
    rw [Nat.zero_add]
    exact hmask
  · exact hempty.cells.append (Nat.succ_pos _) element

/-- The links do not matter to what a block holds. -/
theorem relink (h : b.Holds v) (next : ℕ) : Block.Holds { b with next := next } v := { h with }

end Holds

end Block

end AVCapture.Utils
