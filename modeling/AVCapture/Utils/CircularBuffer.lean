import Mathlib.Data.List.Basic

/-!
# The Encoded-Frame Buffer

Model of `Utils::CircularBuffer` (`utils/CircularBuffer.hpp`). Every method of the
class takes the buffer's own mutex for its whole body, so each one is one atomic
function on the contents and the capacity.

A capacity of `0` means that the buffer is unbounded.
-/

namespace AVCapture.Utils

/-- `Utils::CircularBuffer`: the deque, oldest element first, and the capacity. -/
structure CircularBuffer (α : Type) where
  buffer : List α := []
  capacity : Nat := 0
  deriving DecidableEq, Repr

namespace CircularBuffer

variable {α : Type}

/-! ## Operations -/

/-- `enforce_capacity`: at most one element leaves, at the front. -/
def enforceCapacity (b : CircularBuffer α) : CircularBuffer α :=
  if b.capacity = 0 then b
  else if b.capacity < b.buffer.length then { b with buffer := b.buffer.tail }
  else b

/-- `push`, both overloads. -/
def push (b : CircularBuffer α) (value : α) : CircularBuffer α :=
  enforceCapacity { b with buffer := b.buffer ++ [value] }

/-- `emplace`: the element is made at the end of the deque, from a value or from the
    arguments of a constructor. -/
def emplace (b : CircularBuffer α) (value : α) : CircularBuffer α :=
  enforceCapacity { b with buffer := b.buffer ++ [value] }

/-- `try_pop`: what it moves to `out`, if it returns `true`, and the buffer after it. -/
def tryPop (b : CircularBuffer α) : Option α × CircularBuffer α :=
  match b.buffer with
  | [] => (none, b)
  | value :: rest => (some value, { b with buffer := rest })

/-- The loop of `set_capacity`: drop the oldest element while the buffer is over a
    positive capacity. -/
def dropToCapacity (capacity : Nat) : List α → List α
  | [] => []
  | x :: xs => if 0 < capacity ∧ capacity < (x :: xs).length then dropToCapacity capacity xs
      else x :: xs

def setCapacity (b : CircularBuffer α) (newCapacity : Nat) : CircularBuffer α :=
  { buffer := dropToCapacity newCapacity b.buffer, capacity := newCapacity }

def clear (b : CircularBuffer α) : CircularBuffer α := { b with buffer := [] }

/-- Move construction and move assignment between two objects: the target, and what is left
    of `other`, which keeps its capacity. The moved-from deque is empty. -/
def moveFrom (other : CircularBuffer α) : CircularBuffer α × CircularBuffer α :=
  ({ buffer := other.buffer, capacity := other.capacity }, { other with buffer := [] })

def snapshot (b : CircularBuffer α) : List α := b.buffer

/-- What a push removes from the front: the element that `enforce_capacity` pops. -/
def evicted (b : CircularBuffer α) (value : α) : List α :=
  if b.capacity ≠ 0 ∧ b.capacity < (b.buffer ++ [value]).length then
    (b.buffer ++ [value]).head?.toList else []

/-! ## What the operations do -/

@[simp] theorem clear_buffer (b : CircularBuffer α) : b.clear.buffer = [] := rfl

/-- **Push splits the log**: what a push evicts, followed by what it keeps, is the
    old contents followed by the pushed element. -/
theorem evicted_append_push (b : CircularBuffer α) (x : α) :
    b.evicted x ++ (b.push x).buffer = b.buffer ++ [x] := by
  simp only [evicted, push, enforceCapacity]
  by_cases h0 : b.capacity = 0
  · simp [h0]
  · by_cases hlt : b.capacity < (b.buffer ++ [x]).length
    · simp only [h0, hlt, ne_eq, not_false_eq_true, and_self, if_true, if_false]
      cases hb : b.buffer ++ [x] with
      | nil => simp at hb
      | cons y ys => rfl
    · simp only [h0, hlt, and_false, if_false, List.nil_append]

/-- The pushed element is the last one in the buffer afterwards: eviction happens
    at the other end, and only when an older element is there to leave. -/
theorem getLast?_push (b : CircularBuffer α) (x : α) :
    (b.push x).buffer.getLast? = some x := by
  simp only [push, enforceCapacity]
  by_cases h0 : b.capacity = 0
  · simp [h0]
  · by_cases hlt : b.capacity < (b.buffer ++ [x]).length
    · simp only [h0, hlt, if_true, if_false]
      cases hb : b.buffer with
      | nil => simp [hb] at hlt; omega
      | cons y ys => simp
    · simp only [h0, hlt, if_false, List.getLast?_concat]

theorem push_sublist (b : CircularBuffer α) (x : α) :
    (b.push x).buffer.Sublist (b.buffer ++ [x]) := by
  rw [← evicted_append_push]
  exact List.sublist_append_right _ _

end CircularBuffer

end AVCapture.Utils
