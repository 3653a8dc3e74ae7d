import Mathlib.Data.List.Basic
import Mathlib.Order.Lattice

/-!
# Logs with a Bounded Window

A log grows at its end, and a window shows its last entries: those that have not left it
yet. Entries leave in the order in which they came. A positive bound says how many entries
the window may show, and `0` is no bound.

The position of an entry in the log never changes, so that what happens to an entry can be
said of its position.

## Contents

- `Window`: a log, how many of its entries have left, and the bound, which is kept
- `append`, `rebound`, `pop`, `clear`, with the effect of each on `contents`
- `leaves_append`: why an entry leaves when another one is appended
- `contents_appendAll`: the last entries of a run of appends
-/

namespace BoundedLog

/-- A log of which the first `left` entries have left the window. -/
structure Window (α : Type*) where
  log : List α
  left : ℕ
  bound : ℕ
  left_le : left ≤ log.length
  within : 0 < bound → log.length - left ≤ bound

/-- How many entries of a log of `n` must have left for a bound to be met. -/
def mustLeave (bound n : ℕ) : ℕ := if bound = 0 then 0 else n - bound

theorem mustLeave_le (bound n : ℕ) : mustLeave bound n ≤ n := by
  unfold mustLeave
  split <;> omega

theorem sub_mustLeave_le {bound : ℕ} (h : 0 < bound) (n : ℕ) :
    n - mustLeave bound n ≤ bound := by
  rw [mustLeave, if_neg (Nat.ne_of_gt h)]
  omega

namespace Window

variable {α : Type*}

/-- What the window shows, oldest entry first. -/
def contents (w : Window α) : List α := w.log.drop w.left

/-! ## Operations -/

def empty (bound : ℕ) : Window α := ⟨[], 0, bound, Nat.le_refl 0, fun _ => Nat.zero_le _⟩

/-- A log of `n` entries or more, of which as many have left as the bound asks for. -/
def enforce (log : List α) (left bound : ℕ) (h : left ≤ log.length) : Window α where
  log := log
  left := max left (mustLeave bound log.length)
  bound := bound
  left_le := max_le h (mustLeave_le _ _)
  within hpos := by
    have hle := sub_mustLeave_le hpos log.length
    have hmax := le_max_right left (mustLeave bound log.length)
    omega

def append (w : Window α) (x : α) : Window α :=
  enforce (w.log ++ [x]) w.left w.bound (by
    have hle := w.left_le
    rw [List.length_append]
    omega)

def rebound (w : Window α) (bound : ℕ) : Window α := enforce w.log w.left bound w.left_le

/-- The oldest entry leaves, if there is one. -/
def pop (w : Window α) : Window α where
  log := w.log
  left := min (w.left + 1) w.log.length
  bound := w.bound
  left_le := min_le_right _ _
  within hpos := by
    have hle := w.within hpos
    have hleft := w.left_le
    omega

/-- A new log. -/
def clear (w : Window α) : Window α := empty w.bound

@[simp] theorem log_enforce {log : List α} {left bound : ℕ} (h : left ≤ log.length) :
    (enforce log left bound h).log = log := rfl

@[simp] theorem left_enforce {log : List α} {left bound : ℕ} (h : left ≤ log.length) :
    (enforce log left bound h).left = max left (mustLeave bound log.length) := rfl

@[simp] theorem left_pop (w : Window α) : w.pop.left = min (w.left + 1) w.log.length := rfl

/-! ## What the window shows -/

theorem contents_suffix (w : Window α) : w.contents <:+ w.log := List.drop_suffix _ _

@[simp] theorem length_contents (w : Window α) : w.contents.length = w.log.length - w.left :=
  List.length_drop

theorem length_contents_le (w : Window α) (h : 0 < w.bound) : w.contents.length ≤ w.bound := by
  rw [length_contents]
  exact w.within h

/-- How many have left can be read off the log and the contents. -/
theorem left_eq (w : Window α) : w.left = w.log.length - w.contents.length := by
  have hle := w.left_le
  rw [length_contents]
  omega

theorem contents_enforce {log : List α} {left bound : ℕ} (h : left ≤ log.length) :
    (enforce log left bound h).contents =
      (log.drop left).drop (mustLeave bound (log.drop left).length) := by
  unfold contents
  rw [List.drop_drop, List.length_drop, left_enforce, log_enforce]
  refine congrArg (List.drop · log) ?_
  -- what must leave a part of the log is what must leave the log and has not left yet
  unfold mustLeave
  split <;> omega

theorem contents_append (w : Window α) (x : α) :
    (w.append x).contents =
      (w.contents ++ [x]).drop (mustLeave w.bound (w.contents.length + 1)) := by
  unfold append
  rw [contents_enforce, List.drop_append_of_le_length w.left_le, List.length_append]
  rfl

theorem contents_rebound (w : Window α) (bound : ℕ) :
    (w.rebound bound).contents = w.contents.drop (mustLeave bound w.contents.length) :=
  contents_enforce w.left_le

theorem contents_pop (w : Window α) : w.pop.contents = w.contents.tail := by
  unfold contents
  rw [List.tail_drop, left_pop]
  change w.log.drop _ = _
  rcases Nat.lt_or_ge w.left w.log.length with hlt | hge
  · rw [min_eq_left (Nat.succ_le_of_lt hlt)]
  · -- nothing is left that could leave
    rw [min_eq_right (by omega), List.drop_length, List.drop_of_length_le (by omega)]

/-! ## What leaves the window -/

/-- **Appending** lets an entry leave only under a bound, and only if at least as many
    newer entries as the bound have come after it. -/
theorem leaves_append {w : Window α} {x : α} {p : ℕ} (hold : w.left ≤ p)
    (hleft : p < (w.append x).left) : 0 < w.bound ∧ w.bound ≤ w.log.length - p := by
  unfold append at hleft
  simp only [left_enforce, mustLeave, List.length_append, List.length_singleton] at hleft
  split at hleft
  · omega
  · omega

/-- A new bound lets entries leave only if it is a lower one. -/
theorem leaves_rebound {w : Window α} {bound p : ℕ} (hold : w.left ≤ p)
    (hleft : p < (w.rebound bound).left) : 0 < bound ∧ (w.bound = 0 ∨ bound < w.bound) := by
  unfold rebound at hleft
  simp only [left_enforce, mustLeave] at hleft
  split at hleft
  · omega
  · refine ⟨by omega, ?_⟩
    rcases Nat.eq_zero_or_pos w.bound with hzero | hpos
    · exact Or.inl hzero
    · have hwithin := w.within hpos
      exact Or.inr (by omega)

/-- Only the oldest entry is popped. -/
theorem leaves_pop {w : Window α} {p : ℕ} (hold : w.left ≤ p) (hleft : p < w.pop.left) :
    p = w.left := by
  rw [left_pop] at hleft
  omega

/-! ## Runs of appends -/

def appendAll (w : Window α) (xs : List α) : Window α := xs.foldl append w

@[simp] theorem log_appendAll (w : Window α) (xs : List α) :
    (w.appendAll xs).log = w.log ++ xs := by
  unfold appendAll
  induction xs generalizing w with
  | nil => simp
  | cons x xs ih =>
    rw [List.foldl_cons, ih]
    simp [append, enforce]

theorem left_appendAll (w : Window α) (xs : List α) (hbound : 0 < w.bound) :
    (w.appendAll xs).left = max w.left (w.log.length + xs.length - w.bound) := by
  unfold appendAll
  induction xs generalizing w with
  | nil =>
    have hwithin := w.within hbound
    simp only [List.foldl_nil, List.length_nil]
    omega
  | cons x xs ih =>
    rw [List.foldl_cons, ih (w.append x) hbound]
    simp only [append, enforce, mustLeave, if_neg (Nat.ne_of_gt hbound), List.length_append,
      List.length_cons, List.length_nil]
    omega

/-- **A run of appends** to an empty window leaves the last entries, as many as the bound
    allows. -/
theorem contents_appendAll {bound : ℕ} (h : 0 < bound) (xs : List α) :
    ((empty bound : Window α).appendAll xs).contents = xs.drop (xs.length - bound) := by
  unfold contents
  rw [log_appendAll, left_appendAll _ _ h]
  simp [empty]

end Window

end BoundedLog
