import AVCapture.Lib.BoundedLog
import AVCapture.Lib.Transition
import AVCapture.Utils.CircularBuffer

/-!
# The Buffer as a Bounded Log

`Utils::CircularBuffer` refines a log with a bounded window (`BoundedLog.Window`): every
operation of the class is an operation on the window. `enforce_capacity` removes one element
at most, which is enough because the bound holds before each push; `set_capacity` and the
moves have to restore it.

## Main results

- `Refines.push`, `Refines.setCapacity`, `Refines.tryPop`, `Refines.clear`: the refinement
- `bufferInv_of_reach`: it holds of every buffer in every run of operations
- `circularBuffer_boundedLog`: what that means for the size, the contents and the elements
  that leave
-/

namespace AVCapture.Utils

open BoundedLog Transition

variable {α : Type}

/-! ## Refinement -/

/-- A buffer shows what the window shows, under the same bound. -/
structure Refines (b : CircularBuffer α) (w : Window α) : Prop where
  contents : b.buffer = w.contents
  capacity : b.capacity = w.bound

/-- The loop of `set_capacity` drops as many elements as must leave. -/
theorem dropToCapacity_eq (capacity : ℕ) (l : List α) :
    CircularBuffer.dropToCapacity capacity l = l.drop (mustLeave capacity l.length) := by
  induction l with
  | nil => simp [CircularBuffer.dropToCapacity]
  | cons x xs ih =>
    unfold CircularBuffer.dropToCapacity
    by_cases h : 0 < capacity ∧ capacity < (x :: xs).length
    · have hmust : mustLeave capacity (x :: xs).length = mustLeave capacity xs.length + 1 := by
        have hlen : capacity ≤ xs.length := Nat.lt_succ_iff.mp h.2
        simp only [mustLeave, if_neg (Nat.ne_of_gt h.1), List.length_cons]
        omega
      rw [if_pos h, ih, hmust, List.drop_succ_cons]
    · have hmust : mustLeave capacity (x :: xs).length = 0 := by
        unfold mustLeave
        split
        · rfl
        · omega
      rw [if_neg h, hmust, List.drop_zero]

/-- One element is all that `enforce_capacity` has to remove from a buffer that was within
    its capacity before the push. -/
theorem buffer_push_eq {b : CircularBuffer α} (x : α)
    (hwithin : 0 < b.capacity → b.buffer.length ≤ b.capacity) :
    (b.push x).buffer =
      (b.buffer ++ [x]).drop (mustLeave b.capacity (b.buffer.length + 1)) := by
  unfold CircularBuffer.push CircularBuffer.enforceCapacity mustLeave
  -- capacity 0 means that nothing is ever driven out
  rcases Nat.eq_zero_or_pos b.capacity with hzero | hpos
  · simp [hzero]
  · have hle := hwithin hpos
    simp only [if_neg (Nat.ne_of_gt hpos), List.length_append, List.length_singleton]
    -- a full buffer has one element too many after the push
    by_cases hfull : b.capacity < b.buffer.length + 1
    · have hone : b.buffer.length + 1 - b.capacity = 1 := by omega
      rw [if_pos hfull, hone, List.drop_one]
    · have hnone : b.buffer.length + 1 - b.capacity = 0 := by omega
      rw [if_neg hfull, hnone, List.drop_zero]

/-- The capacity stays, whether an element is removed or not. -/
theorem capacity_push (b : CircularBuffer α) (x : α) : (b.push x).capacity = b.capacity := by
  unfold CircularBuffer.push CircularBuffer.enforceCapacity
  split
  · rfl
  · split <;> rfl

/-- `try_pop` removes what it returns. -/
theorem tryPop_append (b : CircularBuffer α) :
    b.tryPop.1.toList ++ b.tryPop.2.buffer = b.buffer := by
  obtain ⟨buffer, capacity⟩ := b
  cases buffer with
  | nil => rfl
  | cons x xs => rfl

namespace Refines

variable {b : CircularBuffer α} {w : Window α}

theorem construct (capacity : ℕ) :
    Refines ({ capacity := capacity } : CircularBuffer α) (Window.empty capacity) :=
  ⟨rfl, rfl⟩

theorem length_le (h : Refines b w) (hpos : 0 < b.capacity) :
    b.buffer.length ≤ b.capacity := by
  rw [h.capacity] at hpos ⊢
  rw [h.contents]
  exact w.length_contents_le hpos

theorem setCapacity (h : Refines b w) (newCapacity : ℕ) :
    Refines (b.setCapacity newCapacity) (w.rebound newCapacity) := by
  refine ⟨?_, rfl⟩
  unfold CircularBuffer.setCapacity
  rw [w.contents_rebound, ← h.contents, dropToCapacity_eq]

theorem push (h : Refines b w) (x : α) : Refines (b.push x) (w.append x) := by
  refine ⟨?_, ?_⟩
  · rw [w.contents_append, ← h.contents, ← h.capacity]
    exact buffer_push_eq x h.length_le
  · exact (capacity_push b x).trans h.capacity

theorem tryPop (h : Refines b w) : Refines b.tryPop.2 w.pop := by
  obtain ⟨hcontents, hcapacity⟩ := h
  obtain ⟨buffer, capacity⟩ := b
  cases buffer with
  | nil =>
    refine ⟨?_, hcapacity⟩
    rw [w.contents_pop, ← hcontents]
    rfl
  | cons x xs =>
    refine ⟨?_, hcapacity⟩
    rw [w.contents_pop, ← hcontents]
    rfl

theorem clear (h : Refines b w) : Refines b.clear w.clear := ⟨rfl, h.capacity⟩

end Refines

/-! ## Objects and operations -/

/-- A buffer with its history. Recorded besides the object: the values pushed since the last
    `clear`. -/
structure Tracked (α : Type) where
  buffer : CircularBuffer α
  pushed : List α := []
  deriving DecidableEq

/-- How many of the values pushed have left: the value pushed as number `p` is in the buffer
    exactly if `left ≤ p`. -/
def Tracked.left (t : Tracked α) : ℕ := t.pushed.length - t.buffer.buffer.length

/-- The operations on the objects of a program; `construct` and `moveConstruct` make a new
    one. -/
inductive BufferOp (α : Type) where
  | construct (i capacity : ℕ)
  | setCapacity (i newCapacity : ℕ)
  | push (i : ℕ) (value : α)
  | emplace (i : ℕ) (value : α)
  | tryPop (i : ℕ)
  | clear (i : ℕ)
  | moveConstruct (i other : ℕ)
  | moveAssign (i other : ℕ)

/-- The objects that are there, by their addresses. -/
abbrev Buffers (α : Type) := ℕ → Option (Tracked α)

namespace Buffers

/-- An object is made where there is none, and used where there is one. -/
def enabled (s : Buffers α) : BufferOp α → Prop
  | .construct i _ => (s i).isNone
  | .setCapacity i _ | .push i _ | .emplace i _ | .tryPop i | .clear i => (s i).isSome
  | .moveConstruct i other => (s i).isNone ∧ (s other).isSome
  | .moveAssign i other => (s i).isSome ∧ (s other).isSome

instance decidableEnabled (s : Buffers α) (op : BufferOp α) : Decidable (s.enabled op) := by
  cases op <;> unfold enabled <;> infer_instance

/-- The target of a move has the contents, the history and the capacity of the other object,
    which is left without contents and history. -/
def move (s : Buffers α) (i other : ℕ) : Buffers α :=
  let target := (s other).map fun t => { t with buffer := t.buffer.moveFrom.1 }
  let source := (s other).map fun t => { buffer := t.buffer.moveFrom.2, pushed := [] }
  Function.update (Function.update s i target) other source

def next (s : Buffers α) : BufferOp α → Buffers α
  | .construct i capacity =>
    Function.update s i (some { buffer := { capacity := capacity } })
  | .setCapacity i newCapacity =>
    Function.update s i ((s i).map fun t =>
      { t with buffer := t.buffer.setCapacity newCapacity })
  | .push i value =>
    Function.update s i ((s i).map fun t =>
      { buffer := t.buffer.push value, pushed := t.pushed ++ [value] })
  | .emplace i value =>
    Function.update s i ((s i).map fun t =>
      { buffer := t.buffer.emplace value, pushed := t.pushed ++ [value] })
  | .tryPop i =>
    Function.update s i ((s i).map fun t => { t with buffer := t.buffer.tryPop.2 })
  | .clear i =>
    Function.update s i ((s i).map fun t => { buffer := t.buffer.clear, pushed := [] })
  | .moveConstruct i other => s.move i other
  | .moveAssign i other =>
    -- `if (this == &other) return *this;`
    if i = other then s else s.move i other

end Buffers

/-- A program that has no buffer yet. -/
def bufferSystem (α : Type) : System (Buffers α) (BufferOp α) :=
  System.ofCommands (fun s => s = fun _ => none) Buffers.enabled Buffers.next

/-! ## Where the contents of an object come from -/

/-- The object whose contents and history object `i` has after an operation; `none` if it is
    new or moved from. -/
def BufferOp.source (i : ℕ) : BufferOp α → Option ℕ
  | .construct k _ => if i = k then none else some i
  | .moveConstruct k other => if i = other then none else if i = k then some other else some i
  | .moveAssign k other =>
    if k = other then some i
    else if i = other then none else if i = k then some other else some i
  | _ => some i

/-- What an operation does to the contents that are in object `i` after it. -/
def BufferOp.effect (i : ℕ) (t : Tracked α) : BufferOp α → Tracked α
  | .setCapacity k newCapacity =>
    if i = k then { t with buffer := t.buffer.setCapacity newCapacity } else t
  | .push k value | .emplace k value =>
    if i = k then { buffer := t.buffer.push value, pushed := t.pushed ++ [value] } else t
  | .tryPop k => if i = k then { t with buffer := t.buffer.tryPop.2 } else t
  | .clear k => if i = k then { buffer := t.buffer.clear, pushed := [] } else t
  | .construct .. | .moveConstruct .. | .moveAssign .. => t

/-- The capacity that an operation leaves for contents that had the capacity `old`. -/
def BufferOp.capacity (i old : ℕ) : BufferOp α → ℕ
  | .setCapacity k newCapacity => if i = k then newCapacity else old
  | _ => old

theorem capacity_effect (op : BufferOp α) (i : ℕ) (t : Tracked α) :
    (op.effect i t).buffer.capacity = op.capacity i t.buffer.capacity := by
  -- only `set_capacity` gives a new capacity, and to its own object only
  cases op with
  | setCapacity k newCapacity =>
    simp only [BufferOp.effect, BufferOp.capacity]
    split
    · rfl
    · rfl
  | push k x | emplace k x =>
    simp only [BufferOp.effect, BufferOp.capacity]
    split
    · exact capacity_push t.buffer x
    · rfl
  | tryPop k =>
    simp only [BufferOp.effect, BufferOp.capacity]
    split
    · unfold CircularBuffer.tryPop
      split <;> rfl
    · rfl
  | clear k =>
    simp only [BufferOp.effect, BufferOp.capacity]
    split
    · rfl
    · rfl
  | construct | moveConstruct | moveAssign => rfl

/-- An operation in place changes one object. -/
theorem update_map (s : Buffers α) (k : ℕ) (f : Tracked α → Tracked α) (i : ℕ) :
    Function.update s k ((s k).map f) i = (s i).map fun t => if i = k then f t else t := by
  -- the object itself, or another one, which stays
  by_cases hik : i = k
  · subst hik
    simp
  · simp [hik]

theorem move_of_ne_other {s : Buffers α} {i k other : ℕ} (hother : i ≠ other) :
    s.move k other i = if i = k then s other else s i := by
  -- no object but the source of the move and its target is touched
  unfold Buffers.move
  rw [Function.update_of_ne hother]
  by_cases hik : i = k
  · subst hik
    rw [Function.update_self, if_pos rfl]
    exact Option.map_id'
  · rw [Function.update_of_ne hik, if_neg hik]

/-- **What a step does** to an object: it is the operation's effect on the object that its
    contents come from. -/
theorem next_of_source {s : Buffers α} {op : BufferOp α} {i j : ℕ} (h : op.source i = some j) :
    s.next op i = (s j).map (op.effect i) := by
  -- both kinds of move do the same, unless the object is moved to itself
  have hmove (k other : ℕ)
      (hsource : (if i = other then none else if i = k then some other else some i) = some j) :
      s.move k other i = (s j).map fun t => t := by
    have hother : i ≠ other := fun heq => by simp [heq] at hsource
    rw [if_neg hother] at hsource
    rw [move_of_ne_other hother, Option.map_id']
    split at hsource
    · cases hsource
      rw [if_pos ‹_›]
    · cases hsource
      rw [if_neg ‹_›]
  -- an operation in place is the source of its own contents
  cases op with
  | construct k capacity =>
    have hik : i ≠ k := fun heq => by simp [BufferOp.source, heq] at h
    cases (if_neg hik).symm.trans h
    exact (Function.update_of_ne hik _ s).trans Option.map_id'.symm
  | setCapacity k newCapacity =>
    cases h
    exact update_map s k _ i
  | push k value =>
    cases h
    exact update_map s k _ i
  | emplace k value =>
    cases h
    exact update_map s k _ i
  | tryPop k =>
    cases h
    exact update_map s k _ i
  | clear k =>
    cases h
    exact update_map s k _ i
  | moveConstruct k other => exact hmove k other h
  | moveAssign k other =>
    simp only [BufferOp.source] at h
    simp only [Buffers.next]
    -- a self-assignment does nothing
    split at h
    · cases h
      rw [if_pos ‹_›]
      exact Option.map_id'.symm
    · rw [if_neg ‹_›]
      exact hmove k other h

/-- An object without a source is new, or a move has emptied it. -/
theorem next_of_no_source {s : Buffers α} {op : BufferOp α} {i : ℕ} {t : Tracked α}
    (h : op.source i = none) (ht : s.next op i = some t) :
    ∃ capacity, t = { buffer := { capacity := capacity }, pushed := [] } := by
  -- only the source of a move is left without contents
  have hmove (k other : ℕ)
      (hsource : (if i = other then none else if i = k then some other else some i) = none)
      (hmoved : s.move k other i = some t) :
      ∃ capacity, t = { buffer := { capacity := capacity }, pushed := [] } := by
    have hother : i = other := by
      by_contra hne
      rw [if_neg hne] at hsource
      split at hsource <;> simp at hsource
    subst hother
    unfold Buffers.move at hmoved
    rw [Function.update_self, Option.map_eq_some_iff] at hmoved
    obtain ⟨t₀, _, rfl⟩ := hmoved
    exact ⟨t₀.buffer.capacity, rfl⟩
  -- a new object, or one that has been moved from
  cases op with
  | construct k capacity =>
    have hik : i = k := by
      by_contra hne
      simp [BufferOp.source, hne] at h
    subst hik
    simp only [Buffers.next, Function.update_self, Option.some.injEq] at ht
    exact ⟨capacity, ht.symm⟩
  | moveConstruct k other => exact hmove k other h ht
  | moveAssign k other =>
    simp only [BufferOp.source] at h
    simp only [Buffers.next] at ht
    split at h
    · simp at h
    · rw [if_neg ‹_›] at ht
      exact hmove k other h ht
  | setCapacity k newCapacity => simp [BufferOp.source] at h
  | push k value => simp [BufferOp.source] at h
  | emplace k value => simp [BufferOp.source] at h
  | tryPop k => simp [BufferOp.source] at h
  | clear k => simp [BufferOp.source] at h

/-! ## The invariant, and what leaves -/

/-- The history of a buffer is the log of a window that it refines. -/
structure Tracked.Follows (t : Tracked α) (w : Window α) : Prop where
  refines : Refines t.buffer w
  log : w.log = t.pushed

theorem Tracked.Follows.left_eq {t : Tracked α} {w : Window α} (h : t.Follows w) :
    t.left = w.left := by
  unfold Tracked.left
  rw [w.left_eq, h.log, h.refines.contents]

/-- The value pushed as number `p` is in the buffer. -/
def Tracked.Holds (t : Tracked α) (p : ℕ) : Prop := t.left ≤ p ∧ p < t.pushed.length

/-- While no value changes its number, the values that leave are those that leave the
    window. -/
theorem Tracked.Follows.leaves {t t' : Tracked α} {w w' : Window α} (h : t.Follows w)
    (h' : t'.Follows w') (hpre : t.pushed <+: t'.pushed) {p : ℕ} (hold : t.Holds p)
    (hgone : ¬ t'.Holds p) : w.left ≤ p ∧ p < w'.left := by
  refine ⟨h.left_eq ▸ hold.1, ?_⟩
  -- the value would still be in the buffer if the window had not let it go
  by_contra hle
  have hlen : p < t'.pushed.length := Nat.lt_of_lt_of_le hold.2 hpre.length_le
  exact hgone ⟨h'.left_eq ▸ not_lt.mp hle, hlen⟩

/-- Why the value pushed as number `p` to the buffer `t`, object `i`, may leave it. -/
def BufferOp.Removes (i : ℕ) (t : Tracked α) (p : ℕ) : BufferOp α → Prop
  | .tryPop k => i = k ∧ p = t.left
  | .clear k => i = k
  | .setCapacity k newCapacity =>
    -- `0` is no bound at all
    i = k ∧ 0 < newCapacity ∧ (t.buffer.capacity = 0 ∨ newCapacity < t.buffer.capacity)
  | .push k _ | .emplace k _ =>
    -- with the value that is pushed now, `pushed.length - p` values are newer
    i = k ∧ 0 < t.buffer.capacity ∧ t.buffer.capacity ≤ t.pushed.length - p
  | .construct .. | .moveConstruct .. | .moveAssign .. => False

def BufferInv (s : Buffers α) : Prop := ∀ i t, s i = some t → ∃ w : Window α, t.Follows w

/-- What an operation may make of the contents `t` of object `i`: the buffer goes on
    following a window, no value changes its number, and what leaves has a reason. -/
structure BufferOp.Steps (op : BufferOp α) (i : ℕ) (t t' : Tracked α) : Prop where
  follows : ∃ w', t'.Follows w'
  numbers : op = .clear i ∨ t.pushed <+: t'.pushed
  reason : ∀ p, t.Holds p → ¬ t'.Holds p → op.Removes i t p

theorem BufferOp.Steps.same {op : BufferOp α} {i : ℕ} {t : Tracked α} {w : Window α}
    (h : t.Follows w) : op.Steps i t t :=
  ⟨⟨w, h⟩, Or.inr (List.prefix_refl _), fun _ hp hgone => absurd hp hgone⟩

/-- An operation on the window: a reason is needed for what leaves the window. -/
theorem BufferOp.Steps.of_window {op : BufferOp α} {i : ℕ} {t t' : Tracked α} {w w' : Window α}
    (h : t.Follows w) (h' : t'.Follows w') (hpre : t.pushed <+: t'.pushed)
    (hreason : ∀ p, w.left ≤ p → p < w'.left → op.Removes i t p) : op.Steps i t t' := by
  refine ⟨⟨w', h'⟩, Or.inr hpre, fun p hold hgone => ?_⟩
  obtain ⟨hleft, hlt⟩ := h.leaves h' hpre hold hgone
  exact hreason p hleft hlt

/-- An operation on object `k` leaves the other objects alone. -/
theorem BufferOp.Steps.at_object {op : BufferOp α} {i k : ℕ} {t t' : Tracked α} {w : Window α}
    (h : t.Follows w) (hstep : i = k → op.Steps i t t') :
    op.Steps i t (if i = k then t' else t) := by
  -- the object of the operation, or another one
  by_cases hik : i = k
  · rw [if_pos hik]
    exact hstep hik
  · rw [if_neg hik]
    exact .same h

/-- A value that is pushed may drive out the oldest one. -/
theorem BufferOp.Steps.push {op : BufferOp α} {i : ℕ} {t : Tracked α} {w : Window α} {x : α}
    (h : t.Follows w)
    (hreason : ∀ p, 0 < t.buffer.capacity → t.buffer.capacity ≤ t.pushed.length - p →
      op.Removes i t p) :
    op.Steps i t { buffer := t.buffer.push x, pushed := t.pushed ++ [x] } := by
  -- the window takes the value as the buffer does
  have h' : ({ buffer := t.buffer.push x, pushed := t.pushed ++ [x] } : Tracked α).Follows
      (w.append x) := ⟨h.refines.push x, by rw [← h.log]; rfl⟩
  refine .of_window h h' (List.prefix_append _ _) fun p hleft hlt => ?_
  obtain ⟨hpos, hnewer⟩ := Window.leaves_append hleft hlt
  rw [← h.refines.capacity] at hpos hnewer
  rw [h.log] at hnewer
  exact hreason p hpos hnewer

/-- **Step**, on the contents that an object has afterwards. -/
theorem effect_spec {t : Tracked α} {w : Window α} (h : t.Follows w) (op : BufferOp α)
    (i : ℕ) : op.Steps i t (op.effect i t) := by
  -- operations that carry contents over change nothing in them
  cases op with
  | construct k capacity => exact .same h
  | moveConstruct k other => exact .same h
  | moveAssign k other => exact .same h
  | setCapacity k newCapacity =>
    have h' : ({ t with buffer := t.buffer.setCapacity newCapacity } : Tracked α).Follows
        (w.rebound newCapacity) := ⟨h.refines.setCapacity newCapacity, h.log⟩
    refine .at_object h fun hik =>
      .of_window h h' (List.prefix_refl _) fun p hleft hlt => ?_
    obtain ⟨hpos, hlower⟩ := Window.leaves_rebound hleft hlt
    rw [← h.refines.capacity] at hlower
    exact ⟨hik, hpos, hlower⟩
  | push k x =>
    exact .at_object h fun hik => .push h fun p hpos hnewer => ⟨hik, hpos, hnewer⟩
  | emplace k x =>
    exact .at_object h fun hik => .push h fun p hpos hnewer => ⟨hik, hpos, hnewer⟩
  | tryPop k =>
    have h' : ({ t with buffer := t.buffer.tryPop.2 } : Tracked α).Follows w.pop :=
      ⟨h.refines.tryPop, h.log⟩
    refine .at_object h fun hik =>
      .of_window h h' (List.prefix_refl _) fun p hleft hlt => ⟨hik, ?_⟩
    exact (Window.leaves_pop hleft hlt).trans h.left_eq.symm
  | clear k =>
    refine .at_object h fun hik => ⟨⟨w.clear, h.refines.clear, rfl⟩, Or.inl ?_, fun _ _ _ => hik⟩
    rw [hik]

theorem bufferInv_next {s : Buffers α} (hI : BufferInv s) {op : BufferOp α} :
    BufferInv (s.next op) := by
  intro i t ht
  -- an object without a source is empty; every other one follows the window of its source
  cases hsource : op.source i with
  | none =>
    obtain ⟨capacity, rfl⟩ := next_of_no_source hsource ht
    exact ⟨Window.empty capacity, Refines.construct capacity, rfl⟩
  | some j =>
    rw [next_of_source hsource, Option.map_eq_some_iff] at ht
    obtain ⟨t₀, ht₀, rfl⟩ := ht
    obtain ⟨w, hw⟩ := hI j t₀ ht₀
    exact (effect_spec hw op i).follows

/-- **Run**: every buffer follows a window in every state of every run. -/
theorem bufferInv_of_reach {s : Buffers α} (h : Reachable (bufferSystem α) s) :
    BufferInv s := by
  apply h.invariant_ofCommands
  · intro s hs i t ht
    rw [hs] at ht
    simp at ht
  · exact fun s op hI _ _ => bufferInv_next hI

/-- `try_pop` gives the oldest element. -/
theorem fst_tryPop (b : CircularBuffer α) : b.tryPop.1 = b.buffer.head? := by
  unfold CircularBuffer.tryPop
  cases b.buffer with
  | nil => rfl
  | cons x xs => rfl

/-- A run of pushes appends to the window. -/
theorem Refines.pushAll {b : CircularBuffer α} {w : Window α} (h : Refines b w) (xs : List α) :
    Refines (xs.foldl CircularBuffer.push b) (w.appendAll xs) := by
  unfold Window.appendAll
  -- the elements are pushed one by one
  induction xs generalizing b w with
  | nil => exact h
  | cons x xs ih => exact ih (h.push x)

/-- **The buffer is a bounded log.** In every run of operations on any number of buffers:

    - the size is at most a positive capacity, the contents are the end of what was pushed
      since the last `clear`, and `try_pop` gives the oldest of them and removes it;
    - an object that is new or moved from is empty, and a new one has the capacity that it is
      given; every other one has the history of its source, in which the numbers of the values
      stay and values leave for one of the reasons of `BufferOp.Removes`, and its capacity,
      unless `set_capacity` gives it another one.

    Pushes to an empty buffer of capacity `c` leave the last `c` values. -/
theorem circularBuffer_boundedLog :
    (∀ s : Buffers α, Reachable (bufferSystem α) s → ∀ i t, s i = some t →
      (0 < t.buffer.capacity → t.buffer.snapshot.length ≤ t.buffer.capacity) ∧
        t.buffer.snapshot <:+ t.pushed ∧ t.buffer.tryPop.1 = t.pushed[t.left]? ∧
        t.buffer.tryPop.1.toList ++ t.buffer.tryPop.2.snapshot = t.buffer.snapshot) ∧
    (∀ (s : Buffers α) (op : BufferOp α), Reachable (bufferSystem α) s → s.enabled op →
      ∀ i t', s.next op i = some t' →
        (op.source i = none → t'.pushed = [] ∧ t'.buffer.snapshot = [] ∧
          ∀ c, op = .construct i c → t'.buffer.capacity = c) ∧
        ∀ j, op.source i = some j → ∃ t, s j = some t ∧
          (op = .clear i ∨ t.pushed <+: t'.pushed) ∧
          t'.buffer.capacity = op.capacity i t.buffer.capacity ∧
          ∀ p, t.Holds p → ¬ t'.Holds p → op.Removes i t p) ∧
    ∀ (c : ℕ) (xs : List α), 0 < c →
      (xs.foldl CircularBuffer.push { capacity := c }).snapshot = xs.drop (xs.length - c) := by
  refine ⟨?_, ?_, ?_⟩
  · -- states: the contents are those of a window
    intro s hs i t ht
    obtain ⟨w, hw⟩ := bufferInv_of_reach hs i t ht
    have hcontents : t.buffer.snapshot = w.contents := hw.refines.contents
    refine ⟨fun hpos => hw.refines.length_le hpos, ?_, ?_, tryPop_append t.buffer⟩
    · rw [hcontents, ← hw.log]
      exact w.contents_suffix
    · rw [hw.left_eq, ← hw.log, ← List.head?_drop]
      exact (fst_tryPop t.buffer).trans (congrArg List.head? hw.refines.contents)
  · -- steps: objects without a source, and the others with theirs
    intro s op hs _ i t' ht'
    refine ⟨fun hsource => ?_, fun j hsource => ?_⟩
    · obtain ⟨capacity, rfl⟩ := next_of_no_source hsource ht'
      refine ⟨rfl, rfl, ?_⟩
      rintro c rfl
      simp only [Buffers.next, Function.update_self, Option.some.injEq, Tracked.mk.injEq] at ht'
      exact congrArg CircularBuffer.capacity ht'.1.symm
    · rw [next_of_source hsource, Option.map_eq_some_iff] at ht'
      obtain ⟨t, ht, rfl⟩ := ht'
      obtain ⟨w, hw⟩ := bufferInv_of_reach hs j t ht
      have hstep := effect_spec hw op i
      exact ⟨t, ht, hstep.numbers, capacity_effect op i t, hstep.reason⟩
  · -- a buffer that has only been pushed to
    intro c xs hc
    have h := (Refines.construct c).pushAll xs
    unfold CircularBuffer.snapshot
    rw [h.contents, Window.contents_appendAll hc]

end AVCapture.Utils
