import AVCapture.Lib.LinkedCircle
import AVCapture.Utils.QueueBlock
import Mathlib.Algebra.Order.BigOperators.Group.List

/-!
# The Circle of Blocks

The blocks of the lock-free queue are linked in a circle: the front block, the blocks behind it
up to the tail block, and the free ones. A block between the front block and the tail block is
full, and stays as it is until it becomes the front block.

What is in the queue is what is in these blocks, in their order.

## Main results

- `Shape`: the circle, and what its blocks hold
- `Shape.write`: a write to one block
- `Shape.advanceTail`, `Shape.allocate`, `Shape.link`, `Shape.advanceFront`: the blocks move
- `Shape.full`: a queue without a free block is full
-/

namespace AVCapture.Utils

variable {α : Type}

/-! ## Room -/

/-- How many values fit in whatever the front block is, where the blocks have these masks: the
    rest of the front block cannot be used when the tail block is another one. -/
structure Roomy (room largestBlockSize : ℕ) (masks : List ℕ) : Prop where
  single : masks.length = 1 → room ≤ masks.sum ∧ room < largestBlockSize
  several : 1 < masks.length → ∀ m ∈ masks, room + m ≤ masks.sum

theorem Roomy.perm {room largest : ℕ} {ms ms' : List ℕ} (h : Roomy room largest ms)
    (hperm : ms.Perm ms') : Roomy room largest ms' := by
  refine ⟨fun hone => ?_, fun hmany m hm => ?_⟩
  · rw [← hperm.sum_eq]
    exact h.single (hperm.length_eq.trans hone)
  · rw [← hperm.sum_eq]
    exact h.several (by rwa [hperm.length_eq]) m (hperm.mem_iff.mpr hm)

theorem Roomy.grow {room largest largest' : ℕ} {ms : List ℕ} (h : Roomy room largest ms)
    (hle : largest ≤ largest') : Roomy room largest' ms :=
  ⟨fun hone => ⟨(h.single hone).1, Nat.lt_of_lt_of_le (h.single hone).2 hle⟩, h.several⟩

/-- A block more. -/
theorem Roomy.cons {room largest m : ℕ} {ms : List ℕ} (h : Roomy room largest ms)
    (hne : ms ≠ []) (hm : largest ≤ m + 1) : Roomy room largest (m :: ms) := by
  have hlen : 0 < ms.length := List.length_pos_iff.mpr hne
  refine ⟨fun hone => ?_, fun _ m' hm' => ?_⟩
  · rw [List.length_cons] at hone
    omega
  · rw [List.sum_cons]
    -- with two blocks before, the sum only grows
    rcases Nat.lt_or_ge 1 ms.length with hmany | hfew
    · rcases List.mem_cons.mp hm' with rfl | hin
      · obtain ⟨x, xs, rfl⟩ := List.exists_cons_of_ne_nil hne
        have hx := h.several hmany x List.mem_cons_self
        omega
      · have hx := h.several hmany m' hin
        omega
    · -- with one block before, either may be the front block, and the other one has the room
      obtain ⟨x, rfl⟩ := List.length_eq_one_iff.mp (by omega : ms.length = 1)
      obtain ⟨hsum, hlargest⟩ := h.single rfl
      rw [List.sum_singleton] at hsum ⊢
      rcases List.mem_cons.mp hm' with rfl | hin
      · omega
      · rw [List.mem_singleton.mp hin]
        omega

/-! ## The shape of the queue -/

/-- What the memory of a queue stands for: what each block holds, the blocks behind the front
    block up to the tail block, the one that the producer is about to move to, and the free
    ones. -/
structure Layout (α : Type) where
  view : ℕ → View α
  behind : List ℕ := []
  claimed : List ℕ := []
  free : List ℕ := []

namespace Layout

/-- The blocks but the front block, in the order of the links. -/
def others (g : Layout α) : List ℕ := g.behind ++ (g.claimed ++ g.free)

def set (g : Layout α) (id : ℕ) (v : View α) : Layout α :=
  { g with view := Function.update g.view id v }

/-- What is in the queue. -/
def content (g : Layout α) (frontBlock : ℕ) : List α :=
  (frontBlock :: g.behind).flatMap fun id => (g.view id).live

@[simp] theorem set_self (g : Layout α) (id : ℕ) (v : View α) : (g.set id v).view id = v :=
  Function.update_self _ _ _

theorem set_of_ne (g : Layout α) {id id' : ℕ} (hne : id' ≠ id) (v : View α) :
    (g.set id v).view id' = g.view id' :=
  Function.update_of_ne hne _ _

/-- A write that leaves something of a block alone leaves it alone everywhere. -/
theorem set_same {β : Type} {g : Layout α} {id : ℕ} {v : View α} (π : View α → β)
    (h : π v = π (g.view id)) (id' : ℕ) : π ((g.set id v).view id') = π (g.view id') := by
  rcases eq_or_ne id' id with rfl | hne
  · rw [set_self, h]
  · rw [set_of_ne g hne]

end Layout

namespace ReaderWriterQueue

@[simp] theorem modify_self (q : ReaderWriterQueue α) (id : ℕ) (f : Block α → Block α) :
    (q.modify id f).blocks id = f (q.blocks id) :=
  Function.update_self _ _ _

theorem modify_of_ne (q : ReaderWriterQueue α) {id id' : ℕ} (hne : id' ≠ id)
    (f : Block α → Block α) : (q.modify id f).blocks id' = q.blocks id' :=
  Function.update_of_ne hne _ _

@[simp] theorem modify_frontBlock (q : ReaderWriterQueue α) (id : ℕ) (f : Block α → Block α) :
    (q.modify id f).frontBlock = q.frontBlock := rfl

@[simp] theorem modify_tailBlock (q : ReaderWriterQueue α) (id : ℕ) (f : Block α → Block α) :
    (q.modify id f).tailBlock = q.tailBlock := rfl

/-- The masks of the blocks in the circle. -/
def masks (q : ReaderWriterQueue α) (g : Layout α) : List ℕ :=
  (q.frontBlock :: g.others).map fun id => (q.blocks id).sizeMask

end ReaderWriterQueue

/-- The circle of the blocks, with what each of them holds; `room` is the number of values that
    the constructor was asked to make room for. -/
structure Shape (room : ℕ) (q : ReaderWriterQueue α) (g : Layout α) : Prop where
  holds : ∀ id < q.allocated, (q.blocks id).Holds (g.view id)
  circle : LinkedCircle (fun id => (q.blocks id).next) q.frontBlock g.others
  made : ∀ id ∈ q.frontBlock :: g.others, id < q.allocated
  last : g.behind.getLastD q.frontBlock = q.tailBlock
  free : ∀ id ∈ g.free, (g.view id).live = []
  filled : ∀ id ∈ g.behind, id ≠ q.tailBlock →
    (g.view id).live.length = (q.blocks id).sizeMask
  started : ∀ id ∈ g.behind, (g.view id).live ≠ []
  gone : ∀ id, id ≠ q.frontBlock → (g.view id).gone = 0
  power : ∃ k, 1 ≤ k ∧ q.largestBlockSize = 2 ^ k
  roomy : Roomy room q.largestBlockSize (q.masks g)

namespace Shape

variable {room id nb : ℕ} {q : ReaderWriterQueue α} {g : Layout α} {v : View α}
  {f : Block α → Block α} {l : List ℕ}

/-! ### Where the blocks are -/

theorem frontBlock_made (h : Shape room q g) : q.frontBlock < q.allocated :=
  h.made _ List.mem_cons_self

theorem front_holds (h : Shape room q g) : (q.blocks q.frontBlock).Holds (g.view q.frontBlock) :=
  h.holds _ h.frontBlock_made

theorem tailBlock_mem (h : Shape room q g) : q.tailBlock ∈ q.frontBlock :: g.behind := by
  rw [← h.last]
  exact List.getLastD_mem_cons

theorem tailBlock_made (h : Shape room q g) : q.tailBlock < q.allocated := by
  refine h.made _ ?_
  rcases List.mem_cons.mp h.tailBlock_mem with hfront | hbehind
  · rw [hfront]
    exact List.mem_cons_self
  · exact List.mem_cons_of_mem _ (List.mem_append_left _ hbehind)

theorem tail_holds (h : Shape room q g) : (q.blocks q.tailBlock).Holds (g.view q.tailBlock) :=
  h.holds _ h.tailBlock_made

theorem frontBlock_notMem (h : Shape room q g) : q.frontBlock ∉ g.others :=
  (List.nodup_cons.mp h.circle.nodup).1

theorem ne_frontBlock (h : Shape room q g) (hid : id ∈ g.others) : id ≠ q.frontBlock := by
  rintro rfl
  exact h.frontBlock_notMem hid

/-- The front block is the tail block when there is no block behind it. -/
theorem behind_eq_nil_iff (h : Shape room q g) : g.behind = [] ↔ q.frontBlock = q.tailBlock := by
  constructor
  · intro hnil
    rw [← h.last, hnil]
    rfl
  · intro heq
    by_contra hne
    -- the last of the blocks behind the front block is not the front block itself
    have hlast : g.behind.getLastD q.frontBlock ∈ g.behind := by
      rw [List.getLastD_eq_getLast?, List.getLast?_eq_some_getLast hne]
      exact List.getLast_mem hne
    rw [h.last, ← heq] at hlast
    exact h.frontBlock_notMem (List.mem_append_left _ hlast)

theorem disjoint (h : Shape room q g) (hid : id ∈ g.behind) : id ∉ g.claimed ++ g.free :=
  fun hid' => (List.nodup_append.mp (List.nodup_cons.mp h.circle.nodup).2).2.2 id hid id hid' rfl

theorem tailBlock_notMem (h : Shape room q g) : q.tailBlock ∉ g.claimed ++ g.free := by
  intro hin
  rcases List.mem_cons.mp h.tailBlock_mem with hfront | hbehind
  · exact h.ne_frontBlock (List.mem_append_right _ hin) hfront
  · exact h.disjoint hbehind hin

/-- The link of the tail block. -/
theorem tail_next (h : Shape room q g) :
    (q.blocks q.tailBlock).next = (g.claimed ++ g.free).headD q.frontBlock := by
  rw [← h.last]
  exact h.circle.next_getLastD

/-- The link of the front block. -/
theorem front_next (h : Shape room q g) (hbehind : g.behind = nb :: l) :
    (q.blocks q.frontBlock).next = nb := by
  have hcircle := h.circle
  rw [Layout.others, hbehind] at hcircle
  exact hcircle.next_getLastD (l := []) (r := nb :: l ++ (g.claimed ++ g.free))

/-- The claimed block is neither in use nor free. -/
theorem claimed_spec (h : Shape room q g) (hclaimed : g.claimed = [nb]) :
    nb < q.allocated ∧ nb ∉ q.frontBlock :: g.behind ∧ nb ∉ g.free := by
  have hin : nb ∈ g.claimed ++ g.free := by
    rw [hclaimed]
    exact List.mem_cons_self
  -- the claimed block is one of the others, between those in use and the free ones
  have hothers : nb ∈ g.others := List.mem_append_right _ hin
  refine ⟨h.made nb (List.mem_cons_of_mem _ hothers), fun hmem => ?_, fun hfree => ?_⟩
  · rcases List.mem_cons.mp hmem with hfront | hbehind
    · exact h.ne_frontBlock hothers hfront
    · exact h.disjoint hbehind hin
  · have hnodup := (List.nodup_append.mp (List.nodup_cons.mp h.circle.nodup).2).2.1
    rw [hclaimed] at hnodup
    exact (List.nodup_cons.mp hnodup).1 hfree

/-- The block behind the front block has something in it. -/
theorem next_spec (h : Shape room q g) (hbehind : g.behind = nb :: l) :
    nb ≠ q.frontBlock ∧ (q.blocks nb).Holds (g.view nb) ∧
      (g.view nb).front < (g.view nb).tail := by
  have hin : nb ∈ g.behind := hbehind ▸ List.mem_cons_self
  have hothers : nb ∈ g.others := List.mem_append_left _ hin
  have hne := h.ne_frontBlock hothers
  have hholds := h.holds nb (h.made nb (List.mem_cons_of_mem _ hothers))
  -- something lives there and nothing has been taken from it, so `front` is before `tail`
  have hstarted := List.length_pos_iff.mpr (h.started nb hin)
  have hcount := hholds.count
  exact ⟨hne, hholds, by omega⟩

/-- The size of a new block. -/
theorem newBlockSize (h : Shape room q g) (maxBlockSize : ℕ) :
    ∃ k, 1 ≤ k ∧ (if maxBlockSize ≤ q.largestBlockSize then q.largestBlockSize
      else q.largestBlockSize * 2) = 2 ^ k ∧ q.largestBlockSize ≤ 2 ^ k := by
  obtain ⟨k, hk, hpower⟩ := h.power
  split
  · exact ⟨k, hk, hpower, Nat.le_of_eq hpower⟩
  · refine ⟨k + 1, Nat.le_add_left 1 k, ?_, ?_⟩
    · rw [hpower, Nat.pow_succ]
    · rw [hpower]
      exact Nat.pow_le_pow_right (by omega) (Nat.le_succ k)

/-! ### What is in the queue -/

theorem content_set_of_notMem (hid : id ∉ q.frontBlock :: g.behind) (v : View α) :
    (g.set id v).content q.frontBlock = g.content q.frontBlock := by
  refine List.flatMap_congr fun id' hid' => ?_
  have hne : id' ≠ id := by
    rintro rfl
    exact hid hid'
  rw [Layout.set_of_ne g hne]

theorem content_set_same (hlive : v.live = (g.view id).live) :
    (g.set id v).content q.frontBlock = g.content q.frontBlock :=
  List.flatMap_congr fun id' _ => Layout.set_same View.live hlive id'

/-- An object more in the tail block. -/
theorem content_set_tail (h : Shape room q g) {element : α}
    (hlive : v.live = (g.view q.tailBlock).live ++ [element]) :
    (g.set q.tailBlock v).content q.frontBlock = g.content q.frontBlock ++ [element] := by
  -- the tail block is the last of those with something in them
  obtain ⟨init, hinit⟩ : ∃ init, q.frontBlock :: g.behind = init ++ [q.tailBlock] := by
    refine ⟨(q.frontBlock :: g.behind).dropLast, ?_⟩
    have hlast := List.dropLast_append_getLast (List.cons_ne_nil q.frontBlock g.behind)
    rw [List.getLast_eq_getLastD, h.last] at hlast
    exact hlast.symm
  have hnodup : (q.frontBlock :: g.behind).Nodup :=
    h.circle.nodup.sublist ((List.sublist_append_left _ _).cons_cons _)
  -- and it is there once, so that the other blocks keep what they hold
  have hnotMem : q.tailBlock ∉ init := by
    rw [hinit] at hnodup
    exact fun hin => (List.nodup_append.mp hnodup).2.2 _ hin _ List.mem_cons_self rfl
  have hkeep : (init.flatMap fun id => ((g.set q.tailBlock v).view id).live) =
      init.flatMap fun id => (g.view id).live := by
    refine List.flatMap_congr fun id' hid' => ?_
    have hne : id' ≠ q.tailBlock := by
      rintro rfl
      exact hnotMem hid'
    rw [Layout.set_of_ne g hne]
  show ((q.frontBlock :: g.behind).flatMap _) = ((q.frontBlock :: g.behind).flatMap _) ++ _
  rw [hinit, List.flatMap_append, List.flatMap_append, hkeep, List.flatMap_singleton,
    List.flatMap_singleton, Layout.set_self, hlive, List.append_assoc]

/-- An object less in the front block. -/
theorem content_set_front (h : Shape room q g) {element : α}
    (hlive : (g.view q.frontBlock).live = element :: v.live) :
    g.content q.frontBlock = element :: (g.set q.frontBlock v).content q.frontBlock := by
  have hkeep : (g.behind.flatMap fun id => ((g.set q.frontBlock v).view id).live) =
      g.behind.flatMap fun id => (g.view id).live := by
    refine List.flatMap_congr fun id' hid' => ?_
    rw [Layout.set_of_ne g (h.ne_frontBlock (List.mem_append_left _ hid'))]
  show _ = element :: ((q.frontBlock :: g.behind).flatMap _)
  rw [Layout.content, List.flatMap_cons, List.flatMap_cons, hkeep, Layout.set_self, hlive,
    List.cons_append]

/-! ### Writes to a block -/

/-- A write that leaves the links alone. -/
theorem write (h : Shape room q g) (hnext : (f (q.blocks id)).next = (q.blocks id).next)
    (hmask : (f (q.blocks id)).sizeMask = (q.blocks id).sizeMask)
    (hholds : (f (q.blocks id)).Holds v) (hgone : id ≠ q.frontBlock → v.gone = 0)
    (hfree : id ∈ g.free → v.live = [])
    (hfilled : id ∈ g.behind → id ≠ q.tailBlock → v.live.length = (q.blocks id).sizeMask)
    (hstarted : id ∈ g.behind → v.live ≠ []) : Shape room (q.modify id f) (g.set id v) := by
  -- neither the links nor the masks change in any block
  have hblock (id' : ℕ) : ((q.modify id f).blocks id').next = (q.blocks id').next ∧
      ((q.modify id f).blocks id').sizeMask = (q.blocks id').sizeMask := by
    rcases eq_or_ne id' id with rfl | hne
    · rw [ReaderWriterQueue.modify_self]
      exact ⟨hnext, hmask⟩
    · rw [ReaderWriterQueue.modify_of_ne q hne]
      exact ⟨rfl, rfl⟩
  refine ⟨fun id' hid' => ?_, h.circle.congr fun id' _ => (hblock id').1, h.made, h.last,
    fun id' hid' => ?_, fun id' hid' hne' => ?_, fun id' hid' => ?_, fun id' hid' => ?_,
    h.power, ?_⟩
  · -- what the blocks hold
    rcases eq_or_ne id' id with rfl | hne
    · rw [ReaderWriterQueue.modify_self, Layout.set_self]
      exact hholds
    · rw [ReaderWriterQueue.modify_of_ne q hne, Layout.set_of_ne g hne]
      exact h.holds id' hid'
  · -- the free blocks
    rcases eq_or_ne id' id with rfl | hne
    · rw [Layout.set_self]
      exact hfree hid'
    · rw [Layout.set_of_ne g hne]
      exact h.free id' hid'
  · -- the full blocks
    rw [(hblock id').2]
    rcases eq_or_ne id' id with rfl | hne
    · rw [Layout.set_self]
      exact hfilled hid' hne'
    · rw [Layout.set_of_ne g hne]
      exact h.filled id' hid' hne'
  · -- the blocks that have been written to
    rcases eq_or_ne id' id with rfl | hne
    · rw [Layout.set_self]
      exact hstarted hid'
    · rw [Layout.set_of_ne g hne]
      exact h.started id' hid'
  · -- only the front block has an object that is being moved out
    rcases eq_or_ne id' id with rfl | hne
    · rw [Layout.set_self]
      exact hgone hid'
    · rw [Layout.set_of_ne g hne]
      exact h.gone id' hid'
  · -- the room, which depends on the masks only
    have hmasks : (q.modify id f).masks (g.set id v) = q.masks g :=
      List.map_congr_left fun id' _ => (hblock id').2
    rw [hmasks]
    exact h.roomy

/-- A write that leaves the objects alone as well. -/
theorem write_same (h : Shape room q g) (hnext : (f (q.blocks id)).next = (q.blocks id).next)
    (hmask : (f (q.blocks id)).sizeMask = (q.blocks id).sizeMask)
    (hholds : (f (q.blocks id)).Holds v) (hgone : v.gone = (g.view id).gone ∨ v.gone = 0)
    (hlive : v.live = (g.view id).live) : Shape room (q.modify id f) (g.set id v) := by
  refine h.write hnext hmask hholds (fun hne => ?_) (fun hid => ?_) (fun hid hne => ?_)
    fun hid => ?_
  · exact hgone.elim (fun heq => heq.trans (h.gone id hne)) fun hzero => hzero
  · exact hlive.trans (h.free id hid)
  · rw [hlive]
    exact h.filled id hid hne
  · rw [hlive]
    exact h.started id hid

/-! ### The blocks move -/

/-- The producer claims the first of the free blocks. -/
theorem claim (h : Shape room q g) (hclaimed : g.claimed = []) (hfree : g.free = nb :: l) :
    Shape room q { g with claimed := [nb], free := l } := by
  -- the block is one of the others as before, and the circle stays
  have hothers : Layout.others { g with claimed := [nb], free := l } = g.others := by
    rw [Layout.others, Layout.others, hclaimed, hfree]
    rfl
  refine { h with circle := ?_, made := ?_, free := fun id hid => h.free id ?_, roomy := ?_ }
  · rw [hothers]
    exact h.circle
  · rw [hothers]
    exact h.made
  · rw [hfree]
    exact List.mem_cons_of_mem nb hid
  · rw [ReaderWriterQueue.masks, hothers]
    exact h.roomy

/-- The tail block moves on to the claimed block, which has been written to. -/
theorem advanceTail (h : Shape room q g) (hclaimed : g.claimed = [nb])
    (hstarted : (g.view nb).live ≠ [])
    (hfull : q.tailBlock ≠ q.frontBlock →
      (g.view q.tailBlock).live.length = (q.blocks q.tailBlock).sizeMask) :
    Shape room { q with tailBlock := nb }
      { g with behind := g.behind ++ [nb], claimed := [] } := by
  have hothers :
      Layout.others { g with behind := g.behind ++ [nb], claimed := [] } = g.others := by
    simp only [Layout.others, hclaimed, List.append_assoc, List.nil_append]
  refine { h with
    circle := ?_, made := ?_, last := List.getLastD_concat, filled := ?_, started := ?_,
    roomy := ?_ }
  · rw [hothers]
    exact h.circle
  · rw [hothers]
    exact h.made
  · intro id hid hne
    have hbehind : id ∈ g.behind :=
      (List.mem_append.mp hid).resolve_right fun hnb => hne (List.mem_singleton.mp hnb)
    -- the block left is full, if it is not the front block; those before it were full already
    rcases eq_or_ne id q.tailBlock with rfl | hmiddle
    · exact hfull (h.ne_frontBlock (List.mem_append_left _ hbehind))
    · exact h.filled id hbehind hmiddle
  · intro id hid
    rcases List.mem_append.mp hid with hbehind | hnb
    · exact h.started id hbehind
    · rw [List.mem_singleton.mp hnb]
      exact hstarted
  · rw [ReaderWriterQueue.masks, hothers]
    exact h.roomy

/-- A block is made, which nobody sees yet. -/
theorem allocate (h : Shape room q g) {b : Block α} (hholds : b.Holds v) (hgone : v.gone = 0)
    {largest : ℕ} (hlargest : q.largestBlockSize ≤ largest)
    (hpower : ∃ k, 1 ≤ k ∧ largest = 2 ^ k) :
    Shape room
      { q with
        blocks := Function.update q.blocks q.allocated b
        allocated := q.allocated + 1
        largestBlockSize := largest }
      (g.set q.allocated v) := by
  -- the new block has a number that none of the circle has
  have hother {id : ℕ} (hid : id ∈ q.frontBlock :: g.others) : id ≠ q.allocated :=
    Nat.ne_of_lt (h.made id hid)
  have hbehind {id : ℕ} (hid : id ∈ g.behind) : id ≠ q.allocated :=
    hother (List.mem_cons_of_mem _ (List.mem_append_left _ hid))
  refine ⟨fun id hid => ?_, h.circle.congr fun id hid => ?_,
    fun id hid => Nat.lt_succ_of_lt (h.made id hid), h.last, fun id hid => ?_,
    fun id hid hne => ?_, fun id hid => ?_, fun id hid => ?_, hpower, ?_⟩
  · -- what the blocks hold, the new one included
    show (Function.update q.blocks q.allocated b id).Holds _
    rcases eq_or_ne id q.allocated with rfl | hne
    · rw [Function.update_self, Layout.set_self]
      exact hholds
    · rw [Function.update_of_ne hne, Layout.set_of_ne g hne]
      exact h.holds id (Nat.lt_of_le_of_ne (Nat.le_of_lt_succ hid) hne)
  · show (Function.update q.blocks q.allocated b id).next = _
    rw [Function.update_of_ne (hother hid)]
  · have hmem : id ∈ g.others := List.mem_append_right _ (List.mem_append_right _ hid)
    rw [Layout.set_of_ne g (hother (List.mem_cons_of_mem _ hmem))]
    exact h.free id hid
  · show _ = (Function.update q.blocks q.allocated b id).sizeMask
    rw [Layout.set_of_ne g (hbehind hid), Function.update_of_ne (hbehind hid)]
    exact h.filled id hid hne
  · rw [Layout.set_of_ne g (hbehind hid)]
    exact h.started id hid
  · rcases eq_or_ne id q.allocated with rfl | hne
    · rw [Layout.set_self]
      exact hgone
    · rw [Layout.set_of_ne g hne]
      exact h.gone id hid
  · -- the new block is not in the circle, so that the masks are the old ones
    refine Roomy.grow ?_ hlargest
    have hmasks : (q.frontBlock :: g.others).map
        (fun id => (Function.update q.blocks q.allocated b id).sizeMask) = q.masks g :=
      List.map_congr_left fun id hid => by rw [Function.update_of_ne (hother hid)]
    show Roomy _ _ ((q.frontBlock :: g.others).map
      fun id => (Function.update q.blocks q.allocated b id).sizeMask)
    rw [hmasks]
    exact h.roomy

/-- The new block is linked behind the tail block. -/
theorem link (h : Shape room q g) (hclaimed : g.claimed = []) (hmade : nb < q.allocated)
    (hnew : nb ∉ q.frontBlock :: g.others)
    (hnext : (q.blocks nb).next = (q.blocks q.tailBlock).next)
    (hmask : q.largestBlockSize ≤ (q.blocks nb).sizeMask + 1) :
    Shape room (q.modify q.tailBlock fun b => { b with next := nb })
      { g with claimed := [nb] } := by
  have hmasks (id : ℕ) :
      ((q.modify q.tailBlock fun b => { b with next := nb }).blocks id).sizeMask =
        (q.blocks id).sizeMask := by
    rcases eq_or_ne id q.tailBlock with rfl | hne
    · rw [ReaderWriterQueue.modify_self]
    · rw [ReaderWriterQueue.modify_of_ne q hne]
  -- in the circle the new block comes between the tail block and the free blocks
  have hothers : g.others = g.behind ++ g.free := by rw [Layout.others, hclaimed]; rfl
  have hnew' : nb ≠ q.tailBlock := by
    rintro rfl
    rcases List.mem_cons.mp h.tailBlock_mem with hfront | hbehind
    · exact hnew (hfront ▸ List.mem_cons_self)
    · exact hnew (List.mem_cons_of_mem _ (List.mem_append_left _ hbehind))
  have hperm : (q.frontBlock :: (g.behind ++ nb :: g.free)).Perm
      (nb :: q.frontBlock :: g.others) := by
    rw [hothers]
    exact (List.perm_middle.cons _).trans (.swap nb _ _)
  refine { h with
    holds := fun id hid => ?_, circle := ?_, made := fun id hid => ?_, filled := ?_,
    roomy := ?_ }
  · -- the tail block gets another link, and holds what it held
    rcases eq_or_ne id q.tailBlock with rfl | hne
    · rw [ReaderWriterQueue.modify_self]
      exact (h.holds _ hid).relink nb
    · rw [ReaderWriterQueue.modify_of_ne q hne]
      exact h.holds id hid
  · -- the link of the tail block is the new block, whose link is the old one
    have hcircle := h.circle
    rw [hothers] at hcircle hnew
    refine hcircle.insert hnew ?_ ?_ fun id hlast _ => ?_
    · rw [h.last, ReaderWriterQueue.modify_of_ne q hnew']
      exact hnext
    · rw [h.last, ReaderWriterQueue.modify_self]
    · rw [h.last] at hlast
      rw [ReaderWriterQueue.modify_of_ne q hlast]
  · rcases List.mem_cons.mp (hperm.mem_iff.mp hid) with rfl | hold
    · exact hmade
    · exact h.made id hold
  · intro id hid hne
    rw [hmasks]
    exact h.filled id hid hne
  · -- a block more never makes the room less
    have hroomy : Roomy room q.largestBlockSize ((q.blocks nb).sizeMask :: q.masks g) :=
      h.roomy.cons (List.cons_ne_nil _ _) hmask
    refine hroomy.perm ((hperm.map fun id => (q.blocks id).sizeMask).symm.trans ?_)
    exact List.Perm.of_eq (List.map_congr_left fun id _ => (hmasks id).symm)

/-- The front block moves on, and the block that has been emptied is free. -/
theorem advanceFront (h : Shape room q g) (hbehind : g.behind = nb :: l)
    (hempty : (g.view q.frontBlock).live = []) (hgone : (g.view q.frontBlock).gone = 0) :
    Shape room { q with frontBlock := nb }
      { g with behind := l, free := g.free ++ [q.frontBlock] } := by
  have hothers : g.others = nb :: (l ++ (g.claimed ++ g.free)) := by
    rw [Layout.others, hbehind]
    rfl
  have hothers' : Layout.others { g with behind := l, free := g.free ++ [q.frontBlock] } =
      (l ++ (g.claimed ++ g.free)) ++ [q.frontBlock] := by
    simp only [Layout.others, List.append_assoc]
  -- the same blocks as before, beginning one later
  have hperm : (nb :: ((l ++ (g.claimed ++ g.free)) ++ [q.frontBlock])).Perm
      (q.frontBlock :: g.others) := by
    rw [hothers]
    exact List.perm_append_singleton q.frontBlock (nb :: (l ++ (g.claimed ++ g.free)))
  have hnb {id : ℕ} (hid : id ∈ l) : id ∈ g.behind := by
    rw [hbehind]
    exact List.mem_cons_of_mem nb hid
  refine ⟨h.holds, ?_, fun id hid => ?_, ?_, fun id hid => ?_,
    fun id hid => h.filled id (hnb hid), fun id hid => h.started id (hnb hid),
    fun id hid => ?_, h.power, ?_⟩
  · -- the circle is turned by one
    have hcircle := h.circle
    rw [hothers] at hcircle
    rw [hothers']
    exact hcircle.rotate
  · rw [hothers'] at hid
    exact h.made id (hperm.mem_iff.mp hid)
  · have hlast := h.last
    rwa [hbehind, List.getLastD_cons] at hlast
  · -- the block that was the front block is free now, and it is empty
    rcases List.mem_append.mp hid with hold | hfront
    · exact h.free id hold
    · rw [List.mem_singleton.mp hfront]
      exact hempty
  · rcases eq_or_ne id q.frontBlock with rfl | hne
    · exact hgone
    · exact h.gone id hne
  · refine h.roomy.perm ?_
    rw [ReaderWriterQueue.masks, ReaderWriterQueue.masks, hothers']
    exact (hperm.map _).symm

end Shape

/-! ## A full queue -/

/-- The tail block was full when the producer looked, and it still is if it is not the front
    block. -/
structure Packed (q : ReaderWriterQueue α) (g : Layout α) : Prop where
  full : (g.view q.tailBlock).tail =
    (g.view q.tailBlock).localFront + (q.blocks q.tailBlock).sizeMask
  still : q.tailBlock ≠ q.frontBlock →
    (g.view q.tailBlock).front = (g.view q.tailBlock).localFront

/-- The front of the tail block has just been loaded. -/
theorem Packed.loaded {q : ReaderWriterQueue α} {g : Layout α}
    (hfull : (g.view q.tailBlock).tail =
      (g.view q.tailBlock).front + (q.blocks q.tailBlock).sizeMask) :
    Packed (q.modify q.tailBlock Block.refreshFront)
      (g.set q.tailBlock (g.view q.tailBlock).refreshFront) := by
  refine ⟨?_, fun _ => ?_⟩
  · rw [ReaderWriterQueue.modify_tailBlock, Layout.set_self, ReaderWriterQueue.modify_self]
    exact hfull
  · rw [ReaderWriterQueue.modify_tailBlock, Layout.set_self]
    rfl

theorem Packed.claim {q : ReaderWriterQueue α} {g : Layout α} (h : Packed q g) {nb : ℕ}
    (l : List ℕ) : Packed q { g with claimed := [nb], free := l } := ⟨h.full, h.still⟩

theorem Packed.link {q : ReaderWriterQueue α} {g : Layout α} (h : Packed q g) (nb : ℕ) :
    Packed (q.modify q.tailBlock fun b => { b with next := nb }) { g with claimed := [nb] } := by
  refine ⟨?_, h.still⟩
  rw [ReaderWriterQueue.modify_tailBlock, ReaderWriterQueue.modify_self]
  exact h.full

theorem Packed.allocate {q : ReaderWriterQueue α} {g : Layout α} (h : Packed q g)
    (hmade : q.tailBlock < q.allocated) (b : Block α) (v : View α) (largest : ℕ) :
    Packed
      { q with
        blocks := Function.update q.blocks q.allocated b
        allocated := q.allocated + 1
        largestBlockSize := largest }
      (g.set q.allocated v) := by
  have hne : q.tailBlock ≠ q.allocated := Nat.ne_of_lt hmade
  refine ⟨?_, fun hfront => ?_⟩
  · -- the new block is not the tail block
    show ((g.set q.allocated v).view q.tailBlock).tail =
      ((g.set q.allocated v).view q.tailBlock).localFront +
        (Function.update q.blocks q.allocated b q.tailBlock).sizeMask
    rw [Layout.set_of_ne g hne, Function.update_of_ne hne]
    exact h.full
  · show ((g.set q.allocated v).view q.tailBlock).front =
      ((g.set q.allocated v).view q.tailBlock).localFront
    rw [Layout.set_of_ne g hne]
    exact h.still hfront

/-- A write to another block. -/
theorem Packed.write {q : ReaderWriterQueue α} {g : Layout α} (h : Packed q g) {id : ℕ}
    (hne : q.tailBlock ≠ id) (f : Block α → Block α) (v : View α) :
    Packed (q.modify id f) (g.set id v) := by
  refine ⟨?_, fun hfront => ?_⟩
  · rw [ReaderWriterQueue.modify_tailBlock, Layout.set_of_ne g hne,
      ReaderWriterQueue.modify_of_ne q hne]
    exact h.full
  · rw [ReaderWriterQueue.modify_tailBlock, Layout.set_of_ne g hne]
    exact h.still hfront

namespace Shape

variable {room : ℕ} {q : ReaderWriterQueue α} {g : Layout α}

theorem tail_full (h : Shape room q g) (hpacked : Packed q g)
    (hne : q.tailBlock ≠ q.frontBlock) :
    (g.view q.tailBlock).live.length = (q.blocks q.tailBlock).sizeMask := by
  -- what was full in the producer's eyes is full, since nobody takes from this block
  have hcount := h.tail_holds.count
  have hgone := h.gone _ hne
  have hfull := hpacked.full
  have hstill := hpacked.still hne
  omega

/-- Behind the front block every block is full. -/
theorem length_behind (h : Shape room q g) (hpacked : Packed q g) :
    (g.behind.flatMap fun id => (g.view id).live).length =
      (g.behind.map fun id => (q.blocks id).sizeMask).sum := by
  rw [List.length_flatMap]
  refine congrArg List.sum (List.map_congr_left fun id hid => ?_)
  rcases eq_or_ne id q.tailBlock with rfl | hne
  · exact h.tail_full hpacked (h.ne_frontBlock (List.mem_append_left _ hid))
  · exact h.filled id hid hne

/-- **No free block**: then there are `room` values behind the front block. -/
theorem full (h : Shape room q g) (hpacked : Packed q g) (hclaimed : g.claimed = [])
    (hfree : g.free = []) (hne : g.behind ≠ []) : room ≤ (g.content q.frontBlock).length := by
  have hothers : g.others = g.behind := by
    rw [Layout.others, hclaimed, hfree, List.append_nil, List.append_nil]
  -- without free blocks, all the others are behind the front block and full
  have hroomy := h.roomy
  rw [ReaderWriterQueue.masks, hothers] at hroomy
  have hlen : 0 < g.behind.length := List.length_pos_iff.mpr hne
  have hsum : room + (q.blocks q.frontBlock).sizeMask ≤ _ :=
    hroomy.several (by simpa using hlen) _ List.mem_cons_self
  rw [List.map_cons, List.sum_cons, ← h.length_behind hpacked] at hsum
  rw [Layout.content, List.flatMap_cons, List.length_append]
  omega

/-- **One block only**: it is full when the producer finds it full, counting the object that is
    being moved out. -/
theorem full_single (h : Shape room q g) (hothers : g.others = [])
    (hfull : (g.view q.frontBlock).tail =
      (g.view q.frontBlock).front + (q.blocks q.frontBlock).sizeMask) :
    room ≤ (g.view q.frontBlock).gone + (g.content q.frontBlock).length := by
  -- the room of a circle of one block is its mask
  have hroomy := h.roomy
  rw [ReaderWriterQueue.masks, hothers] at hroomy
  have hsum := (hroomy.single rfl).1
  have hcount := h.front_holds.count
  rw [List.map_cons, List.sum_cons, List.map_nil, List.sum_nil] at hsum
  rw [Layout.content, List.flatMap_cons, List.length_append]
  omega

end Shape

end AVCapture.Utils
