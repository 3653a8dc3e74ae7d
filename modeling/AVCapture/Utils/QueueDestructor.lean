import AVCapture.Utils.QueueRefinement

/-!
# The End of the Lock-Free Queue

`~ReaderWriterQueue` runs when both threads are out of the queue. It follows the links from the
front block on until they lead back there. In each block it destroys the objects from the front
to the tail, and then it frees the block.

## Main results

- `Block.Holds.destroyObjects_eq`: the objects of one block
- `Shape.destroy_eq`: the blocks of the circle
- `readerWriterQueue_destroy`: what is left of any run is destroyed, and nothing else
-/

namespace AVCapture.Utils

open AtomicQueue Transition

variable {α : Type}

/-! ## The destructor -/

/-- The loop over the slots of a block, from slot `i` on. There is no way to destroy an object
    where none has been made. -/
def Block.destroyObjects (b : Block α) : ℕ → ℕ → Option (List (ℕ × α))
  | 0, _ => none
  | fuel + 1, i =>
    if i = b.tail then some []
    else do
      let element ← b.data i
      let rest ← destroyObjects b fuel (b.after i)
      some ((i, element) :: rest)

/-- The objects destroyed, with their blocks and slots, and the blocks freed. -/
structure Destroyed (α : Type) where
  objects : List (ℕ × ℕ × α) := []
  blocks : List ℕ := []
  deriving DecidableEq

namespace ReaderWriterQueue

/-- The loop over the blocks, from a block on. -/
def destroyBlocks (q : ReaderWriterQueue α) : ℕ → ℕ → Option (Destroyed α)
  | 0, _ => none
  | fuel + 1, id => do
    let b := q.blocks id
    let objects ← b.destroyObjects (b.sizeMask + 1) b.front
    let rest ← if b.next = q.frontBlock then some {} else destroyBlocks q fuel b.next
    some
      { objects := objects.map (fun x => (id, x)) ++ rest.objects
        blocks := id :: rest.blocks }

/-- `~ReaderWriterQueue` -/
def destroy (q : ReaderWriterQueue α) : Option (Destroyed α) :=
  q.destroyBlocks q.allocated q.frontBlock

end ReaderWriterQueue

/-! ## One block -/

namespace Block.Holds

variable {b : Block α} {v : View α}

/-- The loop from the slot of a number `p` on, where there are these objects up to the tail. -/
theorem destroyObjects_from (h : b.Holds v) {xs : List α} {p fuel : ℕ}
    (hdata : ∀ j < xs.length, b.data ((p + j) % (b.sizeMask + 1)) = xs[j]?)
    (htail : b.tail = (p + xs.length) % (b.sizeMask + 1)) (hlen : xs.length < b.sizeMask + 1)
    (hfuel : xs.length < fuel) :
    b.destroyObjects fuel (p % (b.sizeMask + 1)) =
      some (Slots.entries (b.sizeMask + 1) p xs) := by
  induction xs generalizing p fuel with
  | nil =>
    -- no object is left, and the loop is at the tail
    obtain ⟨fuel, rfl⟩ := Nat.exists_eq_add_of_le' (Nat.zero_lt_of_lt hfuel)
    have htail' : p % (b.sizeMask + 1) = b.tail := htail.symm
    rw [destroyObjects, if_pos htail']
    rfl
  | cons x xs ih =>
    obtain ⟨fuel, rfl⟩ := Nat.exists_eq_add_of_le' (Nat.zero_lt_of_lt hfuel)
    rw [List.length_cons] at htail hlen hfuel
    -- with objects left, fewer than a round of slots, the loop is not at the tail
    have hne : p % (b.sizeMask + 1) ≠ b.tail := by
      rw [htail, Ne, Slots.mod_eq_iff_of_lt (by omega) (by omega)]
      omega
    have hfirst : b.data (p % (b.sizeMask + 1)) = some x := hdata 0 (Nat.succ_pos _)
    have hrest : b.destroyObjects fuel ((p + 1) % (b.sizeMask + 1)) =
        some (Slots.entries (b.sizeMask + 1) (p + 1) xs) := by
      refine ih (fun j hj => ?_) ?_ (by omega) (by omega)
      · have hj' := hdata (j + 1) (Nat.succ_lt_succ hj)
        rwa [← Nat.add_assoc, Nat.add_right_comm] at hj'
      · rw [htail, ← Nat.add_assoc, Nat.add_right_comm]
    rw [destroyObjects, if_neg hne, hfirst, h.after_mod, hrest, Slots.entries_cons]
    rfl

/-- **The objects of a block**, when no thread is at work on it. -/
theorem destroyObjects_eq (h : b.Holds v) (hgone : v.gone = 0) (hfresh : v.fresh = []) :
    ∃ objects, b.destroyObjects (b.sizeMask + 1) b.front = some objects ∧
      objects.map Prod.snd = v.live ∧ (objects.map Prod.fst).Nodup ∧
      ∀ i ≤ b.sizeMask, ∀ x, (i, x) ∈ objects ↔ b.data i = some x := by
  have hlen := h.length_lt
  have hcells := h.cells
  -- with both threads at rest, the objects in the slots are the live ones
  have hcount := h.count
  rw [hfresh, List.append_nil] at hlen hcells
  rw [hgone, Nat.add_zero] at hcells hcount
  refine ⟨_, ?_, Slots.map_snd_entries _ _ _, Slots.nodup_entries v.front (Nat.le_of_lt hlen),
    fun i hi x => hcells.mem_entries (Nat.le_of_lt hlen) (Nat.lt_succ_of_le hi)⟩
  rw [h.front]
  exact h.destroyObjects_from (fun j hj => hcells j (by omega)) (by rw [hcount, h.tail]) hlen hlen

end Block.Holds

/-! ## The circle -/

/-- What the destructor has done with some blocks: it has destroyed their objects, each of them
    once, and freed the blocks. -/
structure Destroys (q : ReaderWriterQueue α) (g : Layout α) (ids : List ℕ)
    (d : Destroyed α) : Prop where
  blocks : d.blocks = ids
  values : d.objects.map (fun x => x.2.2) = ids.flatMap fun id => (g.view id).live
  nodup : (d.objects.map fun x => (x.1, x.2.1)).Nodup
  exact : ∀ id i x, (id, i, x) ∈ d.objects → id ∈ ids
  all : ∀ id ∈ ids, ∀ i ≤ (q.blocks id).sizeMask, ∀ x,
    (id, i, x) ∈ d.objects ↔ (q.blocks id).data i = some x

section Destroy

variable {room : ℕ} {q : ReaderWriterQueue α} {g : Layout α}

theorem destroys_nil : Destroys q g [] {} :=
  ⟨rfl, rfl, List.nodup_nil, nofun, nofun⟩

/-- One block more. -/
theorem Destroys.cons {id : ℕ} {ids : List ℕ} {d : Destroyed α} (h : Destroys q g ids d)
    (hid : id ∉ ids) {objects : List (ℕ × α)} (hvalues : objects.map Prod.snd = (g.view id).live)
    (hnodup : (objects.map Prod.fst).Nodup)
    (hall : ∀ i ≤ (q.blocks id).sizeMask, ∀ x, (i, x) ∈ objects ↔ (q.blocks id).data i = some x) :
    Destroys q g (id :: ids)
      { objects := objects.map (fun x => (id, x)) ++ d.objects, blocks := id :: d.blocks } := by
  refine ⟨?_, ?_, ?_, fun id' i x hx => ?_, fun id' hid' i hi x => ?_⟩
  · exact congrArg _ h.blocks
  · -- the values of this block come before those of the others
    rw [List.map_append, List.map_map, List.flatMap_cons, h.values, ← hvalues]
    rfl
  · rw [List.map_append, List.map_map]
    -- no slot twice: not in the block, and not in another one
    refine List.Nodup.append ?_ h.nodup fun y hy hy' => ?_
    · have hpairs : objects.map ((fun x : ℕ × ℕ × α => (x.1, x.2.1)) ∘ fun x => (id, x)) =
          (objects.map Prod.fst).map (Prod.mk id) := by
        rw [List.map_map]
        rfl
      rw [hpairs]
      exact hnodup.map (Prod.mk_right_injective id)
    · obtain ⟨x, -, rfl⟩ := List.mem_map.mp hy
      obtain ⟨⟨id', i, x'⟩, hx', heq⟩ := List.mem_map.mp hy'
      obtain rfl : id' = id := congrArg Prod.fst heq
      exact hid (h.exact _ _ _ hx')
  · -- what has been destroyed is in these blocks
    rcases List.mem_append.mp hx with hnew | hold
    · obtain ⟨y, -, heq⟩ := List.mem_map.mp hnew
      obtain rfl : id = id' := congrArg Prod.fst heq
      exact List.mem_cons_self
    · exact List.mem_cons_of_mem _ (h.exact _ _ _ hold)
  · -- in the block itself every object is destroyed, and in the others as before
    rw [List.mem_append, List.mem_map]
    rcases List.mem_cons.mp hid' with rfl | hold
    · rw [← hall i hi x]
      constructor
      · rintro (⟨y, hy, heq⟩ | hold)
        · obtain rfl : y = (i, x) := congrArg Prod.snd heq
          exact hy
        · exact absurd (h.exact _ _ _ hold) hid
      · exact fun hx => Or.inl ⟨_, hx, rfl⟩
    · rw [← h.all id' hold i hi x]
      refine ⟨fun hx => hx.resolve_left ?_, Or.inr⟩
      rintro ⟨y, -, heq⟩
      obtain rfl : id = id' := congrArg Prod.fst heq
      exact hid hold

/-- The loop over the blocks, from a block on, where these come before the front block. -/
theorem Shape.destroyBlocks_from (h : Shape room q g) (hgone : ∀ id, (g.view id).gone = 0)
    (hfresh : ∀ id, (g.view id).fresh = []) {id fuel : ℕ} {ids : List ℕ}
    (hpath : (id :: (ids ++ [q.frontBlock])).IsChain fun a b => (q.blocks a).next = b)
    (hnodup : (id :: ids).Nodup) (hfront : q.frontBlock ∉ ids)
    (hmade : ∀ id' ∈ id :: ids, id' < q.allocated) (hfuel : ids.length < fuel) :
    ∃ d, q.destroyBlocks fuel id = some d ∧ Destroys q g (id :: ids) d := by
  induction ids generalizing id fuel with
  | nil =>
    -- the last block, whose link leads back to the front block
    obtain ⟨fuel, rfl⟩ := Nat.exists_eq_add_of_le' hfuel
    have hholds := h.holds id (hmade id List.mem_cons_self)
    obtain ⟨objects, hobjects, hvalues, hslots, hall⟩ :=
      hholds.destroyObjects_eq (hgone id) (hfresh id)
    have hnext : (q.blocks id).next = q.frontBlock := hpath.rel
    refine ⟨_, ?_, destroys_nil.cons List.not_mem_nil hvalues hslots hall⟩
    simp only [ReaderWriterQueue.destroyBlocks, hobjects, hnext, if_true]
    rfl
  | cons id' ids ih =>
    -- a block in the middle, from which the loop goes on
    obtain ⟨fuel, rfl⟩ := Nat.exists_eq_add_of_le' (Nat.zero_lt_of_lt hfuel)
    have hholds := h.holds id (hmade id List.mem_cons_self)
    obtain ⟨objects, hobjects, hvalues, hslots, hall⟩ :=
      hholds.destroyObjects_eq (hgone id) (hfresh id)
    have hnext : (q.blocks id).next = id' := hpath.rel
    have hne : id' ≠ q.frontBlock := fun heq => hfront (heq ▸ List.mem_cons_self)
    obtain ⟨hid, hnodup'⟩ := List.nodup_cons.mp hnodup
    obtain ⟨d, hd, hdestroys⟩ := ih hpath.tail hnodup'
      (fun hin => hfront (List.mem_cons_of_mem _ hin))
      (fun id'' hin => hmade id'' (List.mem_cons_of_mem _ hin)) (Nat.lt_of_succ_lt_succ hfuel)
    refine ⟨_, ?_, hdestroys.cons hid hvalues hslots hall⟩
    simp only [ReaderWriterQueue.destroyBlocks, hobjects, hnext, if_neg hne, hd]
    rfl

/-- **The blocks of the circle**, when no thread is at work on them. -/
theorem Shape.destroy_eq (h : Shape room q g) (hgone : ∀ id, (g.view id).gone = 0)
    (hfresh : ∀ id, (g.view id).fresh = []) :
    ∃ d, q.destroy = some d ∧ Destroys q g (q.frontBlock :: g.others) d := by
  -- as many rounds as blocks have ever been made are enough
  have hlen : (q.frontBlock :: g.others).length ≤ q.allocated := by
    have hsub : (q.frontBlock :: g.others) ⊆ List.range q.allocated :=
      fun id hid => List.mem_range.mpr (h.made id hid)
    have hle := (List.subperm_of_subset h.circle.nodup hsub).length_le
    rwa [List.length_range] at hle
  exact h.destroyBlocks_from hgone hfresh h.circle.chain h.circle.nodup h.frontBlock_notMem
    h.made hlen

end Destroy

/-! ## After any run -/

/-- **Nothing is lost** when the queue is destroyed after any run of its two threads: the objects
    destroyed are those that have been accepted and not taken, each slot that has an object in it
    is destroyed once, no other slot is, and every block that was ever made is freed once. -/
theorem readerWriterQueue_destroy {size m : ℕ} {es : List (Event α)} (hm : 1 ≤ m)
    (hsize : 1 ≤ size) (hfits : size + 2 ^ m * 2 ≤ 2 ^ 63) {s : QueueState α}
    (h : Runs (readerWriterQueue α (2 ^ m) size) { queue := .make (2 ^ m) size } es s)
    (hproducer : s.producer = .idle) (hconsumer : s.consumer = .idle) :
    ∃ d, s.queue.destroy = some d ∧
      accepted es = taken es ++ d.objects.map (fun x => x.2.2) ∧
      (d.objects.map fun x => (x.1, x.2.1)).Nodup ∧
      (∀ id < s.queue.allocated, ∀ i ≤ (s.queue.blocks id).sizeMask, ∀ x,
        (id, i, x) ∈ d.objects ↔ (s.queue.blocks id).data i = some x) ∧
      d.blocks.Perm (List.range s.queue.allocated) := by
  obtain ⟨t, hruns, g, hshape, hp, hc, hitems⟩ :=
    (simulates (2 ^ m) size).runs (simulated_make hm hsize hfits) h
  rw [hproducer] at hp
  rw [hconsumer] at hc hitems
  -- a producer at rest has no block of its own, so that all blocks are in the circle
  have hclaimed : g.claimed = [] := hp.claimed
  have hlinked (id : ℕ) : id ∈ s.queue.frontBlock :: g.others ↔ id < s.queue.allocated := by
    refine ⟨hshape.made id, fun hid => ?_⟩
    have hin : id ∈ s.queue.frontBlock :: g.others ++ [] := hp.linked id hid
    rwa [List.append_nil] at hin
  -- and a consumer at rest has taken nothing out of the front block that it has not released
  have hgone (id : ℕ) : (g.view id).gone = 0 := by
    rcases eq_or_ne id s.queue.frontBlock with rfl | hne
    · exact hc.gone
    · exact hshape.gone id hne
  obtain ⟨d, hd, hdestroys⟩ := hshape.destroy_eq hgone hp.fresh
  refine ⟨d, hd, ?_, hdestroys.nodup, fun id hid => hdestroys.all id ((hlinked id).mpr hid), ?_⟩
  · -- what was accepted and not taken is what the queue holds
    have hbalance := (logged_of_runs hruns).balance
    have hpidle : t.producer = .idle := hp.here
    have hcidle : t.consumer = .idle := hc.here
    rw [hpidle, hcidle, hitems] at hbalance
    have hcontent : g.content s.queue.frontBlock = d.objects.map (fun x => x.2.2) := by
      rw [hdestroys.values, Layout.others, hclaimed, List.nil_append, ← List.cons_append,
        List.flatMap_append, List.flatMap_eq_nil_iff.mpr hshape.free, List.append_nil]
      rfl
    rw [← hcontent]
    simpa [Producer.landed, Consumer.held, ConsumerPc.held] using hbalance
  · -- each block is freed once
    rw [hdestroys.blocks]
    refine (List.perm_ext_iff_of_nodup hshape.circle.nodup List.nodup_range).mpr fun id => ?_
    rw [hlinked, List.mem_range]

/-- Two values in two blocks, one of which is taken. -/
def leftoverSchedule : List (QueueAction ℕ) :=
  .enqueue 7 true :: List.replicate 4 (.produce true) ++
    .enqueue 8 true :: List.replicate 7 (.produce true) ++ .look .take :: List.replicate 5 .consume

def leftover : QueueState ℕ :=
  leftoverSchedule.foldl (QueueState.next (2 ^ 1)) { queue := .make (2 ^ 1) 1 }

theorem readerWriterQueue_destroy_leftover :
    leftover.queue.destroy = some { objects := [(1, 0, 8)], blocks := [0, 1] } ∧
      ∃ d, leftover.queue.destroy = some d ∧ d.blocks.Perm (List.range leftover.queue.allocated) ∧
        [7, 8] = [7] ++ d.objects.map fun x => x.2.2 := by
  have hshown : shownBy leftoverSchedule =
      some [.enqueueCall 7 true, .enqueueReturn 7 true, .enqueueCall 8 true,
        .enqueueReturn 8 true, .lookCall .take, .lookReturn .take (some 7)] := by
    decide
  have hruns := runs_of_replay (fun s => s = { queue := .make (2 ^ 1) 1 }) hshown
  obtain ⟨d, hd, hobjects, -, -, hblocks⟩ :=
    readerWriterQueue_destroy (m := 1) (by decide) (by decide) (by decide) hruns rfl rfl
  exact ⟨by decide +kernel, d, hd, hblocks, hobjects⟩

end AVCapture.Utils
