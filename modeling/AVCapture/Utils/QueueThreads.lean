import AVCapture.Utils.QueueShape

/-!
# What the Threads of the Queue Know

Between two of its steps a thread of the lock-free queue knows something about the blocks, and
about its call. It has to stay true while the other thread takes its steps. Each thread relies
on little for that: the consumer never touches a tail, and the producer never touches a front.

## Main results

- `ProducerInv`, `ConsumerInv`: what the threads know, for each point in the code
- `ProducerInv.stable`, `ConsumerInv.stable`: it stays true
-/

namespace AVCapture.Utils

open AtomicQueue Transition

variable {α : Type}

/-! ## What the threads know -/

/-- The block that the producer is about to move to. -/
def ProducerPc.claimed : ProducerPc α → List ℕ
  | .constructNext _ nb => [nb]
  | .storeNextTail _ nb => [nb]
  | .storeTailBlock _ nb => [nb]
  | _ => []

/-- The block that has been made and is not in the circle yet. -/
def ProducerPc.unlinked : ProducerPc α → List ℕ
  | .storeNext _ nb => [nb]
  | _ => []

/-- The object behind the tail of a block. -/
def ProducerPc.fresh (tailBlock : ℕ) : ProducerPc α → ℕ → List α
  | .storeTail element, id => if id = tailBlock then [element] else []
  | .storeNextTail element nb, id => if id = nb then [element] else []
  | _, _ => []

/-- The object that has been moved out while its slot has not been given back. -/
def ConsumerPc.held : ConsumerPc α → List α
  | .storeFront element => [element]
  | _ => []

/-- A call whose moment has not come. -/
def Offering (v : α) (p : Producer α) : Prop := ∃ mayGrow saw out, p = .pending v mayGrow saw out

/-- And one of the consumer. -/
def Looking (op : Look) (c : Consumer α) : Prop := ∃ saw, c = .pending op saw

def ProducerAt (q : ReaderWriterQueue α) (g : Layout α) : ProducerPc α → Producer α → Prop
  | .idle, p => p = .idle
  | .start v canAlloc, p => p = .pending v canAlloc false false
  | .loadFront v canAlloc, p => p = .pending v canAlloc false false
  | .construct v, p => Offering v p ∧
      (g.view q.tailBlock).tail <
        (g.view q.tailBlock).localFront + (q.blocks q.tailBlock).sizeMask
  | .storeTail v, p => Offering v p
  | .loadFrontBlock v canAlloc, p => Packed q g ∧
      ∃ saw, p = .pending v canAlloc saw false ∧ (g.others = [] → saw = true)
  | .loadNextFront v, p => Packed q g ∧ Offering v p ∧ g.free ≠ []
  | .constructNext v nb, p => Packed q g ∧ Offering v p ∧ (g.view nb).live = [] ∧
      (g.view nb).tail = (g.view nb).localFront
  | .storeNextTail v nb, p => Packed q g ∧ Offering v p ∧ (g.view nb).live = []
  | .makeBlock v, p => Packed q g ∧ p = .pending v true true false
  | .storeNext v nb, p => Packed q g ∧ Offering v p ∧ (g.view nb).live = [v] ∧
      nb < q.allocated ∧ nb ∉ q.frontBlock :: g.others ∧
      (q.blocks nb).next = (q.blocks q.tailBlock).next ∧
      q.largestBlockSize ≤ (q.blocks nb).sizeMask + 1
  | .storeTailBlock v nb, p => Packed q g ∧ Offering v p ∧ (g.view nb).live = [v]
  | .returning v accepted, p => p = .answered v accepted
  | .crashed, _ => False

def ConsumerAt (q : ReaderWriterQueue α) (g : Layout α) : ConsumerPc α → Consumer α → Prop
  | .idle, c => c = .idle
  | .start op, c => c = .pending op false
  | .loadTail op, c => c = .pending op false
  | .loadTailBlock op, c => ∃ saw, c = .pending op saw ∧
      (q.frontBlock = q.tailBlock → saw = true)
  | .reloadTail op, c => Looking op c ∧ q.frontBlock ≠ q.tailBlock
  | .loadNext op, c => Looking op c ∧ q.frontBlock ≠ q.tailBlock ∧
      (g.view q.frontBlock).live = []
  | .loadNextTail op nb, c => Looking op c ∧ (g.view q.frontBlock).live = [] ∧
      ∃ l, g.behind = nb :: l
  | .storeFrontBlock nb, c => Looking .take c ∧ (g.view q.frontBlock).live = [] ∧
      (g.view nb).front < (g.view nb).localTail ∧ ∃ l, g.behind = nb :: l
  | .access op, c => Looking op c ∧
      (g.view q.frontBlock).front < (g.view q.frontBlock).localTail
  | .peekNext nb, c => Looking .peek c ∧ (g.view q.frontBlock).live = [] ∧
      ∃ l, g.behind = nb :: l
  | .storeFront _, c => Looking .take c
  | .returning op result, c => c = .answered op result
  | .crashed, _ => False

/-- What the producer knows. -/
structure ProducerInv (q : ReaderWriterQueue α) (g : Layout α) (pc : ProducerPc α)
    (p : Producer α) : Prop where
  claimed : g.claimed = pc.claimed
  fresh : ∀ id, (g.view id).fresh = pc.fresh q.tailBlock id
  linked : ∀ id < q.allocated, id ∈ q.frontBlock :: g.others ++ pc.unlinked
  here : ProducerAt q g pc p

/-- What the consumer knows. -/
structure ConsumerInv (q : ReaderWriterQueue α) (g : Layout α) (pc : ConsumerPc α)
    (c : Consumer α) : Prop where
  gone : (g.view q.frontBlock).gone = pc.held.length
  here : ConsumerAt q g pc c

/-! ## What the threads rely on -/

/-- What the producer may do while the consumer is in an operation. -/
structure ProducerMoved (q : ReaderWriterQueue α) (g : Layout α) (q' : ReaderWriterQueue α)
    (g' : Layout α) : Prop where
  frontBlock : q'.frontBlock = q.frontBlock
  tailBlock : q'.frontBlock = q'.tailBlock → q.frontBlock = q.tailBlock
  behind : g.behind <+: g'.behind
  front : ∀ id ∈ q.frontBlock :: g.behind, (g'.view id).front = (g.view id).front ∧
    (g'.view id).localTail = (g.view id).localTail ∧ (g'.view id).gone = (g.view id).gone
  live : q.frontBlock ≠ q.tailBlock →
    (g'.view q.frontBlock).live = (g.view q.frontBlock).live

/-- What the consumer may do while the producer is in an operation. -/
structure ConsumerMoved (q : ReaderWriterQueue α) (g : Layout α) (q' : ReaderWriterQueue α)
    (g' : Layout α) : Prop where
  tailBlock : q'.tailBlock = q.tailBlock
  allocated : q'.allocated = q.allocated
  largestBlockSize : q'.largestBlockSize = q.largestBlockSize
  block : ∀ id, (q'.blocks id).next = (q.blocks id).next ∧
    (q'.blocks id).sizeMask = (q.blocks id).sizeMask
  claimed : g'.claimed = g.claimed
  free : g.free ≠ [] → g'.free ≠ []
  circle : ∀ id, id ∈ q'.frontBlock :: g'.others ↔ id ∈ q.frontBlock :: g.others
  alone : g'.others = [] → g.others = []
  tail : ∀ id, (g'.view id).tail = (g.view id).tail ∧
    (g'.view id).localFront = (g.view id).localFront ∧ (g'.view id).fresh = (g.view id).fresh
  still : q'.tailBlock ≠ q'.frontBlock → q.tailBlock ≠ q.frontBlock ∧
    (g'.view q.tailBlock).front = (g.view q.tailBlock).front
  live : ∀ id ∉ q.frontBlock :: g.behind, (g'.view id).live = (g.view id).live

section Moves

variable {room id nb : ℕ} {q q' : ReaderWriterQueue α} {g g' : Layout α} {v : View α}
  {f : Block α → Block α} {l : List ℕ}

theorem ConsumerMoved.refl (q : ReaderWriterQueue α) (g : Layout α) : ConsumerMoved q g q g :=
  ⟨rfl, rfl, rfl, fun _ => ⟨rfl, rfl⟩, rfl, id, fun _ => Iff.rfl, id, fun _ => ⟨rfl, rfl, rfl⟩,
    fun hne => ⟨hne, rfl⟩, fun _ _ => rfl⟩

/-- A write of the consumer, which touches the front and the objects of the front block only. -/
theorem ConsumerMoved.write (hnext : (f (q.blocks id)).next = (q.blocks id).next)
    (hmask : (f (q.blocks id)).sizeMask = (q.blocks id).sizeMask)
    (htail : v.tail = (g.view id).tail) (hlocal : v.localFront = (g.view id).localFront)
    (hfresh : v.fresh = (g.view id).fresh)
    (hother : id = q.frontBlock ∨
      v.front = (g.view id).front ∧ v.live = (g.view id).live) :
    ConsumerMoved q g (q.modify id f) (g.set id v) := by
  refine ⟨rfl, rfl, rfl, fun id' => ?_, rfl, fun hfree => hfree, fun _ => Iff.rfl,
    fun halone => halone, fun id' => ?_, fun hne => ⟨hne, ?_⟩, fun id' hid' => ?_⟩
  · -- links and masks stay in every block
    rcases eq_or_ne id' id with rfl | hne
    · rw [ReaderWriterQueue.modify_self]
      exact ⟨hnext, hmask⟩
    · rw [ReaderWriterQueue.modify_of_ne q hne]
      exact ⟨rfl, rfl⟩
  · -- and so does what the producer writes
    rcases eq_or_ne id' id with rfl | hne
    · rw [Layout.set_self]
      exact ⟨htail, hlocal, hfresh⟩
    · rw [Layout.set_of_ne g hne]
      exact ⟨rfl, rfl, rfl⟩
  · rcases eq_or_ne q.tailBlock id with heq | hid
    · -- a tail block that is not the front block is no block that the consumer writes to
      have hfront : id ≠ q.frontBlock := heq ▸ hne
      rw [heq, Layout.set_self]
      exact (hother.resolve_left hfront).1
    · rw [Layout.set_of_ne g hid]
  · -- nor does a block outside the part in use change its objects
    rcases eq_or_ne id' id with rfl | hne
    · rw [Layout.set_self]
      exact (hother.resolve_left fun heq => hid' (heq ▸ List.mem_cons_self)).2
    · rw [Layout.set_of_ne g hne]

theorem ConsumerMoved.advanceFront (h : Shape room q g) (hbehind : g.behind = nb :: l) :
    ConsumerMoved q g { q with frontBlock := nb }
      { g with behind := l, free := g.free ++ [q.frontBlock] } := by
  -- there is a block to go to, so that the front block is not the last one in use
  have hne : q.frontBlock ≠ q.tailBlock := fun heq => by
    have hnil := h.behind_eq_nil_iff.mpr heq
    rw [hbehind] at hnil
    cases hnil
  refine ⟨rfl, rfl, rfl, fun _ => ⟨rfl, rfl⟩, rfl, fun _ => ?_, fun id => ?_, fun halone => ?_,
    fun _ => ⟨rfl, rfl, rfl⟩, fun _ => ⟨hne.symm, rfl⟩, fun _ _ => rfl⟩
  · exact List.append_ne_nil_of_right_ne_nil _ (List.cons_ne_nil _ _)
  · simp only [Layout.others, hbehind, List.mem_cons, List.mem_append, List.not_mem_nil]
    -- the same blocks make the circle, the old front block at its end
    grind
  · simp only [Layout.others] at halone
    simp at halone

/-- A step of the producer that leaves the objects alone. -/
theorem ProducerMoved.same (hfrontBlock : q'.frontBlock = q.frontBlock)
    (htailBlock : q'.tailBlock = q.tailBlock) (hbehind : g'.behind = g.behind)
    (hview : g'.view = g.view) : ProducerMoved q g q' g' := by
  refine ⟨hfrontBlock, fun heq => ?_, hbehind ▸ List.prefix_refl _, fun id _ => ?_, fun _ => ?_⟩
  · rwa [hfrontBlock, htailBlock] at heq
  · rw [hview]
    exact ⟨rfl, rfl, rfl⟩
  · rw [hview]

/-- A write of the producer, which touches the objects of the tail block only. -/
theorem ProducerMoved.write (hfrontBlock : q'.frontBlock = q.frontBlock)
    (htailBlock : q'.tailBlock = q.tailBlock) (hbehind : g'.behind = g.behind)
    (hview : g'.view = Function.update g.view id v)
    (hfront : id ∈ q.frontBlock :: g.behind → v.front = (g.view id).front ∧
      v.localTail = (g.view id).localTail ∧ v.gone = (g.view id).gone)
    (hlive : id = q.frontBlock → q.frontBlock ≠ q.tailBlock → v.live = (g.view id).live) :
    ProducerMoved q g q' g' := by
  refine ⟨hfrontBlock, fun heq => ?_, hbehind ▸ List.prefix_refl _, fun id' hid' => ?_,
    fun hne => ?_⟩
  · rwa [hfrontBlock, htailBlock] at heq
  · -- the front block and those behind it keep what the consumer has of them
    rw [hview]
    rcases eq_or_ne id' id with rfl | hne
    · rw [Function.update_self]
      exact hfront hid'
    · rw [Function.update_of_ne hne]
      exact ⟨rfl, rfl, rfl⟩
  · rw [hview]
    -- the objects of the front block stay, as long as it is not the tail block
    rcases eq_or_ne q.frontBlock id with heq | hid
    · rw [heq, Function.update_self]
      exact hlive heq.symm hne
    · rw [Function.update_of_ne hid]

/-- What is behind the tails, when the producer has written to a block. -/
theorem ProducerInv.fresh_set {pc pc' : ProducerPc α} {p : Producer α}
    (h : ProducerInv q g pc p) (hid : v.fresh = pc'.fresh q.tailBlock id)
    (hother : ∀ id' ≠ id, pc.fresh q.tailBlock id' = pc'.fresh q.tailBlock id') (id' : ℕ) :
    ((g.set id v).view id').fresh = pc'.fresh q.tailBlock id' := by
  rcases eq_or_ne id' id with rfl | hne
  · rw [Layout.set_self, hid]
  · rw [Layout.set_of_ne g hne, h.fresh, hother id' hne]

/-- **What the producer knows** stays true, whatever the consumer does. -/
theorem ProducerInv.stable {pc : ProducerPc α} {p : Producer α} (h : ProducerInv q g pc p)
    (hshape : Shape room q g) (hm : ConsumerMoved q g q' g') : ProducerInv q' g' pc p := by
  -- a full tail block stays so: if the consumer could empty it, it would be the front block
  have hpacked (hp : Packed q g) : Packed q' g' := by
    refine ⟨?_, fun hne => ?_⟩
    · rw [hm.tailBlock, (hm.tail _).1, (hm.tail _).2.1, (hm.block _).2]
      exact hp.full
    · obtain ⟨hne', hfront⟩ := hm.still hne
      rw [hm.tailBlock, hfront, (hm.tail _).2.1]
      exact hp.still hne'
  -- the block claimed is behind the tail block, where the consumer does not come
  have hclaimed {nb : ℕ} (hnb : g.claimed = [nb]) : (g'.view nb).live = (g.view nb).live := by
    have hin : nb ∈ g.claimed ++ g.free := by
      rw [hnb]
      exact List.mem_cons_self
    refine hm.live nb fun hmem => ?_
    rcases List.mem_cons.mp hmem with hfront | hbehind
    · exact hshape.ne_frontBlock (List.mem_append_right _ hin) hfront
    · exact hshape.disjoint hbehind hin
  -- the four parts: the claimed block, the object behind the tail, the blocks made, the place
  refine ⟨hm.claimed.trans h.claimed, fun id => ?_, fun id hid => ?_, ?_⟩
  · rw [(hm.tail id).2.2, hm.tailBlock]
    exact h.fresh id
  · rw [hm.allocated] at hid
    rw [List.mem_append, hm.circle, ← List.mem_append]
    exact h.linked id hid
  · have hhere := h.here
    -- by the place of the producer in the code
    cases pc with
    | idle => exact hhere
    | start v canAlloc => exact hhere
    | loadFront v canAlloc => exact hhere
    | construct v =>
      refine ⟨hhere.1, ?_⟩
      rw [hm.tailBlock, (hm.tail _).1, (hm.tail _).2.1, (hm.block _).2]
      exact hhere.2
    | storeTail v => exact hhere
    | loadFrontBlock v canAlloc =>
      obtain ⟨hp, saw, hpending, hsaw⟩ := hhere
      exact ⟨hpacked hp, saw, hpending, fun halone => hsaw (hm.alone halone)⟩
    | loadNextFront v => exact ⟨hpacked hhere.1, hhere.2.1, hm.free hhere.2.2⟩
    | constructNext v nb =>
      obtain ⟨hp, hoffering, hlive, htail⟩ := hhere
      refine ⟨hpacked hp, hoffering, (hclaimed h.claimed).trans hlive, ?_⟩
      rw [(hm.tail nb).1, (hm.tail nb).2.1]
      exact htail
    | storeNextTail v nb =>
      exact ⟨hpacked hhere.1, hhere.2.1, (hclaimed h.claimed).trans hhere.2.2⟩
    | makeBlock v => exact ⟨hpacked hhere.1, hhere.2⟩
    | storeNext v nb =>
      -- the new block is in nobody's way, since no other thread has its number
      obtain ⟨hp, hoffering, hlive, hmade, hnew, hnext, hlargest⟩ := hhere
      refine ⟨hpacked hp, hoffering, ?_, ?_, ?_, ?_, ?_⟩
      · rw [hm.live nb fun hin => hnew ?_]
        · exact hlive
        · exact List.cons_subset_cons _ (List.subset_append_left _ _) hin
      · rw [hm.allocated]
        exact hmade
      · rw [hm.circle]
        exact hnew
      · rw [hm.tailBlock, (hm.block nb).1, (hm.block _).1]
        exact hnext
      · rw [hm.largestBlockSize, (hm.block nb).2]
        exact hlargest
    | storeTailBlock v nb =>
      exact ⟨hpacked hhere.1, hhere.2.1, (hclaimed h.claimed).trans hhere.2.2⟩
    | returning v accepted => exact hhere
    | crashed => exact hhere

/-- **What the consumer knows** stays true, whatever the producer does. -/
theorem ConsumerInv.stable {pc : ConsumerPc α} {c : Consumer α} (h : ConsumerInv q g pc c)
    (hshape : Shape room q g) (hm : ProducerMoved q g q' g') : ConsumerInv q' g' pc c := by
  -- what the producer has done to the front block does not touch the consumer's part of it
  have hfront := hm.front q.frontBlock List.mem_cons_self
  -- the block next in line stays next, since the producer appends at the end
  have hbehind {nb : ℕ} {l : List ℕ} (hl : g.behind = nb :: l) :
      nb ∈ g.behind ∧ ∃ l', g'.behind = nb :: l' := by
    obtain ⟨l', hl'⟩ := hm.behind
    refine ⟨hl ▸ List.mem_cons_self, l ++ l', ?_⟩
    rw [← hl', hl]
    rfl
  -- an exhausted front block stays so, since it is not the tail block any more
  have hempty {nb : ℕ} {l : List ℕ} (hl : g.behind = nb :: l)
      (hlive : (g.view q.frontBlock).live = []) : (g'.view q'.frontBlock).live = [] := by
    rw [hm.frontBlock, hm.live fun heq => ?_]
    · exact hlive
    · rw [← hshape.behind_eq_nil_iff, hl] at heq
      cases heq
  refine ⟨?_, ?_⟩
  · rw [hm.frontBlock, hfront.2.2]
    exact h.gone
  · have hhere := h.here
    -- by the place of the consumer in the code
    cases pc with
    | idle => exact hhere
    | start op => exact hhere
    | loadTail op => exact hhere
    | loadTailBlock op =>
      obtain ⟨saw, hpending, hsaw⟩ := hhere
      exact ⟨saw, hpending, fun heq => hsaw (hm.tailBlock heq)⟩
    | reloadTail op => exact ⟨hhere.1, fun heq => hhere.2 (hm.tailBlock heq)⟩
    | loadNext op =>
      obtain ⟨hlooking, hne, hlive⟩ := hhere
      refine ⟨hlooking, fun heq => hne (hm.tailBlock heq), ?_⟩
      rw [hm.frontBlock, hm.live hne]
      exact hlive
    | loadNextTail op nb =>
      obtain ⟨hlooking, hlive, l, hl⟩ := hhere
      exact ⟨hlooking, hempty hl hlive, (hbehind hl).2⟩
    | storeFrontBlock nb =>
      obtain ⟨hlooking, hlive, hlt, l, hl⟩ := hhere
      have hnb := hm.front nb (List.mem_cons_of_mem _ (hbehind hl).1)
      refine ⟨hlooking, hempty hl hlive, ?_, (hbehind hl).2⟩
      rw [hnb.1, hnb.2.1]
      exact hlt
    | access op =>
      refine ⟨hhere.1, ?_⟩
      rw [hm.frontBlock, hfront.1, hfront.2.1]
      exact hhere.2
    | peekNext nb =>
      obtain ⟨hlooking, hlive, l, hl⟩ := hhere
      exact ⟨hlooking, hempty hl hlive, (hbehind hl).2⟩
    | storeFront v => exact hhere
    | returning op result => exact hhere
    | crashed => exact hhere

end Moves

end AVCapture.Utils
