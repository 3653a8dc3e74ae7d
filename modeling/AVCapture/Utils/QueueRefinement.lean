import AVCapture.Utils.QueueConstructor
import AVCapture.Utils.QueueThreads

/-!
# The Lock-Free Queue is a Queue

The two threads of the lock-free queue, at any interleaving of their steps, behave like the
queue of `Lib.AtomicQueue`, in which every operation takes effect at one moment.

An `enqueue` takes effect when it advances the tail of a block, or the tail block; a
`try_dequeue` when it advances the front of a block, so that the object being moved out is
still counted; a `peek` when it reads the slot. A producer has seen the queue full when it has
loaded the front of the only block, or the front block when there are several.

## Main results

- `Related.produce_step`, `Related.consume_step`: every step is answered
- `readerWriterQueue_traces`: the lock-free queue refines the queue
- `readerWriterQueue_safe`: no assertion fails, and no slot is used in the wrong way
- `readerWriterQueue_fifo`, `readerWriterQueue_peek`: what the two threads can rely on
-/

namespace AVCapture.Utils

open AtomicQueue Transition

variable {α : Type} {room maxBlockSize : ℕ}

/-- The queue between its threads, what its memory stands for, and the state of the queue in
    which operations are atomic. -/
structure Related (room : ℕ) (q : ReaderWriterQueue α) (p : ProducerPc α) (c : ConsumerPc α)
    (g : Layout α) (t : State α) : Prop where
  shape : Shape room q g
  producer : ProducerInv q g p t.producer
  consumer : ConsumerInv q g c t.consumer
  items : t.items = c.held ++ g.content q.frontBlock

/-- A step to `s'` with events `es` is answered by a run from `t`. -/
def Answers (room : ℕ) (t : State α) (es : List (Event α)) (s' : QueueState α) : Prop :=
  ∃ t', Runs (queue α room) t es t' ∧
    ∃ g', Related room s'.queue s'.producer s'.consumer g' t'

namespace Related

variable {q q' : ReaderWriterQueue α} {g g' : Layout α} {t t' : State α}
  {es : List (Event α)} {v : α} {nb : ℕ} {canAlloc : Bool} {op : Look} {p p' : ProducerPc α}
  {c c' : ConsumerPc α}

/-- A step of the producer. -/
theorem produced (h : Related room q p c g t) (hruns : Runs (queue α room) t es t')
    (hconsumer : t'.consumer = t.consumer) (hshape : Shape room q' g')
    (hmoved : ProducerMoved q g q' g') (hproducer : ProducerInv q' g' p' t'.producer)
    (hitems : t'.items = c.held ++ g'.content q.frontBlock) :
    Answers room t es { queue := q', producer := p', consumer := c } := by
  refine ⟨t', hruns, g', hshape, hproducer, ?_, ?_⟩
  · rw [hconsumer]
    exact h.consumer.stable h.shape hmoved
  · rw [hitems, hmoved.frontBlock]

/-- A step of the consumer. -/
theorem consumed (h : Related room q p c g t) (hruns : Runs (queue α room) t es t')
    (hproducer : t'.producer = t.producer) (hshape : Shape room q' g')
    (hmoved : ConsumerMoved q g q' g') (hconsumer : ConsumerInv q' g' c' t'.consumer)
    (hitems : t'.items = c'.held ++ g'.content q'.frontBlock) :
    Answers room t es { queue := q', producer := p, consumer := c' } := by
  refine ⟨t', hruns, g', hshape, ?_, hconsumer, hitems⟩
  rw [hproducer]
  exact h.producer.stable h.shape hmoved

/-! ## The producer -/

/-- `localFront` is compared with the tail. -/
theorem produce_start (h : Related room q (.start v canAlloc) c g t) (memory : Bool) :
    Answers room t [] (QueueState.produce maxBlockSize ⟨q, .start v canAlloc, c⟩ memory) := by
  have hp : t.producer = .pending v canAlloc false false := h.producer.here
  have hfits := h.shape.tail_holds.fits
  unfold QueueState.produce
  dsimp only
  split
  case isTrue hroom =>
    -- there is room behind `localFront`: the object will be made in the tail block
    rw [Ne, h.shape.tail_holds.after_tail_localFront] at hroom
    refine h.produced (.refl t) rfl h.shape (.same rfl rfl rfl rfl) ?_ h.items
    exact ⟨h.producer.claimed, h.producer.fresh, h.producer.linked, ⟨_, _, _, hp⟩, by omega⟩
  case isFalse =>
    -- the tail block looks full, and nothing has been promised yet
    exact h.produced (.refl t) rfl h.shape (.same rfl rfl rfl rfl)
      ⟨h.producer.claimed, h.producer.fresh, h.producer.linked, hp⟩ h.items

/-- The front is loaded: with one block only, this is when the queue is seen full. -/
theorem produce_loadFront (h : Related room q (.loadFront v canAlloc) c g t) (memory : Bool) :
    Answers room t []
      (QueueState.produce maxBlockSize ⟨q, .loadFront v canAlloc, c⟩ memory) := by
  have hp : t.producer = .pending v canAlloc false false := h.producer.here
  have hholds := h.shape.tail_holds
  -- only `localFront` of the tail block is written, which no other thread reads
  have hshape := h.shape.write_same (f := Block.refreshFront) rfl rfl hholds.refreshFront
    (.inl rfl) rfl
  have hmoved : ProducerMoved q g (q.modify q.tailBlock Block.refreshFront)
      (g.set q.tailBlock (g.view q.tailBlock).refreshFront) :=
    .write rfl rfl rfl rfl (fun _ => ⟨rfl, rfl, rfl⟩) fun _ _ => rfl
  have hfresh (id : ℕ) :
      ((g.set q.tailBlock (g.view q.tailBlock).refreshFront).view id).fresh =
        ProducerPc.fresh q.tailBlock (.loadFront v canAlloc) id :=
    h.producer.fresh_set (v := (g.view q.tailBlock).refreshFront)
      (h.producer.fresh q.tailBlock) (fun _ _ => rfl) id
  have hitems : t.items = c.held ++
      (g.set q.tailBlock (g.view q.tailBlock).refreshFront).content q.frontBlock := by
    rw [Shape.content_set_same (v := (g.view q.tailBlock).refreshFront) rfl]
    exact h.items
  unfold QueueState.produce
  dsimp only
  split
  case isTrue hroom =>
    -- the front that is loaded now leaves room after all
    rw [Ne, hholds.after_tail_front] at hroom
    have hlt : ((g.set q.tailBlock (g.view q.tailBlock).refreshFront).view q.tailBlock).tail <
        ((g.set q.tailBlock (g.view q.tailBlock).refreshFront).view q.tailBlock).localFront +
          ((q.modify q.tailBlock Block.refreshFront).blocks q.tailBlock).sizeMask := by
      have hfits := hholds.refreshFront.fits
      rw [Layout.set_self, ReaderWriterQueue.modify_self]
      exact Nat.lt_of_le_of_ne (Nat.le_of_add_right_le hfits) hroom
    exact h.produced (.refl t) rfl hshape hmoved
      ⟨h.producer.claimed, hfresh, h.producer.linked, ⟨_, _, _, hp⟩, hlt⟩ hitems
  case isFalse hfull =>
    rw [not_not, hholds.after_tail_front] at hfull
    have hpacked := Packed.loaded hfull
    -- one block: the queue itself is seen full; more blocks: only this one is
    by_cases halone : g.others = []
    · -- a queue of one block and no others: its front block is its tail block
      have hseen : room ≤ t.items.length := by
        have hsingle : q.frontBlock = q.tailBlock := by
          rw [← h.shape.behind_eq_nil_iff]
          exact (List.append_eq_nil_iff.mp halone).1
        rw [← hsingle] at hfull
        have hroom := h.shape.full_single halone hfull
        rw [h.items, List.length_append, ← h.consumer.gone]
        exact hroom
      refine h.produced (.single (.seeFull hp hseen)) rfl hshape hmoved ?_ hitems
      exact ⟨h.producer.claimed, hfresh, h.producer.linked, hpacked, true, rfl, fun _ => rfl⟩
    · refine h.produced (.refl t) rfl hshape hmoved ?_ hitems
      exact ⟨h.producer.claimed, hfresh, h.producer.linked, hpacked, false, hp,
        fun hnil => absurd hnil halone⟩

/-- The object is made in the slot behind the tail, which is free. -/
theorem produce_construct (h : Related room q (.construct v) c g t) (memory : Bool) :
    Answers room t [] (QueueState.produce maxBlockSize ⟨q, .construct v, c⟩ memory) := by
  obtain ⟨hoffering, hroom⟩ := h.producer.here
  have hholds := h.shape.tail_holds
  have hfresh : (g.view q.tailBlock).fresh = [] := h.producer.fresh _
  have hshape := h.shape.write_same (f := fun b => b.construct v) rfl rfl
    (hholds.construct hfresh hroom v) (.inl rfl) rfl
  unfold QueueState.produce
  -- the slot behind the tail belongs to no object, so nothing is overwritten
  dsimp only
  rw [hholds.data_tail hfresh]
  refine h.produced (.refl t) rfl hshape
    (.write rfl rfl rfl rfl (fun _ => ⟨rfl, rfl, rfl⟩) fun _ _ => rfl) ?_ ?_
  · refine ⟨h.producer.claimed, h.producer.fresh_set ?_ fun id hne => ?_, h.producer.linked,
      hoffering⟩
    · exact (if_pos rfl).symm
    · exact (if_neg hne).symm
  · rw [Shape.content_set_same (v := (g.view q.tailBlock).construct v) rfl]
    exact h.items

/-- The tail is advanced: the object is in the queue. -/
theorem produce_storeTail (h : Related room q (.storeTail v) c g t) (memory : Bool) :
    Answers room t [] (QueueState.produce maxBlockSize ⟨q, .storeTail v, c⟩ memory) := by
  obtain ⟨mayGrow, saw, out, hp⟩ : Offering v t.producer := h.producer.here
  have hholds := h.shape.tail_holds
  have hfresh : (g.view q.tailBlock).fresh = [v] :=
    (h.producer.fresh _).trans (if_pos rfl)
  have hlive : (g.view q.tailBlock).publish.live = (g.view q.tailBlock).live ++ [v] :=
    congrArg _ hfresh
  have hshape : Shape room (q.modify q.tailBlock Block.publish)
      (g.set q.tailBlock (g.view q.tailBlock).publish) := by
    -- the block is neither free nor the new one, and it is not empty any more
    refine h.shape.write rfl rfl (hholds.publish hfresh) (h.shape.gone _) (fun hfree => ?_)
      (fun _ hne => absurd rfl hne) fun _ => ?_
    · exact absurd (List.mem_append_right _ hfree) h.shape.tailBlock_notMem
    · rw [hlive]
      exact List.append_ne_nil_of_right_ne_nil _ (List.cons_ne_nil v [])
  refine h.produced (.single (.append hp)) rfl hshape
    (.write rfl rfl rfl rfl (fun _ => ⟨rfl, rfl, rfl⟩) fun heq hne => absurd heq.symm hne) ?_ ?_
  · refine ⟨h.producer.claimed, h.producer.fresh_set rfl fun id hne => ?_, h.producer.linked, rfl⟩
    exact if_neg hne
  · rw [h.shape.content_set_tail hlive, ← List.append_assoc, ← h.items]

/-- The front block is loaded: if it comes next, and there are several blocks, this is when
    the queue is seen full. -/
theorem seen_full (h : Related room q (.loadFrontBlock v canAlloc) c g t)
    (hnext : (q.blocks q.tailBlock).next = q.frontBlock) :
    ∃ t', Runs (queue α room) t [] t' ∧ t'.producer = .pending v canAlloc true false ∧
      t'.consumer = t.consumer ∧ t'.items = t.items := by
  obtain ⟨hpacked, saw, hp, hsaw⟩ := h.producer.here
  have hclaimed : g.claimed = [] := h.producer.claimed
  -- a free block would stand between the tail block and the front block
  have hfree : g.free = [] := by
    have htail := h.shape.tail_next
    rw [hnext, hclaimed, List.nil_append] at htail
    cases hg : g.free with
    | nil => rfl
    | cons nb l =>
      rw [hg] at htail
      refine absurd htail.symm (h.shape.ne_frontBlock ?_)
      rw [Layout.others, hclaimed, hg]
      exact List.mem_append_right _ List.mem_cons_self
  by_cases hbehind : g.behind = []
  · -- the only block was already seen full when its front was loaded
    have halone : g.others = [] := by
      rw [Layout.others, hbehind, hclaimed, hfree]
      rfl
    exact ⟨t, .refl t, by rw [hp, hsaw halone], rfl, rfl⟩
  · -- every block of the circle was full when the front block was loaded
    have hroom := h.shape.full hpacked hclaimed hfree hbehind
    have hfull : room ≤ t.items.length := by
      rw [h.items, List.length_append]
      omega
    exact ⟨_, .single (.seeFull hp hfull), rfl, rfl, rfl⟩

theorem produce_loadFrontBlock (h : Related room q (.loadFrontBlock v canAlloc) c g t)
    (memory : Bool) :
    Answers room t []
      (QueueState.produce maxBlockSize ⟨q, .loadFrontBlock v canAlloc, c⟩ memory) := by
  have hfresh := h.producer.fresh
  have hlinked := h.producer.linked
  have hclaimed : g.claimed = [] := h.producer.claimed
  obtain ⟨hpacked, saw, hp, hsaw⟩ := h.producer.here
  unfold QueueState.produce
  dsimp only
  split
  -- the block behind the tail block is not the front block, so it is free
  case isTrue hnext =>
    have hfree : g.free ≠ [] := by
      intro hnil
      rw [h.shape.tail_next, hclaimed, hnil] at hnext
      exact hnext rfl
    exact h.produced (.refl t) rfl h.shape (.same rfl rfl rfl rfl)
      ⟨hclaimed, hfresh, hlinked, hpacked, ⟨_, _, _, hp⟩, hfree⟩ h.items
  case isFalse hnext =>
    -- the circle is closed: all blocks are used
    obtain ⟨t', hruns, hp', hc', hitems'⟩ := h.seen_full (not_not.mp hnext)
    -- `try_enqueue` refuses, and `enqueue` goes on to make a block
    cases canAlloc with
    | true =>
      exact h.produced hruns hc' h.shape (.same rfl rfl rfl rfl)
        ⟨hclaimed, hfresh, hlinked, hpacked, hp'⟩ (hitems'.trans h.items)
    | false =>
      exact h.produced (hruns.concat (.refuse hp' nofun)) hc' h.shape (.same rfl rfl rfl rfl)
        ⟨hclaimed, hfresh, hlinked, rfl⟩ (hitems'.trans h.items)

/-- The next block is empty, since it is free. -/
theorem produce_loadNextFront (h : Related room q (.loadNextFront v) c g t) (memory : Bool) :
    Answers room t [] (QueueState.produce maxBlockSize ⟨q, .loadNextFront v, c⟩ memory) := by
  obtain ⟨hpacked, hoffering, hfree⟩ := h.producer.here
  have hclaimed : g.claimed = [] := h.producer.claimed
  -- the first of the free blocks is claimed by the producer
  obtain ⟨nb, l, hg⟩ := List.exists_cons_of_ne_nil hfree
  have hnext : (q.blocks q.tailBlock).next = nb := by
    rw [h.shape.tail_next, hclaimed, hg]
    rfl
  have hshape := h.shape.claim hclaimed hg
  obtain ⟨hmade, hused, -⟩ := hshape.claimed_spec rfl
  have hne : q.tailBlock ≠ nb := by
    rintro rfl
    exact hused h.shape.tailBlock_mem
  have hholds : (q.blocks nb).Holds (g.view nb) := h.shape.holds nb hmade
  have hlive : (g.view nb).live = [] := h.shape.free nb (hg ▸ List.mem_cons_self)
  have hgone : (g.view nb).gone = 0 :=
    h.shape.gone nb fun heq => hused (heq ▸ List.mem_cons_self)
  -- nothing lives in a free block, and nothing has been taken from it
  have hempty : (g.view nb).front = (g.view nb).tail := by
    have hcount := hholds.count
    rw [hlive, hgone] at hcount
    exact hcount
  unfold QueueState.produce
  dsimp only
  rw [hnext, if_pos (hholds.front_tail.mpr hempty)]
  have hrefresh := hshape.write_same (f := Block.refreshFront) rfl rfl hholds.refreshFront
    (.inl rfl) rfl
  refine h.produced (.refl t) rfl hrefresh
    (.write rfl rfl rfl rfl (fun hin => absurd hin hused) fun heq => ?_) ?_ ?_
  · exact absurd (heq ▸ List.mem_cons_self) hused
  · refine ⟨rfl, fun id => ?_, fun id hid => ?_, (hpacked.claim l).write hne _ _, hoffering, ?_, ?_⟩
    · refine Eq.trans (Layout.set_same View.fresh ?_ id) (h.producer.fresh id)
      rfl
    · have hin := h.producer.linked id hid
      rw [Layout.others, hclaimed, hg] at hin
      exact hin
    · rw [Layout.set_self]
      exact hlive
    · rw [Layout.set_self]
      exact hempty.symm
  · rw [Shape.content_set_of_notMem hused]
    exact h.items

/-- The object is made in the next block. -/
theorem produce_constructNext (h : Related room q (.constructNext v nb) c g t) (memory : Bool) :
    Answers room t []
      (QueueState.produce maxBlockSize ⟨q, .constructNext v nb, c⟩ memory) := by
  obtain ⟨hpacked, hoffering, hlive, htail⟩ := h.producer.here
  have hclaimed : g.claimed = [nb] := h.producer.claimed
  obtain ⟨hmade, hused, -⟩ := h.shape.claimed_spec hclaimed
  have hne : q.tailBlock ≠ nb := by
    rintro rfl
    exact hused h.shape.tailBlock_mem
  have hholds := h.shape.holds nb hmade
  have hmask := hholds.mask_pos
  have hfresh : (g.view nb).fresh = [] := h.producer.fresh nb
  have hshape := h.shape.write_same (f := fun b => b.construct v) rfl rfl
    (hholds.construct hfresh (by omega) v) (.inl rfl) rfl
  unfold QueueState.produce
  dsimp only
  rw [hholds.data_tail hfresh]
  -- the claimed block is not yet among those the consumer can reach
  refine h.produced (.refl t) rfl hshape
    (.write rfl rfl rfl rfl (fun hin => absurd hin hused) fun heq => ?_) ?_ ?_
  · exact absurd (heq ▸ List.mem_cons_self) hused
  · refine ⟨hclaimed, h.producer.fresh_set ?_ fun id hid => ?_, h.producer.linked,
      hpacked.write hne _ _, hoffering, ?_⟩
    · exact (if_pos rfl).symm
    · exact (if_neg hid).symm
    · rw [Layout.set_self]
      exact hlive
  · rw [Shape.content_set_of_notMem hused]
    exact h.items

/-- The tail of the next block is advanced; the consumer does not look there yet. -/
theorem produce_storeNextTail (h : Related room q (.storeNextTail v nb) c g t) (memory : Bool) :
    Answers room t []
      (QueueState.produce maxBlockSize ⟨q, .storeNextTail v nb, c⟩ memory) := by
  obtain ⟨hpacked, hoffering, hlive⟩ := h.producer.here
  have hclaimed : g.claimed = [nb] := h.producer.claimed
  obtain ⟨hmade, hused, hfree⟩ := h.shape.claimed_spec hclaimed
  have hne : q.tailBlock ≠ nb := by
    rintro rfl
    exact hused h.shape.tailBlock_mem
  have hholds := h.shape.holds nb hmade
  have hfresh : (g.view nb).fresh = [v] := (h.producer.fresh nb).trans (if_pos rfl)
  have hbehind : nb ∉ g.behind := fun hin => hused (List.mem_cons_of_mem _ hin)
  have hshape := h.shape.write (f := Block.publish) rfl rfl (hholds.publish hfresh)
    (h.shape.gone nb) (fun hin => absurd hin hfree) (fun hin => absurd hin hbehind)
    (fun hin => absurd hin hbehind)
  refine h.produced (.refl t) rfl hshape
    (.write rfl rfl rfl rfl (fun hin => absurd hin hused) fun heq => ?_) ?_ ?_
  · exact absurd (heq ▸ List.mem_cons_self) hused
  · refine ⟨hclaimed, h.producer.fresh_set rfl fun id hid => if_neg hid, h.producer.linked,
      hpacked.write hne _ _, hoffering, ?_⟩
    -- the object made there is the one that becomes visible in the block
    rw [Layout.set_self]
    show (g.view nb).live ++ (g.view nb).fresh = [v]
    rw [hlive, hfresh]
    rfl
  · rw [Shape.content_set_of_notMem hused]
    exact h.items

/-- The tail block moves on: the object is in the queue. -/
theorem produce_storeTailBlock (h : Related room q (.storeTailBlock v nb) c g t)
    (memory : Bool) :
    Answers room t []
      (QueueState.produce maxBlockSize ⟨q, .storeTailBlock v nb, c⟩ memory) := by
  obtain ⟨hpacked, ⟨mayGrow, saw, out, hp⟩, hlive⟩ := h.producer.here
  have hclaimed : g.claimed = [nb] := h.producer.claimed
  obtain ⟨-, hused, -⟩ := h.shape.claimed_spec hclaimed
  -- a block becomes the tail block with an object in it
  have hstarted : (g.view nb).live ≠ [] := by
    rw [hlive]
    exact List.cons_ne_nil v []
  have hshape := h.shape.advanceTail hclaimed hstarted (h.shape.tail_full hpacked)
  have hmoved : ProducerMoved q g { q with tailBlock := nb }
      { g with behind := g.behind ++ [nb], claimed := [] } := by
    refine ⟨rfl, fun heq => ?_, List.prefix_append _ _, fun _ _ => ⟨rfl, rfl, rfl⟩,
      fun _ => rfl⟩
    exact absurd (heq ▸ List.mem_cons_self) hused
  have hlinked : ∀ id < q.allocated, id ∈ q.frontBlock :: (g.behind ++ [nb] ++ g.free) := by
    intro id hid
    have hin := h.producer.linked id hid
    rw [Layout.others, hclaimed] at hin
    simpa [ProducerPc.unlinked] using hin
  refine h.produced (.single (.append hp)) rfl hshape hmoved
    ⟨rfl, h.producer.fresh, fun id hid => ?_, rfl⟩ ?_
  · exact List.mem_append_left _ (hlinked id hid)
  -- what the queue holds grows by the object of the claimed block
  rw [h.items, List.append_assoc, Layout.content, Layout.content]
  simp only [List.flatMap_cons, List.flatMap_append, List.flatMap_nil, List.append_nil, hlive,
    List.append_assoc]

/-- A block is made, with the object in it, or there is no memory left. -/
theorem produce_makeBlock (h : Related room q (.makeBlock v) c g t) (memory : Bool) :
    Answers room t (if memory then [] else [.noMemory])
      (QueueState.produce maxBlockSize ⟨q, .makeBlock v, c⟩ memory) := by
  obtain ⟨hpacked, hp⟩ := h.producer.here
  have hclaimed : g.claimed = [] := h.producer.claimed
  cases memory with
  -- no memory: the specification sees the failure and then refuses
  | false =>
    have hfail : Runs (queue α room) t [.noMemory]
        { t with producer := .pending v true true true } := .single (Step.failMemory hp)
    have hrefuse : Runs (queue α room) { t with producer := .pending v true true true } []
        { t with producer := .answered v false } := .single (Step.refuse rfl fun _ => rfl)
    exact h.produced (hfail.trans hrefuse) rfl h.shape (.same rfl rfl rfl rfl)
      ⟨hclaimed, h.producer.fresh, h.producer.linked, rfl⟩ h.items
  -- the new block has the next power of two of slots, and its first object in it
  | true =>
    obtain ⟨k, hk, hsize, hle⟩ := h.shape.newBlockSize maxBlockSize
    have htail := h.shape.tailBlock_made
    have hne : q.tailBlock ≠ q.allocated := Nat.ne_of_lt htail
    have hunused : q.allocated ∉ q.frontBlock :: g.others :=
      fun hin => Nat.lt_irrefl _ (h.shape.made _ hin)
    have hbehind : q.allocated ∉ q.frontBlock :: g.behind := fun hin =>
      hunused (List.cons_subset_cons _ (List.subset_append_left _ _) hin)
    have hholds := Block.Holds.first hk v (q.blocks q.tailBlock).next
    have hshape := h.shape.allocate hholds rfl hle ⟨k, hk, rfl⟩
    show Answers room t [] _
    unfold QueueState.produce
    dsimp only
    rw [hsize, if_neg (by decide)]
    refine h.produced (.refl t) rfl hshape
      (.write rfl rfl rfl rfl (fun hin => absurd hin hbehind) fun heq => ?_) ?_ ?_
    · exact absurd (heq ▸ List.mem_cons_self) hbehind
    · refine ⟨hclaimed, h.producer.fresh_set rfl fun _ _ => rfl, fun id hid => ?_,
        hpacked.allocate htail _ _ _, ⟨_, _, _, hp⟩, ?_, Nat.lt_succ_self _, hunused, ?_, ?_⟩
      · -- the blocks linked before, and the new one
        rcases Nat.lt_succ_iff_lt_or_eq.mp hid with hold | rfl
        · have hin : id ∈ q.frontBlock :: g.others ++ [] := h.producer.linked id hold
          rw [List.append_nil] at hin
          exact List.mem_append_left _ hin
        · exact List.mem_append_right _ (List.mem_singleton_self _)
      · rw [Layout.set_self]
      · show (Function.update q.blocks q.allocated _ q.allocated).next =
          (Function.update q.blocks q.allocated _ q.tailBlock).next
        rw [Function.update_self, Function.update_of_ne hne]
      · show 2 ^ k ≤ (Function.update q.blocks q.allocated _ q.allocated).sizeMask + 1
        rw [Function.update_self]
        exact Nat.le_add_of_sub_le (Nat.le_refl _)
    · rw [Shape.content_set_of_notMem hbehind]
      exact h.items

/-- The new block is linked; the consumer does not follow the link yet. -/
theorem produce_storeNext (h : Related room q (.storeNext v nb) c g t) (memory : Bool) :
    Answers room t [] (QueueState.produce maxBlockSize ⟨q, .storeNext v nb, c⟩ memory) := by
  obtain ⟨hpacked, hoffering, hlive, hmade, hnew, hnext, hlargest⟩ := h.producer.here
  have hshape := h.shape.link h.producer.claimed hmade hnew hnext hlargest
  refine h.produced (.refl t) rfl hshape (.same rfl rfl rfl rfl)
    ⟨rfl, h.producer.fresh, fun id hid => ?_, hpacked.link nb, hoffering, hlive⟩ h.items
  have hin := h.producer.linked id hid
  have hclaimed : g.claimed = [] := h.producer.claimed
  simp only [Layout.others, hclaimed, ProducerPc.unlinked, List.mem_append, List.mem_cons,
    List.not_mem_nil] at hin ⊢
  tauto

theorem produce_returning {accepted : Bool} (h : Related room q (.returning v accepted) c g t)
    (memory : Bool) :
    Answers room t [.enqueueReturn v accepted]
      (QueueState.produce maxBlockSize ⟨q, .returning v accepted, c⟩ memory) := by
  have hp : t.producer = .answered v accepted := h.producer.here
  exact h.produced (.single (.enqueueReturn hp)) rfl h.shape (.same rfl rfl rfl rfl)
    ⟨h.producer.claimed, h.producer.fresh, h.producer.linked, rfl⟩ h.items

theorem enqueue_call (h : Related room q .idle c g t) (v : α) (canAlloc : Bool) :
    Answers room t [.enqueueCall v canAlloc] ⟨q, .start v canAlloc, c⟩ := by
  have hp : t.producer = .idle := h.producer.here
  exact h.produced (.single (.enqueue v canAlloc hp)) rfl h.shape (.same rfl rfl rfl rfl)
    ⟨h.producer.claimed, h.producer.fresh, h.producer.linked, rfl⟩ h.items

/-- Every step of the producer. -/
theorem produce_step (h : Related room q p c g t) (memory : Bool) :
    Answers room t (QueueState.events ⟨q, p, c⟩ (.produce memory))
      (QueueState.produce maxBlockSize ⟨q, p, c⟩ memory) := by
  cases p with
  -- one lemma for each place at which the producer can be
  | idle => exact ⟨t, .refl t, g, h⟩
  | start v canAlloc => exact h.produce_start memory
  | loadFront v canAlloc => exact h.produce_loadFront memory
  | construct v => exact h.produce_construct memory
  | storeTail v => exact h.produce_storeTail memory
  | loadFrontBlock v canAlloc => exact h.produce_loadFrontBlock memory
  | loadNextFront v => exact h.produce_loadNextFront memory
  | constructNext v nb => exact h.produce_constructNext memory
  | storeNextTail v nb => exact h.produce_storeNextTail memory
  | makeBlock v => exact h.produce_makeBlock memory
  | storeNext v nb => exact h.produce_storeNext memory
  | storeTailBlock v nb => exact h.produce_storeTailBlock memory
  | returning v accepted => exact h.produce_returning memory
  | crashed => exact h.producer.here.elim

/-! ## The consumer -/

/-- The first object in the front block. -/
theorem live_cons (h : Shape room q g) (hgone : (g.view q.frontBlock).gone = 0)
    (hlt : (g.view q.frontBlock).front < (g.view q.frontBlock).localTail) :
    ∃ v l, (g.view q.frontBlock).live = v :: l := by
  have hcount := h.front_holds.count
  have hle := h.front_holds.localTail_le
  cases hlive : (g.view q.frontBlock).live with
  | nil =>
    -- with nothing alive in the block, `front` would have reached `tail`
    rw [hlive, List.length_nil] at hcount
    omega
  | cons v l => exact ⟨v, l, rfl⟩

/-- `localTail` is compared with the front. -/
theorem consume_start (h : Related room q p (.start op) g t) :
    Answers room t [] (QueueState.consume ⟨q, p, .start op⟩) := by
  have hc : t.consumer = .pending op false := h.consumer.here
  have hle := h.shape.front_holds.le_localTail
  unfold QueueState.consume
  dsimp only
  split
  case isTrue hfront =>
    -- an object is known to be there without a look at what the producer owns
    rw [Ne, h.shape.front_holds.front_localTail] at hfront
    exact h.consumed (.refl t) rfl h.shape (.refl q g)
      ⟨h.consumer.gone, ⟨false, hc⟩, by omega⟩ h.items
  case isFalse =>
    exact h.consumed (.refl t) rfl h.shape (.refl q g) ⟨h.consumer.gone, hc⟩ h.items

/-- What it takes to load the tail of the front block. -/
theorem refreshTail (h : Related room q p c g t) :
    Shape room (q.modify q.frontBlock Block.refreshTail)
        (g.set q.frontBlock (g.view q.frontBlock).refreshTail) ∧
      ConsumerMoved q g (q.modify q.frontBlock Block.refreshTail)
        (g.set q.frontBlock (g.view q.frontBlock).refreshTail) ∧
      t.items = c.held ++
        (g.set q.frontBlock (g.view q.frontBlock).refreshTail).content q.frontBlock := by
  refine ⟨?_, ?_, ?_⟩
  · exact h.shape.write_same (f := Block.refreshTail) rfl rfl h.shape.front_holds.refreshTail
      (.inl rfl) rfl
  · exact .write rfl rfl rfl rfl rfl (.inl rfl)
  · rw [Shape.content_set_same (v := (g.view q.frontBlock).refreshTail) rfl]
    exact h.items

/-- The tail has moved on since it was loaded last. -/
theorem access_of_ne (h : Related room q p c g t) (hgone : c.held = [])
    (hne : (q.blocks q.frontBlock).front ≠ (q.blocks q.frontBlock).tail)
    (hlooking : Looking op t.consumer) :
    ConsumerInv (q.modify q.frontBlock Block.refreshTail)
      (g.set q.frontBlock (g.view q.frontBlock).refreshTail) (.access op) t.consumer := by
  have hholds := h.shape.front_holds
  have hcount := hholds.count
  rw [Ne, hholds.front_tail] at hne
  have hzero : (g.view q.frontBlock).gone = 0 := by
    rw [h.consumer.gone, hgone]
    rfl
  refine ⟨?_, hlooking, ?_⟩
  · rw [ReaderWriterQueue.modify_frontBlock, Layout.set_self]
    exact hzero
  · rw [ReaderWriterQueue.modify_frontBlock, Layout.set_self]
    -- what has been loaded as `localTail` is the tail itself
    show (g.view q.frontBlock).front < (g.view q.frontBlock).tail
    omega

/-- The tail is loaded: if the front block is the tail block, this is when the queue is seen
    empty. -/
theorem consume_loadTail (h : Related room q p (.loadTail op) g t) :
    Answers room t [] (QueueState.consume ⟨q, p, .loadTail op⟩) := by
  have hc : t.consumer = .pending op false := h.consumer.here
  obtain ⟨hshape, hmoved, hitems⟩ := h.refreshTail
  have hgone : ((g.set q.frontBlock (g.view q.frontBlock).refreshTail).view
      q.frontBlock).gone = 0 := by
    rw [Layout.set_self]
    exact h.consumer.gone
  unfold QueueState.consume
  dsimp only
  split
  case isTrue hne =>
    -- the tail has moved on, and there is something to take
    exact h.consumed (.refl t) rfl hshape hmoved (h.access_of_ne rfl hne ⟨false, hc⟩) hitems
  case isFalse heq =>
    rw [not_not, h.shape.front_holds.front_tail] at heq
    have hlive := h.shape.front_holds.live_eq_nil heq
    -- one block that is empty, or an empty block with others behind it
    by_cases hsingle : q.frontBlock = q.tailBlock
    · -- nothing lives in the front block, and no other block is in use
      have hempty : t.items = [] := by
        rw [h.items, Layout.content, h.shape.behind_eq_nil_iff.mpr hsingle,
          List.flatMap_singleton, hlive]
        rfl
      exact h.consumed (.single (.seeEmpty hc hempty)) rfl hshape hmoved
        ⟨hgone, true, rfl, fun _ => rfl⟩ hitems
    · exact h.consumed (.refl t) rfl hshape hmoved
        ⟨hgone, false, hc, fun heq' => absurd heq' hsingle⟩ hitems

/-- The tail block is loaded. -/
theorem consume_loadTailBlock (h : Related room q p (.loadTailBlock op) g t) :
    Answers room t [] (QueueState.consume ⟨q, p, .loadTailBlock op⟩) := by
  obtain ⟨saw, hc, hsaw⟩ := h.consumer.here
  unfold QueueState.consume
  dsimp only
  split
  case isTrue hne =>
    -- there is a block behind the front block, but the producer may have filled this one meanwhile
    exact h.consumed (.refl t) rfl h.shape (.refl q g) ⟨h.consumer.gone, ⟨saw, hc⟩, hne⟩ h.items
  case isFalse heq =>
    -- the specification has seen the queue empty when the tail was loaded
    rw [hsaw (not_not.mp heq)] at hc
    exact h.consumed (.single (.miss hc)) rfl h.shape (.refl q g) ⟨h.consumer.gone, rfl⟩ h.items

/-- The tail is loaded again, since the block may have been filled in between. -/
theorem consume_reloadTail (h : Related room q p (.reloadTail op) g t) :
    Answers room t [] (QueueState.consume ⟨q, p, .reloadTail op⟩) := by
  obtain ⟨hlooking, hne'⟩ := h.consumer.here
  obtain ⟨hshape, hmoved, hitems⟩ := h.refreshTail
  unfold QueueState.consume
  dsimp only
  split
  case isTrue hne =>
    exact h.consumed (.refl t) rfl hshape hmoved (h.access_of_ne rfl hne hlooking) hitems
  case isFalse heq =>
    rw [not_not, h.shape.front_holds.front_tail] at heq
    refine h.consumed (.refl t) rfl hshape hmoved ⟨?_, hlooking, hne', ?_⟩ hitems
    · -- the front block stays empty now, since the producer has left it
      rw [ReaderWriterQueue.modify_frontBlock, Layout.set_self]
      exact h.consumer.gone
    · rw [ReaderWriterQueue.modify_frontBlock, Layout.set_self]
      exact h.shape.front_holds.live_eq_nil heq

theorem consume_loadNext (h : Related room q p (.loadNext op) g t) :
    Answers room t [] (QueueState.consume ⟨q, p, .loadNext op⟩) := by
  obtain ⟨hlooking, hne, hlive⟩ := h.consumer.here
  -- the producer is in another block, so there is one behind the front block
  obtain ⟨nb, l, hbehind⟩ : ∃ nb l, g.behind = nb :: l := by
    rw [Ne, ← h.shape.behind_eq_nil_iff] at hne
    exact List.exists_cons_of_ne_nil hne
  unfold QueueState.consume
  dsimp only
  rw [h.shape.front_next hbehind]
  exact h.consumed (.refl t) rfl h.shape (.refl q g)
    ⟨h.consumer.gone, hlooking, hlive, l, hbehind⟩ h.items

/-- The next block has something in it: the tail block only moves on to a block that has been
    written to. -/
theorem consume_loadNextTail (h : Related room q p (.loadNextTail op nb) g t) :
    Answers room t [] (QueueState.consume ⟨q, p, .loadNextTail op nb⟩) := by
  obtain ⟨hlooking, hlive, l, hbehind⟩ := h.consumer.here
  obtain ⟨hne, hholds, hlt⟩ := h.shape.next_spec hbehind
  -- the blocks behind the front block have all been written to
  have hfront : (q.blocks nb).front ≠ (q.blocks nb).tail := by
    rw [Ne, hholds.front_tail]
    exact Nat.ne_of_lt hlt
  unfold QueueState.consume
  dsimp only
  rw [if_neg hfront]
  cases op with
  -- a peek does not move the front block on
  | peek =>
    exact h.consumed (.refl t) rfl h.shape (.refl q g)
      ⟨h.consumer.gone, hlooking, hlive, l, hbehind⟩ h.items
  | take =>
    -- `localTail` of the next block is written before the front block moves on
    have hshape := h.shape.write_same (f := Block.refreshTail) rfl rfl hholds.refreshTail
      (.inl rfl) rfl
    refine h.consumed (.refl t) rfl hshape (.write rfl rfl rfl rfl rfl (.inr ⟨rfl, rfl⟩)) ?_ ?_
    · refine ⟨?_, hlooking, ?_, ?_, l, hbehind⟩
      · rw [ReaderWriterQueue.modify_frontBlock, Layout.set_of_ne g hne.symm]
        exact h.consumer.gone
      · rw [ReaderWriterQueue.modify_frontBlock, Layout.set_of_ne g hne.symm]
        exact hlive
      · rw [Layout.set_self]
        exact hlt
    · rw [ReaderWriterQueue.modify_frontBlock,
        Shape.content_set_same (v := (g.view nb).refreshTail) rfl]
      exact h.items

/-- The front block moves on. -/
theorem consume_storeFrontBlock (h : Related room q p (.storeFrontBlock nb) g t) :
    Answers room t [] (QueueState.consume ⟨q, p, .storeFrontBlock nb⟩) := by
  obtain ⟨hlooking, hlive, hlt, l, hbehind⟩ := h.consumer.here
  have hne := (h.shape.next_spec hbehind).1
  refine h.consumed (.refl t) rfl (h.shape.advanceFront hbehind hlive h.consumer.gone)
    (.advanceFront h.shape hbehind) ⟨h.shape.gone nb hne, hlooking, hlt⟩ ?_
  -- the block that is left was empty, so the queue holds what it held
  have hitems := h.items
  rw [Layout.content, hbehind, List.flatMap_cons, hlive] at hitems
  exact hitems

/-- The object in front is moved out, or looked at. -/
theorem consume_access (h : Related room q p (.access op) g t) :
    Answers room t [] (QueueState.consume ⟨q, p, .access op⟩) := by
  obtain ⟨⟨saw, hc⟩, hlt⟩ := h.consumer.here
  have hgone : (g.view q.frontBlock).gone = 0 := h.consumer.gone
  have hholds := h.shape.front_holds
  -- the slot at the front has an object, and it is the oldest one
  obtain ⟨v, l, hlive⟩ := live_cons h.shape hgone hlt
  unfold QueueState.consume
  dsimp only
  rw [hholds.data_front hgone hlive]
  cases op with
  -- the object leaves its slot now, and the queue when `front` is stored
  | take =>
    -- the block taken from is the front block, and not among the others
    have hfree : q.frontBlock ∉ g.free := fun hin =>
      h.shape.frontBlock_notMem (List.mem_append_right _ (List.mem_append_right _ hin))
    have hbehind : q.frontBlock ∉ g.behind := fun hin =>
      h.shape.frontBlock_notMem (List.mem_append_left _ hin)
    have hshape := h.shape.write (f := Block.takeOut) rfl rfl
      (hholds.takeOut hgone hlive hlt) (fun hne => absurd rfl hne)
      (fun hin => absurd hin hfree) (fun hin => absurd hin hbehind)
      (fun hin => absurd hin hbehind)
    refine h.consumed (.refl t) rfl hshape (.write rfl rfl rfl rfl rfl (.inl rfl)) ?_ ?_
    · refine ⟨?_, saw, hc⟩
      rw [ReaderWriterQueue.modify_frontBlock, Layout.set_self]
      rfl
    · -- what the consumer holds in its hand is still counted as the front of the queue
      have htail : (g.view q.frontBlock).live = v :: (g.view q.frontBlock).takeOut.live := by
        show _ = v :: (g.view q.frontBlock).live.tail
        rw [hlive]
        rfl
      rw [h.items, h.shape.content_set_front htail]
      rfl
  | peek =>
    -- what is looked at is what the specification would serve
    have hhead : t.items.head? = some v := by
      rw [h.items, Layout.content, List.flatMap_cons, hlive]
      rfl
    exact h.consumed (.single (.serve hc hhead)) rfl h.shape (.refl q g) ⟨hgone, rfl⟩ h.items

/-- The object in front of the next block is looked at. -/
theorem consume_peekNext (h : Related room q p (.peekNext nb) g t) :
    Answers room t [] (QueueState.consume ⟨q, p, .peekNext nb⟩) := by
  obtain ⟨⟨saw, hc⟩, hlive, l, hbehind⟩ := h.consumer.here
  obtain ⟨hne, hholds, hlt⟩ := h.shape.next_spec hbehind
  -- the front of the queue is the first object of the next block
  obtain ⟨v, l', hlive'⟩ : ∃ v l', (g.view nb).live = v :: l' :=
    List.exists_cons_of_ne_nil (h.shape.started nb (hbehind ▸ List.mem_cons_self))
  have hhead : t.items.head? = some v := by
    rw [h.items, Layout.content, hbehind, List.flatMap_cons, List.flatMap_cons, hlive, hlive']
    rfl
  unfold QueueState.consume
  dsimp only
  rw [hholds.data_front (h.shape.gone nb hne) hlive']
  exact h.consumed (.single (.serve hc hhead)) rfl h.shape (.refl q g) ⟨h.consumer.gone, rfl⟩
    h.items

/-- The slot is given back: the object has been taken. -/
theorem consume_storeFront (h : Related room q p (.storeFront v) g t) :
    Answers room t [] (QueueState.consume ⟨q, p, .storeFront v⟩) := by
  obtain ⟨saw, hc⟩ : Looking .take t.consumer := h.consumer.here
  -- the object that was moved out is still the first of the specification's queue
  have hhead : t.items.head? = some v := by
    rw [h.items]
    rfl
  have hshape := h.shape.write_same (f := Block.release) rfl rfl
    (h.shape.front_holds.release h.consumer.gone) (.inr rfl) rfl
  refine h.consumed (.single (.serve hc hhead)) rfl hshape
    (.write rfl rfl rfl rfl rfl (.inl rfl)) ?_ ?_
  · refine ⟨?_, rfl⟩
    rw [ReaderWriterQueue.modify_frontBlock, Layout.set_self]
    rfl
  · rw [ReaderWriterQueue.modify_frontBlock,
      Shape.content_set_same (v := (g.view q.frontBlock).release) rfl]
    show t.items.tail = _
    rw [h.items]
    rfl

theorem consume_returning {result : Option α} (h : Related room q p (.returning op result) g t) :
    Answers room t [.lookReturn op result]
      (QueueState.consume ⟨q, p, .returning op result⟩) := by
  have hc : t.consumer = .answered op result := h.consumer.here
  exact h.consumed (.single (.lookReturn hc)) rfl h.shape (.refl q g) ⟨h.consumer.gone, rfl⟩
    h.items

theorem look_call (h : Related room q p .idle g t) (op : Look) :
    Answers room t [.lookCall op] ⟨q, p, .start op⟩ := by
  have hc : t.consumer = .idle := h.consumer.here
  exact h.consumed (.single (.look op hc)) rfl h.shape (.refl q g) ⟨h.consumer.gone, rfl⟩ h.items

/-- Every step of the consumer. -/
theorem consume_step (h : Related room q p c g t) :
    Answers room t (QueueState.events ⟨q, p, c⟩ .consume) (QueueState.consume ⟨q, p, c⟩) := by
  cases c with
  -- one lemma for each place at which the consumer can be
  | idle => exact ⟨t, .refl t, g, h⟩
  | start op => exact h.consume_start
  | loadTail op => exact h.consume_loadTail
  | loadTailBlock op => exact h.consume_loadTailBlock
  | reloadTail op => exact h.consume_reloadTail
  | loadNext op => exact h.consume_loadNext
  | loadNextTail op nb => exact h.consume_loadNextTail
  | storeFrontBlock nb => exact h.consume_storeFrontBlock
  | access op => exact h.consume_access
  | peekNext nb => exact h.consume_peekNext
  | storeFront v => exact h.consume_storeFront
  | returning op result => exact h.consume_returning
  | crashed => exact h.consumer.here.elim

end Related

/-! ## The refinement -/

/-- The relation of the simulation. -/
def Simulated (room : ℕ) (s : QueueState α) (t : State α) : Prop :=
  ∃ g, Related room s.queue s.producer s.consumer g t

/-- Neither thread is stuck in a state that stands for one of the atomic queue. -/
theorem Simulated.not_crashed {room : ℕ} {s : QueueState α} {t : State α}
    (h : Simulated room s t) : s.producer ≠ .crashed ∧ s.consumer ≠ .crashed := by
  obtain ⟨g, hrelated⟩ := h
  -- what is known of a crashed thread is false
  refine ⟨fun hcrashed => ?_, fun hcrashed => ?_⟩
  · have hhere := hrelated.producer.here
    rw [hcrashed] at hhere
    exact hhere
  · have hhere := hrelated.consumer.here
    rw [hcrashed] at hhere
    exact hhere

theorem simulates (maxBlockSize size : ℕ) :
    Simulates (readerWriterQueue α maxBlockSize size) (queue α size) (Simulated size) := by
  rintro ⟨q, p, c⟩ t es s' ⟨g, h⟩ ⟨a, henabled, rfl, rfl⟩
  cases a with
  | enqueue v canAlloc =>
    -- a call begins only when the thread's last one has returned
    obtain rfl : p = .idle := henabled
    exact h.enqueue_call v canAlloc
  | produce memory => exact h.produce_step memory
  | look op =>
    obtain rfl : c = .idle := henabled
    exact h.look_call op
  | consume => exact h.consume_step

section Results

variable {size m : ℕ} {es : List (Event α)}

/-- A new queue is empty. -/
theorem simulated_make (hm : 1 ≤ m) (hsize : 1 ≤ size) (hfits : size + 2 ^ m * 2 ≤ 2 ^ 63) :
    Simulated size ({ queue := .make (2 ^ m) size } : QueueState α) {} := by
  -- the blocks of the constructor are all linked, and nothing is in them
  obtain ⟨hshape, hlinked⟩ := ReaderWriterQueue.shape_make (α := α) hm hsize hfits
  refine ⟨_, hshape, ⟨rfl, fun _ => rfl, fun id hid => ?_, rfl⟩, ⟨rfl, rfl⟩, rfl⟩
  exact List.mem_append_left _ (hlinked id hid)

theorem init_simulated (hm : 1 ≤ m) (hsize : 1 ≤ size) (hfits : size + 2 ^ m * 2 ≤ 2 ^ 63) :
    ∀ s, (readerWriterQueue α (2 ^ m) size).init s →
      ∃ t, (queue α size).init t ∧ Simulated size s t := by
  rintro s rfl
  exact ⟨{}, rfl, simulated_make hm hsize hfits⟩

/-- What a schedule shows of a queue of integers for one value, with blocks of two. -/
def shownBy (schedule : List (QueueAction ℕ)) : Option (List (Event ℕ)) :=
  replay QueueState.enabled (QueueState.next (2 ^ 1)) QueueState.events
    { queue := .make (2 ^ 1) 1 } schedule

/-- A value through the queue, looked at before it is taken. -/
def relaySchedule : List (QueueAction ℕ) :=
  .enqueue 7 false :: List.replicate 4 (.produce true) ++
    .look .peek :: List.replicate 4 .consume ++ .look .take :: List.replicate 4 .consume

def relayEvents : List (Event ℕ) :=
  [.enqueueCall 7 false, .enqueueReturn 7 true, .lookCall .peek, .lookReturn .peek (some 7),
    .lookCall .take, .lookReturn .take (some 7)]

theorem shownBy_relaySchedule : shownBy relaySchedule = some relayEvents := by decide

theorem traces_of_shownBy {schedule : List (QueueAction ℕ)} {es : List (Event ℕ)}
    (h : shownBy schedule = some es) : Traces (readerWriterQueue ℕ (2 ^ 1) 1) es :=
  traces_of_replay rfl h

/-- Whatever the callers see of the lock-free queue, they can see of a queue in which every
    operation takes effect at one moment. A size of zero does not do: a block of one slot
    cannot hold anything. -/
theorem readerWriterQueue_traces (hm : 1 ≤ m) (hsize : 1 ≤ size)
    (hfits : size + 2 ^ m * 2 ≤ 2 ^ 63) (h : Traces (readerWriterQueue α (2 ^ m) size) es) :
    Traces (queue α size) es :=
  (simulates (2 ^ m) size).traces (init_simulated hm hsize hfits) h

/-- **Safety**: in every run, no assertion of the queue fails, no object is made in a slot
    that has one, and none is read from a slot that has none. -/
theorem readerWriterQueue_safe (hm : 1 ≤ m) (hsize : 1 ≤ size)
    (hfits : size + 2 ^ m * 2 ≤ 2 ^ 63) {s : QueueState α}
    (h : Runs (readerWriterQueue α (2 ^ m) size) { queue := .make (2 ^ m) size } es s) :
    s.producer ≠ .crashed ∧ s.consumer ≠ .crashed := by
  obtain ⟨t, -, hsimulated⟩ := (simulates (2 ^ m) size).runs (simulated_make hm hsize hfits) h
  exact hsimulated.not_crashed

theorem readerWriterQueue_safe_relay :
    ∃ s, Runs (readerWriterQueue ℕ (2 ^ 1) 1) { queue := .make (2 ^ 1) 1 } relayEvents s ∧
      s.producer ≠ .crashed ∧ s.consumer ≠ .crashed := by
  have hs := runs_of_replay (fun s => s = { queue := .make (2 ^ 1) 1 }) shownBy_relaySchedule
  exact ⟨_, hs, readerWriterQueue_safe (by decide) (by decide) (by decide) hs⟩

/-- **First in, first out**: nothing is lost on the way, doubled or put out of order. -/
theorem readerWriterQueue_fifo (hm : 1 ≤ m) (hsize : 1 ≤ size)
    (hfits : size + 2 ^ m * 2 ≤ 2 ^ 63) (h : Traces (readerWriterQueue α (2 ^ m) size) es) :
    taken es <+: accepted es ++ underway es :=
  fifo (readerWriterQueue_traces hm hsize hfits h)

theorem readerWriterQueue_fifo_relay :
    taken relayEvents <+: accepted relayEvents ++ underway relayEvents :=
  readerWriterQueue_fifo (by decide) (by decide) (by decide)
    (traces_of_shownBy shownBy_relaySchedule)

/-- **Peeking first**, as the mixer does: the next `try_dequeue` gives what has been seen,
    whatever the producer does in between. -/
theorem readerWriterQueue_peek (hm : 1 ≤ m) (hsize : 1 ≤ size)
    (hfits : size + 2 ^ m * 2 ≤ 2 ^ 63) {during : List (Event α)} {v : α} {result : Option α}
    (h : Traces (readerWriterQueue α (2 ^ m) size)
      (es ++ .lookReturn .peek (some v) :: during ++ [.lookReturn .take result]))
    (hduring : ∀ e ∈ during, e.isTaking = false) : result = some v :=
  peek_promise (readerWriterQueue_traces hm hsize hfits h) hduring

theorem readerWriterQueue_peek_relay : ∃ result,
    Traces (readerWriterQueue ℕ (2 ^ 1) 1)
        ([.enqueueCall 7 false, .enqueueReturn 7 true, .lookCall .peek] ++
          .lookReturn .peek (some 7) :: [.lookCall .take] ++ [.lookReturn .take result]) ∧
      result = some 7 := by
  have h : Traces (readerWriterQueue ℕ (2 ^ 1) 1)
      ([.enqueueCall 7 false, .enqueueReturn 7 true, .lookCall .peek] ++
        .lookReturn .peek (some 7) :: [.lookCall .take] ++ [.lookReturn .take (some 7)]) :=
    traces_of_shownBy shownBy_relaySchedule
  exact ⟨some 7, h, readerWriterQueue_peek (by decide) (by decide) (by decide) h
    (by simp [Event.isTaking])⟩

end Results

end AVCapture.Utils
