import AVCapture.Lib.AtomicQueue
import AVCapture.Lib.Slots
import Mathlib.Algebra.Group.Nat.Defs

/-!
# The Lock-Free Queue

Model of `moodycamel::ReaderWriterQueue` (`utils/readerwriterqueue.h`), which carries the raw
frames from the capture thread to the encoding thread, and from each audio callback to the
mixer. One producer and one consumer run at the same time; neither ever waits for the other.

The queue is a circle of blocks, each of them a ring of slots. Indices are wrapped with the
block's mask. The producer owns `tailBlock`, `tail`, `localFront` and `next`, the consumer
`frontBlock`, `front` and `localTail`; each reads what the other one owns.

A step of a thread makes at most one access to what the other thread owns, or to a slot; what
it does with its own variables besides is seen by nobody.

It is assumed that every load gives what was stored last (sequential consistency). The source
asks for less: it loads the indices of the other thread with relaxed accesses between fences,
so that it may also see an index late. The queue then looks fuller or emptier than it is, and
a value can be refused, or not be found, where the model does not refuse it or finds it.

A thread is `crashed` when an assertion of the source fails, or when it reads a slot that has
no object in it, or makes an object in a slot that has one.

## Main definitions

- `Block`, `ReaderWriterQueue`, `ReaderWriterQueue.make`: the constructor
- `produce`: `inner_enqueue`, for `try_enqueue` and `enqueue`
- `consume`: `try_dequeue` and `peek`
- `readerWriterQueue`: both threads, as a process
-/

namespace AVCapture.Utils

open AtomicQueue Transition

/-! ## Blocks -/

/-- `Block`. A pointer to a block is its number; a slot is `none` while no object has been
    made in it. -/
structure Block (α : Type) where
  front : ℕ := 0
  localTail : ℕ := 0
  tail : ℕ := 0
  localFront : ℕ := 0
  next : ℕ := 0
  data : ℕ → Option α := fun _ => none
  sizeMask : ℕ

/-- The slot after a slot. -/
def Block.after {α : Type} (b : Block α) (i : ℕ) : ℕ := (i + 1) &&& b.sizeMask

/-- The blocks made so far are those with numbers below `allocated`. -/
structure ReaderWriterQueue (α : Type) where
  blocks : ℕ → Block α
  allocated : ℕ
  frontBlock : ℕ := 0
  tailBlock : ℕ := 0
  largestBlockSize : ℕ

namespace ReaderWriterQueue

variable {α : Type}

/-- A write to a block. -/
def modify (q : ReaderWriterQueue α) (id : ℕ) (f : Block α → Block α) : ReaderWriterQueue α :=
  { q with blocks := Function.update q.blocks id (f (q.blocks id)) }

/-! ## The constructor -/

/-- `ceilToPow2`, in 64 bits; the loop runs for `i` = 1, 2 and 4. -/
def ceilToPow2 (x : BitVec 64) : BitVec 64 :=
  let x := x - 1
  let x := x ||| (x >>> 1)
  let x := x ||| (x >>> 2)
  let x := x ||| (x >>> 4)
  let x := [1, 2, 4].foldl (fun (x : BitVec 64) (i : ℕ) => x ||| (x >>> (i <<< 3))) x
  x + 1

/-- `make_block` -/
def makeBlock (capacity : ℕ) : Block α := { sizeMask := capacity - 1 }

/-- The loop of the constructor: each new block is linked behind the one before it, and back
    to the first one. -/
def makeBlocks (capacity : ℕ) : ℕ → ℕ → Block α
  | 0 => fun _ => makeBlock capacity
  | n + 1 =>
    let blocks := makeBlocks capacity n
    let linked := if n = 0 then blocks
      else Function.update blocks (n - 1) { blocks (n - 1) with next := n }
    Function.update linked n { (makeBlock capacity : Block α) with next := 0 }

/-- `ReaderWriterQueue(size)` -/
def make (maxBlockSize size : ℕ) : ReaderWriterQueue α :=
  let largestBlockSize := (ceilToPow2 (BitVec.ofNat 64 (size + 1))).toNat
  if largestBlockSize > maxBlockSize * 2 then
    let initialBlockCount := (size + maxBlockSize * 2 - 3) / (maxBlockSize - 1)
    { blocks := makeBlocks maxBlockSize initialBlockCount
      allocated := initialBlockCount
      largestBlockSize := maxBlockSize }
  else
    { blocks := makeBlocks largestBlockSize 1
      allocated := 1
      largestBlockSize := largestBlockSize }

end ReaderWriterQueue

/-! ## The two threads -/

/-- Where the producer is in `inner_enqueue`, with its local variables. -/
inductive ProducerPc (α : Type) where
  | idle
  | start (element : α) (canAlloc : Bool)
  | loadFront (element : α) (canAlloc : Bool)
  | construct (element : α)
  | storeTail (element : α)
  | loadFrontBlock (element : α) (canAlloc : Bool)
  | loadNextFront (element : α)
  | constructNext (element : α) (tailBlockNext : ℕ)
  | storeNextTail (element : α) (tailBlockNext : ℕ)
  | makeBlock (element : α)
  | storeNext (element : α) (newBlock : ℕ)
  | storeTailBlock (element : α) (block : ℕ)
  | returning (element : α) (accepted : Bool)
  | crashed
  deriving DecidableEq

/-- Where the consumer is in `try_dequeue` or `peek`. -/
inductive ConsumerPc (α : Type) where
  | idle
  | start (op : Look)
  | loadTail (op : Look)
  | loadTailBlock (op : Look)
  | reloadTail (op : Look)
  | loadNext (op : Look)
  | loadNextTail (op : Look) (nextBlock : ℕ)
  | storeFrontBlock (nextBlock : ℕ)
  | access (op : Look)
  | peekNext (nextBlock : ℕ)
  | storeFront (element : α)
  | returning (op : Look) (result : Option α)
  | crashed
  deriving DecidableEq

structure QueueState (α : Type) where
  queue : ReaderWriterQueue α
  producer : ProducerPc α := .idle
  consumer : ConsumerPc α := .idle

namespace QueueState

variable {α : Type}

/-- The next step of `inner_enqueue`; `memory` is whether an allocation succeeds. -/
def produce (maxBlockSize : ℕ) (s : QueueState α) (memory : Bool) : QueueState α :=
  let q := s.queue
  let tailBlock := q.blocks q.tailBlock
  let nextBlockTail := tailBlock.after tailBlock.tail
  match s.producer with
  | .start element canAlloc =>
    if nextBlockTail ≠ tailBlock.localFront then { s with producer := .construct element }
    else { s with producer := .loadFront element canAlloc }
  | .loadFront element canAlloc =>
    let q' := q.modify q.tailBlock fun b => { b with localFront := b.front }
    if nextBlockTail ≠ tailBlock.front then
      { s with queue := q', producer := .construct element }
    else { s with queue := q', producer := .loadFrontBlock element canAlloc }
  | .construct element =>
    match tailBlock.data tailBlock.tail with
    | some _ => { s with producer := .crashed }
    | none =>
      { s with
        queue := q.modify q.tailBlock fun b =>
          { b with data := Function.update b.data b.tail (some element) }
        producer := .storeTail element }
  | .storeTail element =>
    { s with
      queue := q.modify q.tailBlock fun b => { b with tail := b.after b.tail }
      producer := .returning element true }
  | .loadFrontBlock element canAlloc =>
    if tailBlock.next ≠ q.frontBlock then { s with producer := .loadNextFront element }
    else if canAlloc then { s with producer := .makeBlock element }
    else { s with producer := .returning element false }
  | .loadNextFront element =>
    -- the next block has to be empty, since it is not the front block
    let next := q.blocks tailBlock.next
    let q' := q.modify tailBlock.next fun b => { b with localFront := b.front }
    if next.front = next.tail then
      { s with queue := q', producer := .constructNext element tailBlock.next }
    else { s with queue := q', producer := .crashed }
  | .constructNext element tailBlockNext =>
    match (q.blocks tailBlockNext).data (q.blocks tailBlockNext).tail with
    | some _ => { s with producer := .crashed }
    | none =>
      { s with
        queue := q.modify tailBlockNext fun b =>
          { b with data := Function.update b.data b.tail (some element) }
        producer := .storeNextTail element tailBlockNext }
  | .storeNextTail element tailBlockNext =>
    { s with
      queue := q.modify tailBlockNext fun b => { b with tail := b.after b.tail }
      producer := .storeTailBlock element tailBlockNext }
  | .makeBlock element =>
    if !memory then { s with producer := .returning element false }
    else
      let newBlockSize :=
        if maxBlockSize ≤ q.largestBlockSize then q.largestBlockSize else q.largestBlockSize * 2
      -- the new block is not linked yet, so nobody sees it
      let newBlock : Block α :=
        { (ReaderWriterQueue.makeBlock newBlockSize : Block α) with
          data := Function.update (fun _ => none) 0 (some element)
          tail := 1
          localTail := 1
          next := tailBlock.next }
      { s with
        queue := { q with
          blocks := Function.update q.blocks q.allocated newBlock
          allocated := q.allocated + 1
          largestBlockSize := newBlockSize }
        producer := .storeNext element q.allocated }
  | .storeNext element newBlock =>
    { s with
      queue := q.modify q.tailBlock fun b => { b with next := newBlock }
      producer := .storeTailBlock element newBlock }
  | .storeTailBlock element block =>
    { s with queue := { q with tailBlock := block }, producer := .returning element true }
  | .returning _ _ => { s with producer := .idle }
  | .idle => s
  | .crashed => s

/-- The next step of `try_dequeue` or `peek`. -/
def consume (s : QueueState α) : QueueState α :=
  let q := s.queue
  let frontBlock := q.blocks q.frontBlock
  match s.consumer with
  | .start op =>
    if frontBlock.front ≠ frontBlock.localTail then { s with consumer := .access op }
    else { s with consumer := .loadTail op }
  | .loadTail op =>
    let q' := q.modify q.frontBlock fun b => { b with localTail := b.tail }
    if frontBlock.front ≠ frontBlock.tail then { s with queue := q', consumer := .access op }
    else { s with queue := q', consumer := .loadTailBlock op }
  | .loadTailBlock op =>
    if q.frontBlock ≠ q.tailBlock then { s with consumer := .reloadTail op }
    else { s with consumer := .returning op none }
  | .reloadTail op =>
    -- the front block may have been filled before the producer moved on
    let q' := q.modify q.frontBlock fun b => { b with localTail := b.tail }
    if frontBlock.front ≠ frontBlock.tail then { s with queue := q', consumer := .access op }
    else { s with queue := q', consumer := .loadNext op }
  | .loadNext op => { s with consumer := .loadNextTail op frontBlock.next }
  | .loadNextTail op nextBlock =>
    -- the tail block is only advanced after it has been written to
    let next := q.blocks nextBlock
    if next.front = next.tail then { s with consumer := .crashed }
    else
      match op with
      | .take =>
        { s with
          queue := q.modify nextBlock fun b => { b with localTail := b.tail }
          consumer := .storeFrontBlock nextBlock }
      | .peek => { s with consumer := .peekNext nextBlock }
  | .storeFrontBlock nextBlock =>
    { s with queue := { q with frontBlock := nextBlock }, consumer := .access .take }
  | .access op =>
    match frontBlock.data frontBlock.front, op with
    | none, _ => { s with consumer := .crashed }
    | some element, .take =>
      { s with
        queue := q.modify q.frontBlock fun b =>
          { b with data := Function.update b.data b.front none }
        consumer := .storeFront element }
    | some element, .peek => { s with consumer := .returning .peek (some element) }
  | .peekNext nextBlock =>
    match (q.blocks nextBlock).data (q.blocks nextBlock).front with
    | none => { s with consumer := .crashed }
    | some element => { s with consumer := .returning .peek (some element) }
  | .storeFront element =>
    { s with
      queue := q.modify q.frontBlock fun b => { b with front := b.after b.front }
      consumer := .returning .take (some element) }
  | .returning _ _ => { s with consumer := .idle }
  | .idle => s
  | .crashed => s

end QueueState

/-- A thread calls an operation, or takes its next step. -/
inductive QueueAction (α : Type) where
  | enqueue (element : α) (canAlloc : Bool)
  | produce (memory : Bool)
  | look (op : Look)
  | consume

namespace QueueState

variable {α : Type}

def enabled (s : QueueState α) : QueueAction α → Prop
  | .enqueue _ _ => s.producer = .idle
  | .produce _ => s.producer ≠ .idle ∧ s.producer ≠ .crashed
  | .look _ => s.consumer = .idle
  | .consume => s.consumer ≠ .idle ∧ s.consumer ≠ .crashed

instance decidableEnabled [DecidableEq α] (s : QueueState α) (a : QueueAction α) :
    Decidable (s.enabled a) := by
  cases a <;> unfold enabled <;> infer_instance

def next (maxBlockSize : ℕ) (s : QueueState α) : QueueAction α → QueueState α
  | .enqueue element canAlloc => { s with producer := .start element canAlloc }
  | .produce memory => s.produce maxBlockSize memory
  | .look op => { s with consumer := .start op }
  | .consume => s.consume

/-- What the callers see of a step. -/
def events (s : QueueState α) : QueueAction α → List (Event α)
  | .enqueue element canAlloc => [.enqueueCall element canAlloc]
  | .produce memory =>
    match s.producer with
    | .makeBlock _ => if memory then [] else [.noMemory]
    | .returning element accepted => [.enqueueReturn element accepted]
    | _ => []
  | .look op => [.lookCall op]
  | .consume =>
    match s.consumer with
    | .returning op result => [.lookReturn op result]
    | _ => []

end QueueState

/-- A new queue between its two threads; `try_enqueue` may not allocate, `enqueue` may. -/
def readerWriterQueue (α : Type) (maxBlockSize size : ℕ) : Process (QueueState α) (Event α) :=
  .ofCommands (fun s => s = { queue := .make maxBlockSize size }) QueueState.enabled
    (QueueState.next maxBlockSize) QueueState.events

end AVCapture.Utils
