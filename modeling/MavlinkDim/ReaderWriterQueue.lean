import Mathlib.Data.List.Basic
import Mathlib.Data.BitVec
import Mathlib.Logic.Function.Basic

/-!
# The queue of two threads

`ReaderWriterQueue` holds the messages between a thread that puts them in and one
that takes them out, without a lock.  It is a ring of blocks, each a ring buffer: the
consumer moves the `front`s, the producer the `tail`s, and each of them keeps a copy of
what it last saw of the other's.  A step of a thread reads or writes at most one
variable that the other one writes or reads.  The memory is sequentially consistent here.
-/

namespace Moodycamel

/-- Addresses of blocks are numbers, and `none` is a slot of `data` without an element. -/
structure Block (α : Type*) where
  front : Nat
  localTail : Nat
  tail : Nat
  localFront : Nat
  next : Nat
  data : Nat → Option α
  sizeMask : Nat

/-- `allocated` is the number of blocks that there are. -/
structure ReaderWriterQueue (α : Type*) where
  heap : Nat → Block α
  allocated : Nat
  frontBlock : Nat
  tailBlock : Nat
  largestBlockSize : Nat

variable {α : Type*}

/-! ### The constructor -/

def ceilToPow2 (x : BitVec 64) : BitVec 64 :=
  let x := x - 1
  let x := x ||| x >>> 1
  let x := x ||| x >>> 2
  let x := x ||| x >>> 4
  -- `for (size_t i = 1; i < sizeof(size_t); i <<= 1)`
  let x := [1, 2, 4].foldl (fun (x : BitVec 64) (i : Nat) => x ||| x >>> (i <<< 3)) x
  x + 1

def makeBlock (capacity next : Nat) : Block α :=
  ⟨0, 0, 0, 0, next, fun _ => none, capacity - 1⟩

namespace ReaderWriterQueue

def set (q : ReaderWriterQueue α) (b : Nat) (block : Block α) : ReaderWriterQueue α :=
  { q with heap := Function.update q.heap b block }

/-- The blocks of the constructor: each one goes behind the last one and in front of the first. -/
def makeBlocks (blockSize : Nat) : Nat → Nat → Block α
  | 0 => fun _ => makeBlock 0 0
  | i + 1 =>
    let heap := makeBlocks blockSize i
    let heap := if i = 0 then heap
      else Function.update heap (i - 1) { heap (i - 1) with next := i }
    Function.update heap i (makeBlock blockSize 0)

/-- `malloc` says which of the allocations succeed; without one of them there is no queue. -/
def construct (MAX_BLOCK_SIZE : Nat) (malloc : Nat → Bool) (size : Nat) :
    Option (ReaderWriterQueue α) :=
  let largestBlockSize := (ceilToPow2 (BitVec.ofNat 64 (size + 1))).toNat
  if largestBlockSize > MAX_BLOCK_SIZE * 2 then
    let initialBlockCount := (size + MAX_BLOCK_SIZE * 2 - 3) / (MAX_BLOCK_SIZE - 1)
    if (List.range initialBlockCount).all malloc then
      some ⟨makeBlocks MAX_BLOCK_SIZE initialBlockCount, initialBlockCount, 0, 0, MAX_BLOCK_SIZE⟩
    else none
  else if malloc 0 then some ⟨makeBlocks largestBlockSize 1, 1, 0, 0, largestBlockSize⟩
  else none

/-! ### Walks through the ring -/

/-- `do { … } while (block != frontBlock_)`, with what `body` gives for each block. -/
def forBlocks {β : Type*} (q : ReaderWriterQueue α) (body : Nat → Option β) :
    Nat → Nat → Option (List β)
  | 0, _ => none
  | fuel + 1, block => do
    let x ← body block
    let nextBlock := (q.heap block).next
    if nextBlock ≠ q.frontBlock then (q.forBlocks body fuel nextBlock).map (x :: ·) else some [x]

/-- `for (size_t i = blockFront; i != blockTail; i = (i + 1) & block->sizeMask)`; there is no
    result if a slot without an element is destroyed. -/
def destroyElements (block : Block α) : Nat → Nat → Option (List α)
  | 0, _ => none
  | fuel + 1, i =>
    if i ≠ block.tail then do
      let element ← block.data i
      (destroyElements block fuel ((i + 1) &&& block.sizeMask)).map (element :: ·)
    else some []

/-- The destructor: the elements that it destroys, and the blocks that it frees. -/
def destroy (q : ReaderWriterQueue α) (fuel : Nat) : Option (List α × List Nat) := do
  let body (block : Nat) : Option (List α × Nat) :=
    (destroyElements (q.heap block) fuel (q.heap block).front).map (·, block)
  let destroyed ← q.forBlocks body fuel q.frontBlock
  some (destroyed.flatMap Prod.fst, destroyed.map Prod.snd)

def maxCapacity (q : ReaderWriterQueue α) (fuel : Nat) : Option Nat :=
  (q.forBlocks (fun block => some (q.heap block).sizeMask) fuel q.frontBlock).map List.sum

end ReaderWriterQueue

/-! ### The two threads -/

inductive AllocationMode where
  | canAlloc
  | cannotAlloc
deriving DecidableEq, Repr

/-- Where the producer is in `inner_enqueue`. -/
inductive Producer (α : Type*) where
  | idle
  | findRoom (mode : AllocationMode) (element : α)
  | construct (element : α) (nextBlockTail : Nat)
  | setTail (element : α) (nextBlockTail : Nat)
  | testNext (mode : AllocationMode) (element : α)
  | enterNext (element : α)
  | constructNext (element : α) (tailBlockNext : Nat)
  | setNextTail (element : α) (tailBlockNext : Nat)
  | link (element : α) (newBlock : Nat)
  | setTailBlock (element : α) (tailBlock : Nat)
  | returned (result : Bool)
  | failed
deriving DecidableEq

/-- Where the consumer is in `try_dequeue`. -/
inductive Consumer (α : Type*) where
  | idle
  | findElement
  | take
  | setFront (element : α)
  | testTailBlock
  | testAgain
  | loadNext
  | enterNext (nextBlock : Nat)
  | setFrontBlock (nextBlock : Nat)
  | returned (result : Option α)
  | failed
deriving DecidableEq

/-- A queue with its two threads.  `enqueued` and `dequeued` are the elements of the calls that
    returned true; `producerSaw` and `consumerSaw` are how many elements were in the queue in each
    state since the last call of a thread began.  No thread reads these. -/
structure Threads (α : Type*) where
  queue : ReaderWriterQueue α
  producer : Producer α
  consumer : Consumer α
  enqueued : List α
  dequeued : List α
  producerSaw : List Nat
  consumerSaw : List Nat

namespace Threads

/-- The next step of `inner_enqueue`; `malloc` is for an allocation. -/
def producerStep (MAX_BLOCK_SIZE : Nat) (malloc : Bool) (s : Threads α) : Option (Threads α) :=
  let q := s.queue
  let tailBlock := q.heap q.tailBlock
  match s.producer with
  | .idle | .returned _ | .failed => none
  | .findRoom mode element =>
    let nextBlockTail := (tailBlock.tail + 1) &&& tailBlock.sizeMask
    if nextBlockTail ≠ tailBlock.localFront then
      some { s with producer := .construct element nextBlockTail }
    else
      let queue := q.set q.tailBlock { tailBlock with localFront := tailBlock.front }
      if nextBlockTail ≠ tailBlock.front then
        some { s with queue, producer := .construct element nextBlockTail }
      else some { s with queue, producer := .testNext mode element }
  | .construct element nextBlockTail =>
    let data := Function.update tailBlock.data tailBlock.tail (some element)
    some { s with queue := q.set q.tailBlock { tailBlock with data }
                  producer := .setTail element nextBlockTail }
  | .setTail element nextBlockTail =>
    some { s with queue := q.set q.tailBlock { tailBlock with tail := nextBlockTail }
                  producer := .returned true, enqueued := s.enqueued ++ [element] }
  | .testNext mode element =>
    if tailBlock.next ≠ q.frontBlock then some { s with producer := .enterNext element }
    else
      match mode with
      | .canAlloc =>
        if malloc then
          let newBlockSize := if q.largestBlockSize ≥ MAX_BLOCK_SIZE then q.largestBlockSize
            else q.largestBlockSize * 2
          let newBlock : Block α := makeBlock newBlockSize tailBlock.next
          let newBlock := { newBlock with data := Function.update newBlock.data 0 (some element)
                                          tail := 1, localTail := 1 }
          some { s with queue := { q.set q.allocated newBlock with
                          allocated := q.allocated + 1, largestBlockSize := newBlockSize }
                        producer := .link element q.allocated }
        else some { s with producer := .returned false }
      | .cannotAlloc => some { s with producer := .returned false }
  | .enterNext element =>
    let tailBlockNext := q.heap tailBlock.next
    if tailBlockNext.front = tailBlockNext.tail then
      let block := { tailBlockNext with localFront := tailBlockNext.front }
      some { s with queue := q.set tailBlock.next block
                    producer := .constructNext element tailBlock.next }
    else some { s with producer := .failed }
  | .constructNext element b =>
    let block := q.heap b
    let data := Function.update block.data block.tail (some element)
    some { s with queue := q.set b { block with data }, producer := .setNextTail element b }
  | .setNextTail element b =>
    let block := q.heap b
    let tail := (block.tail + 1) &&& block.sizeMask
    some { s with queue := q.set b { block with tail }, producer := .setTailBlock element b }
  | .link element b =>
    some { s with queue := q.set q.tailBlock { tailBlock with next := b }
                  producer := .setTailBlock element b }
  | .setTailBlock element b =>
    some { s with queue := { q with tailBlock := b }
                  producer := .returned true, enqueued := s.enqueued ++ [element] }

/-- The next step of `try_dequeue`. -/
def consumerStep (s : Threads α) : Option (Threads α) :=
  let q := s.queue
  let frontBlock := q.heap q.frontBlock
  match s.consumer with
  | .idle | .returned _ | .failed => none
  | .findElement =>
    if frontBlock.front ≠ frontBlock.localTail then some { s with consumer := .take }
    else
      let queue := q.set q.frontBlock { frontBlock with localTail := frontBlock.tail }
      if frontBlock.front ≠ frontBlock.tail then some { s with queue, consumer := .take }
      else some { s with queue, consumer := .testTailBlock }
  | .take =>
    match frontBlock.data frontBlock.front with
    | some element =>
      let data := Function.update frontBlock.data frontBlock.front none
      some { s with queue := q.set q.frontBlock { frontBlock with data }
                    consumer := .setFront element }
    | none => some { s with consumer := .failed }
  | .setFront element =>
    let front := (frontBlock.front + 1) &&& frontBlock.sizeMask
    some { s with queue := q.set q.frontBlock { frontBlock with front }
                  consumer := .returned (some element), dequeued := s.dequeued ++ [element] }
  | .testTailBlock =>
    if q.frontBlock ≠ q.tailBlock then some { s with consumer := .testAgain }
    else some { s with consumer := .returned none }
  | .testAgain =>
    let queue := q.set q.frontBlock { frontBlock with localTail := frontBlock.tail }
    if frontBlock.front ≠ frontBlock.tail then some { s with queue, consumer := .take }
    else some { s with queue, consumer := .loadNext }
  | .loadNext => some { s with consumer := .enterNext frontBlock.next }
  | .enterNext b =>
    let nextBlock := q.heap b
    if nextBlock.front ≠ nextBlock.tail then
      some { s with queue := q.set b { nextBlock with localTail := nextBlock.tail }
                    consumer := .setFrontBlock b }
    else some { s with consumer := .failed }
  | .setFrontBlock b => some { s with queue := { q with frontBlock := b }, consumer := .take }

/-- How many elements are in the queue, the one that the consumer takes out included. -/
def occupancy (s : Threads α) : Nat := s.enqueued.length - s.dequeued.length

def observe (s : Threads α) : Threads α :=
  { s with producerSaw := s.producerSaw ++ [s.occupancy]
           consumerSaw := s.consumerSaw ++ [s.occupancy] }

/-- A new queue. -/
def start (q : ReaderWriterQueue α) : Threads α := ⟨q, .idle, .idle, [], [], [0], [0]⟩

end Threads

/-- A call of a thread, or the next step of the call that it is in. -/
inductive ThreadStep (α : Type*) where
  | enqueue (mode : AllocationMode) (element : α)
  | producer (malloc : Bool)
  | dequeue
  | consumer

def ThreadStep.run (MAX_BLOCK_SIZE : Nat) : ThreadStep α → Threads α → Option (Threads α)
  | .enqueue mode element, s =>
    match s.producer with
    | .idle | .returned _ =>
      some { s with producer := .findRoom mode element, producerSaw := [] }.observe
    | _ => none
  | .producer malloc, s => (s.producerStep MAX_BLOCK_SIZE malloc).map Threads.observe
  | .dequeue, s =>
    match s.consumer with
    | .idle | .returned _ => some { s with consumer := .findElement, consumerSaw := [] }.observe
    | _ => none
  | .consumer, s => s.consumerStep.map Threads.observe

end Moodycamel
