import MavlinkDim.LightweightSemaphore
import MavlinkDim.QueueRuns

/-!
# The blocking queue

`BlockingReaderWriterQueue` signals its semaphore after each element that goes in, and
waits for a signal before it takes one out.  For the threads around it, it is a list:
each operation takes effect at one step of its call, an enqueue when it signals and a
dequeue when it is granted a signal or gives up.
-/

namespace Moodycamel

variable {α : Type*}

/-! ### What the queue is for -/

/-- An operation of a first-in first-out list, with its result. -/
inductive QueueOp (α : Type*) where
  | put (element : α)
  | get (result : Option α)
deriving DecidableEq, Repr

namespace QueueOp

inductive Applies : QueueOp α → List α → List α → Prop where
  | put (element : α) (l : List α) : Applies (.put element) l (l ++ [element])
  | get (element : α) (l : List α) : Applies (.get (some element)) (element :: l) l
  | empty : Applies (.get none) [] []

/-- The operations lead from one list to the other, one after the other. -/
inductive Replays : List (QueueOp α) → List α → List α → Prop where
  | nil (l : List α) : Replays [] l l
  | snoc {ops : List (QueueOp α)} {op : QueueOp α} {l l' l'' : List α} (h : Replays ops l l')
      (hop : op.Applies l' l'') : Replays (ops ++ [op]) l l''

def element : QueueOp α → Option α
  | .put element => some element
  | .get _ => none

def result : QueueOp α → Option (Option α)
  | .put _ => none
  | .get result => some result

end QueueOp

/-! ### The two threads -/

/-- Where the producer is in `enqueue` or `try_enqueue`. -/
inductive BlockingProducer where
  | idle
  | enqueue
  | signal
  | returned (result : Bool)
deriving DecidableEq, Repr

/-- Where the consumer is in `try_dequeue`, `wait_dequeue` or `wait_dequeue_timed`; `again` is for
    `while (!sema->wait());`. -/
inductive BlockingConsumer (α : Type*) where
  | idle
  | wait (again : Bool)
  | dequeue
  | returned (result : Option α)
  | failed
deriving DecidableEq, Repr

/-- A queue with its two threads.  `history` has the operations in the order in which they took
    effect, and `results` what the calls of the consumer returned.  No thread reads these. -/
structure BlockingThreads (α : Type*) where
  inner : Threads α
  sema : Sema
  producer : BlockingProducer
  consumer : BlockingConsumer α
  history : List (QueueOp α)
  results : List (Option α)

namespace BlockingThreads

/-- The element of the next signal. -/
def signaled (s : BlockingThreads α) : List (QueueOp α) :=
  (s.inner.enqueued[s.sema.signals]?).toList.map .put

/-- What a step of the semaphore has done to the queue. -/
def waited (s : BlockingThreads α) (again : Bool) (sema : Sema) : List (QueueOp α) :=
  match sema.waiter with
  | .returned true => [.get s.inner.enqueued[s.sema.grants]?]
  | .returned false => if again then [] else [.get none]
  | _ => []

def producerStep (MAX_BLOCK_SIZE : Nat) (malloc : Bool) (s : BlockingThreads α) :
    Option (BlockingThreads α) :=
  match s.producer with
  | .idle | .returned _ => none
  | .enqueue =>
    match s.inner.producer with
    | .returned true =>
      s.sema.signal.map fun sema =>
        let producer := if sema.signaler = .idle then .returned true else .signal
        { s with sema, producer, history := s.history ++ s.signaled }
    | .returned false => some { s with producer := .returned false }
    | _ => ((ThreadStep.producer malloc).run MAX_BLOCK_SIZE s.inner).map ({ s with inner := · })
  | .signal => s.sema.post.map ({ s with sema := ·, producer := .returned true })

def consumerStep (MAX_BLOCK_SIZE : Nat) (acquired : Bool) (s : BlockingThreads α) :
    Option (BlockingThreads α) :=
  match s.consumer with
  | .idle | .returned _ | .failed => none
  | .wait again =>
    match s.sema.waiter with
    | .returned true =>
      (ThreadStep.dequeue.run MAX_BLOCK_SIZE s.inner).map
        ({ s with inner := ·, consumer := .dequeue })
    | .returned false =>
      if again then (s.sema.call (.wait (-1))).map ({ s with sema := · })
      else some { s with consumer := .returned none, results := s.results ++ [none] }
    | _ =>
      (s.sema.waitStep acquired).map fun sema =>
        { s with sema, history := s.history ++ s.waited again sema }
  | .dequeue =>
    match s.inner.consumer with
    | .returned (some element) =>
      some { s with consumer := .returned (some element), results := s.results ++ [some element] }
    -- `assert(success)`
    | .returned none => some { s with consumer := .failed }
    | _ => (ThreadStep.consumer.run MAX_BLOCK_SIZE s.inner).map ({ s with inner := · })

/-- The consumer begins to wait for the semaphore. -/
def wait (s : BlockingThreads α) (waiter : Waiter) (again : Bool) : Option (BlockingThreads α) :=
  match s.consumer with
  | .idle | .returned _ => (s.sema.call waiter).map ({ s with sema := ·, consumer := .wait again })
  | _ => none

def start (q : ReaderWriterQueue α) : BlockingThreads α :=
  ⟨Threads.start q, Sema.start, .idle, .idle, [], []⟩

end BlockingThreads

/-- A call of a thread, or the next step of the call that it is in. -/
inductive BlockingStep (α : Type*) where
  | enqueue (mode : AllocationMode) (element : α)
  | producer (malloc : Bool)
  | tryDequeue
  | waitDequeue
  | waitDequeueTimed (timeout_usecs : Int)
  | consumer (acquired : Bool)

def BlockingStep.run (MAX_BLOCK_SIZE : Nat) :
    BlockingStep α → BlockingThreads α → Option (BlockingThreads α)
  | .enqueue mode element, s =>
    match s.producer with
    | .idle | .returned _ =>
      ((ThreadStep.enqueue mode element).run MAX_BLOCK_SIZE s.inner).map
        ({ s with inner := ·, producer := .enqueue })
    | _ => none
  | .producer malloc, s => s.producerStep MAX_BLOCK_SIZE malloc
  | .tryDequeue, s => s.wait .tryWait false
  | .waitDequeue, s => s.wait (.wait (-1)) true
  | .waitDequeueTimed timeout_usecs, s => s.wait (.wait timeout_usecs) false
  | .consumer acquired, s => s.consumerStep MAX_BLOCK_SIZE acquired

end Moodycamel
