import MavlinkDim.BlockingRuns
import MavlinkDim.Mavlink

/-!
# From bytes to messages, through a queue

Each of the two queues of the server has a thread that parses bytes on a channel of its
own and enqueues messages, and one that takes them out and passes them on.  What the
second one gets are, in order, the messages that the parser makes of the bytes, without
those that the first one keeps back and those for which no block could be allocated.
-/

namespace Moodycamel

variable {α : Type*} {M : Nat} {s s' : BlockingThreads α}

/-! ### The ends of the queue -/

/-- The element of an enqueue that has not put it into the queue. -/
def BlockingThreads.pending (s : BlockingThreads α) : Option α :=
  match s.producer with
  | .enqueue => s.inner.producer.element
  | _ => none

/-- What came out, with what is in the list, is what went in. -/
theorem QueueOp.Replays.elements {ops : List (QueueOp α)} {l l' : List α}
    (h : QueueOp.Replays ops l l') :
    l ++ ops.filterMap QueueOp.element = (ops.filterMap QueueOp.result).filterMap id ++ l' := by
  induction h with
  | nil l => simp
  | snoc h hop ih =>
    rw [List.filterMap_append, List.filterMap_append, List.filterMap_append, ← List.append_assoc,
      ih]
    cases hop <;> simp [QueueOp.element, QueueOp.result]

namespace BlockingOk

variable {size : Nat}

/-- The consumer gets the elements in the order in which they went in. -/
theorem taken (h : BlockingOk size s) : s.results.filterMap id <+: s.inner.enqueued := by
  have helements := h.history.elements
  rw [List.nil_append, h.puts, h.results, List.filterMap_append, List.append_assoc] at helements
  have htaken : s.results.filterMap id <+: s.inner.enqueued.take s.sema.signals :=
    ⟨_, helements.symm⟩
  exact htaken.trans (List.take_prefix _ _)

end BlockingOk

/-- The consumer does not touch what the producer has. -/
structure ProducerKept (s s' : BlockingThreads α) : Prop where
  pending : s'.pending = s.pending
  enqueued : s'.inner.enqueued = s.inner.enqueued

theorem ProducerKept.of_eq (hproducer : s'.producer = s.producer)
    (hinner : s'.inner.producer = s.inner.producer)
    (henqueued : s'.inner.enqueued = s.inner.enqueued) : ProducerKept s s' := by
  refine ⟨?_, henqueued⟩
  rw [BlockingThreads.pending, BlockingThreads.pending, hproducer, hinner]

theorem BlockingThreads.wait_kept {waiter : Waiter} {again : Bool}
    (hstep : s.wait waiter again = some s') : ProducerKept s s' := by
  rw [BlockingThreads.wait] at hstep
  split at hstep
  · obtain ⟨sema, -, rfl⟩ := Option.map_eq_some_iff.mp hstep
    exact .of_eq rfl rfl rfl
  · obtain ⟨sema, -, rfl⟩ := Option.map_eq_some_iff.mp hstep
    exact .of_eq rfl rfl rfl
  · cases hstep

theorem BlockingThreads.consumerStep_kept {acquired : Bool}
    (hstep : s.consumerStep M acquired = some s') : ProducerKept s s' := by
  cases hpc : s.consumer with
  | idle | returned _ | failed =>
    rw [BlockingThreads.consumerStep, hpc] at hstep
    cases hstep
  | wait again =>
    simp only [BlockingThreads.consumerStep, hpc] at hstep
    split at hstep
    · obtain ⟨inner, hinner, rfl⟩ := Option.map_eq_some_iff.mp hstep
      rw [ThreadStep.run] at hinner
      split at hinner
      · obtain rfl := Option.some.inj hinner
        exact .of_eq rfl rfl rfl
      · obtain rfl := Option.some.inj hinner
        exact .of_eq rfl rfl rfl
      · cases hinner
    · split at hstep
      · obtain ⟨sema, -, rfl⟩ := Option.map_eq_some_iff.mp hstep
        exact .of_eq rfl rfl rfl
      · obtain rfl := Option.some.inj hstep
        exact .of_eq rfl rfl rfl
    · obtain ⟨sema, -, rfl⟩ := Option.map_eq_some_iff.mp hstep
      exact .of_eq rfl rfl rfl
  | dequeue =>
    simp only [BlockingThreads.consumerStep, hpc] at hstep
    split at hstep
    · obtain rfl := Option.some.inj hstep
      exact .of_eq rfl rfl rfl
    · obtain rfl := Option.some.inj hstep
      exact .of_eq rfl rfl rfl
    · obtain ⟨inner, hinner, rfl⟩ := Option.map_eq_some_iff.mp hstep
      obtain ⟨x, hx, rfl⟩ := Option.map_eq_some_iff.mp hinner
      obtain ⟨hproducer, henqueued, -⟩ := Threads.consumerStep_frame hx
      exact .of_eq rfl hproducer henqueued

theorem BlockingStep.enqueue_pending {mode : AllocationMode} {element : α}
    (hstep : (BlockingStep.enqueue mode element).run M s = some s') :
    s'.pending = some element ∧ s'.inner.enqueued = s.inner.enqueued := by
  have hbegin (hmap : ((ThreadStep.enqueue mode element).run M s.inner).map
        ({ s with inner := ·, producer := .enqueue }) = some s') :
      s'.pending = some element ∧ s'.inner.enqueued = s.inner.enqueued := by
    obtain ⟨inner, hinner, rfl⟩ := Option.map_eq_some_iff.mp hmap
    rw [ThreadStep.run] at hinner
    split at hinner
    · obtain rfl := Option.some.inj hinner
      exact ⟨rfl, rfl⟩
    · obtain rfl := Option.some.inj hinner
      exact ⟨rfl, rfl⟩
    · cases hinner
  rw [BlockingStep.run] at hstep
  split at hstep
  · exact hbegin hstep
  · exact hbegin hstep
  · cases hstep

/-- The inner queue has had no room for the element. -/
def BlockingThreads.refused (s : BlockingThreads α) : Bool :=
  match s.producer, s.inner.producer with
  | .enqueue, .returned false => true
  | _, _ => false

theorem BlockingThreads.pending_of_ne (h : s.producer ≠ .enqueue) :
    s.pending = none ∧ s.refused = false := by
  rw [BlockingThreads.pending, BlockingThreads.refused]
  cases hpc : s.producer with
  | enqueue => exact absurd hpc h
  | _ => exact ⟨rfl, rfl⟩

/-- What a step of the producer does to its element. -/
inductive EnqueueProgress (s s' : BlockingThreads α) : Prop where
  | kept (hpending : s'.pending = s.pending)
      (henqueued : s'.inner.enqueued = s.inner.enqueued) (hrefused : s'.refused = false)
  | put (element : α) (hpending : s.pending = some element) (hnone : s'.pending = none)
      (henqueued : s'.inner.enqueued = s.inner.enqueued ++ [element])
      (hrefused : s'.refused = false)
  | lost (element : α) (hpending : s.pending = some element) (hnone : s'.pending = none)
      (henqueued : s'.inner.enqueued = s.inner.enqueued) (hrefused : s'.refused = true)

theorem BlockingThreads.producerStep_progress {malloc : Bool} (halive : s'.inner.producer ≠ .failed)
    (hstep : s.producerStep M malloc = some s') : EnqueueProgress s s' := by
  cases hpc : s.producer with
  | idle | returned _ =>
    rw [BlockingThreads.producerStep, hpc] at hstep
    cases hstep
  | signal =>
    rw [BlockingThreads.producerStep, hpc] at hstep
    obtain ⟨sema, -, rfl⟩ := Option.map_eq_some_iff.mp hstep
    have hpending := (BlockingThreads.pending_of_ne (s := s) (by simp [hpc])).1
    exact .kept hpending.symm rfl rfl
  | enqueue =>
    have hinside (hmap : ((ThreadStep.producer malloc).run M s.inner).map
          ({ s with inner := ·, producer := .enqueue }) = some s') : EnqueueProgress s s' := by
      obtain ⟨inner, hinner, rfl⟩ := Option.map_eq_some_iff.mp hmap
      obtain ⟨x, hx, rfl⟩ := Option.map_eq_some_iff.mp hinner
      obtain ⟨-, -, -, element, helement, houtcome⟩ := Threads.producerStep_frame hx
      have hpending : s.pending = some element := by
        rw [BlockingThreads.pending, hpc]
        exact helement
      cases houtcome with
      | kept hkept henqueued =>
        have hrefused (hreturned : x.producer = .returned false) : False := by
          rw [hreturned] at hkept
          cases hkept
        refine .kept (hpending ▸ hkept) henqueued ?_
        rw [BlockingThreads.refused]
        split
        · rename_i hreturned
          exact absurd hreturned hrefused
        · rfl
      | put hreturned henqueued =>
        refine .put element hpending ?_ henqueued ?_
        · exact congrArg Producer.element hreturned
        · simp [BlockingThreads.refused, Threads.observe, hreturned]
      | ended hended henqueued =>
        rcases hended with hreturned | hfailed
        · refine .lost element hpending ?_ henqueued ?_
          · exact congrArg Producer.element hreturned
          · simp [BlockingThreads.refused, Threads.observe, hreturned]
        · exact absurd hfailed halive
    cases hinner : s.inner.producer with
    | returned result =>
      have hpending : s.pending = none := by
        simp only [BlockingThreads.pending, hpc, hinner, Producer.element]
      cases result with
      | true =>
        simp only [BlockingThreads.producerStep, hpc, hinner] at hstep
        obtain ⟨sema, -, hs'⟩ := Option.map_eq_some_iff.mp hstep
        have hne : s'.producer ≠ .enqueue := by
          rw [← hs']
          show (if sema.signaler = .idle then BlockingProducer.returned true else .signal) ≠ _
          split <;> simp
        obtain ⟨hnone, hrefused⟩ := BlockingThreads.pending_of_ne hne
        exact .kept (hnone.trans hpending.symm) (by rw [← hs']) hrefused
      | false =>
        simp only [BlockingThreads.producerStep, hpc, hinner] at hstep
        obtain rfl := Option.some.inj hstep
        exact .kept hpending.symm rfl rfl
    | _ =>
      simp only [BlockingThreads.producerStep, hpc, hinner] at hstep
      exact hinside hstep

end Moodycamel

namespace MavlinkDim

open Moodycamel

variable {M : Mavlink} {size MAX_BLOCK_SIZE : Nat} {keep : M.Message → Bool}

/-- A channel of the parser and a queue, with the thread at each end of it.  In the server the
    thread that parses for `q_to_autopilot` has `MAVLINK_COMM_0` for itself, and the one that
    parses for `q_to_gcs` has `MAVLINK_COMM_1`.  No thread reads `bytes` and `lost`: the bytes that
    were parsed, and how many messages the queue did not take. -/
structure Pump (M : Mavlink) where
  channel : M.Status
  queue : BlockingThreads M.Message
  bytes : List UInt8
  lost : Nat

namespace Pump

variable (MAX_BLOCK_SIZE keep) in
/-- `mavlink_parse_char`, and an `enqueue` of the message if there is one to pass on.  The thread
    parses the next byte when that has returned, and does not look at the result. -/
def parseByte (c : UInt8) (p : Pump M) : Option (Pump M) :=
  match p.queue.producer with
  | .idle | .returned _ =>
    let (channel, message) := M.parseChar p.channel c
    let p := { p with channel, bytes := p.bytes ++ [c] }
    match message.filter keep with
    | some message =>
      ((BlockingStep.enqueue .canAlloc message).run MAX_BLOCK_SIZE p.queue).map
        ({ p with queue := · })
    | none => some p
  | _ => none

def start (q : ReaderWriterQueue M.Message) : Pump M := ⟨M.idle, .start q, [], 0⟩

variable (keep) in
/-- The messages that the first thread has passed on. -/
def messages (p : Pump M) : List M.Message := (M.parse M.idle p.bytes).2.filter keep

end Pump

inductive PumpStep where
  | parseByte (c : UInt8)
  | enqueue (malloc : Bool)
  | waitDequeue
  | waitDequeueTimed (timeout_usecs : Int)
  | dequeue (acquired : Bool)

variable (MAX_BLOCK_SIZE keep) in
def PumpStep.run : PumpStep → Pump M → Option (Pump M)
  | .parseByte c, p => p.parseByte MAX_BLOCK_SIZE keep c
  | .enqueue malloc, p =>
    (p.queue.producerStep MAX_BLOCK_SIZE malloc).map fun queue =>
      { p with queue, lost := p.lost + if queue.refused then 1 else 0 }
  | .waitDequeue, p => (p.queue.wait (.wait (-1)) true).map ({ p with queue := · })
  | .waitDequeueTimed timeout_usecs, p =>
    (p.queue.wait (.wait timeout_usecs) false).map ({ p with queue := · })
  | .dequeue acquired, p =>
    (p.queue.consumerStep MAX_BLOCK_SIZE acquired).map ({ p with queue := · })

/-! ### The invariant -/

variable (keep) in
structure PumpOk (size : Nat) (p : Pump M) : Prop where
  queue : BlockingOk size p.queue
  channel : p.channel = (M.parse M.idle p.bytes).1
  enqueued : (p.queue.inner.enqueued ++ p.queue.pending.toList).Sublist (p.messages keep)
  length : (p.messages keep).length =
    p.queue.inner.enqueued.length + p.queue.pending.toList.length + p.lost

theorem Mavlink.parse_snoc (s : M.Status) (l : List UInt8) (c : UInt8) :
    M.parse s (l ++ [c]) = ((M.parseChar (M.parse s l).1 c).1,
      (M.parse s l).2 ++ (M.parseChar (M.parse s l).1 c).2.toList) := by
  rw [M.parse_append]
  simp [Mavlink.parse]

variable (keep) in
theorem Pump.messages_snoc (p : Pump M) (c : UInt8) :
    (M.parse M.idle (p.bytes ++ [c])).2.filter keep =
      p.messages keep ++ ((M.parseChar (M.parse M.idle p.bytes).1 c).2.filter keep).toList := by
  rw [M.parse_snoc, List.filter_append, Option.toList_filter]
  rfl

namespace PumpOk

variable {p p' : Pump M}

theorem start {k : Nat} {malloc : Nat → Bool} {q : ReaderWriterQueue M.Message}
    (hM : MAX_BLOCK_SIZE = 2 ^ (k + 1)) (hpos : 0 < size) (hsize : size < 2 ^ 63)
    (hq : ReaderWriterQueue.construct MAX_BLOCK_SIZE malloc size = some q) :
    PumpOk keep size (Pump.start q : Pump M) :=
  ⟨.start hM hpos hsize hq, rfl, List.Sublist.refl _, rfl⟩

theorem parseByte (h : PumpOk keep size p) {c : UInt8}
    (hstep : p.parseByte MAX_BLOCK_SIZE keep c = some p') : PumpOk keep size p' := by
  have hquiet (hpc : p.queue.producer ≠ .enqueue)
      (hparse : (match (M.parseChar p.channel c).2.filter keep with
        | some message => ((BlockingStep.enqueue .canAlloc message).run MAX_BLOCK_SIZE
            p.queue).map fun queue =>
              { p with channel := (M.parseChar p.channel c).1, bytes := p.bytes ++ [c], queue }
        | none => some { p with channel := (M.parseChar p.channel c).1, bytes := p.bytes ++ [c] }) =
          some p') : PumpOk keep size p' := by
    obtain ⟨hqueue, hchannel, henqueued, hlength⟩ := h
    have hnone := (BlockingThreads.pending_of_ne hpc).1
    simp only [hnone, Option.toList_none, List.append_nil, List.length_nil, Nat.add_zero]
      at henqueued hlength
    have hmessages := p.messages_snoc keep c
    have hchannel' : (M.parseChar p.channel c).1 = (M.parse M.idle (p.bytes ++ [c])).1 := by
      rw [hchannel, M.parse_snoc]
    rw [← hchannel] at hmessages
    cases hmessage : (M.parseChar p.channel c).2.filter keep with
    | none =>
      rw [hmessage] at hparse
      rw [hmessage, Option.toList_none, List.append_nil] at hmessages
      obtain rfl := Option.some.inj hparse
      refine ⟨hqueue, hchannel', ?_, ?_⟩
      · rw [hnone, Pump.messages, hmessages, Option.toList_none, List.append_nil]
        exact henqueued
      · rw [hnone, Pump.messages, hmessages]
        exact hlength
    | some message =>
      rw [hmessage] at hparse
      rw [hmessage, Option.toList_some] at hmessages
      obtain ⟨queue, hrun, rfl⟩ := Option.map_eq_some_iff.mp hparse
      obtain ⟨hpending, hsame⟩ := BlockingStep.enqueue_pending hrun
      refine ⟨hqueue.run hrun, hchannel', ?_, ?_⟩
      · rw [hpending, hsame, Pump.messages, hmessages]
        exact henqueued.append (List.Sublist.refl _)
      · rw [hpending, hsame, Pump.messages, hmessages, List.length_append, hlength]
        simp only [Option.toList_some, List.length_singleton]
        omega
  rw [Pump.parseByte] at hstep
  split at hstep
  · rename_i hpc
    exact hquiet (by simp [hpc]) hstep
  · rename_i hpc
    exact hquiet (by simp [hpc]) hstep
  · cases hstep

/-- A step of the thread in its enqueue. -/
theorem enqueue (h : PumpOk keep size p) {malloc : Bool} {queue : BlockingThreads M.Message}
    (hstep : p.queue.producerStep MAX_BLOCK_SIZE malloc = some queue) :
    PumpOk keep size { p with queue, lost := p.lost + if queue.refused then 1 else 0 } := by
  obtain ⟨hqueue, hchannel, henqueued, hlength⟩ := h
  have hrun : (BlockingStep.producer malloc).run MAX_BLOCK_SIZE p.queue = some queue := hstep
  have hok := hqueue.run hrun
  refine ⟨hok, hchannel, ?_, ?_⟩
  · cases BlockingThreads.producerStep_progress hok.inner.not_failed.1 hstep with
    | kept hpending hsame _ => rwa [hpending, hsame]
    | put message hpending hnone hput _ =>
      rw [hpending] at henqueued
      rwa [hnone, hput, Option.toList_none, List.append_nil]
    | lost message hpending hnone hsame _ =>
      rw [hnone, hsame, Option.toList_none, List.append_nil]
      exact (List.sublist_append_left _ _).trans henqueued
  · cases BlockingThreads.producerStep_progress hok.inner.not_failed.1 hstep with
    | kept hpending hsame hrefused =>
      rw [hpending, hsame, hrefused]
      exact hlength
    | put message hpending hnone hput hrefused =>
      rw [hpending] at hlength
      rw [hnone, hput, hrefused, List.length_append]
      exact hlength
    | lost message hpending hnone hsame hrefused =>
      rw [hpending, Option.toList_some, List.length_singleton] at hlength
      rw [hnone, hsame, hrefused, if_pos rfl, Option.toList_none, List.length_nil]
      show _ = p.queue.inner.enqueued.length + 0 + (p.lost + 1)
      exact hlength.trans (by omega)

/-- A step of the other thread. -/
theorem of_kept (h : PumpOk keep size p) {queue : BlockingThreads M.Message}
    (hqueue : BlockingOk size queue) (hkept : ProducerKept p.queue queue) :
    PumpOk keep size { p with queue } := by
  obtain ⟨hpending, hsame⟩ := hkept
  refine ⟨hqueue, h.channel, ?_, ?_⟩
  · rw [hpending, hsame]
    exact h.enqueued
  · rw [hpending, hsame]
    exact h.length

theorem run (h : PumpOk keep size p) (step : PumpStep)
    (hstep : step.run MAX_BLOCK_SIZE keep p = some p') : PumpOk keep size p' := by
  cases step with
  | parseByte c => exact h.parseByte hstep
  | enqueue malloc =>
    obtain ⟨queue, hqueue, rfl⟩ := Option.map_eq_some_iff.mp hstep
    exact h.enqueue hqueue
  | waitDequeue =>
    obtain ⟨queue, hqueue, rfl⟩ := Option.map_eq_some_iff.mp hstep
    have hrun : BlockingStep.waitDequeue.run MAX_BLOCK_SIZE p.queue = some queue := hqueue
    exact h.of_kept (h.queue.run hrun) (BlockingThreads.wait_kept hqueue)
  | waitDequeueTimed timeout_usecs =>
    obtain ⟨queue, hqueue, rfl⟩ := Option.map_eq_some_iff.mp hstep
    have hrun : (BlockingStep.waitDequeueTimed timeout_usecs).run MAX_BLOCK_SIZE p.queue =
      some queue := hqueue
    exact h.of_kept (h.queue.run hrun) (BlockingThreads.wait_kept hqueue)
  | dequeue acquired =>
    obtain ⟨queue, hqueue, rfl⟩ := Option.map_eq_some_iff.mp hstep
    have hrun : (BlockingStep.consumer acquired).run MAX_BLOCK_SIZE p.queue = some queue := hqueue
    exact h.of_kept (h.queue.run hrun) (BlockingThreads.consumerStep_kept hqueue)

end PumpOk

/-- What the second thread has got are the first of the elements that went into the queue; these,
    with the one on its way, are messages of the parser in their order, and all of them but
    those that the queue did not take. -/
structure Pump.InOrder (keep : M.Message → Bool) (p : Pump M) : Prop where
  taken : p.queue.results.filterMap id <+: p.queue.inner.enqueued
  passed : (p.queue.inner.enqueued ++ p.queue.pending.toList).Sublist
    ((M.parse M.idle p.bytes).2.filter keep)
  lost : ((M.parse M.idle p.bytes).2.filter keep).length =
    (p.queue.inner.enqueued ++ p.queue.pending.toList).length + p.lost
  all : p.lost = 0 → p.queue.inner.enqueued ++ p.queue.pending.toList =
    (M.parse M.idle p.bytes).2.filter keep

theorem PumpOk.inOrder {p : Pump M} (h : PumpOk keep size p) : p.InOrder keep := by
  have hlength : (p.messages keep).length =
      (p.queue.inner.enqueued ++ p.queue.pending.toList).length + p.lost := by
    rw [List.length_append]
    exact h.length
  refine ⟨h.queue.taken, h.enqueued, hlength, ?_⟩
  intro hlost
  apply h.enqueued.eq_of_length
  rw [hlength, hlost, Nat.add_zero]

/-! ### Runs -/

section

variable {k : Nat} {malloc : Nat → Bool} {q : ReaderWriterQueue M.Message}

end

end MavlinkDim
