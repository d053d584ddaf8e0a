import MavlinkDim.BlockingQueue

/-!
# Runs of the blocking queue

Between its own calls of the inner queue, a thread knows how many signals there were:
each is for an element that is in the queue until the wait that it was granted to has
taken one out.  So the assertions of the consumer hold, and the operations are those of
a list.
-/

namespace Moodycamel

variable {α : Type*} {M size : Nat}

/-! ### What a call of the inner queue changes -/

/-- The element of a call that has not put it into the queue yet. -/
def Producer.element : Producer α → Option α
  | .findRoom _ element | .construct element _ | .setTail element _ | .testNext _ element
  | .enterNext element | .constructNext element _ | .setNextTail element _ | .link element _
  | .setTailBlock element _ => some element
  | .idle | .returned _ | .failed => none

/-- How a step of a call with an element goes on: the call keeps it, puts it into the queue and
    returns, or ends without. -/
inductive EnqueueOutcome (element : α) (s s' : Threads α) : Prop where
  | kept (hpc : s'.producer.element = some element) (henqueued : s'.enqueued = s.enqueued)
  | put (hpc : s'.producer = .returned true) (henqueued : s'.enqueued = s.enqueued ++ [element])
  | ended (hpc : s'.producer = .returned false ∨ s'.producer = .failed)
      (henqueued : s'.enqueued = s.enqueued)

theorem EnqueueOutcome.enqueued {element : α} {s s' : Threads α}
    (h : EnqueueOutcome element s s') :
    (s'.producer = .returned true ∧ ∃ element, s'.enqueued = s.enqueued ++ [element]) ∨
      (s'.producer ≠ .returned true ∧ s'.enqueued = s.enqueued) := by
  cases h with
  | kept hpc henqueued =>
    refine Or.inr ⟨?_, henqueued⟩
    intro hreturned
    rw [hreturned] at hpc
    cases hpc
  | put hpc henqueued => exact Or.inl ⟨hpc, element, henqueued⟩
  | ended hpc henqueued =>
    refine Or.inr ⟨?_, henqueued⟩
    rcases hpc with hpc | hpc <;> simp [hpc]

theorem Threads.producerStep_frame {s s' : Threads α} {malloc : Bool}
    (hstep : s.producerStep M malloc = some s') :
    s'.consumer = s.consumer ∧ s'.dequeued = s.dequeued ∧ s'.consumerSaw = s.consumerSaw ∧
      ∃ element, s.producer.element = some element ∧ EnqueueOutcome element s s' := by
  cases hpc : s.producer with
  | idle | returned _ | failed =>
    rw [Threads.producerStep, hpc] at hstep
    cases hstep
  | setTail element _ | setTailBlock element _ =>
    simp only [Threads.producerStep, hpc, Option.some.injEq] at hstep
    subst hstep
    exact ⟨rfl, rfl, rfl, element, rfl, .put rfl rfl⟩
  | construct element _ | constructNext element _ | setNextTail element _ | link element _ =>
    simp only [Threads.producerStep, hpc, Option.some.injEq] at hstep
    subst hstep
    exact ⟨rfl, rfl, rfl, element, rfl, .kept rfl rfl⟩
  | findRoom mode element =>
    simp only [Threads.producerStep, hpc] at hstep
    split at hstep
    · obtain rfl := Option.some.inj hstep
      exact ⟨rfl, rfl, rfl, element, rfl, .kept rfl rfl⟩
    · split at hstep
      · obtain rfl := Option.some.inj hstep
        exact ⟨rfl, rfl, rfl, element, rfl, .kept rfl rfl⟩
      · obtain rfl := Option.some.inj hstep
        exact ⟨rfl, rfl, rfl, element, rfl, .kept rfl rfl⟩
  | enterNext element =>
    simp only [Threads.producerStep, hpc] at hstep
    split at hstep
    · obtain rfl := Option.some.inj hstep
      exact ⟨rfl, rfl, rfl, element, rfl, .kept rfl rfl⟩
    · obtain rfl := Option.some.inj hstep
      exact ⟨rfl, rfl, rfl, element, rfl, .ended (Or.inr rfl) rfl⟩
  | testNext mode element =>
    simp only [Threads.producerStep, hpc] at hstep
    split at hstep
    · obtain rfl := Option.some.inj hstep
      exact ⟨rfl, rfl, rfl, element, rfl, .kept rfl rfl⟩
    · cases mode with
      | cannotAlloc =>
        obtain rfl := Option.some.inj hstep
        exact ⟨rfl, rfl, rfl, element, rfl, .ended (Or.inl rfl) rfl⟩
      | canAlloc =>
        cases malloc with
        | true =>
          obtain rfl := Option.some.inj hstep
          exact ⟨rfl, rfl, rfl, element, rfl, .kept rfl rfl⟩
        | false =>
          obtain rfl := Option.some.inj hstep
          exact ⟨rfl, rfl, rfl, element, rfl, .ended (Or.inl rfl) rfl⟩

theorem Threads.consumerStep_frame {s s' : Threads α} (hstep : s.consumerStep = some s') :
    s'.producer = s.producer ∧ s'.enqueued = s.enqueued ∧ s'.consumerSaw = s.consumerSaw ∧
      ((∃ element, s'.consumer = .returned (some element) ∧
          s'.dequeued = s.dequeued ++ [element]) ∨
        ((∀ element, s'.consumer ≠ .returned (some element)) ∧ s'.dequeued = s.dequeued)) := by
  cases hpc : s.consumer with
  | idle | returned _ | failed =>
    rw [Threads.consumerStep, hpc] at hstep
    cases hstep
  | setFront element =>
    simp only [Threads.consumerStep, hpc, Option.some.injEq] at hstep
    subst hstep
    exact ⟨rfl, rfl, rfl, Or.inl ⟨element, rfl, rfl⟩⟩
  | loadNext | setFrontBlock _ =>
    simp only [Threads.consumerStep, hpc, Option.some.injEq] at hstep
    subst hstep
    exact ⟨rfl, rfl, rfl, Or.inr ⟨by simp, rfl⟩⟩
  | findElement =>
    simp only [Threads.consumerStep, hpc] at hstep
    split at hstep
    · obtain rfl := Option.some.inj hstep
      exact ⟨rfl, rfl, rfl, Or.inr ⟨by simp, rfl⟩⟩
    · split at hstep
      · obtain rfl := Option.some.inj hstep
        exact ⟨rfl, rfl, rfl, Or.inr ⟨by simp, rfl⟩⟩
      · obtain rfl := Option.some.inj hstep
        exact ⟨rfl, rfl, rfl, Or.inr ⟨by simp, rfl⟩⟩
  | take | testTailBlock | testAgain | enterNext _ =>
    simp only [Threads.consumerStep, hpc] at hstep
    split at hstep
    · obtain rfl := Option.some.inj hstep
      exact ⟨rfl, rfl, rfl, Or.inr ⟨by simp, rfl⟩⟩
    · obtain rfl := Option.some.inj hstep
      exact ⟨rfl, rfl, rfl, Or.inr ⟨by simp, rfl⟩⟩

/-! ### The invariant -/

/-- The elements in the queue for which there was no signal yet. -/
def BlockingProducer.unsignaled : BlockingProducer → Producer α → Nat
  | .enqueue, .returned true => 1
  | _, _ => 0

theorem BlockingProducer.unsignaled_enqueue {producer : Producer α}
    (h : producer ≠ .returned true) : BlockingProducer.enqueue.unsignaled producer = 0 := by
  cases producer with
  | returned result =>
    cases result with
    | true => exact absurd rfl h
    | false => rfl
  | _ => rfl

/-- The signals granted to the consumer for which it has taken no element yet. -/
def BlockingConsumer.untaken : BlockingConsumer α → Waiter → Consumer α → Nat
  | .wait _, .returned true, _ => 1
  | .dequeue, _, .returned (some _) => 0
  | .dequeue, _, _ => 1
  | _, _, _ => 0

theorem BlockingConsumer.untaken_dequeue {waiter : Waiter} {consumer : Consumer α}
    (h : ∀ element, consumer ≠ .returned (some element)) :
    BlockingConsumer.dequeue.untaken waiter consumer = 1 := by
  cases consumer with
  | returned result =>
    cases result with
    | some element => exact absurd rfl (h element)
    | none => rfl
  | _ => rfl

namespace BlockingThreads

/-- The result of an operation of the consumer that has taken effect, before the call returns. -/
def unreturned (s : BlockingThreads α) : List (Option α) :=
  match s.consumer, s.sema.waiter with
  | .wait _, .returned true => [s.inner.enqueued[s.sema.grants - 1]?]
  | .wait false, .returned false => [none]
  | .dequeue, _ => [s.inner.enqueued[s.sema.grants - 1]?]
  | _, _ => []

/-- The list that the queue stands for. -/
def list (s : BlockingThreads α) : List α :=
  (s.inner.enqueued.take s.sema.signals).drop s.sema.grants

end BlockingThreads

structure BlockingOk (size : Nat) (s : BlockingThreads α) : Prop where
  inner : Consistent size s.inner
  sema : SemaOk s.sema
  enqueued : s.inner.enqueued.length = s.sema.signals + s.producer.unsignaled s.inner.producer
  dequeued : s.sema.grants =
    s.inner.dequeued.length + s.consumer.untaken s.sema.waiter s.inner.consumer
  saw : s.consumer = .dequeue → (∀ element, s.inner.consumer ≠ .returned (some element)) →
    ∀ n ∈ s.inner.consumerSaw, 0 < n
  last : s.consumer = .dequeue → ∀ element, s.inner.consumer = .returned (some element) →
    s.inner.dequeued.getLast? = some element
  alive : s.consumer ≠ .failed
  signaler : s.producer ≠ .signal → s.sema.signaler = .idle
  puts : s.history.filterMap QueueOp.element = s.inner.enqueued.take s.sema.signals
  history : QueueOp.Replays s.history [] s.list
  results : s.history.filterMap QueueOp.result = s.results ++ s.unreturned

variable {s s' : BlockingThreads α}

namespace BlockingOk

theorem start {M k : Nat} (hM : M = 2 ^ (k + 1)) (hpos : 0 < size) (hsize : size < 2 ^ 63)
    {malloc : Nat → Bool} {q : ReaderWriterQueue α}
    (hq : ReaderWriterQueue.construct M malloc size = some q) :
    BlockingOk size (BlockingThreads.start q) := by
  refine ⟨?_, SemaOk.start, rfl, rfl, nofun, nofun, nofun, fun _ => rfl, rfl, .nil _, rfl⟩
  refine ⟨Inv.of_construct hM hpos hsize hq, ?_, ?_⟩
  · exact List.mem_singleton_self _
  · exact List.mem_singleton_self _

theorem signals_le (h : BlockingOk size s) : s.sema.signals ≤ s.inner.enqueued.length := by
  rw [h.enqueued]
  exact Nat.le_add_right _ _

theorem grants_le (h : BlockingOk size s) : s.sema.grants ≤ s.sema.signals := h.sema.grants_le

/-- A call of the inner queue changes nothing that the operations or their results depend on. -/
theorem of_inner (h : BlockingOk size s) {inner : Threads α} {producer : BlockingProducer}
    {consumer : BlockingConsumer α} (hinner : Consistent size inner)
    (hs' : s' = { s with inner, producer, consumer })
    (hgrown : s.inner.enqueued <+: inner.enqueued)
    (henqueued : inner.enqueued.length = s.sema.signals + producer.unsignaled inner.producer)
    (hdequeued : s.sema.grants =
      inner.dequeued.length + consumer.untaken s.sema.waiter inner.consumer)
    (hsaw : consumer = .dequeue → (∀ element, inner.consumer ≠ .returned (some element)) →
      ∀ n ∈ inner.consumerSaw, 0 < n)
    (hlast : consumer = .dequeue → ∀ element, inner.consumer = .returned (some element) →
      inner.dequeued.getLast? = some element)
    (halive : consumer ≠ .failed) (hsignaler : producer ≠ .signal → s.sema.signaler = .idle)
    (hresults : ({ s with consumer } : BlockingThreads α).unreturned = s.unreturned) :
    BlockingOk size s' := by
  subst hs'
  obtain ⟨added, hadded⟩ := hgrown
  have htake : inner.enqueued.take s.sema.signals = s.inner.enqueued.take s.sema.signals := by
    rw [← hadded, List.take_append_of_le_length h.signals_le]
  refine ⟨hinner, h.sema, henqueued, hdequeued, hsaw, hlast, halive, hsignaler, ?_, ?_, ?_⟩
  · rw [htake]
    exact h.puts
  · rw [BlockingThreads.list, htake]
    exact h.history
  · rw [h.results, ← hresults]
    have hget (hpos : 0 < s.sema.grants) :
        s.inner.enqueued[s.sema.grants - 1]? = inner.enqueued[s.sema.grants - 1]? := by
      have hle := Nat.le_trans h.grants_le h.signals_le
      rw [← hadded, List.getElem?_append_left (by omega)]
    congr 1
    cases consumer with
    | idle | returned _ | failed => rfl
    | wait again =>
      cases hw : s.sema.waiter with
      | returned result =>
        cases result with
        | true =>
          rw [hw] at hdequeued
          simp only [BlockingThreads.unreturned, hw]
          rw [hget (by rw [hdequeued]; exact Nat.succ_pos _)]
        | false => cases again <;> simp only [BlockingThreads.unreturned, hw]
      | _ => simp only [BlockingThreads.unreturned, hw]
    | dequeue =>
      simp only [BlockingThreads.unreturned]
      rw [hget]
      cases hpc : inner.consumer with
      | returned result =>
        cases result with
        | some element =>
          have hlen := List.length_pos_of_mem (List.mem_of_getLast? (hlast rfl element hpc))
          omega
        | none =>
          rw [hpc] at hdequeued
          rw [hdequeued]
          exact Nat.succ_pos _
      | _ =>
        rw [hpc] at hdequeued
        rw [hdequeued]
        exact Nat.succ_pos _

/-- The consumer finds the queue not empty as long as it has been granted a signal for which it
    has taken nothing. -/
theorem occupancy_pos (h : BlockingOk size s) {enqueued : List α}
    (hgrown : s.inner.enqueued <+: enqueued) (huntaken : s.inner.dequeued.length < s.sema.grants) :
    0 < enqueued.length - s.inner.dequeued.length := by
  have hle := Nat.le_trans h.grants_le h.signals_le
  have hlen := hgrown.length_le
  omega

/-- A step of the producer in the inner queue. -/
theorem of_producer (h : BlockingOk size s) {inner : Threads α}
    (hinner : Consistent size inner) (hconsumer : inner.consumer = s.inner.consumer)
    (hdequeued : inner.dequeued = s.inner.dequeued)
    (hsaw : inner.consumerSaw = s.inner.consumerSaw ++ [inner.occupancy])
    (hunsignaled : s.producer.unsignaled s.inner.producer = 0)
    (hsignaler : s.producer ≠ .signal)
    (henqueued : (inner.producer = .returned true ∧
        ∃ element, inner.enqueued = s.inner.enqueued ++ [element]) ∨
      (inner.producer ≠ .returned true ∧ inner.enqueued = s.inner.enqueued))
    (hs' : s' = { s with inner, producer := .enqueue }) : BlockingOk size s' := by
  have hlength := h.enqueued
  have htaken := h.dequeued
  rw [hunsignaled] at hlength
  have hgrown : s.inner.enqueued <+: inner.enqueued := by
    rcases henqueued with ⟨-, element, heq⟩ | ⟨-, heq⟩
    · rw [heq]
      exact List.prefix_append _ _
    · rw [heq]
  refine h.of_inner hinner hs' hgrown ?_ ?_ ?_ ?_ h.alive
    (fun _ => h.signaler hsignaler) rfl
  · rcases henqueued with ⟨hpc, element, heq⟩ | ⟨hpc, heq⟩
    · rw [heq, hpc, List.length_append, hlength]
      rfl
    · rw [heq, BlockingProducer.unsignaled_enqueue hpc, hlength]
  · rw [hconsumer, hdequeued]
    exact htaken
  · intro hpc hnone n hn
    rw [hconsumer] at hnone
    rw [hsaw] at hn
    rcases List.mem_append.mp hn with hn | hn
    · exact h.saw hpc hnone n hn
    · rw [List.mem_singleton.mp hn, Threads.occupancy, hdequeued]
      refine h.occupancy_pos hgrown ?_
      rw [hpc, BlockingConsumer.untaken_dequeue hnone] at htaken
      omega
  · rw [hconsumer, hdequeued]
    exact h.last

theorem enqueueCall (h : BlockingOk size s) {mode : AllocationMode} {element : α}
    (hstep : (BlockingStep.enqueue mode element).run M s = some s') : BlockingOk size s' := by
  have hbegin (hunsignaled : s.producer.unsignaled s.inner.producer = 0)
      (hsignaler : s.producer ≠ .signal)
      (hmap : ((ThreadStep.enqueue mode element).run M s.inner).map
        ({ s with inner := ·, producer := .enqueue }) = some s') : BlockingOk size s' := by
    obtain ⟨inner, hinner, rfl⟩ := Option.map_eq_some_iff.mp hmap
    have hok := h.inner.run _ hinner
    cases hpc : s.inner.producer with
    | idle | returned _ =>
      rw [ThreadStep.run, hpc] at hinner
      obtain rfl := Option.some.inj hinner
      refine h.of_producer hok rfl rfl rfl hunsignaled hsignaler (Or.inr ⟨?_, rfl⟩) rfl
      simp [Threads.observe]
    | _ =>
      rw [ThreadStep.run, hpc] at hinner
      cases hinner
  cases hpc : s.producer with
  | idle | returned _ =>
    rw [BlockingStep.run, hpc] at hstep
    exact hbegin (by rw [hpc]; rfl) (by simp [hpc]) hstep
  | _ =>
    rw [BlockingStep.run, hpc] at hstep
    cases hstep

/-- A step of the producer at the semaphore. -/
theorem of_signal (h : BlockingOk size s) {sema : Sema} {producer : BlockingProducer}
    {history : List (QueueOp α)} (hsema : SemaOk sema) (hgrants : sema.grants = s.sema.grants)
    (hwaiter : sema.waiter = s.sema.waiter)
    (henqueued : s.inner.enqueued.length = sema.signals + producer.unsignaled s.inner.producer)
    (hsignaler : producer ≠ .signal → sema.signaler = .idle)
    (hputs : history.filterMap QueueOp.element = s.inner.enqueued.take sema.signals)
    (hhistory : QueueOp.Replays history []
      ((s.inner.enqueued.take sema.signals).drop s.sema.grants))
    (hresults : history.filterMap QueueOp.result = s.history.filterMap QueueOp.result)
    (hs' : s' = { s with sema, producer, history }) : BlockingOk size s' := by
  subst hs'
  refine ⟨h.inner, hsema, henqueued, ?_, h.saw, h.last, h.alive, hsignaler, hputs, ?_, ?_⟩
  · rw [hgrants, hwaiter]
    exact h.dequeued
  · rw [BlockingThreads.list, hgrants]
    exact hhistory
  · rw [hresults, h.results]
    simp only [BlockingThreads.unreturned, hgrants, hwaiter]

theorem signal (h : BlockingOk size s) (hpc : s.producer = .enqueue)
    (hinner : s.inner.producer = .returned true) {sema : Sema} (hsema : s.sema.signal = some sema)
    {producer : BlockingProducer} (hproducer : producer.unsignaled s.inner.producer = 0)
    (hsignaler : producer ≠ .signal → sema.signaler = .idle)
    (hs' : s' = { s with sema, producer, history := s.history ++ s.signaled }) :
    BlockingOk size s' := by
  obtain ⟨hsignals, hgrants, hwaiter⟩ := Sema.signal_counts hsema
  have henqueued := h.enqueued
  rw [hpc, hinner, BlockingProducer.unsignaled] at henqueued
  have hlt : s.sema.signals < s.inner.enqueued.length := by omega
  have hsignaled : s.signaled = [.put s.inner.enqueued[s.sema.signals]] := by
    rw [BlockingThreads.signaled, List.getElem?_eq_getElem hlt]
    rfl
  have htake : s.inner.enqueued.take sema.signals =
      s.inner.enqueued.take s.sema.signals ++ [s.inner.enqueued[s.sema.signals]] := by
    rw [hsignals, List.take_succ_eq_append_getElem hlt]
  have hlist : (s.inner.enqueued.take sema.signals).drop s.sema.grants =
      s.list ++ [s.inner.enqueued[s.sema.signals]] := by
    rw [htake, List.drop_append_of_le_length]
    · rfl
    · rw [List.length_take, Nat.min_eq_left hlt.le]
      exact h.grants_le
  refine h.of_signal (h.sema.signal hsema) hgrants hwaiter ?_ hsignaler ?_ ?_ ?_ hs'
  · rw [hproducer, hsignals, henqueued]
  · rw [hsignaled, List.filterMap_append, h.puts, htake]
    rfl
  · rw [hlist, hsignaled]
    exact h.history.snoc (.put _ _)
  · rw [hsignaled, List.filterMap_append]
    exact List.append_nil _

theorem producerStep (h : BlockingOk size s) {malloc : Bool}
    (hstep : s.producerStep M malloc = some s') : BlockingOk size s' := by
  have henqueued := h.enqueued
  cases hpc : s.producer with
  | idle | returned _ =>
    rw [BlockingThreads.producerStep, hpc] at hstep
    cases hstep
  | signal =>
    simp only [BlockingThreads.producerStep, hpc] at hstep
    obtain ⟨sema, hsema, rfl⟩ := Option.map_eq_some_iff.mp hstep
    obtain ⟨hsignals, hgrants, hwaiter⟩ := Sema.post_counts hsema
    rw [hpc] at henqueued
    refine h.of_signal (h.sema.post hsema) hgrants hwaiter ?_ ?_ ?_ ?_ rfl rfl
    · rw [hsignals]
      exact henqueued
    · intro _
      exact Sema.post_idle hsema
    · rw [hsignals]
      exact h.puts
    · rw [hsignals]
      exact h.history
  | enqueue =>
    have hinside (hpending : s.inner.producer ≠ .returned true)
        (hmap : ((ThreadStep.producer malloc).run M s.inner).map
          ({ s with inner := ·, producer := .enqueue }) = some s') : BlockingOk size s' := by
      obtain ⟨inner, hinner, rfl⟩ := Option.map_eq_some_iff.mp hmap
      have hok := h.inner.run _ hinner
      obtain ⟨x, hx, rfl⟩ := Option.map_eq_some_iff.mp hinner
      obtain ⟨hconsumer, hdequeued, hsaw, element, -, houtcome⟩ := Threads.producerStep_frame hx
      refine h.of_producer hok hconsumer hdequeued ?_ ?_ ?_ houtcome.enqueued rfl
      · exact congrArg (· ++ [x.occupancy]) hsaw
      · rw [hpc]
        exact BlockingProducer.unsignaled_enqueue hpending
      · rw [hpc]
        nofun
    cases hinner : s.inner.producer with
    | returned result =>
      cases result with
      | true =>
        simp only [BlockingThreads.producerStep, hpc, hinner] at hstep
        obtain ⟨sema, hsema, rfl⟩ := Option.map_eq_some_iff.mp hstep
        refine h.signal hpc hinner hsema ?_ ?_ rfl
        · split <;> rfl
        · intro hne
          by_contra hbusy
          rw [if_neg hbusy] at hne
          exact hne rfl
      | false =>
        simp only [BlockingThreads.producerStep, hpc, hinner] at hstep
        obtain rfl := Option.some.inj hstep
        rw [hpc, hinner] at henqueued
        have hidle := h.signaler (by rw [hpc]; nofun)
        exact h.of_signal h.sema rfl rfl henqueued (fun _ => hidle) h.puts h.history rfl rfl
    | _ =>
      simp only [BlockingThreads.producerStep, hpc, hinner] at hstep
      exact hinside (by rw [hinner]; nofun) hstep

/-- The consumer begins to wait. -/
theorem of_call (h : BlockingOk size s) {waiter : Waiter} {again : Bool}
    (hwaiter : waiter = .tryWait ∨ ∃ timeout_usecs, waiter = .wait timeout_usecs)
    {sema : Sema} (hsema : s.sema.call waiter = some sema)
    (hnone : s.consumer.untaken s.sema.waiter s.inner.consumer = 0)
    (hunreturned : s.unreturned = []) (hs' : s' = { s with sema, consumer := .wait again }) :
    BlockingOk size s' := by
  obtain ⟨hok, rfl⟩ := h.sema.call hwaiter hsema
  have hdequeued := h.dequeued
  have hresults := h.results
  rw [hnone] at hdequeued
  rw [hunreturned] at hresults
  subst hs'
  refine ⟨h.inner, hok, h.enqueued, ?_, nofun, nofun, nofun, h.signaler, h.puts, h.history, ?_⟩
  · rw [hdequeued]
    rcases hwaiter with rfl | ⟨timeout_usecs, rfl⟩
    · rfl
    · rfl
  · rw [hresults]
    rcases hwaiter with rfl | ⟨timeout_usecs, rfl⟩
    · cases again <;> rfl
    · cases again <;> rfl

theorem waitCall (h : BlockingOk size s) {waiter : Waiter} {again : Bool}
    (hwaiter : waiter = .tryWait ∨ ∃ timeout_usecs, waiter = .wait timeout_usecs)
    (hstep : s.wait waiter again = some s') : BlockingOk size s' := by
  have hbegin (hnone : s.consumer.untaken s.sema.waiter s.inner.consumer = 0)
      (hunreturned : s.unreturned = [])
      (hmap : (s.sema.call waiter).map ({ s with sema := ·, consumer := .wait again }) =
        some s') : BlockingOk size s' := by
    obtain ⟨sema, hsema, rfl⟩ := Option.map_eq_some_iff.mp hmap
    exact h.of_call hwaiter hsema hnone hunreturned rfl
  cases hpc : s.consumer with
  | idle | returned _ =>
    simp only [BlockingThreads.wait, hpc] at hstep
    refine hbegin (by rw [hpc]; rfl) ?_ hstep
    simp only [BlockingThreads.unreturned, hpc]
  | _ =>
    rw [BlockingThreads.wait, hpc] at hstep
    cases hstep

/-- A step of the consumer at the semaphore. -/
theorem waitStep (h : BlockingOk size s) {again : Bool} (hpc : s.consumer = .wait again)
    (hwaiter : ∀ result, s.sema.waiter ≠ .returned result) {acquired : Bool} {sema : Sema}
    (hsema : s.sema.waitStep acquired = some sema)
    (hs' : s' = { s with sema, history := s.history ++ s.waited again sema }) :
    BlockingOk size s' := by
  obtain ⟨hok, hsignaler, heq, hwaited⟩ := h.sema.waitStep hsema
  have hdequeued := h.dequeued
  have hresults := h.results
  have hgrants := h.grants_le
  have hsignals := h.signals_le
  have huntaken : s.consumer.untaken s.sema.waiter s.inner.consumer = 0 := by
    rw [hpc]
    cases hw : s.sema.waiter with
    | returned result => exact absurd hw (hwaiter result)
    | _ => rfl
  have hunreturned : s.unreturned = [] := by
    cases hw : s.sema.waiter with
    | returned result => exact absurd hw (hwaiter result)
    | _ => cases again <;> simp only [BlockingThreads.unreturned, hpc, hw]
  rw [huntaken] at hdequeued
  rw [hunreturned, List.append_nil] at hresults
  subst hs'
  rcases hwaited with ⟨hsame, hon⟩ | ⟨hmore, htrue, hlt⟩ | ⟨hsame, hfalse, hnone⟩
  · -- it goes on
    have hop : s.waited again sema = [] := by
      cases hw : sema.waiter with
      | returned result => exact absurd hw (hon result)
      | _ => simp only [BlockingThreads.waited, hw]
    refine ⟨h.inner, hok, by rw [heq]; exact h.enqueued, ?_, h.saw, h.last, h.alive, ?_, ?_, ?_,
      ?_⟩
    · rw [hsame, hpc, hdequeued]
      cases hw : sema.waiter with
      | returned result => exact absurd hw (hon result)
      | _ => rfl
    · rw [hsignaler]
      exact h.signaler
    · rw [hop, List.append_nil, heq]
      exact h.puts
    · rw [hop, List.append_nil, BlockingThreads.list, heq, hsame]
      exact h.history
    · rw [hop, List.append_nil, hresults]
      cases hw : sema.waiter with
      | returned result => exact absurd hw (hon result)
      | _ => cases again <;> simp only [BlockingThreads.unreturned, hpc, hw, List.append_nil]
  · -- it is granted a signal, for the first element of the list
    have hget : s.sema.grants < s.inner.enqueued.length := Nat.lt_of_lt_of_le hlt hsignals
    have hop : s.waited again sema = [.get (some s.inner.enqueued[s.sema.grants])] := by
      simp only [BlockingThreads.waited, htrue, List.getElem?_eq_getElem hget]
    have hlist : s.list = s.inner.enqueued[s.sema.grants] ::
        (s.inner.enqueued.take s.sema.signals).drop (s.sema.grants + 1) := by
      rw [BlockingThreads.list, List.drop_eq_getElem_cons (by rw [List.length_take]; omega),
        List.getElem_take]
    have hhistory := h.history
    rw [hlist] at hhistory
    refine ⟨h.inner, hok, by rw [heq]; exact h.enqueued, ?_, h.saw, h.last, h.alive, ?_, ?_, ?_,
      ?_⟩
    · rw [hmore, hpc, htrue, hdequeued]
      rfl
    · rw [hsignaler]
      exact h.signaler
    · rw [hop, List.filterMap_append, heq, h.puts]
      exact List.append_nil _
    · rw [hop, BlockingThreads.list, heq, hmore]
      exact hhistory.snoc (.get _ _)
    · rw [hop, List.filterMap_append, hresults]
      simp only [BlockingThreads.unreturned, hpc, htrue, hmore, Nat.add_sub_cancel,
        List.getElem?_eq_getElem hget]
      rfl
  · -- it gives up, and the list is empty
    have hlist : s.list = [] := by
      rw [BlockingThreads.list, hnone]
      exact List.drop_eq_nil_of_le (by rw [List.length_take]; exact Nat.min_le_left _ _)
    have hhistory := h.history
    rw [hlist] at hhistory
    refine ⟨h.inner, hok, by rw [heq]; exact h.enqueued, ?_, h.saw, h.last, h.alive, ?_, ?_, ?_,
      ?_⟩
    · rw [hsame, hpc, hfalse, hdequeued]
      rfl
    · rw [hsignaler]
      exact h.signaler
    · rw [List.filterMap_append, heq, h.puts]
      cases again with
      | true => simp only [BlockingThreads.waited, hfalse, if_true, List.filterMap_nil,
          List.append_nil]
      | false =>
        simp only [BlockingThreads.waited, hfalse, Bool.false_eq_true, if_false]
        exact List.append_nil _
    · rw [BlockingThreads.list, heq, hsame]
      cases again with
      | true =>
        simp only [BlockingThreads.waited, hfalse, if_true, List.append_nil]
        exact h.history
      | false =>
        simp only [BlockingThreads.waited, hfalse, Bool.false_eq_true, if_false]
        have hempty := hlist
        rw [BlockingThreads.list] at hempty
        rw [hempty]
        exact hhistory.snoc .empty
    · rw [List.filterMap_append, hresults]
      cases again with
      | true => simp only [BlockingThreads.waited, BlockingThreads.unreturned, hpc, hfalse, if_true,
          List.filterMap_nil]
      | false =>
        simp only [BlockingThreads.waited, BlockingThreads.unreturned, hpc, hfalse,
          Bool.false_eq_true, if_false]
        rfl

/-- The consumer goes from the semaphore to the inner queue. -/
theorem dequeueCall (h : BlockingOk size s) {again : Bool} (hpc : s.consumer = .wait again)
    (hw : s.sema.waiter = .returned true) {inner : Threads α}
    (hinner : ThreadStep.dequeue.run M s.inner = some inner)
    (hs' : s' = { s with inner, consumer := .dequeue }) : BlockingOk size s' := by
  have hok := h.inner.run _ hinner
  have hdequeued := h.dequeued
  rw [hpc, hw] at hdequeued
  have hbegin (heq : inner = { s.inner with consumer := .findElement, consumerSaw := [] }.observe) :
      BlockingOk size s' := by
    subst heq
    refine h.of_inner hok hs' List.prefix_rfl h.enqueued hdequeued ?_ nofun nofun h.signaler ?_
    · intro _ _ n hn
      rw [List.mem_singleton.mp hn]
      exact h.occupancy_pos List.prefix_rfl (by rw [hdequeued]; exact Nat.lt_succ_self _)
    · simp only [BlockingThreads.unreturned, hpc, hw]
  cases hc : s.inner.consumer with
  | idle | returned _ =>
    rw [ThreadStep.run, hc] at hinner
    exact hbegin (Option.some.inj hinner).symm
  | _ =>
    rw [ThreadStep.run, hc] at hinner
    cases hinner

/-- A step of the consumer in the inner queue. -/
theorem dequeueStep (h : BlockingOk size s) (hpc : s.consumer = .dequeue)
    (hnone : ∀ element, s.inner.consumer ≠ .returned (some element)) {inner : Threads α}
    (hinner : ThreadStep.consumer.run M s.inner = some inner)
    (hs' : s' = { s with inner, consumer := .dequeue }) : BlockingOk size s' := by
  have hok := h.inner.run _ hinner
  have henqueued := h.enqueued
  have hdequeued := h.dequeued
  rw [hpc, BlockingConsumer.untaken_dequeue hnone] at hdequeued
  obtain ⟨x, hx, rfl⟩ := Option.map_eq_some_iff.mp hinner
  obtain ⟨hproducer, hsame, hsaw, htaken⟩ := Threads.consumerStep_frame hx
  have hgrown : s.inner.enqueued <+: x.observe.enqueued := by
    rw [show x.observe.enqueued = s.inner.enqueued from hsame]
  refine h.of_inner hok hs' hgrown ?_ ?_ ?_ ?_ nofun h.signaler (by rw [← hpc])
  · rw [show x.observe.enqueued = s.inner.enqueued from hsame,
      show x.observe.producer = s.inner.producer from hproducer]
    exact henqueued
  · rcases htaken with ⟨element, hreturned, hmore⟩ | ⟨hon, hkept⟩
    · rw [show x.observe.consumer = .returned (some element) from hreturned,
        show x.observe.dequeued = s.inner.dequeued ++ [element] from hmore, List.length_append,
        hdequeued]
      rfl
    · rw [show x.observe.consumer = x.consumer from rfl, BlockingConsumer.untaken_dequeue hon,
        show x.observe.dequeued = s.inner.dequeued from hkept]
      exact hdequeued
  · intro _ hon n hn
    rcases htaken with ⟨element, hreturned, -⟩ | ⟨-, hkept⟩
    · exact absurd hreturned (hon element)
    · rcases List.mem_append.mp hn with hn | hn
      · rw [hsaw] at hn
        exact h.saw hpc hnone n hn
      · rw [List.mem_singleton.mp hn, Threads.occupancy, hkept]
        exact h.occupancy_pos hgrown (by rw [hdequeued]; exact Nat.lt_succ_self _)
  · intro _ element hreturned
    rcases htaken with ⟨element', hreturned', hmore⟩ | ⟨hon, -⟩
    · obtain rfl : element' = element := by
        rw [show x.observe.consumer = .returned (some element') from hreturned'] at hreturned
        simpa using hreturned
      rw [show x.observe.dequeued = s.inner.dequeued ++ [element'] from hmore]
      exact List.getLast?_concat
    · exact absurd hreturned (hon element)

/-- The call returns the element that its operation took off the list. -/
theorem returned (h : BlockingOk size s) (hpc : s.consumer = .dequeue) {element : α}
    (hinner : s.inner.consumer = .returned (some element))
    (hs' : s' = { s with consumer := .returned (some element)
                         results := s.results ++ [some element] }) : BlockingOk size s' := by
  have hdequeued := h.dequeued
  have hresults := h.results
  have hlast := h.last hpc element hinner
  obtain ⟨rest, hrest⟩ := h.inner.dequeued_first
  obtain ⟨init, hinit⟩ := List.getLast?_eq_some_iff.mp hlast
  rw [hpc, hinner] at hdequeued
  have hget : s.inner.enqueued[s.sema.grants - 1]? = some element := by
    rw [hdequeued, ← hrest, hinit]
    simp [BlockingConsumer.untaken]
  simp only [BlockingThreads.unreturned, hpc, hget] at hresults
  subst hs'
  refine ⟨h.inner, h.sema, h.enqueued, hdequeued, nofun, nofun, nofun, h.signaler, h.puts,
    h.history, ?_⟩
  rw [hresults]
  exact (List.append_nil _).symm

theorem consumerStep (h : BlockingOk size s) {acquired : Bool}
    (hstep : s.consumerStep M acquired = some s') : BlockingOk size s' := by
  cases hpc : s.consumer with
  | idle | returned _ | failed =>
    rw [BlockingThreads.consumerStep, hpc] at hstep
    cases hstep
  | wait again =>
    have hgoing (hwaiter : ∀ result, s.sema.waiter ≠ .returned result)
        (hmap : (s.sema.waitStep acquired).map
          (fun sema => { s with sema, consumer := .wait again, history :=
            s.history ++ s.waited again sema }) = some s') : BlockingOk size s' := by
      obtain ⟨sema, hsema, rfl⟩ := Option.map_eq_some_iff.mp hmap
      exact h.waitStep hpc hwaiter hsema (by rw [hpc])
    cases hw : s.sema.waiter with
    | returned result =>
      cases result with
      | true =>
        simp only [BlockingThreads.consumerStep, hpc, hw] at hstep
        obtain ⟨inner, hinner, rfl⟩ := Option.map_eq_some_iff.mp hstep
        exact h.dequeueCall hpc hw hinner rfl
      | false =>
        cases again with
        | true =>
          simp only [BlockingThreads.consumerStep, hpc, hw, if_true] at hstep
          obtain ⟨sema, hsema, rfl⟩ := Option.map_eq_some_iff.mp hstep
          refine h.of_call (Or.inr ⟨-1, rfl⟩) hsema ?_ ?_ rfl
          · rw [hpc, hw]
            rfl
          · simp only [BlockingThreads.unreturned, hpc, hw]
        | false =>
          simp only [BlockingThreads.consumerStep, hpc, hw, Bool.false_eq_true, if_false] at hstep
          obtain rfl := Option.some.inj hstep
          have hdequeued := h.dequeued
          have hresults := h.results
          rw [hpc, hw] at hdequeued
          simp only [BlockingThreads.unreturned, hpc, hw] at hresults
          refine ⟨h.inner, h.sema, h.enqueued, hdequeued, nofun, nofun, nofun, h.signaler, h.puts,
            h.history, ?_⟩
          rw [hresults]
          exact (List.append_nil _).symm
    | _ =>
      simp only [BlockingThreads.consumerStep, hpc, hw] at hstep
      exact hgoing (by rw [hw]; nofun) hstep
  | dequeue =>
    have hinside (hnone : ∀ element, s.inner.consumer ≠ .returned (some element))
        (hmap : (ThreadStep.consumer.run M s.inner).map
          ({ s with inner := ·, consumer := .dequeue }) = some s') : BlockingOk size s' := by
      obtain ⟨inner, hinner, rfl⟩ := Option.map_eq_some_iff.mp hmap
      exact h.dequeueStep hpc hnone hinner rfl
    cases hinner : s.inner.consumer with
    | returned result =>
      cases result with
      | some element =>
        simp only [BlockingThreads.consumerStep, hpc, hinner] at hstep
        obtain rfl := Option.some.inj hstep
        exact h.returned hpc hinner rfl
      | none =>
        -- the wait was granted a signal for an element that nobody else takes
        have hzero := h.inner.empty_of_returned hinner
        have hpos := h.saw hpc (by rw [hinner]; nofun) 0 hzero
        exact absurd hpos (Nat.lt_irrefl 0)
    | _ =>
      simp only [BlockingThreads.consumerStep, hpc, hinner] at hstep
      exact hinside (by rw [hinner]; nofun) hstep

/-- Each step of the threads keeps what holds of the blocking queue. -/
theorem run (h : BlockingOk size s) {step : BlockingStep α} (hstep : step.run M s = some s') :
    BlockingOk size s' := by
  cases step with
  | enqueue mode element => exact h.enqueueCall hstep
  | producer malloc => exact h.producerStep hstep
  | tryDequeue => exact h.waitCall (Or.inl rfl) hstep
  | waitDequeue => exact h.waitCall (Or.inr ⟨-1, rfl⟩) hstep
  | waitDequeueTimed timeout_usecs => exact h.waitCall (Or.inr ⟨timeout_usecs, rfl⟩) hstep
  | consumer acquired => exact h.consumerStep hstep

/-- A consumer that waits for a post gets it if there is an element that the producer is done
    with. -/
theorem wakes (h : BlockingOk size s) {again : Bool} (hpc : s.consumer = .wait again)
    (hw : s.sema.waiter = .block)
    (hproducer : s.producer = .idle ∨ ∃ result, s.producer = .returned result)
    (hlt : s.inner.dequeued.length < s.inner.enqueued.length) :
    ∃ s', s.consumerStep M true = some s' ∧ s'.sema.waiter = .returned true := by
  have henqueued := h.enqueued
  have hdequeued := h.dequeued
  have hunsignaled : s.producer.unsignaled s.inner.producer = 0 := by
    rcases hproducer with hpc | ⟨result, hpc⟩ <;> rw [hpc] <;> rfl
  have hidle : s.sema.signaler = .idle := by
    apply h.signaler
    rcases hproducer with hpc | ⟨result, hpc⟩ <;> rw [hpc] <;> nofun
  have huntaken : s.consumer.untaken s.sema.waiter s.inner.consumer = 0 := by
    rw [hpc, hw]
    rfl
  have hone : s.sema.sema.m_sema = 1 := by
    rcases h.sema.posts_pos hw (by omega) with hone | hpost
    · exact hone
    · rw [hidle] at hpost
      cases hpost
  obtain ⟨sema, hsema, hwaiter⟩ : ∃ sema, s.sema.waitStep true = some sema ∧
      sema.waiter = .returned true := by
    refine ⟨s.sema.grant { s.sema.sema with m_sema := s.sema.sema.m_sema - 1 }, ?_, rfl⟩
    simp only [Sema.waitStep, hw, if_true, hone, one_ne_zero, if_false]
  refine ⟨{ s with sema, history := s.history ++ s.waited again sema }, ?_, hwaiter⟩
  simp only [BlockingThreads.consumerStep, hpc, hw, hsema, Option.map_some]

end BlockingOk

theorem BlockingThreads.unreturned_length (s : BlockingThreads α) : s.unreturned.length ≤ 1 := by
  unfold BlockingThreads.unreturned
  split <;> simp

/-! ### The runs of a queue -/

section

variable {k : Nat} {malloc : Nat → Bool} {q : ReaderWriterQueue α}

theorem blockingOk_of_mem (hM : M = 2 ^ (k + 1)) (hpos : 0 < size) (hsize : size < 2 ^ 63)
    (hq : ReaderWriterQueue.construct M malloc size = some q) {steps : List (BlockingStep α)}
    (hs : s ∈ Runs.states (BlockingStep.run M) (BlockingThreads.start q) steps) :
    BlockingOk size s :=
  Runs.states_induction (P := BlockingOk size) (fun _ _ _ hstep h => h.run hstep)
    (BlockingOk.start hM hpos hsize hq) steps s hs

/-- In any interleaving the blocking queue is a list: the operations, each of which takes effect
    at one step of its call, lead from the empty list to the one that the queue stands for; what
    goes in are the elements of the enqueues, in their order, and what comes out is what the calls
    of the consumer return, but for the one it is in. -/
theorem blocking_queue_list (hM : M = 2 ^ (k + 1)) (hpos : 0 < size) (hsize : size < 2 ^ 63)
    (hq : ReaderWriterQueue.construct M malloc size = some q) (steps : List (BlockingStep α)) :
    ∀ s ∈ Runs.states (BlockingStep.run M) (BlockingThreads.start q) steps,
      s.consumer ≠ .failed ∧ QueueOp.Replays s.history [] s.list ∧
        s.history.filterMap QueueOp.element = s.inner.enqueued.take s.sema.signals ∧
        s.history.filterMap QueueOp.result = s.results ++ s.unreturned ∧
        s.unreturned.length ≤ 1 := by
  intro s hs
  have h := blockingOk_of_mem hM hpos hsize hq hs
  exact ⟨h.alive, h.history, h.puts, h.results, s.unreturned_length⟩

theorem blocking_queue_list_one : ∃ s ∈ Runs.states (BlockingStep.run 2)
    (BlockingThreads.start ⟨ReaderWriterQueue.makeBlocks 2 1, 1, 0, 0, 2⟩)
    [.enqueue .canAlloc 'a', .producer true, .producer true, .producer true, .producer true,
      .tryDequeue, .consumer true, .consumer true, .consumer true, .consumer true, .consumer true,
      .consumer true, .consumer true],
    s.results = [some 'a'] ∧ QueueOp.Replays s.history [] s.list := by
  have h := blocking_queue_list (k := 0) rfl (by decide) (by decide) construct_two
    [.enqueue .canAlloc 'a', .producer true, .producer true, .producer true, .producer true,
      .tryDequeue, .consumer true, .consumer true, .consumer true, .consumer true, .consumer true,
      .consumer true, .consumer true]
  exact ⟨_, List.mem_of_getElem? (i := 12) rfl, rfl,
    (h _ (List.mem_of_getElem? (i := 12) rfl)).2.1⟩

/-- No wakeup is lost. -/
theorem blocking_queue_wakes (hM : M = 2 ^ (k + 1)) (hpos : 0 < size) (hsize : size < 2 ^ 63)
    (hq : ReaderWriterQueue.construct M malloc size = some q) (steps : List (BlockingStep α)) :
    ∀ s ∈ Runs.states (BlockingStep.run M) (BlockingThreads.start q) steps, ∀ again,
      s.consumer = .wait again → s.sema.waiter = .block →
        (s.producer = .idle ∨ ∃ result, s.producer = .returned result) →
          s.inner.dequeued.length < s.inner.enqueued.length →
            ∃ s', s.consumerStep M true = some s' ∧ s'.sema.waiter = .returned true :=
  fun _ hs _ => (blockingOk_of_mem hM hpos hsize hq hs).wakes

/-- The consumer has waited in vain `n` times. -/
def spinning (n : Nat) : BlockingThreads Char :=
  { BlockingThreads.start ⟨ReaderWriterQueue.makeBlocks 2 1, 1, 0, 0, 2⟩ with
    sema := { Sema.start with waiter := .spin 10 (1024 - n) }, consumer := .wait false }

theorem spinning_step (n : Nat) (hn : n < 1024) :
    (BlockingStep.consumer false).run 2 (spinning n) = some (spinning (n + 1)) := by
  obtain ⟨m, hm⟩ := Nat.exists_eq_add_of_lt hn
  have hspin : 1024 - n = m + 1 := by omega
  have hnext : 1024 - (n + 1) = m := by omega
  simp only [spinning, hspin, hnext]
  rfl

theorem blocking_queue_wakes_spun : ∃ s ∈ Runs.states (BlockingStep.run 2)
    (BlockingThreads.start ⟨ReaderWriterQueue.makeBlocks 2 1, 1, 0, 0, 2⟩)
    (.waitDequeueTimed 10 :: .consumer false :: (List.replicate 1024 (.consumer false) ++
      [.consumer false, .consumer false, .enqueue .canAlloc 'a', .producer true, .producer true,
        .producer true, .producer true, .producer true])),
    ∃ s', s.consumerStep 2 true = some s' ∧ s'.sema.waiter = .returned true := by
  have h := blocking_queue_wakes (k := 0) rfl (by decide) (by decide) construct_two
    (.waitDequeueTimed 10 :: .consumer false :: (List.replicate 1024 (.consumer false) ++
      [.consumer false, .consumer false, .enqueue .canAlloc 'a', .producer true, .producer true,
        .producer true, .producer true, .producer true]))
  obtain ⟨s, hs, hconsumer, hwaiter, hproducer, hlt⟩ : ∃ s,
      (Runs.states (BlockingStep.run 2) (spinning 1024) [.consumer false, .consumer false,
        .enqueue .canAlloc 'a', .producer true, .producer true, .producer true, .producer true,
        .producer true])[7]? = some s ∧ s.consumer = .wait false ∧ s.sema.waiter = .block ∧
          s.producer = .returned true ∧ s.inner.dequeued.length < s.inner.enqueued.length :=
    ⟨_, rfl, rfl, rfl, rfl, by decide⟩
  have hmem := List.mem_cons_of_mem (spinning 0)
    (Runs.mem_states_replicate 1024 spinning_step (List.mem_of_getElem? hs))
  have hspin : (BlockingStep.consumer false).run 2
      { spinning 0 with sema := { Sema.start with waiter := .wait 10 } } = some (spinning 0) := rfl
  rw [← Runs.states_cons_some hspin] at hmem
  have hmem' := List.mem_cons_of_mem
    { spinning 0 with sema := { Sema.start with waiter := .wait 10 } } hmem
  exact ⟨s, hmem', h s hmem' false hconsumer hwaiter (Or.inr ⟨true, hproducer⟩) hlt⟩

end

end Moodycamel
