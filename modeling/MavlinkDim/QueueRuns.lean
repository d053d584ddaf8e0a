import MavlinkDim.QueueStart
import MavlinkDim.QueueSteps
import MavlinkDim.Runs

/-!
# Runs of the two threads

In every interleaving of the threads, the elements come out of the queue once each
and in the order in which they went in.  A call fails only for what it finds while it
runs: `try_dequeue` for an empty queue, an enqueue for as many elements as the queue
was made for.
-/

namespace Moodycamel

variable {α : Type*} {size w : Nat} {s s' : Threads α} {g : Nat → Contents α}
  {used free : List Nat}

/-- What holds between any two steps. -/
def Consistent (size : Nat) (s : Threads α) : Prop :=
  (∃ w g used free, Inv size w s g used free) ∧ s.occupancy ∈ s.producerSaw ∧
    s.occupancy ∈ s.consumerSaw

theorem Inv.observe (h : Inv size w s g used free) : Consistent size s.observe := by
  refine ⟨⟨w, g, used, free, ?_⟩, ?_, ?_⟩
  · refine h.go rfl rfl rfl rfl rfl ?_ ?_
    · have hproducer := h.producer
      have hcrowded : Crowded size s → Crowded size s.observe := by
        rintro ⟨m, hm, hle⟩
        exact ⟨m, List.mem_append_left _ hm, hle⟩
      revert hproducer
      cases s.producer with
      | testNext _ _ => exact And.imp_right fun hone heq => hcrowded (hone heq)
      | link _ _ => exact And.imp_right (And.imp_left hcrowded)
      | returned result =>
        cases result with
        | false => exact hcrowded
        | true => exact id
      | _ => exact id
    · rw [← List.append_nil used]
      exact ConsumerOk.append h (fun _ _ => rfl) [] rfl fun n hn => List.mem_append_left _ hn
  · exact List.mem_append_right _ (List.mem_singleton_self _)
  · exact List.mem_append_right _ (List.mem_singleton_self _)

theorem Consistent.run {M : Nat} (step : ThreadStep α) (h : Consistent size s)
    (hstep : step.run M s = some s') : Consistent size s' := by
  obtain ⟨⟨w, g, used, free, h⟩, hproducerSaw, hconsumerSaw⟩ := h
  cases step with
  | enqueue mode element =>
    have hbegin (hpending : s.producer.pending s.queue.tailBlock = fun _ => none)
        (hahead : s.producer.ahead = fun _ => []) (hunlinked : s.producer.unlinked = 0) :
        Inv size w { s with producer := .findRoom mode element, producerSaw := [] } g used free :=
      h.go rfl rfl hpending.symm hahead.symm hunlinked.symm trivial h.consumer
    cases hpc : s.producer with
    | idle | returned _ =>
      rw [ThreadStep.run, hpc] at hstep
      obtain rfl := Option.some.inj hstep
      exact (hbegin (by rw [hpc]; rfl) (by rw [hpc]; rfl) (by rw [hpc]; rfl)).observe
    | _ =>
      rw [ThreadStep.run, hpc] at hstep
      cases hstep
  | producer malloc =>
    obtain ⟨t, ht, rfl⟩ := Option.map_eq_some_iff.mp hstep
    obtain ⟨g, used, free, h⟩ := h.producerStep hproducerSaw ht
    exact h.observe
  | dequeue =>
    have hbegin (htaken : s.consumer.taken = none) :
        Inv size w { s with consumer := .findElement, consumerSaw := [] } g used free :=
      h.go rfl htaken.symm rfl rfl rfl h.producer trivial
    cases hpc : s.consumer with
    | idle | returned _ =>
      rw [ThreadStep.run, hpc] at hstep
      obtain rfl := Option.some.inj hstep
      exact (hbegin (by rw [hpc]; rfl)).observe
    | _ =>
      rw [ThreadStep.run, hpc] at hstep
      cases hstep
  | consumer =>
    obtain ⟨t, ht, rfl⟩ := Option.map_eq_some_iff.mp hstep
    obtain ⟨g, used, free, h⟩ := h.consumerStep hconsumerSaw ht
    exact h.observe

/-! ### What holds in every state -/

theorem Consistent.dequeued_first (h : Consistent size s) : s.dequeued <+: s.enqueued := by
  obtain ⟨⟨w, g, used, free, h⟩, -, -⟩ := h
  rw [h.log, List.append_assoc]
  exact List.prefix_append _ _

theorem Consistent.empty_of_returned (h : Consistent size s) (hpc : s.consumer = .returned none) :
    0 ∈ s.consumerSaw := by
  obtain ⟨⟨w, g, used, free, h⟩, -, -⟩ := h
  have hconsumer := h.consumer
  rw [hpc] at hconsumer
  exact hconsumer

theorem Consistent.crowded (h : Consistent size s)
    (hpc : s.producer = .returned false ∨ ∃ element b, s.producer = .link element b) :
    ∃ m ∈ s.producerSaw, size ≤ m := by
  obtain ⟨⟨w, g, used, free, h⟩, -, -⟩ := h
  have hproducer := h.producer
  rcases hpc with hpc | ⟨element, b, hpc⟩
  · rw [hpc] at hproducer
    exact hproducer
  · rw [hpc] at hproducer
    exact hproducer.2.1

theorem Consistent.not_failed (h : Consistent size s) :
    s.producer ≠ .failed ∧ s.consumer ≠ .failed := by
  obtain ⟨⟨w, g, used, free, h⟩, -, -⟩ := h
  have hproducer := h.producer
  have hconsumer := h.consumer
  constructor
  · intro hpc
    rw [hpc] at hproducer
    exact hproducer
  · intro hpc
    rw [hpc] at hconsumer
    exact hconsumer

/-- The slot behind the elements of a block. -/
theorem Contents.data_tail {c : Contents α} {next : Nat} (h : c.Sound)
    (hpending : c.pending = none) : (c.block next).data (c.block next).tail = none := by
  have hfree : RingBuffer.cells c.size c.start c.items ((c.start + c.items.length) % c.size) =
      none := RingBuffer.cells_free h.length_lt
  simpa [Contents.block, Contents.tail, hpending] using hfree

/-- An element is constructed where there is none, and taken where there is one. -/
theorem Consistent.slots (h : Consistent size s) :
    (∀ element t, s.producer = .construct element t →
      (s.queue.heap s.queue.tailBlock).data (s.queue.heap s.queue.tailBlock).tail = none) ∧
    (∀ element b, s.producer = .constructNext element b →
      (s.queue.heap b).data (s.queue.heap b).tail = none) ∧
    (s.consumer = .take →
      ((s.queue.heap s.queue.frontBlock).data (s.queue.heap s.queue.frontBlock).front).isSome) := by
  obtain ⟨⟨w, g, used, free, h⟩, -, -⟩ := h
  refine ⟨?_, ?_, ?_⟩
  · intro element t hpc
    have hok := h.tailBlock_ok
    have hpending := hok.pending
    rw [hpc] at hpending
    rw [hok.block]
    exact Contents.data_tail hok.sound hpending
  · intro element b hpc
    have hproducer := h.producer
    rw [hpc] at hproducer
    have hok := h.blocks b (List.mem_append_right _ (List.mem_of_mem_head? hproducer.2.1))
    have hpending := hok.pending
    rw [hpc] at hpending
    rw [hok.block]
    exact Contents.data_tail hok.sound hpending
  · intro hpc
    have hok := h.frontBlock_ok
    obtain ⟨hstart, element, items, hitems⟩ := h.exists_front hpc
    have hdata := Contents.data_front (s.queue.heap s.queue.frontBlock).next hok.sound hitems
      hstart
    rw [hok.block]
    exact Option.isSome_iff_exists.mpr ⟨element, hdata⟩

/-! ### The runs of a queue -/

section

variable {M k : Nat} {malloc : Nat → Bool} {q : ReaderWriterQueue α}

theorem consistent_of_mem (hM : M = 2 ^ (k + 1)) (hpos : 0 < size) (hsize : size < 2 ^ 63)
    (hq : ReaderWriterQueue.construct M malloc size = some q) {steps : List (ThreadStep α)}
    (hs : s ∈ Runs.states (ThreadStep.run M) (Threads.start q) steps) : Consistent size s := by
  refine Runs.states_induction (fun step _ _ hstep h => Consistent.run step h hstep) ?_ steps s hs
  refine ⟨Inv.of_construct hM hpos hsize hq, ?_, ?_⟩
  · exact List.mem_singleton_self _
  · exact List.mem_singleton_self _

/-- What was taken out of the queue is what was put in first, in the same order. -/
theorem dequeued_in_order (hM : M = 2 ^ (k + 1)) (hpos : 0 < size) (hsize : size < 2 ^ 63)
    (hq : ReaderWriterQueue.construct M malloc size = some q) (steps : List (ThreadStep α)) :
    ∀ s ∈ Runs.states (ThreadStep.run M) (Threads.start q) steps, s.dequeued <+: s.enqueued :=
  fun _ hs => (consistent_of_mem hM hpos hsize hq hs).dequeued_first

theorem dequeued_in_order_two : ∃ s ∈ Runs.states (ThreadStep.run 2)
    (Threads.start (⟨ReaderWriterQueue.makeBlocks 2 1, 1, 0, 0, 2⟩ : ReaderWriterQueue Char))
    [.enqueue .canAlloc 'a', .producer true, .dequeue, .producer true, .producer true, .consumer,
      .consumer, .enqueue .canAlloc 'b', .producer true, .consumer],
    s.dequeued = ['a'] ∧ s.dequeued <+: s.enqueued := by
  have h := dequeued_in_order (k := 0) rfl (by decide) (by decide) construct_two
    [.enqueue .canAlloc 'a', .producer true, .dequeue, .producer true, .producer true, .consumer,
      .consumer, .enqueue .canAlloc 'b', .producer true, .consumer]
  exact ⟨_, List.mem_of_getElem? (i := 9) rfl, rfl, h _ (List.mem_of_getElem? (i := 9) rfl)⟩

/-- `try_dequeue` returns false only if the queue was empty at some time during the call. -/
theorem empty_of_returned_none (hM : M = 2 ^ (k + 1)) (hpos : 0 < size) (hsize : size < 2 ^ 63)
    (hq : ReaderWriterQueue.construct M malloc size = some q) (steps : List (ThreadStep α)) :
    ∀ s ∈ Runs.states (ThreadStep.run M) (Threads.start q) steps,
      s.consumer = .returned none → 0 ∈ s.consumerSaw :=
  fun _ hs => (consistent_of_mem hM hpos hsize hq hs).empty_of_returned

theorem empty_of_returned_none_new : ∃ s ∈ Runs.states (ThreadStep.run 2)
    (Threads.start (⟨ReaderWriterQueue.makeBlocks 2 1, 1, 0, 0, 2⟩ : ReaderWriterQueue Char))
    [.dequeue, .consumer, .consumer], s.consumer = .returned none ∧ 0 ∈ s.consumerSaw := by
  have h := empty_of_returned_none (k := 0) rfl (by decide) (by decide) construct_two
    [.dequeue, .consumer, (.consumer : ThreadStep Char)]
  exact ⟨_, List.mem_of_getElem? (i := 2) rfl, rfl, h _ (List.mem_of_getElem? (i := 2) rfl) rfl⟩

/-- A queue made for `size` elements allocates, or has no room, only if there were `size` elements
    in it at some time during the call. -/
theorem crowded_of_alloc (hM : M = 2 ^ (k + 1)) (hpos : 0 < size) (hsize : size < 2 ^ 63)
    (hq : ReaderWriterQueue.construct M malloc size = some q) (steps : List (ThreadStep α)) :
    ∀ s ∈ Runs.states (ThreadStep.run M) (Threads.start q) steps,
      (s.producer = .returned false ∨ ∃ element b, s.producer = .link element b) →
        ∃ m ∈ s.producerSaw, size ≤ m :=
  fun _ hs => (consistent_of_mem hM hpos hsize hq hs).crowded

theorem crowded_of_alloc_one : ∃ s ∈ Runs.states (ThreadStep.run 2)
    (Threads.start (⟨ReaderWriterQueue.makeBlocks 2 1, 1, 0, 0, 2⟩ : ReaderWriterQueue Char))
    [.enqueue .canAlloc 'a', .producer true, .producer true, .producer true,
      .enqueue .cannotAlloc 'b', .producer true, .producer true],
    s.producer = .returned false ∧ ∃ m ∈ s.producerSaw, 1 ≤ m := by
  have h := crowded_of_alloc (k := 0) rfl (by decide) (by decide) construct_two
    [.enqueue .canAlloc 'a', .producer true, .producer true, .producer true,
      .enqueue .cannotAlloc 'b', .producer true, .producer true]
  exact ⟨_, List.mem_of_getElem? (i := 6) rfl, rfl,
    h _ (List.mem_of_getElem? (i := 6) rfl) (Or.inl rfl)⟩

/-- No assertion of the queue fails, and the threads are never at the same slot: the producer is
    at a slot without an element when it constructs one, and the consumer at one with. -/
theorem slots_apart (hM : M = 2 ^ (k + 1)) (hpos : 0 < size) (hsize : size < 2 ^ 63)
    (hq : ReaderWriterQueue.construct M malloc size = some q) (steps : List (ThreadStep α)) :
    ∀ s ∈ Runs.states (ThreadStep.run M) (Threads.start q) steps,
      (s.producer ≠ .failed ∧ s.consumer ≠ .failed) ∧
      (∀ element t, s.producer = .construct element t →
        (s.queue.heap s.queue.tailBlock).data (s.queue.heap s.queue.tailBlock).tail = none) ∧
      (∀ element b, s.producer = .constructNext element b →
        (s.queue.heap b).data (s.queue.heap b).tail = none) ∧
      (s.consumer = .take → ((s.queue.heap s.queue.frontBlock).data
        (s.queue.heap s.queue.frontBlock).front).isSome) := by
  intro s hs
  have h := consistent_of_mem hM hpos hsize hq hs
  exact ⟨h.not_failed, h.slots⟩

theorem slots_apart_take : ∃ s ∈ Runs.states (ThreadStep.run 2)
    (Threads.start (⟨ReaderWriterQueue.makeBlocks 2 1, 1, 0, 0, 2⟩ : ReaderWriterQueue Char))
    [.enqueue .canAlloc 'a', .producer true, .producer true, .producer true, .dequeue, .consumer],
    s.consumer = .take ∧ ((s.queue.heap s.queue.frontBlock).data
      (s.queue.heap s.queue.frontBlock).front).isSome := by
  have h := slots_apart (k := 0) rfl (by decide) (by decide) construct_two
    [.enqueue .canAlloc 'a', .producer true, .producer true, .producer true, .dequeue, .consumer]
  exact ⟨_, List.mem_of_getElem? (i := 5) rfl, rfl,
    (h _ (List.mem_of_getElem? (i := 5) rfl)).2.2.2 rfl⟩

end

end Moodycamel
