import Mathlib.Algebra.Group.Action.Defs
import Mathlib.Algebra.Order.BigOperators.Group.List
import Mathlib.Algebra.Order.Ring.Nat
import MavlinkDim.QueueInvariant

/-!
# Steps of the two threads

Each step of `inner_enqueue` and of `try_dequeue` keeps the invariant.  An element
is in the queue from the step of the producer that moves a `tail` or `tailBlock`,
and out of it with the step of the consumer that moves the `front` over it.
-/

namespace Moodycamel

open RingBuffer

variable {α : Type*} {size w : Nat} {s s' : Threads α} {g : Nat → Contents α}
  {used free : List Nat} {c : Contents α} {next : Nat} {producer : Producer α}
  {consumer : Consumer α} {enqueued dequeued added : List α}

theorem Inv.occupancy_eq (h : Inv size w s g used free) :
    s.occupancy = s.consumer.taken.toList.length + (used.flatMap fun a => (g a).items).length := by
  rw [Threads.occupancy, h.log]
  simp only [List.length_append]
  omega

theorem Inv.only_frontBlock (h : Inv size w s g used free) (hused : used.tail = []) :
    used = [s.queue.frontBlock] := by
  rw [h.used_eq, hused]

/-! ### Writes of a thread to its own block -/

/-- The producer writes to the tail block. -/
theorem Inv.updateTail (h : Inv size w s g used free)
    (hheap : s.queue.heap s.queue.tailBlock = (g s.queue.tailBlock).block next)
    (hs' : s' = ⟨s.queue.set s.queue.tailBlock (c.block next), producer, s.consumer, enqueued,
      s.dequeued, s.producerSaw, s.consumerSaw⟩)
    (hsame : c.size = (g s.queue.tailBlock).size ∧ c.front = (g s.queue.tailBlock).front ∧
      c.start = (g s.queue.tailBlock).start ∧ c.localTail = (g s.queue.tailBlock).localTail)
    (hsound : c.Sound)
    (hlocalFront : (g s.queue.tailBlock).localFront = (g s.queue.tailBlock).front →
      c.localFront = c.front)
    (hitems : c.items = (g s.queue.tailBlock).items ++ added)
    (hpending : c.pending = producer.pending s.queue.tailBlock s.queue.tailBlock)
    (hothers : ∀ b ≠ s.queue.tailBlock,
      producer.pending s.queue.tailBlock b = s.producer.pending s.queue.tailBlock b)
    (hahead : producer.ahead = s.producer.ahead)
    (hunlinked : producer.unlinked = s.producer.unlinked) (hlog : enqueued = s.enqueued ++ added)
    (hproducer : ProducerOk size w s' (Function.update g s.queue.tailBlock c) used free producer) :
    Inv size w s' (Function.update g s.queue.tailBlock c) used free := by
  have hok := h.tailBlock_ok
  have hmem := h.tailBlock_mem
  refine h.update (List.mem_append_left _ hmem) hs' ?_ ?_ hunlinked ?_ ?_ hproducer ?_
  · rw [hheap]
    rfl
  · intro b hb
    exact ⟨fun _ => rfl, hothers b hb, congrFun hahead b⟩
  · subst hs'
    refine ⟨?_, hsound, ?_, ?_, hpending, ?_, ?_, ?_⟩
    · simp [ReaderWriterQueue.set, Contents.block]
    · rw [hsame.1]
      exact hok.room
    · rw [hsame.2.2.1, hsame.2.1]
      exact hok.start
    · intro hleft
      exact absurd hleft h.tailBlock_notMem_dropLast
    · intro hreached
      obtain ⟨hne, heq⟩ := hok.reached hreached
      refine ⟨?_, hlocalFront heq⟩
      rw [hitems]
      exact List.append_ne_nil_of_left_ne_nil hne _
    · intro hfree
      exact absurd hfree (h.not_free hmem)
  · rw [hlog, h.log, flatMap_update_last h.nodup_used h.tail hitems, List.append_assoc]
  · subst hs'
    exact ConsumerOk.update h hsame.2.1 hsame.2.2.2 (Or.inr (Or.inl rfl)) rfl rfl

/-- The producer writes to a free block. -/
theorem Inv.updateFree (h : Inv size w s g used free) {b : Nat} (hb : b ∈ free)
    (hheap : s.queue.heap b = (g b).block next)
    (hs' : s' = ⟨s.queue.set b (c.block next), producer, s.consumer, s.enqueued, s.dequeued,
      s.producerSaw, s.consumerSaw⟩)
    (hsame : c.size = (g b).size ∧ c.front = (g b).front ∧ c.start = (g b).start ∧
      c.localTail = (g b).localTail)
    (hsound : c.Sound) (hitems : c.items = producer.ahead b)
    (hpending : c.pending = producer.pending s.queue.tailBlock b)
    (hothers : ∀ a ≠ b,
      producer.pending s.queue.tailBlock a = s.producer.pending s.queue.tailBlock a ∧
        producer.ahead a = s.producer.ahead a)
    (hunlinked : producer.unlinked = s.producer.unlinked)
    (hproducer : ProducerOk size w s' (Function.update g b c) used free producer) :
    Inv size w s' (Function.update g b c) used free := by
  have hok := h.blocks b (List.mem_append_right _ hb)
  have hused : b ∉ used := fun hmem => h.not_free hmem hb
  refine h.update (List.mem_append_right _ hb) hs' ?_ ?_ hunlinked ?_ ?_ hproducer ?_
  · rw [hheap]
    rfl
  · intro a ha
    exact ⟨fun _ => rfl, hothers a ha⟩
  · subst hs'
    refine ⟨?_, hsound, ?_, ?_, hpending, ?_, ?_, fun _ => hitems⟩
    · simp [ReaderWriterQueue.set, Contents.block]
    · rw [hsame.1]
      exact hok.room
    · rw [hsame.2.2.1, hsame.2.1]
      exact hok.start
    · intro hleft
      exact absurd (List.mem_of_mem_dropLast hleft) hused
    · intro hreached
      exact absurd (List.mem_of_mem_tail hreached) hused
  · rw [flatMap_update_of_notMem hused]
    exact h.log
  · subst hs'
    exact ConsumerOk.update h hsame.2.1 hsame.2.2.2 (Or.inr (Or.inr hb)) rfl rfl

/-- The consumer writes to the front block. -/
theorem Inv.updateFront (h : Inv size w s g used free)
    (hheap : s.queue.heap s.queue.frontBlock = (g s.queue.frontBlock).block next)
    (hs' : s' = ⟨s.queue.set s.queue.frontBlock (c.block next), s.producer, consumer, s.enqueued,
      dequeued, s.producerSaw, s.consumerSaw⟩)
    (hsame : c.size = (g s.queue.frontBlock).size ∧ c.tail = (g s.queue.frontBlock).tail ∧
      c.localFront = (g s.queue.frontBlock).localFront ∧
        c.pending = (g s.queue.frontBlock).pending)
    (hsound : c.Sound) (hstart : c.start = c.front + consumer.taken.toList.length)
    (hlog : s.dequeued ++ s.consumer.taken.toList ++ (g s.queue.frontBlock).items =
      dequeued ++ consumer.taken.toList ++ c.items)
    (hconsumer : ConsumerOk s' (Function.update g s.queue.frontBlock c) used consumer) :
    Inv size w s' (Function.update g s.queue.frontBlock c) used free := by
  have hok := h.frontBlock_ok
  have hmem := h.frontBlock_mem
  refine h.update (List.mem_append_left _ hmem) hs' ?_ ?_ rfl ?_ ?_ ?_ hconsumer
  · rw [hheap]
    rfl
  · intro b hb
    exact ⟨fun heq => absurd heq hb, rfl, rfl⟩
  · subst hs'
    refine ⟨?_, hsound, ?_, ?_, ?_, ?_, ?_, ?_⟩
    · simp [ReaderWriterQueue.set, Contents.block]
    · rw [hsame.1]
      exact hok.room
    · rw [hstart]
      exact congrArg _ (if_pos rfl).symm
    · rw [hsame.2.2.2]
      exact hok.pending
    · intro hleft
      have hfull := hok.left hleft
      rwa [Contents.Full, ← hsame.2.1, ← hsame.2.2.1, ← hsame.1] at hfull
    · intro hreached
      exact absurd hreached h.frontBlock_notMem_tail
    · intro hfree
      exact absurd hfree (h.not_free hmem)
  · have hlog₀ := h.log
    rw [h.used_eq, List.flatMap_cons, ← List.append_assoc, hlog, List.append_assoc] at hlog₀
    rw [hlog₀, h.used_eq, List.flatMap_cons, Function.update_self,
      flatMap_update_of_notMem h.frontBlock_notMem_tail]
    simp
  · subst hs'
    refine ProducerOk.update h hmem ?_ hsame.2.1 hsame.1 hsame.2.2.1 rfl rfl
    rw [hheap]
    rfl

/-! ### The producer -/

/-- A ring of one block that is full holds as much as the queue was made for. -/
theorem Inv.crowded_single (h : Inv size w s g used free)
    (hone : used ++ free = [s.queue.tailBlock])
    (hfull : (g s.queue.tailBlock).tail + 1 =
      (g s.queue.tailBlock).front + (g s.queue.tailBlock).size) : size ≤ s.occupancy := by
  have hused : used.tail = [] := by
    have hlen := congrArg List.length hone
    rw [h.used_eq] at hlen
    simp only [List.cons_append, List.length_cons, List.length_append, List.length_nil] at hlen
    exact List.eq_nil_of_length_eq_zero (by omega)
  have heq := h.frontBlock_eq_tailBlock_iff.mpr hused
  have hreserve := h.reserve
  rw [hone] at hreserve
  have hstart := h.frontBlock_ok.start
  have hroom := h.frontBlock_ok.room
  rw [h.occupancy_eq, h.only_frontBlock hused]
  rw [← heq, Contents.tail] at hfull
  simp only [if_true, List.flatMap_singleton, List.length_singleton, Nat.sub_self,
    Nat.max_eq_right (Nat.zero_le 1), Nat.one_mul] at hstart hreserve ⊢
  omega

theorem Inv.findRoom (h : Inv size w s g used free) (hseen : s.occupancy ∈ s.producerSaw)
    {mode : AllocationMode} {element : α} (hpc : s.producer = .findRoom mode element) {M : Nat}
    {malloc : Bool} (hstep : s.producerStep M malloc = some s') :
    ∃ g, Inv size w s' g used free := by
  have hok := h.tailBlock_ok
  have hsound := hok.sound
  obtain ⟨next, hheap⟩ : ∃ next, s.queue.heap s.queue.tailBlock =
    (g s.queue.tailBlock).block next := ⟨_, hok.block⟩
  have hmask := hsound.and_mask (g s.queue.tailBlock).tail
  simp only [Threads.producerStep, hpc, hheap, Contents.block] at hstep
  rw [hmask] at hstep
  split at hstep
  · -- there is room behind the copy
    rename_i hroom
    obtain rfl := Option.some.inj hstep
    exact ⟨g, h.go rfl rfl (by rw [hpc]; rfl) (by rw [hpc]; rfl) (by rw [hpc]; rfl)
      ⟨rfl, hsound.room_iff.mp hroom⟩ h.consumer⟩
  · have hlocalFront := hsound.localFront_le
    have hlt := hsound.tail_lt
    have hnone : (g s.queue.tailBlock).pending = none := by rw [hok.pending, hpc]; rfl
    have hsound' := hsound.seeFront hnone
    split at hstep
    · -- the consumer has made room since
      rename_i hroom
      obtain rfl := Option.some.inj hstep
      refine ⟨_, h.updateTail (c := (g s.queue.tailBlock).seeFront) hheap rfl
        ⟨rfl, rfl, rfl, rfl⟩ hsound' (fun _ => rfl) (List.append_nil _).symm hnone
        (fun _ _ => by rw [hpc]; rfl) (by rw [hpc]; rfl) (by rw [hpc]; rfl)
        (List.append_nil _).symm ?_⟩
      simp only [ProducerOk, ReaderWriterQueue.set, Function.update_self]
      exact ⟨rfl, hsound.room_front_iff.mp hroom⟩
    · rename_i hfull
      obtain rfl := Option.some.inj hstep
      rw [hsound.room_front_iff] at hfull
      have hfull' : (g s.queue.tailBlock).tail + 1 =
          (g s.queue.tailBlock).front + (g s.queue.tailBlock).size := by omega
      refine ⟨_, h.updateTail (c := (g s.queue.tailBlock).seeFront) hheap rfl
        ⟨rfl, rfl, rfl, rfl⟩ hsound' (fun _ => rfl) (List.append_nil _).symm hnone
        (fun _ _ => by rw [hpc]; rfl) (by rw [hpc]; rfl) (by rw [hpc]; rfl)
        (List.append_nil _).symm ?_⟩
      simp only [ProducerOk, ReaderWriterQueue.set, Function.update_self]
      exact ⟨hfull', fun hone => ⟨_, hseen, h.crowded_single hone hfull'⟩⟩

theorem Inv.construct (h : Inv size w s g used free) {element : α} {nextBlockTail : Nat}
    (hpc : s.producer = .construct element nextBlockTail) {M : Nat} {malloc : Bool}
    (hstep : s.producerStep M malloc = some s') : ∃ g, Inv size w s' g used free := by
  have hok := h.tailBlock_ok
  have hproducer := h.producer
  obtain ⟨next, hheap⟩ : ∃ next, s.queue.heap s.queue.tailBlock =
    (g s.queue.tailBlock).block next := ⟨_, hok.block⟩
  have hnone : (g s.queue.tailBlock).pending = none := by rw [hok.pending, hpc]; rfl
  rw [hpc] at hproducer
  obtain ⟨hnext, hroom⟩ := hproducer
  have hblock := Contents.block_construct next element hnone
    hok.sound.length_lt
  simp only [Threads.producerStep, hpc, hheap] at hstep
  obtain rfl := Option.some.inj hstep
  refine ⟨_, h.updateTail (c := (g s.queue.tailBlock).construct element) hheap
    (by rw [← hblock]; rfl) ⟨rfl, rfl, rfl, rfl⟩ (hok.sound.construct hroom) id
    (List.append_nil _).symm (if_pos rfl).symm ?_ (by rw [hpc]; rfl) (by rw [hpc]; rfl)
    (List.append_nil _).symm ?_⟩
  · intro b hb
    rw [hpc]
    exact if_neg hb
  · simp only [ProducerOk, ReaderWriterQueue.set, Function.update_self]
    exact ⟨hnext, hroom⟩

theorem Inv.setTail (h : Inv size w s g used free) {element : α} {nextBlockTail : Nat}
    (hpc : s.producer = .setTail element nextBlockTail) {M : Nat} {malloc : Bool}
    (hstep : s.producerStep M malloc = some s') : ∃ g, Inv size w s' g used free := by
  have hok := h.tailBlock_ok
  have hproducer := h.producer
  obtain ⟨next, hheap⟩ : ∃ next, s.queue.heap s.queue.tailBlock =
    (g s.queue.tailBlock).block next := ⟨_, hok.block⟩
  have hsome : (g s.queue.tailBlock).pending = some element := by
    rw [hok.pending, hpc]
    exact if_pos rfl
  rw [hpc] at hproducer
  obtain ⟨hnext, hroom⟩ := hproducer
  have hblock := Contents.block_setTail next hsome
  simp only [Threads.producerStep, hpc, hheap, hnext] at hstep
  obtain rfl := Option.some.inj hstep
  refine ⟨_, h.updateTail (c := (g s.queue.tailBlock).setTail element) hheap
    (by rw [← hblock]) ⟨rfl, rfl, rfl, rfl⟩ (hok.sound.setTail hroom) id rfl rfl ?_
    (by rw [hpc]; rfl) (by rw [hpc]; rfl) rfl ?_⟩
  · intro b hb
    rw [hpc]
    exact (if_neg hb).symm
  · exact trivial

/-- A block behind the front one, and left by the producer, holds what was asked for. -/
theorem BlockOk.le_length {a : Nat} (hok : BlockOk w s used free a c) (ha : a ∈ used.tail)
    (hfront : a ≠ s.queue.frontBlock) (hfull : c.Full) : w ≤ c.items.length := by
  have hstart := hok.start
  have hroom := hok.room
  rw [if_neg hfront] at hstart
  rw [Contents.Full, Contents.tail, (hok.reached ha).2] at hfull
  omega

/-- So does a ring without a free block, if the tail block is full. -/
theorem Inv.crowded (h : Inv size w s g used free) (hfull : (g s.queue.tailBlock).Full)
    (hfree : free = []) (hused : used.tail ≠ []) : size ≤ s.occupancy := by
  have hblocks : ∀ n ∈ used.tail.map fun a => (g a).items.length, w ≤ n := by
    intro n hn
    obtain ⟨a, ha, rfl⟩ := List.mem_map.mp hn
    have hmem := List.mem_of_mem_tail ha
    have hok := h.blocks a (List.mem_append_left _ hmem)
    refine hok.le_length ha (fun heq => h.frontBlock_notMem_tail (heq ▸ ha)) ?_
    rw [h.used_concat] at hmem
    rcases List.mem_append.mp hmem with hleft | hlast
    · exact hok.left hleft
    · rw [List.mem_singleton.mp hlast]
      exact hfull
  have hsum := List.card_nsmul_le_sum _ _ hblocks
  have hreserve := h.reserve
  have hlength : used.length = used.tail.length + 1 := by
    have heq := congrArg List.length h.used_eq
    rwa [List.length_cons] at heq
  have htail : 0 < used.tail.length := List.length_pos_iff.mpr hused
  rw [List.length_map, smul_eq_mul] at hsum
  rw [hfree, List.append_nil, hlength, Nat.add_sub_cancel, Nat.max_eq_left htail] at hreserve
  calc size ≤ used.tail.length * w := hreserve
    _ ≤ (used.tail.map fun a => (g a).items.length).sum := hsum
    _ ≤ s.occupancy := by
      rw [h.occupancy_eq, h.used_eq, List.flatMap_cons, List.length_append, List.length_flatMap,
        List.tail_cons]
      omega

theorem Inv.tailBlock_next_ne_iff (h : Inv size w s g used free) :
    (s.queue.heap s.queue.tailBlock).next ≠ s.queue.frontBlock ↔ free ≠ [] := by
  have hnext := h.tailBlock_next
  cases free with
  | nil => simpa using hnext.symm
  | cons b rest =>
    have hb : b ∉ used := fun hmem => h.not_free hmem (List.mem_cons_self ..)
    simp only [List.cons_append, List.head?_cons, Option.some.injEq] at hnext
    refine iff_of_true ?_ (List.cons_ne_nil _ _)
    rw [← hnext]
    rintro rfl
    exact hb h.frontBlock_mem

/-- The block of an allocation, which holds the element already. -/
theorem newBlock_eq {n : Nat} (hn : 1 < n) (element : α) (next : Nat) :
    { (makeBlock n next : Block α) with
      data := Function.update (makeBlock n next : Block α).data 0 (some element)
      tail := 1, localTail := 1 } =
      Contents.block ⟨n, 0, 0, 1, 0, [element], none⟩ next := by
  have hdata : Function.update (fun _ => none) 0 (some element) = cells n 0 [element] := by
    have hfirst : Function.update (cells n 0 []) ((0 + 0) % n) (some element) =
        cells n 0 [element] := update_append (by simp; omega) element
    rwa [cells_nil, Nat.zero_mod] at hfirst
  simp [makeBlock, Contents.block, Contents.tail, hdata, Nat.mod_eq_of_lt hn]

/-- The producer makes a block of its own. -/
theorem Inv.allocate (h : Inv size w s g used free) {mode : AllocationMode} {element : α}
    (hpc : s.producer = .testNext mode element) (hcrowded : Crowded size s) {n : Nat}
    (hw : w < n) (hn : ∃ k, n = 2 ^ (k + 1))
    (hs' : s' = ⟨{ s.queue.set s.queue.allocated
        (Contents.block ⟨n, 0, 0, 1, 0, [element], none⟩
          (s.queue.heap s.queue.tailBlock).next) with
          allocated := s.queue.allocated + 1, largestBlockSize := n },
      .link element s.queue.allocated, s.consumer, s.enqueued, s.dequeued, s.producerSaw,
      s.consumerSaw⟩) :
    Inv size w s' (Function.update g s.queue.allocated ⟨n, 0, 0, 1, 0, [element], none⟩)
      used free := by
  have hproducer := h.producer
  rw [hpc] at hproducer
  have hne : ∀ a ∈ used ++ free, a ≠ s.queue.allocated := fun a ha => (h.allocated a ha).ne
  have hfresh : s.queue.allocated ∉ used ++ free := fun hmem => hne _ hmem rfl
  have hg : ∀ a ∈ used ++ free,
      Function.update g s.queue.allocated ⟨n, 0, 0, 1, 0, [element], none⟩ a = g a :=
    fun a ha => Function.update_of_ne (hne a ha) _ _
  have hused : ∀ a ∈ used, a ∈ used ++ free := fun a ha => List.mem_append_left _ ha
  have htail := hg _ (hused _ h.tailBlock_mem)
  subst hs'
  refine ⟨?_, h.nodup, ?_, ?_, h.front, h.tail, ?_, ⟨hw, hn⟩, h.reserve, ?_, ?_, ?_⟩
  · intro a ha
    rw [hg a ha]
    refine (h.blocks a ha).congr ?_ rfl rfl (fun _ => rfl) ?_ ?_
    · exact Function.update_of_ne (hne a ha) _ _
    · rw [hpc]
      rfl
    · rw [hpc]
      rfl
  · intro a ha
    exact Nat.lt_succ_of_lt (h.allocated a ha)
  · have hwhole := h.whole
    rw [hpc] at hwhole
    exact congrArg (· + 1) hwhole
  · refine next_congr h.ring ?_
    intro a ha
    simp [ReaderWriterQueue.set, hne a ha]
  · rw [flatMap_update_of_notMem fun hmem => hfresh (hused _ hmem)]
    exact h.log
  · refine ⟨?_, hcrowded, hfresh, Nat.lt_succ_self _, ?_, ?_⟩
    · exact (congrArg Contents.Full htail).mpr hproducer.1
    · have htb := hne _ (hused _ h.tailBlock_mem)
      simp [ReaderWriterQueue.set, htb]
    · obtain ⟨k, rfl⟩ := hn
      exact ⟨k, hw, Function.update_self ..⟩
  · rw [← List.append_nil used]
    exact ConsumerOk.append h (fun a ha => hg a (hused a ha)) [] rfl fun _ => id

theorem Inv.testNext (h : Inv size w s g used free) (hseen : s.occupancy ∈ s.producerSaw)
    {mode : AllocationMode} {element : α} (hpc : s.producer = .testNext mode element) {M : Nat}
    {malloc : Bool} (hstep : s.producerStep M malloc = some s') :
    ∃ g, Inv size w s' g used free := by
  have hproducer := h.producer
  rw [hpc] at hproducer
  obtain ⟨hfull, hcrowded⟩ := hproducer
  simp only [Threads.producerStep, hpc] at hstep
  split at hstep
  · rename_i hnext
    obtain rfl := Option.some.inj hstep
    exact ⟨g, h.go rfl rfl (by rw [hpc]; rfl) (by rw [hpc]; rfl) (by rw [hpc]; rfl)
      ⟨hfull, h.tailBlock_next_ne_iff.mp hnext⟩ h.consumer⟩
  · rename_i hnext
    rw [h.tailBlock_next_ne_iff, not_not] at hnext
    have hcrowded' : Crowded size s := by
      by_cases hused : used.tail = []
      · have heq := h.frontBlock_eq_tailBlock_iff.mpr hused
        exact hcrowded (by rw [hnext, List.append_nil, h.only_frontBlock hused, heq])
      · exact ⟨_, hseen, h.crowded hfull hnext hused⟩
    have hrefuse : ∃ g, Inv size w { s with producer := .returned false } g used free :=
      ⟨g, h.go rfl rfl (by rw [hpc]; rfl) (by rw [hpc]; rfl) (by rw [hpc]; rfl) hcrowded'
        h.consumer⟩
    cases mode with
    | cannotAlloc =>
      obtain rfl := Option.some.inj hstep
      exact hrefuse
    | canAlloc =>
      cases malloc with
      | false =>
        obtain rfl := Option.some.inj hstep
        exact hrefuse
      | true =>
        simp only [if_true] at hstep
        obtain rfl := Option.some.inj hstep
        obtain ⟨hlargest, k, hk⟩ := h.largest
        have hsize : w < (if s.queue.largestBlockSize ≥ M then s.queue.largestBlockSize
            else s.queue.largestBlockSize * 2) ∧
            ∃ k, (if s.queue.largestBlockSize ≥ M then s.queue.largestBlockSize
              else s.queue.largestBlockSize * 2) = 2 ^ (k + 1) := by
          split
          · exact ⟨hlargest, k, hk⟩
          · exact ⟨by omega, k + 1, by rw [hk, ← Nat.pow_succ]⟩
        have hone : 1 < (if s.queue.largestBlockSize ≥ M then s.queue.largestBlockSize
            else s.queue.largestBlockSize * 2) := by
          obtain ⟨k, hk⟩ := hsize.2
          rw [hk]
          exact Nat.one_lt_two_pow (Nat.succ_ne_zero k)
        refine ⟨_, h.allocate hpc hcrowded' hsize.1 hsize.2 ?_⟩
        rw [← newBlock_eq hone]

/-- The block behind a full tail block is the first free one. -/
theorem Inv.next_of_free (h : Inv size w s g used free) {b : Nat} (hhead : free.head? = some b) :
    (s.queue.heap s.queue.tailBlock).next = b := by
  have hnext := h.tailBlock_next
  rw [List.head?_append, hhead] at hnext
  exact (Option.some.inj hnext).symm

theorem Inv.first_free (h : Inv size w s g used free) {b : Nat} (hhead : free.head? = some b)
    (hahead : s.producer.ahead b = []) : b ∈ free ∧ (g b).items = [] ∧ (g b).tail = (g b).front ∧
      ((g s.queue.tailBlock).Full → ∀ c, (Function.update g b c s.queue.tailBlock).Full) := by
  have hb := List.mem_of_mem_head? hhead
  have hok := h.blocks b (List.mem_append_right _ hb)
  have hitems : (g b).items = [] := by rw [hok.free hb, hahead]
  have hstart := hok.start
  have hfront : b ≠ s.queue.frontBlock := by
    rintro rfl
    exact h.not_free h.frontBlock_mem hb
  have htail : s.queue.tailBlock ≠ b := by
    rintro rfl
    exact h.not_free h.tailBlock_mem hb
  rw [if_neg hfront] at hstart
  refine ⟨hb, hitems, ?_, ?_⟩
  · rw [Contents.tail, hitems, hstart]
    rfl
  · intro hfull c
    rwa [Function.update_of_ne htail]

theorem Inv.enterNext (h : Inv size w s g used free) {element : α}
    (hpc : s.producer = .enterNext element) {M : Nat} {malloc : Bool}
    (hstep : s.producerStep M malloc = some s') : ∃ g, Inv size w s' g used free := by
  have hproducer := h.producer
  rw [hpc] at hproducer
  obtain ⟨hfull, hfree⟩ := hproducer
  obtain ⟨b, hhead⟩ : ∃ b, free.head? = some b := by
    rw [← Option.isSome_iff_exists, List.isSome_head?]
    simpa using hfree
  obtain ⟨hb, hitems, hempty, hfull'⟩ := h.first_free hhead (by rw [hpc]; rfl)
  have hok := h.blocks b (List.mem_append_right _ hb)
  obtain ⟨next, hheap⟩ : ∃ next, s.queue.heap b = (g b).block next := ⟨_, hok.block⟩
  have hnone : (g b).pending = none := by rw [hok.pending, hpc]; rfl
  simp only [Threads.producerStep, hpc, h.next_of_free hhead, hheap] at hstep
  rw [if_pos (by rw [Contents.block, hempty])] at hstep
  obtain rfl := Option.some.inj hstep
  refine ⟨_, h.updateFree (c := (g b).seeFront) hb hheap rfl ⟨rfl, rfl, rfl, rfl⟩
    (hok.sound.seeFront hnone) hitems hnone (fun a _ => by rw [hpc]; exact ⟨rfl, rfl⟩)
    (by rw [hpc]; rfl) ?_⟩
  exact ⟨hfull' hfull _, hhead, by rw [Function.update_self]; rfl⟩

theorem Inv.constructNext (h : Inv size w s g used free) {element : α} {b : Nat}
    (hpc : s.producer = .constructNext element b) {M : Nat} {malloc : Bool}
    (hstep : s.producerStep M malloc = some s') : ∃ g, Inv size w s' g used free := by
  have hproducer := h.producer
  rw [hpc] at hproducer
  obtain ⟨hfull, hhead, hsame⟩ := hproducer
  obtain ⟨hb, hitems, hempty, hfull'⟩ := h.first_free hhead (by rw [hpc]; rfl)
  have hok := h.blocks b (List.mem_append_right _ hb)
  obtain ⟨next, hheap⟩ : ∃ next, s.queue.heap b = (g b).block next := ⟨_, hok.block⟩
  have hone := hok.sound.one_lt
  have hnone : (g b).pending = none := by rw [hok.pending, hpc]; rfl
  have hblock := Contents.block_construct next element hnone
    hok.sound.length_lt
  simp only [Threads.producerStep, hpc, hheap] at hstep
  obtain rfl := Option.some.inj hstep
  refine ⟨_, h.updateFree (c := (g b).construct element) hb hheap (by rw [← hblock]; rfl)
    ⟨rfl, rfl, rfl, rfl⟩ (hok.sound.construct (by omega)) ?_ ?_ ?_ ?_ ?_⟩
  · exact hitems
  · exact (if_pos rfl).symm
  · intro a ha
    rw [hpc]
    exact ⟨if_neg ha, rfl⟩
  · rw [hpc]
    rfl
  · exact ⟨hfull' hfull _, hhead, by rw [Function.update_self]; exact hsame⟩

theorem Inv.setNextTail (h : Inv size w s g used free) {element : α} {b : Nat}
    (hpc : s.producer = .setNextTail element b) {M : Nat} {malloc : Bool}
    (hstep : s.producerStep M malloc = some s') : ∃ g, Inv size w s' g used free := by
  have hproducer := h.producer
  rw [hpc] at hproducer
  obtain ⟨hfull, hhead, hsame⟩ := hproducer
  obtain ⟨hb, hitems, -, hfull'⟩ := h.first_free hhead (by rw [hpc]; rfl)
  have hok := h.blocks b (List.mem_append_right _ hb)
  obtain ⟨next, hheap⟩ : ∃ next, s.queue.heap b = (g b).block next := ⟨_, hok.block⟩
  have hsome : (g b).pending = some element := by
    rw [hok.pending, hpc]
    exact if_pos rfl
  have hroom := hok.sound.pending_lt (by rw [hsome]; exact Option.some_ne_none _)
  have hblock := Contents.block_setTail next hsome
  have hmask := hok.sound.and_mask (g b).tail
  simp only [Threads.producerStep, hpc, hheap] at hstep
  obtain rfl := Option.some.inj hstep
  refine ⟨_, h.updateFree (c := (g b).setTail element) hb hheap (by rw [← hblock, ← hmask]; rfl)
    ⟨rfl, rfl, rfl, rfl⟩ (hok.sound.setTail hroom) ?_ ?_ ?_ ?_ ?_⟩
  · rw [Contents.setTail, hitems]
    exact (if_pos rfl).symm
  · rfl
  · intro a ha
    rw [hpc]
    exact ⟨(if_neg ha).symm, if_neg ha⟩
  · rw [hpc]
    rfl
  · exact ⟨hfull' hfull _, hhead, by rw [Function.update_self]; exact hsame⟩

/-- The new block goes behind the tail block. -/
theorem Inv.link (h : Inv size w s g used free) {element : α} {b : Nat}
    (hpc : s.producer = .link element b) {M : Nat} {malloc : Bool}
    (hstep : s.producerStep M malloc = some s') : Inv size w s' g used (b :: free) := by
  have hproducer := h.producer
  rw [hpc] at hproducer
  obtain ⟨hfull, -, hb, hlt, hheap, k, hw, hnew⟩ := hproducer
  have hmem : ∀ {a : Nat}, a ∈ used ++ b :: free ↔ a = b ∨ a ∈ used ++ free := by
    intro a
    simp only [List.mem_append, List.mem_cons]
    tauto
  have hne : ∀ {a : Nat}, a ∈ used ++ free → a ≠ b := by
    rintro a ha rfl
    exact hb ha
  have htb : s.queue.tailBlock ∈ used ++ free := List.mem_append_left _ h.tailBlock_mem
  have hfb : s.queue.frontBlock ∈ used ++ free := List.mem_append_left _ h.frontBlock_mem
  simp only [Threads.producerStep, hpc] at hstep
  obtain rfl := Option.some.inj hstep
  have hother : ∀ {a : Nat}, a ≠ s.queue.tailBlock →
      (s.queue.set s.queue.tailBlock
        { s.queue.heap s.queue.tailBlock with next := b }).heap a = s.queue.heap a :=
    fun ha => Function.update_of_ne ha _ _
  have hself : (s.queue.set s.queue.tailBlock
      { s.queue.heap s.queue.tailBlock with next := b }).heap s.queue.tailBlock =
        { s.queue.heap s.queue.tailBlock with next := b } := Function.update_self ..
  refine ⟨?_, ?_, ?_, ?_, h.front, h.tail, ?_, h.largest, ?_, h.log, ?_, ?_⟩
  · intro a ha
    rcases hmem.mp ha with rfl | hold
    · -- the new block
      have haused : a ∉ used := fun hmem => hb (List.mem_append_left _ hmem)
      refine ⟨?_, ?_, ?_, ?_, ?_, ?_, ?_, ?_⟩
      · rw [hother (hne htb).symm, hheap]
        rfl
      · rw [hnew]
        have htwo : 2 ≤ 2 ^ (k + 1) := Nat.succ_le_of_lt (Nat.one_lt_two_pow (Nat.succ_ne_zero k))
        exact ⟨⟨k, rfl⟩, Nat.le_refl _, Nat.le_refl _, Nat.zero_le _, Nat.le_refl _,
          by simp only [Contents.tail, List.length_singleton]; omega, fun h => absurd rfl h⟩
      · rw [hnew]
        exact hw
      · simp [hnew, ReaderWriterQueue.set, (hne hfb).symm]
      · rw [hnew]
        rfl
      · intro hleft
        exact absurd (List.mem_of_mem_dropLast hleft) haused
      · intro hreached
        exact absurd (List.mem_of_mem_tail hreached) haused
      · intro _
        rw [hnew]
        exact (if_pos rfl).symm
    · have hok := h.blocks a hold
      refine ⟨?_, hok.sound, hok.room, hok.start, ?_, hok.left, hok.reached, ?_⟩
      · by_cases heq : a = s.queue.tailBlock
        · subst heq
          rw [hself, hok.block]
          rfl
        · rw [hother heq]
          exact hok.block
      · rw [hok.pending, hpc]
        rfl
      · intro hfree
        rw [hok.free ((List.mem_cons.mp hfree).resolve_left (hne hold)), hpc]
        exact (if_neg (hne hold)).symm
  · exact (List.nodup_middle).mpr (List.nodup_cons.mpr ⟨hb, h.nodup⟩)
  · intro a ha
    rcases hmem.mp ha with rfl | hold
    · exact hlt
    · exact h.allocated a hold
  · have hwhole := h.whole
    rw [hpc, List.length_append] at hwhole
    rw [List.length_append, List.length_cons]
    exact hwhole
  · -- its `next` is the one that the tail block had
    obtain ⟨next, rest, hrest⟩ := List.exists_cons_of_ne_nil
      (List.append_ne_nil_of_right_ne_nil free (List.cons_ne_nil s.queue.frontBlock []))
    have hring := h.ring
    change List.IsChain _ (used ++ b :: free ++ [s.queue.frontBlock])
    rw [h.used_concat] at hring ⊢
    simp only [List.append_assoc, List.cons_append, List.nil_append, hrest] at hring ⊢
    rw [List.isChain_append_cons_cons] at hring ⊢
    rw [List.isChain_cons_cons]
    obtain ⟨hinit, hnext, hlast⟩ := hring
    refine ⟨next_congr hinit ?_, by rw [hself], ?_, ?_⟩
    · intro a ha
      rw [hother]
      rintro rfl
      exact h.tailBlock_notMem_dropLast ha
    · rw [hother (hne htb).symm, hheap, ← hnext]
      rfl
    · rw [← hrest] at hlast ⊢
      refine next_congr hlast ?_
      intro a ha
      rw [hother]
      rintro rfl
      exact h.not_free h.tailBlock_mem ha
  · have hreserve := h.reserve
    refine Nat.le_trans hreserve (Nat.mul_le_mul_right w ?_)
    simp only [List.length_append, List.length_cons]
    omega
  · refine ⟨hfull, rfl, ?_⟩
    rw [hnew]
  · exact h.consumer

/-- The producer goes on to the first free block, with the element in it. -/
theorem Inv.setTailBlock (h : Inv size w s g used free) {element : α} {b : Nat}
    (hpc : s.producer = .setTailBlock element b) {M : Nat} {malloc : Bool}
    (hstep : s.producerStep M malloc = some s') :
    Inv size w s' g (used ++ [b]) free.tail := by
  have hproducer := h.producer
  rw [hpc] at hproducer
  obtain ⟨hfull, hhead, hsame⟩ := hproducer
  have hfree := List.eq_cons_of_mem_head? hhead
  have hall : used ++ [b] ++ free.tail = used ++ free := by
    rw [List.append_assoc, List.singleton_append, ← hfree]
  have hb : b ∈ free := List.mem_of_mem_head? hhead
  have hitems : (g b).items = [element] := by
    rw [(h.blocks b (List.mem_append_right _ hb)).free hb, hpc]
    exact if_pos rfl
  simp only [Threads.producerStep, hpc] at hstep
  obtain rfl := Option.some.inj hstep
  refine ⟨?_, ?_, ?_, ?_, ?_, ?_, ?_, h.largest, ?_, ?_, trivial, ?_⟩
  · intro a ha
    have hok := h.blocks a (hall ▸ ha)
    refine ⟨hok.block, hok.sound, hok.room, hok.start, ?_, ?_, ?_, ?_⟩
    · rw [hok.pending, hpc]
      rfl
    · intro hleft
      rw [List.dropLast_concat, h.used_concat] at hleft
      rcases List.mem_append.mp hleft with hleft | hlast
      · exact hok.left hleft
      · rw [List.mem_singleton.mp hlast]
        exact hfull
    · intro hreached
      rw [h.used_eq, List.cons_append, List.tail_cons] at hreached
      rcases List.mem_append.mp hreached with hreached | hlast
      · exact hok.reached hreached
      · rw [List.mem_singleton.mp hlast, hitems]
        exact ⟨List.cons_ne_nil _ _, hsame⟩
    · intro hafree
      rw [hok.free (List.mem_of_mem_tail hafree), hpc]
      refine if_neg ?_
      rintro rfl
      have hnodup := (List.nodup_append.mp h.nodup).2.1
      rw [hfree] at hnodup
      exact (List.nodup_cons.mp hnodup).1 hafree
  · rw [hall]
    exact h.nodup
  · rw [hall]
    exact h.allocated
  · have hwhole := h.whole
    rw [hpc] at hwhole
    rw [hall]
    exact hwhole
  · rw [List.head?_append, h.front]
    rfl
  · rw [List.getLast?_concat]
  · rw [hall]
    exact h.ring
  · rw [hall]
    exact h.reserve
  · rw [h.log, List.flatMap_append, List.flatMap_singleton, hitems, List.append_assoc]
  · exact ConsumerOk.append h (fun _ _ => rfl) [b] rfl fun _ => id

/-- Each step of the producer keeps the invariant. -/
theorem Inv.producerStep (h : Inv size w s g used free) (hseen : s.occupancy ∈ s.producerSaw)
    {M : Nat} {malloc : Bool} (hstep : s.producerStep M malloc = some s') :
    ∃ g used free, Inv size w s' g used free := by
  cases hpc : s.producer with
  | idle | returned _ | failed =>
    rw [Threads.producerStep, hpc] at hstep
    cases hstep
  | findRoom mode element =>
    obtain ⟨g, h⟩ := h.findRoom hseen hpc hstep
    exact ⟨g, _, _, h⟩
  | construct element nextBlockTail =>
    obtain ⟨g, h⟩ := h.construct hpc hstep
    exact ⟨g, _, _, h⟩
  | setTail element nextBlockTail =>
    obtain ⟨g, h⟩ := h.setTail hpc hstep
    exact ⟨g, _, _, h⟩
  | testNext mode element =>
    obtain ⟨g, h⟩ := h.testNext hseen hpc hstep
    exact ⟨g, _, _, h⟩
  | enterNext element =>
    obtain ⟨g, h⟩ := h.enterNext hpc hstep
    exact ⟨g, _, _, h⟩
  | constructNext element b =>
    obtain ⟨g, h⟩ := h.constructNext hpc hstep
    exact ⟨g, _, _, h⟩
  | setNextTail element b =>
    obtain ⟨g, h⟩ := h.setNextTail hpc hstep
    exact ⟨g, _, _, h⟩
  | link element b => exact ⟨g, _, _, h.link hpc hstep⟩
  | setTailBlock element b => exact ⟨g, _, _, h.setTailBlock hpc hstep⟩

/-! ### The consumer -/

theorem Inv.findElement (h : Inv size w s g used free) (hseen : s.occupancy ∈ s.consumerSaw)
    (hpc : s.consumer = .findElement) (hstep : s.consumerStep = some s') :
    ∃ g, Inv size w s' g used free := by
  have hok := h.frontBlock_ok
  have hsound := hok.sound
  have htaken : s.consumer.taken = none := by rw [hpc]; rfl
  obtain ⟨next, hheap⟩ : ∃ next, s.queue.heap s.queue.frontBlock =
    (g s.queue.frontBlock).block next := ⟨_, hok.block⟩
  have hstart : (g s.queue.frontBlock).start = (g s.queue.frontBlock).front := by
    rw [hok.start, if_pos rfl, htaken]
    rfl
  simp only [Threads.consumerStep, hpc, hheap, Contents.block] at hstep
  split at hstep
  · -- there is an element in front of the copy
    rename_i hlt
    obtain rfl := Option.some.inj hstep
    exact ⟨g, h.go rfl htaken.symm rfl rfl rfl h.producer (hsound.front_localTail_iff.mp hlt)⟩
  · split at hstep
    · -- the producer has added one since
      rename_i hlt
      obtain rfl := Option.some.inj hstep
      refine ⟨_, h.updateFront (c := (g s.queue.frontBlock).seeTail) hheap rfl
        ⟨rfl, rfl, rfl, rfl⟩ hsound.seeTail hstart (by rw [htaken]; rfl) ?_⟩
      simp only [ConsumerOk, ReaderWriterQueue.set, Function.update_self]
      exact hsound.front_tail_iff.mp hlt
    · rename_i hempty
      obtain rfl := Option.some.inj hstep
      refine ⟨_, h.updateFront (c := (g s.queue.frontBlock).seeTail) hheap rfl
        ⟨rfl, rfl, rfl, rfl⟩ hsound.seeTail hstart (by rw [htaken]; rfl) ?_⟩
      intro hused
      have hitems : (g s.queue.frontBlock).items.length = 0 := by
        rw [hsound.front_tail_iff, Contents.tail, hstart] at hempty
        omega
      have hnone : s.occupancy = 0 := by
        rw [h.occupancy_eq, h.only_frontBlock hused, List.flatMap_singleton, hitems, htaken]
        rfl
      exact hnone ▸ hseen

/-- There is an element for the consumer to take. -/
theorem Inv.exists_front (h : Inv size w s g used free) (hpc : s.consumer = .take) :
    (g s.queue.frontBlock).start = (g s.queue.frontBlock).front ∧
      ∃ element items, (g s.queue.frontBlock).items = element :: items := by
  have hok := h.frontBlock_ok
  have hlt := h.consumer
  have htail := hok.sound.localTail_le
  have hstart : (g s.queue.frontBlock).start = (g s.queue.frontBlock).front := by
    rw [hok.start, if_pos rfl, hpc]
    rfl
  refine ⟨hstart, List.exists_cons_of_length_pos ?_⟩
  rw [hpc] at hlt
  rw [Contents.tail, hstart] at htail
  exact Nat.pos_of_lt_add_right (Nat.lt_of_lt_of_le hlt htail)

theorem Inv.take (h : Inv size w s g used free) (hpc : s.consumer = .take)
    (hstep : s.consumerStep = some s') : ∃ g, Inv size w s' g used free := by
  have hok := h.frontBlock_ok
  have hsound := hok.sound
  have hlt := h.consumer
  have htaken : s.consumer.taken = none := by rw [hpc]; rfl
  obtain ⟨next, hheap⟩ : ∃ next, s.queue.heap s.queue.frontBlock =
    (g s.queue.frontBlock).block next := ⟨_, hok.block⟩
  obtain ⟨hstart, element, items, hitems⟩ := h.exists_front hpc
  rw [hpc] at hlt
  have hblock := Contents.block_take next hitems hstart hsound.room
  have hdata := Contents.data_front next hsound hitems hstart
  have hindex : ((g s.queue.frontBlock).block next).front =
      (g s.queue.frontBlock).front % (g s.queue.frontBlock).size := rfl
  simp only [Threads.consumerStep, hpc, hheap, hindex, hdata] at hstep
  obtain rfl := Option.some.inj hstep
  refine ⟨_, h.updateFront (c := (g s.queue.frontBlock).take items) hheap
    (by rw [← hblock]; rfl) ⟨rfl, Contents.tail_take hitems, rfl, rfl⟩
    (hsound.take hitems (hstart ▸ hlt)) ?_ ?_ ?_⟩
  · rw [Contents.take, hstart]
    rfl
  · rw [htaken, hitems]
    simp [Contents.take, Consumer.taken]
  · exact trivial

/-- The element leaves the queue. -/
theorem Inv.setFront (h : Inv size w s g used free) {element : α}
    (hpc : s.consumer = .setFront element) (hstep : s.consumerStep = some s') :
    ∃ g, Inv size w s' g used free := by
  have hok := h.frontBlock_ok
  have hsound := hok.sound
  obtain ⟨next, hheap⟩ : ∃ next, s.queue.heap s.queue.frontBlock =
    (g s.queue.frontBlock).block next := ⟨_, hok.block⟩
  have hstart : (g s.queue.frontBlock).start = (g s.queue.frontBlock).front + 1 := by
    rw [hok.start, if_pos rfl, hpc]
    rfl
  have hmask := hsound.and_mask (g s.queue.frontBlock).front
  simp only [Threads.consumerStep, hpc, hheap, Contents.block, hmask] at hstep
  obtain rfl := Option.some.inj hstep
  refine ⟨_, h.updateFront (c := (g s.queue.frontBlock).setFront) hheap rfl
    ⟨rfl, rfl, rfl, rfl⟩ (hsound.setFront (by omega)) hstart ?_ trivial⟩
  rw [hpc]
  simp [Contents.setFront, Consumer.taken]

theorem Inv.testTailBlock (h : Inv size w s g used free) (hpc : s.consumer = .testTailBlock)
    (hstep : s.consumerStep = some s') : Inv size w s' g used free := by
  have hconsumer := h.consumer
  rw [hpc] at hconsumer
  simp only [Threads.consumerStep, hpc, ne_eq, h.frontBlock_eq_tailBlock_iff] at hstep
  split at hstep
  · rename_i hused
    obtain rfl := Option.some.inj hstep
    exact h.go rfl (by rw [hpc]; rfl) rfl rfl rfl h.producer hused
  · rename_i hused
    obtain rfl := Option.some.inj hstep
    exact h.go rfl (by rw [hpc]; rfl) rfl rfl rfl h.producer (hconsumer (not_not.mp hused))

/-- The producer has left the front block, and the consumer looks again whether it is empty. -/
theorem Inv.testAgain (h : Inv size w s g used free) (hpc : s.consumer = .testAgain)
    (hstep : s.consumerStep = some s') : ∃ g, Inv size w s' g used free := by
  have hok := h.frontBlock_ok
  have hsound := hok.sound
  have hused := h.consumer
  have htaken : s.consumer.taken = none := by rw [hpc]; rfl
  obtain ⟨next, hheap⟩ : ∃ next, s.queue.heap s.queue.frontBlock =
    (g s.queue.frontBlock).block next := ⟨_, hok.block⟩
  have hstart : (g s.queue.frontBlock).start = (g s.queue.frontBlock).front := by
    rw [hok.start, if_pos rfl, htaken]
    rfl
  rw [hpc] at hused
  simp only [Threads.consumerStep, hpc, hheap, Contents.block] at hstep
  split at hstep
  · rename_i hlt
    obtain rfl := Option.some.inj hstep
    refine ⟨_, h.updateFront (c := (g s.queue.frontBlock).seeTail) hheap rfl
      ⟨rfl, rfl, rfl, rfl⟩ hsound.seeTail hstart (by rw [htaken]; rfl) ?_⟩
    simp only [ConsumerOk, ReaderWriterQueue.set, Function.update_self]
    exact hsound.front_tail_iff.mp hlt
  · rename_i hempty
    obtain rfl := Option.some.inj hstep
    refine ⟨_, h.updateFront (c := (g s.queue.frontBlock).seeTail) hheap rfl
      ⟨rfl, rfl, rfl, rfl⟩ hsound.seeTail hstart (by rw [htaken]; rfl) ?_⟩
    simp only [ConsumerOk, ReaderWriterQueue.set, Function.update_self]
    refine ⟨hused, List.eq_nil_of_length_eq_zero ?_⟩
    rw [hsound.front_tail_iff, Contents.tail, hstart] at hempty
    simp only [Contents.seeTail]
    omega

theorem Inv.loadNext (h : Inv size w s g used free) (hpc : s.consumer = .loadNext)
    (hstep : s.consumerStep = some s') : Inv size w s' g used free := by
  have hconsumer := h.consumer
  rw [hpc] at hconsumer
  obtain ⟨hused, hitems⟩ := hconsumer
  obtain ⟨b, rest, hrest⟩ := List.exists_cons_of_ne_nil hused
  have hring := h.ring
  rw [h.used_eq, hrest] at hring
  simp only [List.cons_append, List.isChain_cons_cons] at hring
  simp only [Threads.consumerStep, hpc] at hstep
  obtain rfl := Option.some.inj hstep
  refine h.go rfl (by rw [hpc]; rfl) rfl rfl rfl h.producer ⟨?_, hitems⟩
  rw [hrest, hring.1]
  rfl

theorem Inv.enterNext_consumer (h : Inv size w s g used free) {b : Nat}
    (hpc : s.consumer = .enterNext b) (hstep : s.consumerStep = some s') :
    ∃ g, Inv size w s' g used free := by
  have hconsumer := h.consumer
  have htaken : s.consumer.taken = none := by rw [hpc]; rfl
  rw [hpc] at hconsumer
  obtain ⟨hhead, hitems⟩ := hconsumer
  have hb := List.mem_of_mem_head? hhead
  have hused := List.mem_of_mem_tail hb
  have hmem : b ∈ used ++ free := List.mem_append_left _ hused
  have hok := h.blocks b hmem
  have hne : b ≠ s.queue.frontBlock := by
    rintro rfl
    exact h.frontBlock_notMem_tail hb
  obtain ⟨next, hheap⟩ : ∃ next, s.queue.heap b = (g b).block next := ⟨_, hok.block⟩
  have hlt : (g b).front < (g b).tail := by
    have hstart := hok.start
    have hpos := List.length_pos_iff.mpr (hok.reached hb).1
    rw [if_neg hne] at hstart
    rw [Contents.tail]
    omega
  simp only [Threads.consumerStep, hpc, hheap, Contents.block] at hstep
  rw [if_pos (hok.sound.front_tail_iff.mpr hlt)] at hstep
  obtain rfl := Option.some.inj hstep
  refine ⟨_, h.update (c := (g b).seeTail) hmem rfl (by rw [hheap]; rfl) ?_ rfl ?_ ?_ ?_ ?_⟩
  · intro a _
    exact ⟨fun _ => htaken.symm, rfl, rfl⟩
  · refine ⟨?_, hok.sound.seeTail, hok.room, ?_, hok.pending, hok.left, hok.reached, hok.free⟩
    · simp [ReaderWriterQueue.set, Contents.block, Contents.seeTail, Contents.tail]
    · have hstart := hok.start
      rw [if_neg hne] at hstart
      exact hstart.trans (congrArg _ (if_neg hne).symm)
  · have hlog := h.log
    rw [htaken] at hlog
    rw [flatMap_update (c := (g b).seeTail) rfl]
    exact hlog
  · refine ProducerOk.update (c := (g b).seeTail) h hused ?_ rfl rfl rfl rfl rfl
    rw [hheap]
    rfl
  · have hfront : Function.update g b (g b).seeTail s.queue.frontBlock = g s.queue.frontBlock :=
      Function.update_of_ne hne.symm _ _
    refine ⟨hhead, (congrArg Contents.items hfront).trans hitems, ?_⟩
    rw [Function.update_self]
    exact hlt

theorem Inv.ahead_eq_nil (h : Inv size w s g used free) {a : Nat} (ha : a ∈ used) :
    s.producer.ahead a = [] := by
  have hproducer := h.producer
  cases hpc : s.producer with
  | setTailBlock element b =>
    rw [hpc] at hproducer
    refine if_neg ?_
    rintro rfl
    exact h.not_free ha (List.mem_of_mem_head? hproducer.2.1)
  | _ => rfl

/-- The consumer leaves the front block, which the producer may use again. -/
theorem Inv.setFrontBlock (h : Inv size w s g used free) {b : Nat}
    (hpc : s.consumer = .setFrontBlock b) (hstep : s.consumerStep = some s') :
    Inv size w s' g used.tail (free ++ [s.queue.frontBlock]) := by
  have hconsumer := h.consumer
  have htaken : s.consumer.taken = none := by rw [hpc]; rfl
  have htail := h.tail
  have hring := h.ring
  have hproducer := h.producer
  rw [hpc] at hconsumer
  obtain ⟨hhead, hitems, hlt⟩ := hconsumer
  obtain ⟨rest, hrest⟩ : ∃ rest, used.tail = b :: rest := ⟨_, List.eq_cons_of_mem_head? hhead⟩
  have hperm : (used.tail ++ (free ++ [s.queue.frontBlock])).Perm (used ++ free) := by
    rw [← List.append_assoc, h.used_eq, List.tail_cons, List.cons_append]
    exact List.perm_append_singleton _ _
  have hlength : 2 ≤ (used.tail ++ (free ++ [s.queue.frontBlock])).length := by
    rw [hrest, List.length_append, List.length_append, List.length_cons, List.length_singleton]
    omega
  have hinit : ∀ a ∈ used.tail.dropLast, a ∈ used.dropLast := by
    intro a ha
    rw [hrest] at ha
    rw [h.used_eq, hrest, List.dropLast_cons_cons]
    exact List.mem_cons_of_mem _ ha
  simp only [Threads.consumerStep, hpc] at hstep
  obtain rfl := Option.some.inj hstep
  refine ⟨?_, hperm.nodup_iff.mpr h.nodup, ?_, ?_, hhead, ?_, ?_, h.largest, ?_, ?_, ?_, hlt⟩
  · intro a ha
    have hok := h.blocks a (hperm.mem_iff.mp ha)
    refine ⟨hok.block, hok.sound, hok.room, ?_, hok.pending, fun hleft => hok.left (hinit a hleft),
      fun hreached => hok.reached (List.mem_of_mem_tail hreached), ?_⟩
    · have hstart := hok.start
      rw [htaken] at hstart
      simpa [Consumer.taken] using hstart
    · intro hfree
      rcases List.mem_append.mp hfree with hfree | hlast
      · exact hok.free hfree
      · rw [List.mem_singleton.mp hlast, hitems]
        exact (h.ahead_eq_nil h.frontBlock_mem).symm
  · intro a ha
    exact h.allocated a (hperm.mem_iff.mp ha)
  · rw [hperm.length_eq]
    exact h.whole
  · have hne : used.tail ≠ [] := by
      rw [hrest]
      exact List.cons_ne_nil _ _
    rw [h.used_eq, List.getLast?_cons_of_ne_nil hne] at htail
    exact htail
  · rw [h.used_eq, hrest, List.append_assoc] at hring
    rw [hrest, ← List.append_assoc, List.append_assoc _ [s.queue.frontBlock]]
    rw [List.cons_append, List.cons_append, List.isChain_cons_cons] at hring
    refine List.isChain_append_cons_cons.mpr ⟨?_, hring.1, .singleton _⟩
    rw [List.append_assoc, List.cons_append]
    exact hring.2
  · rw [hperm.length_eq]
    exact h.reserve
  · have hlog := h.log
    rw [h.used_eq, List.flatMap_cons, hitems, htaken] at hlog
    exact hlog
  · revert hproducer
    cases s.producer with
    | testNext _ _ =>
      rintro ⟨hfull, -⟩
      refine ⟨hfull, fun hone => ?_⟩
      rw [hone] at hlength
      exact absurd hlength (by simp)
    | enterNext _ =>
      rintro ⟨hfull, -⟩
      exact ⟨hfull, List.append_ne_nil_of_right_ne_nil _ (List.cons_ne_nil _ _)⟩
    | constructNext _ b | setNextTail _ b | setTailBlock _ b =>
      rintro ⟨hfull, hhead, hsame⟩
      refine ⟨hfull, ?_, hsame⟩
      rw [List.head?_append, hhead]
      rfl
    | link _ b =>
      rintro ⟨hfull, hcrowded, hb, hrest⟩
      exact ⟨hfull, hcrowded, fun hmem => hb (hperm.mem_iff.mp hmem), hrest⟩
    | returned result => cases result <;> exact id
    | _ => exact id

/-- Each step of the consumer keeps the invariant. -/
theorem Inv.consumerStep (h : Inv size w s g used free) (hseen : s.occupancy ∈ s.consumerSaw)
    (hstep : s.consumerStep = some s') : ∃ g used free, Inv size w s' g used free := by
  cases hpc : s.consumer with
  | idle | returned _ | failed =>
    rw [Threads.consumerStep, hpc] at hstep
    cases hstep
  | findElement =>
    obtain ⟨g, h⟩ := h.findElement hseen hpc hstep
    exact ⟨g, _, _, h⟩
  | take =>
    obtain ⟨g, h⟩ := h.take hpc hstep
    exact ⟨g, _, _, h⟩
  | setFront element =>
    obtain ⟨g, h⟩ := h.setFront hpc hstep
    exact ⟨g, _, _, h⟩
  | testTailBlock => exact ⟨g, _, _, h.testTailBlock hpc hstep⟩
  | testAgain =>
    obtain ⟨g, h⟩ := h.testAgain hpc hstep
    exact ⟨g, _, _, h⟩
  | loadNext => exact ⟨g, _, _, h.loadNext hpc hstep⟩
  | enterNext b =>
    obtain ⟨g, h⟩ := h.enterNext_consumer hpc hstep
    exact ⟨g, _, _, h⟩
  | setFrontBlock b => exact ⟨g, _, _, h.setFrontBlock hpc hstep⟩

end Moodycamel
