import MavlinkDim.QueueRuns

/-!
# Walks through the ring

The destructor goes once round the ring.  It destroys the elements that are still in
the queue, and no others, and frees every block that there is.
-/

namespace Moodycamel

open RingBuffer ReaderWriterQueue

variable {α β : Type*} {size w : Nat} {s : Threads α} {g : Nat → Contents α}
  {used free : List Nat}

theorem forBlocks_eq {q : ReaderWriterQueue α} {body : Nat → Option β} {f : Nat → β} {a fuel : Nat}
    {l : List Nat} (hring : (a :: l ++ [q.frontBlock]).IsChain fun a b => (q.heap a).next = b)
    (hl : q.frontBlock ∉ l) (hbody : ∀ b ∈ a :: l, body b = some (f b)) (hfuel : l.length < fuel) :
    q.forBlocks body fuel a = some ((a :: l).map f) := by
  induction l generalizing a fuel with
  | nil =>
    obtain ⟨fuel, rfl⟩ := Nat.exists_eq_succ_of_ne_zero (Nat.ne_of_gt hfuel)
    have hnext : (q.heap a).next = q.frontBlock := (List.isChain_cons_cons.mp hring).1
    simp [forBlocks, hbody a (List.mem_singleton_self a), hnext]
  | cons b l ih =>
    obtain ⟨fuel, rfl⟩ := Nat.exists_eq_succ_of_ne_zero (Nat.ne_of_gt (Nat.zero_lt_of_lt hfuel))
    obtain ⟨hnext, hring⟩ := List.isChain_cons_cons.mp hring
    have hb : b ≠ q.frontBlock := fun heq => hl (heq ▸ List.mem_cons_self ..)
    have hrest := ih hring (fun hmem => hl (List.mem_cons_of_mem _ hmem))
      (fun c hc => hbody c (List.mem_cons_of_mem _ hc)) (Nat.lt_of_succ_lt_succ hfuel)
    simp [forBlocks, hbody a (List.mem_cons_self ..), hnext, hb, hrest]

/-- The walk goes over all blocks of the ring, from the front block on. -/
theorem Inv.forBlocks (h : Inv size w s g used free) {body : Nat → Option β} {f : Nat → β}
    {fuel : Nat} (hbody : ∀ b ∈ used ++ free, body b = some (f b))
    (hfuel : (used ++ free).length ≤ fuel) :
    s.queue.forBlocks body fuel s.queue.frontBlock = some ((used ++ free).map f) := by
  have hall : used ++ free = s.queue.frontBlock :: (used.tail ++ free) := by
    rw [← List.cons_append, ← h.used_eq]
  have hring := h.ring
  have hnodup := h.nodup
  rw [hall] at hring hnodup hbody hfuel ⊢
  exact forBlocks_eq hring (List.nodup_cons.mp hnodup).1 hbody hfuel

/-- Destroying from the `j`-th element on. -/
theorem Contents.destroyElements_eq {c : Contents α} {next j fuel : Nat} (hsound : c.Sound)
    (hpending : c.pending = none) (hj : j ≤ c.items.length) (hfuel : c.items.length < fuel + j) :
    destroyElements (c.block next) fuel ((c.start + j) % c.size) = some (c.items.drop j) := by
  have hlength := hsound.length_lt
  have htail : (c.block next).tail = (c.start + c.items.length) % c.size := rfl
  have hmask : (c.block next).sizeMask = c.size - 1 := rfl
  have hdata : (c.block next).data = cells c.size c.start c.items := by
    simp [Contents.block, hpending]
  induction fuel generalizing j with
  | zero => omega
  | succ fuel ih =>
    have hend : (c.start + j) % c.size = (c.start + c.items.length) % c.size ↔
        j = c.items.length := by
      rw [mod_eq_mod_iff_of_lt (by omega) (by omega)]
      omega
    rw [destroyElements, htail]
    by_cases hlast : j = c.items.length
    · rw [if_neg (not_not.mpr (hend.mpr hlast)), hlast, List.drop_length]
    · have hlt : j < c.items.length := by omega
      rw [if_pos fun heq => hlast (hend.mp heq), hdata, cells_at (by omega), hmask,
        hsound.and_mask, Nat.add_assoc, ih (by omega) (by omega), List.drop_eq_getElem_cons hlt,
        List.getElem?_eq_getElem hlt]
      rfl

/-- No call is in progress. -/
def Threads.Quiet (s : Threads α) : Prop :=
  (s.producer = .idle ∨ ∃ result, s.producer = .returned result) ∧
    (s.consumer = .idle ∨ ∃ result, s.consumer = .returned result)

theorem Threads.Quiet.eqs (h : s.Quiet) : s.consumer.taken = none ∧ s.producer.unlinked = 0 ∧
    ∀ a, s.producer.pending s.queue.tailBlock a = none ∧ s.producer.ahead a = [] := by
  obtain ⟨hproducer, hconsumer⟩ := h
  refine ⟨?_, ?_, ?_⟩
  · rcases hconsumer with hpc | ⟨result, hpc⟩ <;> rw [hpc] <;> rfl
  · rcases hproducer with hpc | ⟨result, hpc⟩ <;> rw [hpc] <;> rfl
  · intro a
    rcases hproducer with hpc | ⟨result, hpc⟩ <;> rw [hpc] <;> exact ⟨rfl, rfl⟩

/-- What is left in a block when no call is in progress. -/
theorem BlockOk.destroyElements_eq {a : Nat} {c : Contents α} (hok : BlockOk w s used free a c)
    (hquiet : s.Quiet) {fuel : Nat} (hfuel : c.items.length < fuel) :
    destroyElements (s.queue.heap a) fuel (s.queue.heap a).front = some c.items := by
  obtain ⟨htaken, -, hrest⟩ := hquiet.eqs
  have hstart := hok.start
  have hpending := hok.pending
  rw [htaken] at hstart
  rw [(hrest a).1] at hpending
  have hfront : (s.queue.heap a).front = (c.start + 0) % c.size := by
    rw [hok.block, hstart]
    simp [Contents.block]
  rw [hfront, hok.block]
  exact Contents.destroyElements_eq hok.sound hpending (Nat.zero_le _) hfuel

theorem Inv.destroy (h : Inv size w s g used free) (hquiet : s.Quiet) {fuel : Nat}
    (hrounds : (used ++ free).length ≤ fuel)
    (hfuel : ∀ a ∈ used ++ free, (g a).items.length < fuel) :
    s.queue.destroy fuel = some (used.flatMap fun a => (g a).items, used ++ free) := by
  obtain ⟨-, -, hrest⟩ := hquiet.eqs
  have hbody : ∀ a ∈ used ++ free,
      (destroyElements (s.queue.heap a) fuel (s.queue.heap a).front).map (·, a) =
        some ((g a).items, a) := by
    intro a ha
    rw [(h.blocks a ha).destroyElements_eq hquiet (hfuel a ha)]
    rfl
  have hempty : free.flatMap (fun a => (g a).items) = [] := by
    rw [List.flatMap_eq_nil_iff]
    intro a ha
    rw [(h.blocks a (List.mem_append_right _ ha)).free ha, (hrest a).2]
  rw [ReaderWriterQueue.destroy, h.forBlocks hbody hrounds]
  simp [List.flatMap_map, Function.comp_def, hempty]

theorem Consistent.destroy (h : Consistent size s) (hquiet : s.Quiet) :
    ∃ n rest freed, (∀ fuel ≥ n, s.queue.destroy fuel = some (rest, freed)) ∧
      s.enqueued = s.dequeued ++ rest ∧ freed.Perm (List.range s.queue.allocated) := by
  obtain ⟨⟨w, g, used, free, h⟩, -, -⟩ := h
  obtain ⟨htaken, hunlinked, -⟩ := hquiet.eqs
  have hlog := h.log
  have hwhole := h.whole
  rw [htaken] at hlog
  rw [hunlinked] at hwhole
  refine ⟨(used ++ free).length + ((used ++ free).map fun a => (g a).items.length).sum + 1,
    used.flatMap fun a => (g a).items, used ++ free, ?_, by simpa using hlog, ?_⟩
  · intro fuel hfuel
    refine h.destroy hquiet (by omega) ?_
    intro a ha
    have hle := List.le_sum_of_mem (List.mem_map_of_mem (f := fun a => (g a).items.length) ha)
    omega
  · refine List.Subperm.perm_of_length_le (List.subperm_of_subset h.nodup ?_) ?_
    · intro a ha
      exact List.mem_range.mpr (h.allocated a ha)
    · rw [List.length_range, ← hwhole, Nat.add_zero]

theorem Consistent.maxCapacity (h : Consistent size s) :
    ∃ n capacity, (∀ fuel ≥ n, s.queue.maxCapacity fuel = some capacity) ∧ size ≤ capacity := by
  obtain ⟨⟨w, g, used, free, h⟩, -, -⟩ := h
  refine ⟨(used ++ free).length, ((used ++ free).map fun a => (s.queue.heap a).sizeMask).sum,
    ?_, ?_⟩
  · intro fuel hfuel
    rw [ReaderWriterQueue.maxCapacity, h.forBlocks (fun _ _ => rfl) hfuel]
    rfl
  · have hblocks : ∀ n ∈ (used ++ free).map fun a => (s.queue.heap a).sizeMask, w ≤ n := by
      intro n hn
      obtain ⟨a, ha, rfl⟩ := List.mem_map.mp hn
      have hok := h.blocks a ha
      have hroom := hok.room
      rw [hok.block]
      exact Nat.le_sub_one_of_lt hroom
    have hsum := List.card_nsmul_le_sum _ _ hblocks
    have hpos : 0 < (used ++ free).length :=
      List.length_pos_iff.mpr (List.ne_nil_of_mem (List.mem_append_left _ h.frontBlock_mem))
    rw [List.length_map, smul_eq_mul] at hsum
    refine Nat.le_trans (Nat.le_trans h.reserve (Nat.mul_le_mul_right w ?_)) hsum
    omega

/-- The destructor destroys once each, in their order, the elements that were put in and not taken
    out, and frees once each the blocks that were allocated. -/
theorem destroy_rest {M k : Nat} (hM : M = 2 ^ (k + 1)) (hpos : 0 < size) (hsize : size < 2 ^ 63)
    {malloc : Nat → Bool} {q : ReaderWriterQueue α}
    (hq : ReaderWriterQueue.construct M malloc size = some q) (steps : List (ThreadStep α)) :
    ∀ s ∈ Runs.states (ThreadStep.run M) (Threads.start q) steps, s.Quiet →
      ∃ n rest freed, (∀ fuel ≥ n, s.queue.destroy fuel = some (rest, freed)) ∧
        s.enqueued = s.dequeued ++ rest ∧ freed.Perm (List.range s.queue.allocated) :=
  fun _ hs => (consistent_of_mem hM hpos hsize hq hs).destroy

theorem destroy_rest_one : ∃ s ∈ Runs.states (ThreadStep.run 2)
    (Threads.start (⟨ReaderWriterQueue.makeBlocks 2 1, 1, 0, 0, 2⟩ : ReaderWriterQueue Char))
    [.enqueue .canAlloc 'a', .producer true, .producer true, .producer true],
    ∃ n rest freed, (∀ fuel ≥ n, s.queue.destroy fuel = some (rest, freed)) ∧
      s.enqueued = s.dequeued ++ rest ∧ freed.Perm (List.range s.queue.allocated) := by
  have h := destroy_rest (k := 0) rfl (by decide) (by decide) construct_two
    [.enqueue .canAlloc 'a', .producer true, .producer true, .producer true]
  exact ⟨_, List.mem_of_getElem? (i := 3) rfl,
    h _ (List.mem_of_getElem? (i := 3) rfl) ⟨Or.inr ⟨true, rfl⟩, Or.inl rfl⟩⟩

/-- The capacity never falls below what the queue was made for. -/
theorem le_maxCapacity {M k : Nat} (hM : M = 2 ^ (k + 1)) (hpos : 0 < size) (hsize : size < 2 ^ 63)
    {malloc : Nat → Bool} {q : ReaderWriterQueue α}
    (hq : ReaderWriterQueue.construct M malloc size = some q) (steps : List (ThreadStep α)) :
    ∀ s ∈ Runs.states (ThreadStep.run M) (Threads.start q) steps,
      ∃ n capacity, (∀ fuel ≥ n, s.queue.maxCapacity fuel = some capacity) ∧ size ≤ capacity :=
  fun _ hs => (consistent_of_mem hM hpos hsize hq hs).maxCapacity

theorem le_maxCapacity_one : ∃ s ∈ Runs.states (ThreadStep.run 2)
    (Threads.start (⟨ReaderWriterQueue.makeBlocks 2 1, 1, 0, 0, 2⟩ : ReaderWriterQueue Char))
    [.enqueue .canAlloc 'a', .producer true, .producer true, .producer true,
      .enqueue .canAlloc 'b', .producer true, .producer true, .producer true],
    s.queue.maxCapacity 5 = some 2 ∧
      ∃ n capacity, (∀ fuel ≥ n, s.queue.maxCapacity fuel = some capacity) ∧ 1 ≤ capacity := by
  have h := le_maxCapacity (k := 0) rfl (by decide) (by decide) construct_two
    [.enqueue .canAlloc 'a', .producer true, .producer true, .producer true,
      .enqueue .canAlloc 'b', .producer true, .producer true, .producer true]
  exact ⟨_, List.mem_of_getElem? (i := 7) rfl, rfl, h _ (List.mem_of_getElem? (i := 7) rfl)⟩

end Moodycamel
