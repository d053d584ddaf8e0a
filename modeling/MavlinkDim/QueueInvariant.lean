import Mathlib.Data.List.Chain
import MavlinkDim.ReaderWriterQueue
import MavlinkDim.RingBuffer

/-!
# What the blocks of a queue hold

The blocks from the front one to the tail one hold the elements of the queue, the
others are free.  `Inv` says so of the memory, whatever step the two threads are at.
-/

namespace Moodycamel

open RingBuffer

variable {α : Type*}

/-! ### One block -/

/-- What a block stands for: its elements, and one behind them that is constructed but not yet
    part of it.  The indices are positions, counted without end; the element at `front` is not
    among the `items` while the consumer has it. -/
structure Contents (α : Type*) where
  size : Nat
  front : Nat
  start : Nat
  localTail : Nat
  localFront : Nat
  items : List α
  pending : Option α

namespace Contents

variable {g : Contents α}

def tail (g : Contents α) : Nat := g.start + g.items.length

def block (g : Contents α) (next : Nat) : Block α :=
  ⟨g.front % g.size, g.localTail % g.size, g.tail % g.size, g.localFront % g.size, next,
    cells g.size g.start (g.items ++ g.pending.toList), g.size - 1⟩

/-- The copies are behind what they are copies of, and a slot stays free. -/
structure Sound (g : Contents α) : Prop where
  size : ∃ k, g.size = 2 ^ (k + 1)
  localFront_le : g.localFront ≤ g.front
  front_le : g.front ≤ g.start
  start_le : g.start ≤ g.localTail
  localTail_le : g.localTail ≤ g.tail
  tail_lt : g.tail < g.localFront + g.size
  pending_lt : g.pending ≠ none → g.tail + 1 < g.localFront + g.size

/-- As far as the producer knows, there is no room. -/
def Full (g : Contents α) : Prop := g.tail + 1 = g.localFront + g.size

theorem Sound.one_lt (h : g.Sound) : 1 < g.size := by
  obtain ⟨k, hk⟩ := h.size
  rw [hk]
  exact Nat.one_lt_two_pow (Nat.succ_ne_zero k)

theorem Sound.length_lt (h : g.Sound) : g.items.length < g.size := by
  obtain ⟨-, hlocalFront, hfront, -, -, hlt, -⟩ := h
  rw [tail] at hlt
  omega

theorem Sound.room (h : g.Sound) : (g.items ++ g.pending.toList).length ≤ g.size := by
  have hlength := h.length_lt
  obtain ⟨-, hlocalFront, hfront, -, -, -, hroom⟩ := h
  cases hpending : g.pending with
  | none => simpa using hlength.le
  | some element =>
    have hlt := hroom (by rw [hpending]; exact Option.some_ne_none _)
    rw [tail] at hlt
    simp only [Option.toList_some, List.length_append, List.length_singleton]
    omega

theorem Sound.and_mask (h : g.Sound) (t : Nat) :
    (t % g.size + 1) &&& (g.size - 1) = (t + 1) % g.size := by
  obtain ⟨k, hk⟩ := h.size
  rw [hk, Nat.and_two_pow_sub_one_eq_mod, Nat.mod_add_mod]

theorem Sound.room_iff (h : g.Sound) :
    (g.tail + 1) % g.size ≠ g.localFront % g.size ↔ g.tail + 1 < g.localFront + g.size := by
  obtain ⟨-, hlf, hf, hs, hlt, htail, -⟩ := h
  rw [ne_comm, ne_eq, mod_eq_mod_iff (by omega) (by omega) (by omega)]
  omega

theorem Sound.room_front_iff (h : g.Sound) :
    (g.tail + 1) % g.size ≠ g.front % g.size ↔ g.tail + 1 < g.front + g.size := by
  obtain ⟨-, hlf, hf, hs, hlt, htail, -⟩ := h
  rw [ne_comm, ne_eq, mod_eq_mod_iff (by omega) (by omega) (by omega)]
  omega

theorem Sound.front_localTail_iff (h : g.Sound) :
    g.front % g.size ≠ g.localTail % g.size ↔ g.front < g.localTail := by
  obtain ⟨-, hlf, hf, hs, hlt, htail, -⟩ := h
  rw [ne_eq, mod_eq_mod_iff_of_lt (by omega) (by omega)]
  omega

theorem Sound.front_tail_iff (h : g.Sound) :
    g.front % g.size ≠ g.tail % g.size ↔ g.front < g.tail := by
  obtain ⟨-, hlf, hf, hs, hlt, htail, -⟩ := h
  rw [ne_eq, mod_eq_mod_iff_of_lt (by omega) (by omega)]
  omega

/-! The writes of the threads, as changes of what a block stands for. -/

variable {element : α} {items : List α}

def seeFront (g : Contents α) : Contents α := { g with localFront := g.front }

def seeTail (g : Contents α) : Contents α := { g with localTail := g.tail }

def construct (g : Contents α) (element : α) : Contents α := { g with pending := some element }

def setTail (g : Contents α) (element : α) : Contents α :=
  { g with items := g.items ++ [element], pending := none }

def take (g : Contents α) (items : List α) : Contents α :=
  { g with start := g.start + 1, items := items }

def setFront (g : Contents α) : Contents α := { g with front := g.front + 1 }

theorem block_construct (next : Nat) (element : α) (hpending : g.pending = none)
    (hroom : g.items.length < g.size) :
    { g.block next with
      data := Function.update (g.block next).data (g.tail % g.size) (some element) } =
      (g.construct element).block next := by
  have hdata : Function.update (cells g.size g.start (g.items ++ g.pending.toList))
      (g.tail % g.size) (some element) = cells g.size g.start (g.items ++ [element]) := by
    rw [hpending, Option.toList_none, List.append_nil, tail, update_append hroom]
  exact congrArg (fun data => Block.mk _ _ _ _ _ data _) hdata

theorem block_setTail (next : Nat) (hpending : g.pending = some element) :
    { g.block next with tail := (g.tail + 1) % g.size } = (g.setTail element).block next := by
  simp [block, setTail, tail, hpending, Nat.add_assoc]

theorem tail_setTail : (g.setTail element).tail = g.tail + 1 := by
  simp [setTail, tail, Nat.add_assoc]

theorem tail_take (hitems : g.items = element :: items) : (g.take items).tail = g.tail := by
  simp only [tail, take, hitems, List.length_cons]
  omega

theorem block_take (next : Nat) (hitems : g.items = element :: items) (hstart : g.start = g.front)
    (hroom : (g.items ++ g.pending.toList).length ≤ g.size) :
    { g.block next with data := Function.update (g.block next).data (g.front % g.size) none } =
      (g.take items).block next := by
  have hdata : Function.update (cells g.size g.start (g.items ++ g.pending.toList))
      (g.front % g.size) none = cells g.size (g.start + 1) (items ++ g.pending.toList) := by
    rw [hitems, List.cons_append] at hroom ⊢
    rw [← hstart, update_tail hroom]
  rw [block, block, tail_take hitems]
  exact congrArg (fun data => Block.mk _ _ _ _ _ data _) hdata

theorem data_front (next : Nat) (h : g.Sound) (hitems : g.items = element :: items)
    (hstart : g.start = g.front) : (g.block next).data (g.front % g.size) = some element := by
  have hone := h.one_lt
  rw [← hstart]
  exact (cells_first (by omega)).trans (by rw [hitems]; rfl)

theorem Sound.seeFront (h : g.Sound) (hpending : g.pending = none) : g.seeFront.Sound := by
  obtain ⟨hsize, hlocalFront, hfront, hstart, htail, hlt, -⟩ := h
  refine ⟨hsize, Nat.le_refl _, hfront, hstart, htail, ?_, fun hsome => absurd hpending hsome⟩
  exact Nat.lt_of_lt_of_le hlt (Nat.add_le_add_right hlocalFront _)

theorem Sound.seeTail (h : g.Sound) : g.seeTail.Sound := by
  obtain ⟨hsize, hlocalFront, hfront, hstart, htail, hlt, hroom⟩ := h
  exact ⟨hsize, hlocalFront, hfront, Nat.le_trans hstart htail, Nat.le_refl _, hlt, hroom⟩

theorem Sound.construct (h : g.Sound) (hroom : g.tail + 1 < g.localFront + g.size) :
    (g.construct element).Sound := by
  obtain ⟨hsize, hlocalFront, hfront, hstart, htail, hlt, -⟩ := h
  exact ⟨hsize, hlocalFront, hfront, hstart, htail, hlt, fun _ => hroom⟩

theorem Sound.setTail (h : g.Sound) (hroom : g.tail + 1 < g.localFront + g.size) :
    (g.setTail element).Sound := by
  obtain ⟨hsize, hlocalFront, hfront, hstart, htail, -, -⟩ := h
  refine ⟨hsize, hlocalFront, hfront, hstart, ?_, ?_, fun hsome => absurd rfl hsome⟩
  · rw [tail_setTail]
    exact Nat.le_succ_of_le htail
  · rw [tail_setTail]
    exact hroom

theorem Sound.take (h : g.Sound) (hitems : g.items = element :: items)
    (hlt : g.start < g.localTail) : (g.take items).Sound := by
  obtain ⟨hsize, hlocalFront, hfront, -, htail, hroom, hpending⟩ := h
  rw [← tail_take hitems] at htail hroom hpending
  exact ⟨hsize, hlocalFront, Nat.le_succ_of_le hfront, hlt, htail, hroom, hpending⟩

theorem Sound.setFront (h : g.Sound) (hlt : g.front < g.start) : g.setFront.Sound := by
  obtain ⟨hsize, hlocalFront, -, hstart, htail, hroom, hpending⟩ := h
  exact ⟨hsize, Nat.le_succ_of_le hlocalFront, hlt, hstart, htail, hroom, hpending⟩

end Contents

/-! ### The threads -/

/-- The element that the consumer has taken out of its slot. -/
def Consumer.taken : Consumer α → Option α
  | .setFront element => some element
  | _ => none

/-- The element that the producer has constructed behind those of a block. -/
def Producer.pending (tailBlock : Nat) : Producer α → Nat → Option α
  | .setTail element _, a => if a = tailBlock then some element else none
  | .setNextTail element b, a => if a = b then some element else none
  | _, _ => none

/-- The elements of a block that the tail block will be. -/
def Producer.ahead : Producer α → Nat → List α
  | .setTailBlock element b, a => if a = b then [element] else []
  | _, _ => []

/-- The blocks that the producer has not yet put into the ring. -/
def Producer.unlinked : Producer α → Nat
  | .link _ _ => 1
  | _ => 0

variable (size w : Nat) (s : Threads α) (g : Nat → Contents α) (used free : List Nat)

/-- What holds of a block of the ring, given what it stands for.  `w` is the room that each block
    has at least. -/
structure BlockOk (a : Nat) (c : Contents α) : Prop where
  block : s.queue.heap a = c.block (s.queue.heap a).next
  sound : c.Sound
  room : w < c.size
  start : c.start = c.front + if a = s.queue.frontBlock then s.consumer.taken.toList.length else 0
  pending : c.pending = s.producer.pending s.queue.tailBlock a
  left : a ∈ used.dropLast → c.Full
  reached : a ∈ used.tail → c.items ≠ [] ∧ c.localFront = c.front
  free : a ∈ free → c.items = s.producer.ahead a

/-- The producer had seen `size` elements in the queue. -/
def Crowded : Prop := ∃ m ∈ s.producerSaw, size ≤ m

/-- What the producer knows at its next step. -/
def ProducerOk : Producer α → Prop
  | .idle | .findRoom _ _ | .returned true => True
  | .construct _ nextBlockTail | .setTail _ nextBlockTail =>
    nextBlockTail = ((g s.queue.tailBlock).tail + 1) % (g s.queue.tailBlock).size ∧
      (g s.queue.tailBlock).tail + 1 <
        (g s.queue.tailBlock).localFront + (g s.queue.tailBlock).size
  | .testNext _ _ => (g s.queue.tailBlock).Full ∧ (used ++ free = [s.queue.tailBlock] →
      Crowded size s)
  | .enterNext _ => (g s.queue.tailBlock).Full ∧ free ≠ []
  | .constructNext _ b | .setNextTail _ b | .setTailBlock _ b =>
    (g s.queue.tailBlock).Full ∧ free.head? = some b ∧ (g b).localFront = (g b).front
  | .link element b =>
    (g s.queue.tailBlock).Full ∧ Crowded size s ∧ b ∉ used ++ free ∧ b < s.queue.allocated ∧
      s.queue.heap b = (g b).block (s.queue.heap s.queue.tailBlock).next ∧
      ∃ k, w < 2 ^ (k + 1) ∧ g b = ⟨2 ^ (k + 1), 0, 0, 1, 0, [element], none⟩
  | .returned false => Crowded size s
  | .failed => False

/-- What the consumer knows at its next step. -/
def ConsumerOk : Consumer α → Prop
  | .idle | .findElement | .setFront _ | .returned (some _) => True
  | .take => (g s.queue.frontBlock).front < (g s.queue.frontBlock).localTail
  | .testTailBlock => used.tail = [] → 0 ∈ s.consumerSaw
  | .testAgain => used.tail ≠ []
  | .loadNext => used.tail ≠ [] ∧ (g s.queue.frontBlock).items = []
  | .enterNext b => used.tail.head? = some b ∧ (g s.queue.frontBlock).items = []
  | .setFrontBlock b =>
    used.tail.head? = some b ∧ (g s.queue.frontBlock).items = [] ∧ (g b).front < (g b).localTail
  | .returned none => 0 ∈ s.consumerSaw
  | .failed => False

/-- The memory holds a ring of blocks: those `used`, from the front block to the tail block, and
    those that are `free`. -/
structure Inv : Prop where
  blocks : ∀ a ∈ used ++ free, BlockOk w s used free a (g a)
  nodup : (used ++ free).Nodup
  allocated : ∀ a ∈ used ++ free, a < s.queue.allocated
  whole : (used ++ free).length + s.producer.unlinked = s.queue.allocated
  front : used.head? = some s.queue.frontBlock
  tail : used.getLast? = some s.queue.tailBlock
  ring : (used ++ free ++ [s.queue.frontBlock]).IsChain fun a b => (s.queue.heap a).next = b
  largest : w < s.queue.largestBlockSize ∧ ∃ k, s.queue.largestBlockSize = 2 ^ (k + 1)
  reserve : size ≤ max ((used ++ free).length - 1) 1 * w
  log : s.enqueued = s.dequeued ++ s.consumer.taken.toList ++ used.flatMap fun a => (g a).items
  producer : ProducerOk size w s g used free s.producer
  consumer : ConsumerOk s g used s.consumer

/-! ### Lists of blocks -/

variable {size w : Nat} {s : Threads α} {g : Nat → Contents α} {used free : List Nat}

theorem flatMap_update {c : Contents α} {a : Nat} (h : c.items = (g a).items) (l : List Nat) :
    l.flatMap (fun b => (Function.update g a c b).items) = l.flatMap fun b => (g b).items := by
  apply List.flatMap_congr
  intro b _
  by_cases hb : b = a
  · subst hb
    rw [Function.update_self, h]
  · rw [Function.update_of_ne hb]

theorem flatMap_update_of_notMem {c : Contents α} {a : Nat} {l : List Nat} (h : a ∉ l) :
    l.flatMap (fun b => (Function.update g a c b).items) = l.flatMap fun b => (g b).items := by
  apply List.flatMap_congr
  intro b hb
  rw [Function.update_of_ne]
  rintro rfl
  exact h hb

theorem flatMap_update_last {c : Contents α} {a : Nat} {l : List Nat} {added : List α}
    (hnodup : l.Nodup) (hlast : l.getLast? = some a) (h : c.items = (g a).items ++ added) :
    l.flatMap (fun b => (Function.update g a c b).items) =
      (l.flatMap fun b => (g b).items) ++ added := by
  obtain ⟨init, rfl⟩ := List.getLast?_eq_some_iff.mp hlast
  have hinit : a ∉ init := by
    rw [List.nodup_append] at hnodup
    intro ha
    exact hnodup.2.2 a ha a (by simp) rfl
  simp only [List.flatMap_append, List.flatMap_singleton, flatMap_update_of_notMem hinit,
    Function.update_self, h, List.append_assoc]

/-- The `next` of the last block of a chain does not matter. -/
theorem next_congr {f f' : Nat → Nat} {l : List Nat} {z : Nat}
    (h : (l ++ [z]).IsChain fun a b => f a = b) (heq : ∀ a ∈ l, f' a = f a) :
    (l ++ [z]).IsChain fun a b => f' a = b := by
  induction l with
  | nil => exact .singleton z
  | cons a l ih =>
    rw [List.cons_append, List.isChain_cons] at h ⊢
    refine ⟨?_, ih h.2 fun b hb => heq b (List.mem_cons_of_mem _ hb)⟩
    intro b hb
    rw [heq a (List.mem_cons_self ..)]
    exact h.1 b hb

/-! ### What follows from the invariant -/

namespace Inv

variable (h : Inv size w s g used free)
include h

theorem frontBlock_mem : s.queue.frontBlock ∈ used := List.mem_of_mem_head? h.front

theorem tailBlock_mem : s.queue.tailBlock ∈ used := List.mem_of_getLast? h.tail

theorem frontBlock_ok : BlockOk w s used free s.queue.frontBlock (g s.queue.frontBlock) :=
  h.blocks _ (List.mem_append_left _ h.frontBlock_mem)

theorem tailBlock_ok : BlockOk w s used free s.queue.tailBlock (g s.queue.tailBlock) :=
  h.blocks _ (List.mem_append_left _ h.tailBlock_mem)

theorem nodup_used : used.Nodup := (List.nodup_append.mp h.nodup).1

theorem not_free {a : Nat} (ha : a ∈ used) : a ∉ free := by
  intro hfree
  exact (List.nodup_append.mp h.nodup).2.2 a ha a hfree rfl

/-- The front block, and the used ones behind it. -/
theorem used_eq : used = s.queue.frontBlock :: used.tail := List.eq_cons_of_mem_head? h.front

theorem used_concat : used = used.dropLast ++ [s.queue.tailBlock] := by
  obtain ⟨init, hinit⟩ := List.getLast?_eq_some_iff.mp h.tail
  rw [hinit]
  simp

theorem frontBlock_notMem_tail : s.queue.frontBlock ∉ used.tail := by
  have hnodup := h.nodup_used
  rw [h.used_eq] at hnodup
  exact (List.nodup_cons.mp hnodup).1

theorem tailBlock_notMem_dropLast : s.queue.tailBlock ∉ used.dropLast := by
  have hnodup := h.nodup_used
  rw [h.used_concat, List.nodup_append] at hnodup
  intro hmem
  exact hnodup.2.2 _ hmem _ (by simp) rfl

/-- There is one used block if the front block is the tail block. -/
theorem frontBlock_eq_tailBlock_iff : s.queue.frontBlock = s.queue.tailBlock ↔ used.tail = [] := by
  constructor
  · intro heq
    by_contra htail
    have hlast : s.queue.tailBlock ∈ used.tail := by
      have hget := h.tail
      rw [h.used_eq, List.getLast?_cons_of_ne_nil htail] at hget
      exact List.mem_of_getLast? hget
    exact h.frontBlock_notMem_tail (heq ▸ hlast)
  · intro htail
    have hget := h.tail
    rw [h.used_eq, htail] at hget
    simpa using hget

/-- The block behind the tail block in the ring. -/
theorem tailBlock_next :
    (free ++ [s.queue.frontBlock]).head? = some (s.queue.heap s.queue.tailBlock).next := by
  have hring := h.ring
  rw [h.used_concat, List.append_assoc, List.append_assoc] at hring
  cases free with
  | nil => exact congrArg some (List.isChain_append_cons_cons.mp hring).2.1.symm
  | cons b rest => exact congrArg some (List.isChain_append_cons_cons.mp hring).2.1.symm

end Inv

/-! ### Steps that keep the ring -/

theorem BlockOk.congr {s' : Threads α} {a : Nat} {c : Contents α} (h : BlockOk w s used free a c)
    (hheap : s'.queue.heap a = s.queue.heap a) (hfront : s'.queue.frontBlock = s.queue.frontBlock)
    (htail : s'.queue.tailBlock = s.queue.tailBlock)
    (htaken : a = s.queue.frontBlock → s'.consumer.taken = s.consumer.taken)
    (hpending : s'.producer.pending s.queue.tailBlock a = s.producer.pending s.queue.tailBlock a)
    (hahead : s'.producer.ahead a = s.producer.ahead a) : BlockOk w s' used free a c := by
  refine ⟨?_, h.sound, h.room, ?_, ?_, h.left, h.reached, ?_⟩
  · rw [hheap]
    exact h.block
  · rw [h.start, hfront]
    by_cases ha : a = s.queue.frontBlock
    · rw [if_pos ha, if_pos ha, htaken ha]
    · rw [if_neg ha, if_neg ha]
  · rw [h.pending, htail, hpending]
  · rw [hahead]
    exact h.free

/-- A step that writes to one block of the ring, and not to its `next`. -/
theorem Inv.update (h : Inv size w s g used free) {a : Nat} (ha : a ∈ used ++ free)
    {block : Block α} {c : Contents α} {producer : Producer α} {consumer : Consumer α}
    {enqueued dequeued : List α} {s' : Threads α}
    (hs' : s' = ⟨s.queue.set a block, producer, consumer, enqueued, dequeued, s.producerSaw,
      s.consumerSaw⟩)
    (hnext : block.next = (s.queue.heap a).next)
    (hothers : ∀ b ≠ a, (b = s.queue.frontBlock → consumer.taken = s.consumer.taken) ∧
      producer.pending s.queue.tailBlock b = s.producer.pending s.queue.tailBlock b ∧
        producer.ahead b = s.producer.ahead b)
    (hunlinked : producer.unlinked = s.producer.unlinked)
    (hok : BlockOk w s' used free a c)
    (hlog : enqueued = dequeued ++ consumer.taken.toList ++
      used.flatMap fun b => (Function.update g a c b).items)
    (hproducer : ProducerOk size w s' (Function.update g a c) used free producer)
    (hconsumer : ConsumerOk s' (Function.update g a c) used consumer) :
    Inv size w s' (Function.update g a c) used free := by
  subst hs'
  have hheap : ∀ b, ((s.queue.set a block).heap b).next = (s.queue.heap b).next := by
    intro b
    by_cases hb : b = a
    · subst hb
      simp [ReaderWriterQueue.set, hnext]
    · simp [ReaderWriterQueue.set, hb]
  refine ⟨?_, h.nodup, h.allocated, ?_, h.front, h.tail, ?_, h.largest, h.reserve, hlog, hproducer,
    hconsumer⟩
  · intro b hb
    by_cases heq : b = a
    · subst heq
      rw [Function.update_self]
      exact hok
    · rw [Function.update_of_ne heq]
      obtain ⟨htaken, hpending, hahead⟩ := hothers b heq
      exact (h.blocks b hb).congr (by simp [ReaderWriterQueue.set, heq]) rfl rfl htaken hpending
        hahead
  · rw [hunlinked]
    exact h.whole
  · simp only [hheap]
    exact h.ring

/-- A step without a write. -/
theorem Inv.go (h : Inv size w s g used free) {producer : Producer α} {consumer : Consumer α}
    {producerSaw consumerSaw : List Nat} {s' : Threads α}
    (hs' : s' = ⟨s.queue, producer, consumer, s.enqueued, s.dequeued, producerSaw, consumerSaw⟩)
    (htaken : consumer.taken = s.consumer.taken)
    (hpending : producer.pending s.queue.tailBlock = s.producer.pending s.queue.tailBlock)
    (hahead : producer.ahead = s.producer.ahead)
    (hunlinked : producer.unlinked = s.producer.unlinked)
    (hproducer : ProducerOk size w s' g used free producer)
    (hconsumer : ConsumerOk s' g used consumer) : Inv size w s' g used free := by
  subst hs'
  refine ⟨?_, h.nodup, h.allocated, ?_, h.front, h.tail, h.ring, h.largest, h.reserve, ?_,
    hproducer, hconsumer⟩
  · intro b hb
    exact (h.blocks b hb).congr rfl rfl rfl (fun _ => htaken) (congrFun hpending b)
      (congrFun hahead b)
  · rw [hunlinked]
    exact h.whole
  · rw [htaken]
    exact h.log

/-- What the producer writes, the consumer's knowledge does not depend on. -/
theorem ConsumerOk.update (h : Inv size w s g used free) {a : Nat} {c : Contents α}
    (hfront : c.front = (g a).front) (hlocalTail : c.localTail = (g a).localTail)
    (hitems : c.items = (g a).items ∨ a = s.queue.tailBlock ∨ a ∈ free) {s' : Threads α}
    (hs' : s'.queue.frontBlock = s.queue.frontBlock) (hsaw : s'.consumerSaw = s.consumerSaw) :
    ConsumerOk s' (Function.update g a c) used s.consumer := by
  have hok := h.consumer
  have hfronts : ∀ b, (Function.update g a c b).front = (g b).front := by
    intro b
    by_cases hb : b = a
    · subst hb
      rw [Function.update_self, hfront]
    · rw [Function.update_of_ne hb]
  have hlocalTails : ∀ b, (Function.update g a c b).localTail = (g b).localTail := by
    intro b
    by_cases hb : b = a
    · subst hb
      rw [Function.update_self, hlocalTail]
    · rw [Function.update_of_ne hb]
  -- with a second used block the producer is not at the front one
  have hempty : used.tail ≠ [] → (g s.queue.frontBlock).items = [] →
      (Function.update g a c s.queue.frontBlock).items = [] := by
    intro htail hitems₀
    by_cases hb : s.queue.frontBlock = a
    · subst hb
      rw [Function.update_self]
      rcases hitems with hsame | heq | hfree
      · rw [hsame, hitems₀]
      · exact absurd (h.frontBlock_eq_tailBlock_iff.mp heq) htail
      · exact absurd hfree (h.not_free h.frontBlock_mem)
    · rw [Function.update_of_ne hb, hitems₀]
  have hne : ∀ {b : Nat}, used.tail.head? = some b → used.tail ≠ [] := by
    rintro b hhead heq
    rw [heq] at hhead
    cases hhead
  revert hok
  cases s.consumer with
  | idle | findElement | setFront _ => exact id
  | take =>
    intro hok
    simpa only [ConsumerOk, hs', hfronts, hlocalTails] using hok
  | testTailBlock =>
    intro hok
    simpa only [ConsumerOk, hsaw] using hok
  | testAgain => exact id
  | loadNext =>
    rintro ⟨htail, hitems₀⟩
    rw [ConsumerOk, hs']
    exact ⟨htail, hempty htail hitems₀⟩
  | enterNext b =>
    rintro ⟨hhead, hitems₀⟩
    rw [ConsumerOk, hs']
    exact ⟨hhead, hempty (hne hhead) hitems₀⟩
  | setFrontBlock b =>
    rintro ⟨hhead, hitems₀, hlt⟩
    rw [ConsumerOk, hs', hfronts, hlocalTails]
    exact ⟨hhead, hempty (hne hhead) hitems₀, hlt⟩
  | returned result =>
    cases result with
    | none =>
      intro hok
      simpa only [ConsumerOk, hsaw] using hok
    | some _ => exact id
  | failed => exact id

/-- A step that neither writes to used blocks nor takes one from them. -/
theorem ConsumerOk.append (h : Inv size w s g used free) {g' : Nat → Contents α}
    (hg : ∀ a ∈ used, g' a = g a) (added : List Nat) {s' : Threads α}
    (hs' : s'.queue.frontBlock = s.queue.frontBlock)
    (hsaw : ∀ n ∈ s.consumerSaw, n ∈ s'.consumerSaw) :
    ConsumerOk s' g' (used ++ added) s.consumer := by
  have hok := h.consumer
  have hfront := hg _ h.frontBlock_mem
  have htail : (used ++ added).tail = used.tail ++ added := by
    rw [h.used_eq, List.cons_append, List.tail_cons, List.tail_cons]
  have hne : used.tail ≠ [] → (used ++ added).tail ≠ [] := by
    intro hused
    rw [htail]
    exact List.append_ne_nil_of_left_ne_nil hused _
  have hhead : ∀ {b : Nat}, used.tail.head? = some b →
      (used ++ added).tail.head? = some b ∧ g' b = g b := by
    intro b hb
    rw [htail, List.head?_append, hb]
    exact ⟨rfl, hg b (List.mem_of_mem_tail (List.mem_of_mem_head? hb))⟩
  revert hok
  cases s.consumer with
  | idle | findElement | setFront _ | failed => exact id
  | take =>
    intro hok
    simpa only [ConsumerOk, hs', hfront] using hok
  | testTailBlock =>
    intro hok hused
    rw [htail] at hused
    exact hsaw _ (hok (List.append_eq_nil_iff.mp hused).1)
  | testAgain => exact hne
  | loadNext =>
    rintro ⟨hused, hitems⟩
    rw [ConsumerOk, hs', hfront]
    exact ⟨hne hused, hitems⟩
  | enterNext b =>
    rintro ⟨hb, hitems⟩
    rw [ConsumerOk, hs', hfront]
    exact ⟨(hhead hb).1, hitems⟩
  | setFrontBlock b =>
    rintro ⟨hb, hitems, hlt⟩
    rw [ConsumerOk, hs', hfront, (hhead hb).2]
    exact ⟨(hhead hb).1, hitems, hlt⟩
  | returned result =>
    cases result with
    | none => exact hsaw _
    | some _ => exact id

/-- What the consumer writes, the producer's knowledge does not depend on. -/
theorem ProducerOk.update (h : Inv size w s g used free) {a : Nat} (ha : a ∈ used)
    {block : Block α} {c : Contents α} (hnext : block.next = (s.queue.heap a).next)
    (htail : c.tail = (g a).tail) (hsize : c.size = (g a).size)
    (hlocalFront : c.localFront = (g a).localFront) {s' : Threads α}
    (hs' : s'.queue = s.queue.set a block) (hsaw : s'.producerSaw = s.producerSaw) :
    ProducerOk size w s' (Function.update g a c) used free s.producer := by
  have hok := h.producer
  have hblock : ∀ b, (Function.update g a c b).tail = (g b).tail ∧
      (Function.update g a c b).size = (g b).size ∧
        (Function.update g a c b).localFront = (g b).localFront := by
    intro b
    by_cases hb : b = a
    · subst hb
      rw [Function.update_self]
      exact ⟨htail, hsize, hlocalFront⟩
    · rw [Function.update_of_ne hb]
      exact ⟨rfl, rfl, rfl⟩
  have htailBlock : s'.queue.tailBlock = s.queue.tailBlock := by rw [hs']; rfl
  have hfull : (Function.update g a c s.queue.tailBlock).Full ↔ (g s.queue.tailBlock).Full := by
    rw [Contents.Full, Contents.Full, (hblock _).1, (hblock _).2.1, (hblock _).2.2]
  have hcrowded : Crowded size s' ↔ Crowded size s := by rw [Crowded, Crowded, hsaw]
  have hunused : ∀ {b : Nat}, b ∉ used → Function.update g a c b = g b := by
    intro b hb
    rw [Function.update_of_ne]
    rintro rfl
    exact hb ha
  revert hok
  cases s.producer with
  | idle | findRoom _ _ | failed => exact id
  | construct _ _ | setTail _ _ =>
    intro hok
    simpa only [ProducerOk, htailBlock, (hblock _).1, (hblock _).2.1, (hblock _).2.2] using hok
  | testNext _ _ | enterNext _ =>
    intro hok
    simpa only [ProducerOk, htailBlock, hfull, hcrowded] using hok
  | constructNext _ b | setNextTail _ b | setTailBlock _ b =>
    rintro ⟨hfull₀, hhead, hsame⟩
    have hb : b ∉ used := by
      intro hmem
      exact h.not_free hmem (List.mem_of_mem_head? hhead)
    rw [ProducerOk, htailBlock, hfull, hunused hb]
    exact ⟨hfull₀, hhead, hsame⟩
  | link _ b =>
    rintro ⟨hfull₀, hcrowded₀, hb, hlt, hheap, hnew⟩
    have hused : b ∉ used := fun hmem => hb (List.mem_append_left _ hmem)
    have hne : b ≠ a := by
      rintro rfl
      exact hused ha
    have hnexts : (s'.queue.heap s.queue.tailBlock).next =
        (s.queue.heap s.queue.tailBlock).next := by
      rw [hs']
      by_cases heq : s.queue.tailBlock = a
      · subst heq
        simp [ReaderWriterQueue.set, hnext]
      · simp [ReaderWriterQueue.set, heq]
    rw [ProducerOk, htailBlock, hfull, hcrowded, hunused hused, hnexts]
    refine ⟨hfull₀, hcrowded₀, hb, ?_, ?_, hnew⟩
    · rw [hs']
      exact hlt
    · rw [← hheap, hs']
      simp [ReaderWriterQueue.set, hne]
  | returned result =>
    cases result with
    | false =>
      intro hok
      simpa only [ProducerOk, hcrowded] using hok
    | true => exact id

end Moodycamel
