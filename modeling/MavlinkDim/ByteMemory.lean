import Mathlib.Data.List.Induction

/-!
# Flat byte memories

A byte memory is a total function from addresses to bytes.  An array of a C
program is a range of addresses of one memory, so a copy that leaves its array
is still a copy, and staying inside the array is a property that has to be
proved.  `blit` is the one simultaneous copy; `put` writes a list and `slice`
reads one back.
-/

namespace ByteMemory

abbrev Bytes := Nat → UInt8

def poke (m : Bytes) (a : Nat) (b : UInt8) : Bytes :=
  fun i => if i = a then b else m i

/-- Copy `n` bytes of `src` from address `from_` to address `dst` of `m`, all at once. -/
def blit (m : Bytes) (dst : Nat) (src : Bytes) (from_ n : Nat) : Bytes :=
  fun i => if dst ≤ i ∧ i < dst + n then src (from_ + (i - dst)) else m i

def ofList (l : List UInt8) : Bytes := fun i => l.getD i 0

/-- Write a list of bytes at address `off`. -/
def put (m : Bytes) (off : Nat) (l : List UInt8) : Bytes :=
  blit m off (ofList l) 0 l.length

def slice (m : Bytes) (off n : Nat) : List UInt8 :=
  (List.range n).map fun i => m (off + i)

/-! ### Single bytes -/

@[simp] theorem poke_same (m : Bytes) (a : Nat) (b : UInt8) : poke m a b a = b := by
  simp [poke]

@[simp] theorem poke_ne (m : Bytes) {a i : Nat} (b : UInt8) (h : i ≠ a) :
    poke m a b i = m i := by
  simp [poke, h]

theorem blit_in (m src : Bytes) {dst from_ n i : Nat} (hlo : dst ≤ i) (hhi : i < dst + n) :
    blit m dst src from_ n i = src (from_ + (i - dst)) := by
  simp [blit, hlo, hhi]

theorem blit_out (m src : Bytes) {dst from_ n i : Nat} (h : i < dst ∨ dst + n ≤ i) :
    blit m dst src from_ n i = m i := by
  have hnot : ¬(dst ≤ i ∧ i < dst + n) := by omega
  simp only [blit, if_neg hnot]

@[simp] theorem blit_zero (m src : Bytes) (dst from_ : Nat) : blit m dst src from_ 0 = m := by
  funext i
  exact blit_out m src (by omega)

theorem put_in (m : Bytes) {l : List UInt8} {off i : Nat} (hlo : off ≤ i)
    (hhi : i - off < l.length) : put m off l i = l[i - off] := by
  rw [put, blit_in m _ hlo (by omega)]
  simp [ofList, hhi]

theorem put_out (m : Bytes) {l : List UInt8} {off i : Nat}
    (h : i < off ∨ off + l.length ≤ i) : put m off l i = m i :=
  blit_out m _ h

/-- Writing over what was written. -/
theorem put_put_same (m : Bytes) (off : Nat) {l l' : List UInt8} (h : l.length = l'.length) :
    put (put m off l') off l = put m off l := by
  funext i
  by_cases hin : off ≤ i ∧ i - off < l.length
  · rw [put_in _ hin.1 hin.2, put_in _ hin.1 hin.2]
  · rw [put_out _ (by omega), put_out _ (by omega), put_out _ (by omega)]

/-- Writing the same again changes nothing. -/
theorem put_put_self (m : Bytes) (off : Nat) (l : List UInt8) :
    put (put m off l) off l = put m off l := put_put_same m off rfl

@[simp] theorem put_nil (m : Bytes) (off : Nat) : put m off [] = m := by
  simp [put]

/-! ### Lists read from a memory -/

@[simp] theorem length_slice (m : Bytes) (off n : Nat) : (slice m off n).length = n := by
  simp [slice]

@[simp] theorem slice_zero (m : Bytes) (off : Nat) : slice m off 0 = [] := rfl

theorem getElem_slice (m : Bytes) (off n i : Nat) (h : i < (slice m off n).length) :
    (slice m off n)[i] = m (off + i) := by
  simp [slice]

theorem slice_congr {m m' : Bytes} {off off' n : Nat}
    (h : ∀ i < n, m (off + i) = m' (off' + i)) : slice m off n = slice m' off' n := by
  apply List.ext_getElem (by simp)
  intro i hi _
  simp only [getElem_slice]
  exact h i (by simpa using hi)

theorem slice_eq_iff {m m' : Bytes} {off off' n : Nat} :
    slice m off n = slice m' off' n ↔ ∀ i < n, m (off + i) = m' (off' + i) := by
  constructor
  · intro h i hi
    have hget := List.getElem_of_eq h (i := i) (by simpa using hi)
    simpa only [getElem_slice] using hget
  · exact slice_congr

theorem slice_append (m : Bytes) (off a b : Nat) :
    slice m off (a + b) = slice m off a ++ slice m (off + a) b := by
  simp only [slice, List.range_add, List.map_append, List.map_map]
  congr 1
  apply List.map_congr_left
  intro i _
  simp [Nat.add_assoc]

theorem take_slice (m : Bytes) (off : Nat) {a n : Nat} (h : a ≤ n) :
    (slice m off n).take a = slice m off a := by
  obtain ⟨b, rfl⟩ := Nat.exists_eq_add_of_le h
  rw [slice_append, List.take_left' (by simp)]

theorem drop_slice (m : Bytes) (off : Nat) {a n : Nat} (h : a ≤ n) :
    (slice m off n).drop a = slice m (off + a) (n - a) := by
  obtain ⟨b, rfl⟩ := Nat.exists_eq_add_of_le h
  rw [slice_append, List.drop_left' (by simp), Nat.add_sub_cancel_left]

theorem slice_ofList (l : List UInt8) : slice (ofList l) 0 l.length = l := by
  apply List.ext_getElem (by simp)
  intro i hi hi'
  rw [getElem_slice]
  simp [ofList, hi']

theorem ofList_slice (m : Bytes) (off : Nat) {n i : Nat} (h : i < n) :
    ofList (slice m off n) i = m (off + i) := by
  simp [ofList, slice, h]

/-- Writing what is there changes nothing. -/
theorem put_slice (m : Bytes) (off n : Nat) : put m off (slice m off n) = m := by
  funext i
  by_cases hin : off ≤ i ∧ i < off + n
  · rw [put_in m hin.1 (by simp; omega), getElem_slice, Nat.add_sub_cancel' hin.1]
  · exact put_out m (by simp; omega)

/-! ### Reading after writing -/

theorem slice_blit_same (m src : Bytes) (dst from_ n : Nat) :
    slice (blit m dst src from_ n) dst n = slice src from_ n := by
  apply slice_congr
  intro i hi
  rw [blit_in m src (by omega) (by omega), Nat.add_sub_cancel_left]

theorem slice_blit_disjoint (m src : Bytes) {dst from_ n off k : Nat}
    (h : off + k ≤ dst ∨ dst + n ≤ off) :
    slice (blit m dst src from_ n) off k = slice m off k := by
  apply slice_congr
  intro i hi
  exact blit_out m src (by omega)

theorem slice_put_same (m : Bytes) (off : Nat) (l : List UInt8) :
    slice (put m off l) off l.length = l := by
  rw [put, slice_blit_same, slice_ofList]

/-- A part of what was written. -/
theorem slice_put_part (m : Bytes) (off : Nat) {l : List UInt8} {a n : Nat}
    (h : a + n ≤ l.length) : slice (put m off l) (off + a) n = (l.drop a).take n := by
  have hpart := congrArg (fun l' => (l'.drop a).take n) (slice_put_same m off l)
  rw [drop_slice _ _ (by omega), take_slice _ _ (by omega)] at hpart
  exact hpart

theorem slice_put_disjoint (m : Bytes) {l : List UInt8} {off a k : Nat}
    (h : a + k ≤ off ∨ off + l.length ≤ a) : slice (put m off l) a k = slice m a k :=
  slice_blit_disjoint m _ h

/-- What was written over two memories is the same where they were. -/
theorem slice_put_congr {m m' : Bytes} {n : Nat} (h : slice m 0 n = slice m' 0 n)
    (l : List UInt8) {a k : Nat} (hk : a + k ≤ n) :
    slice (put m 0 l) a k = slice (put m' 0 l) a k := by
  apply slice_congr
  intro i hi
  by_cases hl : a + i < l.length
  · rw [put_in m (Nat.zero_le _) (by omega), put_in m' (Nat.zero_le _) (by omega)]
  · have hbyte := slice_eq_iff.mp h (a + i) (by omega)
    rw [Nat.zero_add] at hbyte
    rw [put_out m (by omega), put_out m' (by omega), hbyte]

theorem blit_eq_put (m src : Bytes) (dst from_ n : Nat) :
    blit m dst src from_ n = put m dst (slice src from_ n) := by
  funext i
  by_cases h : dst ≤ i ∧ i < dst + n
  · rw [blit_in m src h.1 h.2, put_in m h.1 (by simp; omega), getElem_slice]
  · rw [blit_out m src (by omega), put_out m (by simp; omega)]

/-- Two writes that follow each other are one write. -/
theorem put_put_append (m : Bytes) (off : Nat) (l l' : List UInt8) :
    put (put m off l) (off + l.length) l' = put m off (l ++ l') := by
  funext i
  by_cases hl : i < off + l.length
  · rw [put_out _ (Or.inl hl)]
    by_cases hlo : off ≤ i
    · rw [put_in m hlo (by omega), put_in m hlo (by simp; omega), List.getElem_append_left]
    · rw [put_out m (Or.inl (by omega)), put_out m (Or.inl (by omega))]
  · by_cases hhi : i < off + l.length + l'.length
    · rw [put_in _ (by omega) (by omega), put_in m (by omega) (by simp; omega),
        List.getElem_append_right (by omega)]
      congr 1
      omega
    · rw [put_out _ (Or.inr (by omega)), put_out m (Or.inr (by omega)),
        put_out m (Or.inr (by simp; omega))]

theorem put_put_before (m : Bytes) (off : Nat) (l l' : List UInt8) :
    put (put m (off + l.length) l') off l = put m off (l ++ l') := by
  rw [← put_put_append]
  funext i
  by_cases hl : off ≤ i ∧ i < off + l.length
  · rw [put_in _ hl.1 (by omega), put_out _ (Or.inl hl.2), put_in _ hl.1 (by omega)]
  · rw [put_out _ (by omega)]
    by_cases hl' : off + l.length ≤ i ∧ i < off + l.length + l'.length
    · rw [put_in _ hl'.1 (by omega), put_in _ hl'.1 (by omega)]
    · rw [put_out _ (by omega), put_out _ (by omega), put_out _ (by omega)]

theorem slice_put_put (m : Bytes) (off : Nat) (l l' : List UInt8) :
    slice (put (put m (off + l.length) l') off l) off (l.length + l'.length) = l ++ l' := by
  rw [put_put_before, ← List.length_append, slice_put_same]

/-! ### Sequences of writes -/

structure Write where
  addr : Nat
  bytes : List UInt8

def Write.Covers (w : Write) (i : Nat) : Prop := w.addr ≤ i ∧ i < w.addr + w.bytes.length

instance (w : Write) (i : Nat) : Decidable (w.Covers i) := by unfold Write.Covers; infer_instance

/-- The writes, made in order. -/
def writeAll (m : Bytes) (ws : List Write) : Bytes :=
  ws.foldl (fun m w => put m w.addr w.bytes) m

/-- The byte that the last write to `i` leaves there, if there is one. -/
def lastWritten (ws : List Write) (i : Nat) : Option UInt8 :=
  ws.reverse.findSome? fun w => if w.Covers i then some (ofList w.bytes (i - w.addr)) else none

/-- Each of the `n` bytes at `off` is last written with the value it had, or not at all. -/
def Undisturbed (m : Bytes) (ws : List Write) (off n : Nat) : Prop :=
  ∀ i < n, ∀ b, lastWritten ws (off + i) = some b → b = m (off + i)

theorem writeAll_append (m : Bytes) (ws ws' : List Write) :
    writeAll m (ws ++ ws') = writeAll (writeAll m ws) ws' := List.foldl_append

theorem writeAll_apply (m : Bytes) (ws : List Write) (i : Nat) :
    writeAll m ws i = (lastWritten ws i).getD (m i) := by
  induction ws using List.reverseRecOn with
  | nil => rfl
  | append_singleton ws w ih =>
    rw [writeAll_append, lastWritten, List.reverse_append]
    by_cases h : w.Covers i
    · have hbytes : put (writeAll m ws) w.addr w.bytes i = ofList w.bytes (i - w.addr) := by
        rw [put, blit_in _ _ h.1 h.2, Nat.zero_add]
      simpa [writeAll, h] using hbytes
    · have hkept : put (writeAll m ws) w.addr w.bytes i = writeAll m ws i :=
        put_out _ (by simp only [Write.Covers] at h; omega)
      simpa [writeAll, h, lastWritten] using hkept.trans ih

theorem slice_writeAll_eq_iff (m : Bytes) (ws : List Write) (off n : Nat) :
    slice (writeAll m ws) off n = slice m off n ↔ Undisturbed m ws off n := by
  rw [slice_eq_iff]
  apply forall₂_congr
  intro i _
  rw [writeAll_apply]
  cases lastWritten ws (off + i) <;> simp

/-- Writes that stay away from a range leave it alone. -/
theorem undisturbed_of_disjoint (m : Bytes) {ws : List Write} {off n : Nat}
    (h : ∀ w ∈ ws, w.addr + w.bytes.length ≤ off ∨ off + n ≤ w.addr) :
    Undisturbed m ws off n := by
  intro i hi b hb
  obtain ⟨w, hw, hcovers⟩ := List.exists_of_findSome?_eq_some hb
  have haway := h w (List.mem_reverse.mp hw)
  rw [if_neg (by simp only [Write.Covers]; omega)] at hcovers
  cases hcovers

/-! ### Writes that follow each other -/

/-- Each write begins where the one before ended, the first at `off`. -/
def Consecutive : (off : Nat) → List Write → Prop
  | _, [] => True
  | off, w :: ws => w.addr = off ∧ Consecutive (off + w.bytes.length) ws

/-- `a[off] = …; a[off + 1] = …;` -/
def pokes : (off : Nat) → List UInt8 → List Write
  | _, [] => []
  | off, b :: l => ⟨off, [b]⟩ :: pokes (off + 1) l

@[simp] theorem consecutive_nil (off : Nat) : Consecutive off [] := trivial

@[simp] theorem consecutive_singleton (off : Nat) (w : Write) :
    Consecutive off [w] ↔ w.addr = off := by
  simp [Consecutive]

theorem consecutive_append {off : Nat} {ws ws' : List Write} :
    Consecutive off (ws ++ ws') ↔
      Consecutive off ws ∧ Consecutive (off + (ws.flatMap Write.bytes).length) ws' := by
  induction ws generalizing off with
  | nil => simp
  | cons w ws ih =>
    simp only [List.cons_append, Consecutive, ih, List.flatMap_cons, List.length_append,
      Nat.add_assoc, and_assoc]

@[simp] theorem pokes_consecutive (off : Nat) (l : List UInt8) : Consecutive off (pokes off l) := by
  induction l generalizing off with
  | nil => trivial
  | cons b l ih => exact ⟨rfl, ih (off + 1)⟩

@[simp] theorem pokes_bytes (off : Nat) (l : List UInt8) :
    (pokes off l).flatMap Write.bytes = l := by
  induction l generalizing off with
  | nil => rfl
  | cons b l ih => rw [pokes, List.flatMap_cons, ih (off + 1), List.singleton_append]

/-- They are one write. -/
theorem writeAll_consecutive (m : Bytes) {off : Nat} {ws : List Write} (h : Consecutive off ws) :
    writeAll m ws = put m off (ws.flatMap Write.bytes) := by
  induction ws generalizing m off with
  | nil => exact (put_nil m off).symm
  | cons w ws ih =>
    obtain ⟨rfl, hrest⟩ := h
    rw [List.flatMap_cons, ← put_put_append, ← ih _ hrest]
    rfl

/-- Each of them ends where the last one does, or before. -/
theorem Consecutive.end_le {off : Nat} {ws : List Write} (h : Consecutive off ws) {w : Write}
    (hw : w ∈ ws) : w.addr + w.bytes.length ≤ off + (ws.flatMap Write.bytes).length := by
  induction ws generalizing off with
  | nil => cases hw
  | cons w' ws ih =>
    obtain ⟨hfirst, hrest⟩ := h
    rw [List.flatMap_cons, List.length_append]
    rcases List.mem_cons.mp hw with rfl | hw
    · omega
    · have := ih hrest hw
      omega

end ByteMemory
