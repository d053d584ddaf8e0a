import Mathlib.Data.List.Range
import Mathlib.Data.Nat.Size
import Mathlib.Order.Bounds.Basic
import MavlinkDim.QueueInvariant

/-!
# New queues

The constructor makes a ring of empty blocks.  The size of a lone block is the least
power of two that leaves a slot free; otherwise there is a block more than the
elements need, for the one that the consumer is in may be left half empty.
-/

namespace Moodycamel

open RingBuffer

variable {α : Type*}

/-! ### Powers of two -/

/-- A bit of `y` says whether there is a bit of `x` less than `m` places above. -/
def Smeared (m : Nat) (x y : BitVec 64) : Prop :=
  ∀ i, y.getLsbD i = true ↔ ∃ j < m, x.getLsbD (i + j) = true

theorem Smeared.refl (x : BitVec 64) : Smeared 1 x x := by
  intro i
  simp

theorem Smeared.or_ushiftRight {m k n : Nat} {x y : BitVec 64} (h : Smeared m x y) (hk : k ≤ m)
    (hn : k + m = n) : Smeared n x (y ||| y >>> k) := by
  intro i
  rw [BitVec.getLsbD_or, BitVec.getLsbD_ushiftRight, Bool.or_eq_true, h, h]
  constructor
  · rintro (⟨j, hj, hbit⟩ | ⟨j, hj, hbit⟩)
    · exact ⟨j, by omega, hbit⟩
    · refine ⟨k + j, by omega, ?_⟩
      rwa [show i + (k + j) = k + i + j by omega]
  · rintro ⟨j, hj, hbit⟩
    by_cases hlt : j < m
    · exact Or.inl ⟨j, hlt, hbit⟩
    · refine Or.inr ⟨j - k, by omega, ?_⟩
      rwa [show k + i + (j - k) = i + j by omega]

/-- After 64 places all bits below the highest one are set. -/
theorem Smeared.toNat {x y : BitVec 64} (h : Smeared 64 x y) :
    y.toNat = 2 ^ x.toNat.size - 1 := by
  apply Nat.eq_of_testBit_eq
  intro i
  rw [Nat.testBit_two_pow_sub_one, BitVec.testBit_toNat, Bool.eq_iff_iff, h, decide_eq_true_iff,
    Nat.lt_size]
  constructor
  · rintro ⟨j, -, hbit⟩
    rw [← BitVec.testBit_toNat] at hbit
    calc 2 ^ i ≤ 2 ^ (i + j) := Nat.pow_le_pow_right (by omega) (Nat.le_add_right i j)
      _ ≤ x.toNat := Nat.ge_two_pow_of_testBit hbit
  · intro hle
    obtain ⟨j, hj, hbit⟩ := Nat.exists_ge_and_testBit_of_ge_two_pow hle
    have hlt : j < 64 := by
      by_contra hge
      rw [BitVec.testBit_toNat, BitVec.getLsbD_of_ge _ _ (by omega)] at hbit
      cases hbit
    refine ⟨j - i, by omega, ?_⟩
    rwa [Nat.add_sub_cancel' hj, ← BitVec.testBit_toNat]

theorem ceilToPow2_toNat {x : BitVec 64} (hpos : 0 < x.toNat) (hle : x.toNat ≤ 2 ^ 63) :
    (ceilToPow2 x).toNat = 2 ^ (x.toNat - 1).size := by
  have hpred : (x - 1).toNat = x.toNat - 1 := by
    rw [BitVec.toNat_sub_of_le]
    · rfl
    · exact hpos
  have hsize : (x.toNat - 1).size ≤ 63 := Nat.size_le.mpr (by omega)
  have h8 := (((Smeared.refl (x - 1)).or_ushiftRight (k := 1) (by omega) rfl).or_ushiftRight
    (k := 2) (by omega) rfl).or_ushiftRight (k := 4) (by omega) rfl
  have h64 := ((h8.or_ushiftRight (k := 8) (by omega) rfl).or_ushiftRight
    (k := 16) (by omega) rfl).or_ushiftRight (k := 32) (by omega) rfl
  have hall := h64.toNat
  have hpow : 2 ^ (x.toNat - 1).size ≤ 2 ^ 63 := Nat.pow_le_pow_right (by omega) hsize
  have hone : 1 ≤ 2 ^ (x.toNat - 1).size := Nat.one_le_two_pow
  rw [hpred] at hall
  calc (ceilToPow2 x).toNat
      = (2 ^ (x.toNat - 1).size - 1 + 1) % 2 ^ 64 := by
        rw [← hall]
        exact BitVec.toNat_add _ _
    _ = 2 ^ (x.toNat - 1).size := by
        rw [Nat.sub_add_cancel hone]
        exact Nat.mod_eq_of_lt (by omega)

theorem le_ceilToPow2 {x : BitVec 64} (hpos : 0 < x.toNat) (hle : x.toNat ≤ 2 ^ 63) :
    x.toNat ≤ (ceilToPow2 x).toNat := by
  have hlt := Nat.lt_size_self (x.toNat - 1)
  rw [ceilToPow2_toNat hpos hle]
  omega

/-- The next power of two, as long as the type has one. -/
theorem ceilToPow2_isLeast (x : BitVec 64) (hpos : 0 < x.toNat) (hle : x.toNat ≤ 2 ^ 63) :
    IsLeast {n | x.toNat ≤ n ∧ ∃ k, n = 2 ^ k} (ceilToPow2 x).toNat := by
  refine ⟨⟨le_ceilToPow2 hpos hle, _, ceilToPow2_toNat hpos hle⟩, ?_⟩
  rintro _ ⟨hn, k, rfl⟩
  rw [ceilToPow2_toNat hpos hle]
  refine Nat.pow_le_pow_right (by omega) (Nat.size_le.mpr ?_)
  omega

theorem ceilToPow2_isLeast_17 : IsLeast {n | 17 ≤ n ∧ ∃ k, n = 2 ^ k} (ceilToPow2 17).toNat :=
  ceilToPow2_isLeast 17 (by decide) (by decide)

/-! ### The constructor -/

/-- The last block of the ring is in front of the first one. -/
theorem makeBlocks_eq (blockSize n : Nat) {i : Nat} (hi : i < n) :
    (ReaderWriterQueue.makeBlocks blockSize n i : Block α) =
      makeBlock blockSize (if i + 1 = n then 0 else i + 1) := by
  induction n generalizing i with
  | zero => omega
  | succ n ih =>
    rw [ReaderWriterQueue.makeBlocks]
    by_cases hlast : i = n
    · rw [hlast, Function.update_self, if_pos rfl]
    · have hn : n ≠ 0 := by omega
      rw [Function.update_of_ne hlast, if_neg hn, if_neg (by omega)]
      by_cases hprev : i = n - 1
      · rw [hprev, Function.update_self, ih (by omega), Nat.sub_add_cancel (by omega), if_pos rfl]
        rfl
      · rw [Function.update_of_ne hprev, ih (by omega), if_neg (by omega)]

/-- What an empty block stands for. -/
def Contents.empty (blockSize : Nat) : Contents α := ⟨blockSize, 0, 0, 0, 0, [], none⟩

theorem makeBlock_eq (blockSize next : Nat) :
    (makeBlock blockSize next : Block α) = (Contents.empty blockSize).block next := by
  simp [makeBlock, Contents.block, Contents.empty, Contents.tail, cells_nil]

theorem Contents.Sound.empty {blockSize k : Nat} (h : blockSize = 2 ^ (k + 1)) :
    (Contents.empty blockSize : Contents α).Sound := by
  have hpos : 0 < blockSize := h ▸ Nat.two_pow_pos (k + 1)
  refine ⟨⟨k, h⟩, Nat.le_refl _, Nat.le_refl _, Nat.le_refl _, Nat.le_refl _, ?_,
    fun hsome => absurd rfl hsome⟩
  simpa [Contents.empty, Contents.tail] using hpos

theorem isChain_round {n : Nat} (hn : 0 < n) {f : Nat → Nat}
    (hnext : ∀ i < n, f i = if i + 1 = n then 0 else i + 1) :
    (List.range n ++ [0]).IsChain fun a b => f a = b := by
  obtain ⟨m, rfl⟩ := Nat.exists_eq_succ_of_ne_zero hn.ne'
  rw [List.range_succ, List.append_assoc]
  refine List.isChain_append_cons_cons.mpr ⟨?_, ?_, .singleton _⟩
  · rw [← List.range_succ, List.isChain_range_succ]
    intro i hi
    rw [hnext i (by omega), if_neg (by omega)]
  · rw [hnext m (by omega), if_pos rfl]

/-- A ring of empty blocks, of which each has room for `w` elements. -/
theorem Inv.start {blockSize n k size w : Nat} (hn : 0 < n) (hk : blockSize = 2 ^ (k + 1))
    (hw : w < blockSize) (hsize : size ≤ max (n - 1) 1 * w) :
    Inv size w (Threads.start
      (⟨ReaderWriterQueue.makeBlocks blockSize n, n, 0, 0, blockSize⟩ : ReaderWriterQueue α))
      (fun _ => Contents.empty blockSize) [0] (List.range' 1 (n - 1)) := by
  have hall : [0] ++ List.range' 1 (n - 1) = List.range n := by
    rw [List.range_eq_range', ← Nat.sub_add_cancel hn, List.range'_succ]
    rfl
  refine ⟨?_, ?_, ?_, ?_, rfl, rfl, ?_, ⟨hw, k, hk⟩, ?_, ?_, trivial, trivial⟩
  · intro a ha
    rw [hall, List.mem_range] at ha
    refine ⟨?_, .empty hk, hw, ?_, rfl, ?_, ?_, fun _ => rfl⟩
    · simp only [Threads.start, makeBlocks_eq blockSize n ha, makeBlock_eq]
      rfl
    · split <;> rfl
    · intro hleft
      cases hleft
    · intro hreached
      cases hreached
  · rw [hall]
    exact List.nodup_range
  · intro a ha
    rwa [hall, List.mem_range] at ha
  · rw [hall, List.length_range]
    rfl
  · rw [hall]
    refine isChain_round hn ?_
    intro i hi
    simp only [Threads.start, makeBlocks_eq blockSize n hi]
    rfl
  · rw [hall, List.length_range]
    exact hsize
  · rfl

/-- A queue of one block of two slots. -/
theorem construct_two : ReaderWriterQueue.construct 2 (fun _ => true) 1 =
    some (⟨ReaderWriterQueue.makeBlocks 2 1, 1, 0, 0, 2⟩ : ReaderWriterQueue α) := rfl

theorem le_blockCount {size d : Nat} (hd : 0 < d) :
    size ≤ max ((size + (d + 1) * 2 - 3) / d - 1) 1 * d := by
  have hlt := Nat.lt_mul_div_succ (size + (d + 1) * 2 - 3) hd
  have hcount : size + d ≤ (size + (d + 1) * 2 - 3) / d * d := by
    rw [Nat.mul_comm d, Nat.succ_mul (_ / d)] at hlt
    omega
  calc size ≤ ((size + (d + 1) * 2 - 3) / d - 1) * d := by
        rw [Nat.sub_one_mul]
        omega
    _ ≤ max ((size + (d + 1) * 2 - 3) / d - 1) 1 * d := Nat.mul_le_mul_right d (Nat.le_max_left ..)

/-- A new queue has room for `size` elements. -/
theorem Inv.of_construct {M k size : Nat} (hM : M = 2 ^ (k + 1)) (hpos : 0 < size)
    (hsize : size < 2 ^ 63) {malloc : Nat → Bool} {q : ReaderWriterQueue α}
    (hq : ReaderWriterQueue.construct M malloc size = some q) :
    ∃ w g used free, Inv size w (Threads.start q) g used free := by
  have hx : (BitVec.ofNat 64 (size + 1)).toNat = size + 1 := by
    rw [BitVec.toNat_ofNat]
    exact Nat.mod_eq_of_lt (by omega)
  have hxpos : 0 < (BitVec.ofNat 64 (size + 1)).toNat := by omega
  have hxle : (BitVec.ofNat 64 (size + 1)).toNat ≤ 2 ^ 63 := by omega
  simp only [ReaderWriterQueue.construct] at hq
  split at hq
  · -- blocks of `M` slots each
    split at hq
    · obtain rfl := Option.some.inj hq
      have hone : 1 < M := hM ▸ Nat.one_lt_two_pow (Nat.succ_ne_zero k)
      obtain ⟨d, rfl⟩ := Nat.exists_eq_add_of_le' hone.le
      refine ⟨d, _, _, _, .start ?_ hM (Nat.lt_succ_self d) ?_⟩
      · exact Nat.div_pos (by omega) (by omega)
      · exact le_blockCount (by omega)
    · cases hq
  · -- one block
    split at hq
    · obtain rfl := Option.some.inj hq
      have hle := le_ceilToPow2 hxpos hxle
      have hpow := ceilToPow2_toNat hxpos hxle
      have hk : 0 < (size + 1 - 1).size := Nat.size_pos.mpr hpos
      rw [hx] at hle hpow
      refine ⟨size, _, _, _, .start Nat.one_pos (k := (size + 1 - 1).size - 1) ?_ hle ?_⟩
      · rw [hpow, Nat.sub_add_cancel hk]
      · simp
    · cases hq

end Moodycamel
