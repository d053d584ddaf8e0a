import MavlinkDim.Cpy
import MavlinkDim.PendingRegion

/-!
# `_cpy` inside one array

The flat memory of `Cpy` has no end, so nothing there says that a copy stays in
its array.  Here the array has one: a byte read or written outside of it ends
the copy without a result.  `cpyWithin_isSome_iff` says when there is a result,
`cpyWithin_refines` that it is then the one of the flat memory.
-/

namespace MavlinkDim

open ByteMemory

variable {σ : Type} (W : World σ)

/-- `*pbC = *pbA`, with both bytes in the array. -/
def cpyByte (ab : Array UInt8) (pbC pbA : Nat) : Option (Array UInt8) :=
  ab[pbA]?.bind fun b => if pbC < ab.size then some (ab.setIfInBounds pbC b) else none

/-- `while (iSize--) *pbC++ = *pbA++;` -/
def cpyUpWithin (ab : Array UInt8) (pbC pbA : Nat) : Nat → Option (Array UInt8)
  | 0 => some ab
  | iSize + 1 => (cpyByte ab pbC pbA).bind fun ab => cpyUpWithin ab (pbC + 1) (pbA + 1) iSize

/-- `while (iSize--) *(--pbC) = *(--pbA);` -/
def cpyDownWithin (ab : Array UInt8) (pbC pbA : Nat) : Nat → Option (Array UInt8)
  | 0 => some ab
  | iSize + 1 =>
    -- a pointer that goes down from the first byte leaves the array
    if 0 < pbC ∧ 0 < pbA then
      (cpyByte ab (pbC - 1) (pbA - 1)).bind fun ab => cpyDownWithin ab (pbC - 1) (pbA - 1) iSize
    else none

def cpyWithin (ab : Array UInt8) (pbC pbA iSize : Nat) : Option (Array UInt8) :=
  if pbC < pbA then cpyUpWithin ab pbC pbA iSize
  else if pbC > pbA then cpyDownWithin ab (pbC + iSize) (pbA + iSize) iSize
  else some ab

/-- The array at the first addresses of a flat memory. -/
def flat (ab : Array UInt8) : Bytes := ofList ab.toList

/-! ### One byte -/

theorem flat_eq_getElem? (ab : Array UInt8) (i : Nat) : flat ab i = ab[i]?.getD 0 := by
  simp [flat, ofList]

theorem getElem?_eq_flat {ab : Array UInt8} {i : Nat} (h : i < ab.size) :
    ab[i]? = some (flat ab i) := by
  rw [flat_eq_getElem?, Array.getElem?_eq_getElem h, Option.getD_some]

theorem cpyByte_eq {ab : Array UInt8} {pbC pbA : Nat} (hC : pbC < ab.size) (hA : pbA < ab.size) :
    cpyByte ab pbC pbA = some (ab.setIfInBounds pbC (flat ab pbA)) := by
  rw [cpyByte, getElem?_eq_flat hA, Option.bind_some, if_pos hC]

theorem cpyByte_outside {ab : Array UInt8} {pbC pbA : Nat}
    (h : ab.size ≤ pbC ∨ ab.size ≤ pbA) : cpyByte ab pbC pbA = none := by
  by_cases hA : pbA < ab.size
  · rw [cpyByte, getElem?_eq_flat hA, Option.bind_some, if_neg (by omega)]
  · rw [cpyByte, Array.getElem?_eq_none (by omega), Option.bind_none]

theorem flat_setIfInBounds {ab : Array UInt8} {pbC : Nat} (b : UInt8) (h : pbC < ab.size) :
    flat (ab.setIfInBounds pbC b) = poke (flat ab) pbC b := by
  funext i
  by_cases hi : i = pbC
  · subst hi
    simp [flat_eq_getElem?, h]
  · rw [poke_ne _ b hi, flat_eq_getElem?, flat_eq_getElem?,
      Array.getElem?_setIfInBounds_ne (Ne.symm hi)]

/-! ### The two loops -/

/-- An array of `size` bytes that stands for the flat memory `m`. -/
structure ArrayHolds (ab : Array UInt8) (size : Nat) (m : Bytes) : Prop where
  size : ab.size = size
  flat : flat ab = m

theorem cpyUpWithin_refines {ab : Array UInt8} {pbC pbA iSize : Nat}
    (hC : pbC + iSize ≤ ab.size) (hA : pbA + iSize ≤ ab.size) :
    ∃ ab', cpyUpWithin ab pbC pbA iSize = some ab' ∧
      ArrayHolds ab' ab.size (cpyUp (flat ab) pbC pbA iSize) := by
  induction iSize generalizing ab pbC pbA with
  | zero => exact ⟨ab, rfl, rfl, rfl⟩
  | succ iSize ih =>
    have hsize : (ab.setIfInBounds pbC (flat ab pbA)).size = ab.size := Array.size_setIfInBounds
    obtain ⟨ab', hrest, hab'⟩ := @ih (ab.setIfInBounds pbC (flat ab pbA)) (pbC + 1) (pbA + 1)
      (by omega) (by omega)
    refine ⟨ab', ?_, ?_⟩
    · rw [cpyUpWithin, cpyByte_eq (by omega) (by omega), Option.bind_some, hrest]
    · rw [hsize, flat_setIfInBounds _ (by omega)] at hab'
      exact hab'

/-- The pointers are behind the bytes still to be copied. -/
theorem cpyDownWithin_refines {ab : Array UInt8} {pbC pbA iSize : Nat}
    (hC : pbC + iSize ≤ ab.size) (hA : pbA + iSize ≤ ab.size) :
    ∃ ab', cpyDownWithin ab (pbC + iSize) (pbA + iSize) iSize = some ab' ∧
      ArrayHolds ab' ab.size (cpyDown (flat ab) pbC pbA iSize) := by
  induction iSize generalizing ab with
  | zero => exact ⟨ab, rfl, rfl, rfl⟩
  | succ iSize ih =>
    have hsize : (ab.setIfInBounds (pbC + iSize) (flat ab (pbA + iSize))).size = ab.size :=
      Array.size_setIfInBounds
    obtain ⟨ab', hrest, hab'⟩ := @ih (ab.setIfInBounds (pbC + iSize) (flat ab (pbA + iSize)))
      (by omega) (by omega)
    refine ⟨ab', ?_, ?_⟩
    · have hlastC : pbC + (iSize + 1) - 1 = pbC + iSize := by omega
      have hlastA : pbA + (iSize + 1) - 1 = pbA + iSize := by omega
      rw [cpyDownWithin, if_pos (by omega), hlastC, hlastA, cpyByte_eq (by omega) (by omega),
        Option.bind_some, hrest]
    · rw [hsize, flat_setIfInBounds _ (by omega)] at hab'
      exact hab'

/-- **Inside the array, `_cpy` is the copy of the flat memory.** -/
theorem cpyWithin_refines {ab : Array UInt8} {pbC pbA iSize : Nat}
    (hC : pbC + iSize ≤ ab.size) (hA : pbA + iSize ≤ ab.size) :
    ∃ ab', cpyWithin ab pbC pbA iSize = some ab' ∧
      ArrayHolds ab' ab.size (cpy (flat ab) pbC pbA iSize) := by
  unfold cpyWithin cpy
  split
  · exact cpyUpWithin_refines hC hA
  · split
    · exact cpyDownWithin_refines hC hA
    · exact ⟨ab, rfl, rfl, rfl⟩

/-! ### Leaving the array -/

theorem cpyUpWithin_outside {ab : Array UInt8} {pbC pbA iSize : Nat}
    (h : ab.size < pbC + iSize ∨ ab.size < pbA + iSize) (hpos : 0 < iSize) :
    cpyUpWithin ab pbC pbA iSize = none := by
  induction iSize generalizing ab pbC pbA with
  | zero => omega
  | succ iSize ih =>
    by_cases hin : pbC < ab.size ∧ pbA < ab.size
    · have hsize : (ab.setIfInBounds pbC (flat ab pbA)).size = ab.size := Array.size_setIfInBounds
      rw [cpyUpWithin, cpyByte_eq hin.1 hin.2, Option.bind_some]
      exact ih (by omega) (by omega)
    · rw [cpyUpWithin, cpyByte_outside (by omega), Option.bind_none]

/-- Going down, the first byte is the farthest one. -/
theorem cpyDownWithin_outside {ab : Array UInt8} {pbC pbA iSize : Nat}
    (h : ab.size < pbC + iSize ∨ ab.size < pbA + iSize) (hpos : 0 < iSize) :
    cpyDownWithin ab (pbC + iSize) (pbA + iSize) iSize = none := by
  obtain ⟨n, rfl⟩ := Nat.exists_eq_add_of_lt hpos
  rw [Nat.zero_add, cpyDownWithin, if_pos (by omega), cpyByte_outside (by omega),
    Option.bind_none]

/-- **`_cpy` stays in the array exactly if both ranges do**, or if it copies nothing. -/
theorem cpyWithin_isSome_iff (ab : Array UInt8) (pbC pbA iSize : Nat) :
    (cpyWithin ab pbC pbA iSize).isSome ↔
      pbC = pbA ∨ iSize = 0 ∨ pbC + iSize ≤ ab.size ∧ pbA + iSize ≤ ab.size := by
  by_cases hin : pbC + iSize ≤ ab.size ∧ pbA + iSize ≤ ab.size
  · obtain ⟨ab', h, -⟩ := cpyWithin_refines hin.1 hin.2
    simp [h, hin]
  · rcases Nat.eq_zero_or_pos iSize with rfl | hpos
    · simp [cpyWithin, cpyUpWithin, cpyDownWithin]
    · unfold cpyWithin
      split
      · rw [cpyUpWithin_outside (by omega) hpos]
        simp
        omega
      · split
        · rw [cpyDownWithin_outside (by omega) hpos]
          simp
          omega
        · simp
          omega

/-! ### The move -/

theorem ArrayHolds.getElem? {ab : Array UInt8} {size : Nat} {m : Bytes}
    (h : ArrayHolds ab size m) {i : Nat} (hi : i < size) : ab[i]? = some (m i) := by
  rw [getElem?_eq_flat (h.size ▸ hi), h.flat]

/-- **`_cpy` moves the bytes as they were before the call**, however the two
    ranges overlap, and leaves every other byte as it is. -/
theorem cpy_moves {ab : Array UInt8} {pbC pbA iSize : Nat}
    (hC : pbC + iSize ≤ ab.size) (hA : pbA + iSize ≤ ab.size) :
    ∃ ab', cpyWithin ab pbC pbA iSize = some ab' ∧ ab'.size = ab.size ∧
      (∀ i < iSize, ab'[pbC + i]? = ab[pbA + i]?) ∧
      ∀ i, i < pbC ∨ pbC + iSize ≤ i → ab'[i]? = ab[i]? := by
  obtain ⟨ab', hrun, hab'⟩ := cpyWithin_refines hC hA
  rw [cpy_eq_blit] at hab'
  refine ⟨ab', hrun, hab'.size, ?_, ?_⟩
  · intro i hi
    rw [hab'.getElem? (by omega), getElem?_eq_flat (by omega),
      blit_in _ _ (by omega) (by omega), Nat.add_sub_cancel_left]
  · intro i hi
    by_cases hsize : i < ab.size
    · rw [hab'.getElem? hsize, getElem?_eq_flat hsize, blit_out _ _ hi]
    · rw [Array.getElem?_eq_none (by rw [hab'.size]; omega), Array.getElem?_eq_none (by omega)]

/-- Two bytes up and two bytes down, each over a part of what it reads. -/
theorem cpy_moves_overlapping :
    (∃ ab', cpyWithin #[0, 1, 2, 3, 4, 5, 6, 7] 0 2 5 = some ab' ∧ ab'.size = 8 ∧
      (∀ i < 5, ab'[0 + i]? = (#[0, 1, 2, 3, 4, 5, 6, 7] : Array UInt8)[2 + i]?) ∧
      ∀ i, i < 0 ∨ 0 + 5 ≤ i → ab'[i]? = (#[0, 1, 2, 3, 4, 5, 6, 7] : Array UInt8)[i]?) ∧
    ∃ ab', cpyWithin #[0, 1, 2, 3, 4, 5, 6, 7] 2 0 5 = some ab' ∧ ab'.size = 8 ∧
      (∀ i < 5, ab'[2 + i]? = (#[0, 1, 2, 3, 4, 5, 6, 7] : Array UInt8)[0 + i]?) ∧
      ∀ i, i < 2 ∨ 2 + 5 ≤ i → ab'[i]? = (#[0, 1, 2, 3, 4, 5, 6, 7] : Array UInt8)[i]? :=
  ⟨cpy_moves (by decide) (by decide), cpy_moves (by decide) (by decide)⟩

example : cpyWithin #[0, 1, 2, 3, 4, 5, 6, 7] 2 0 5 = some #[0, 1, 0, 1, 2, 3, 4, 7] := by
  decide

/-! ### The pending record -/

/-- The bytes of `gabTxRxData[MAX_IO_BUFFER_SIZE]`. -/
def Kse.buffer (x : Kse σ) : Array UInt8 := (slice x.gabTxRxData 0 MAX_IO_BUFFER_SIZE).toArray

@[simp] theorem Kse.size_buffer (x : Kse σ) : x.buffer.size = MAX_IO_BUFFER_SIZE := by
  simp [Kse.buffer]

theorem Kse.flat_buffer (x : Kse σ) {i : Nat} (h : i < MAX_IO_BUFFER_SIZE) :
    flat x.buffer i = x.gabTxRxData i := by
  rw [flat, Kse.buffer, ofList_slice _ _ h, Nat.zero_add]

/-- A memory that agrees with the buffer as far as it reaches. -/
theorem ArrayHolds.eq_buffer {ab : Array UInt8} {m : Bytes} {x : Kse σ}
    (h : ArrayHolds ab MAX_IO_BUFFER_SIZE m)
    (hm : ∀ i < MAX_IO_BUFFER_SIZE, m i = x.gabTxRxData i) : ab = x.buffer := by
  apply Array.ext_getElem?
  intro i
  by_cases hi : i < MAX_IO_BUFFER_SIZE
  · rw [h.getElem? hi, hm i hi, getElem?_eq_flat (by simpa using hi), x.flat_buffer hi]
  · have hend := h.size
    rw [Array.getElem?_eq_none (by omega), Array.getElem?_eq_none (by simpa using hi)]

/-- **The pending record is moved inside the shared buffer**, behind any header of a request,
    and the copy in the array is the one the model makes. -/
theorem receiveRecord_within {offset : Nat} (hoffset : offset ≤ MAX_IO_CTRL_LEN) {x : Kse σ}
    (hx : x.RegionValid) (hpending : x.gusTxRxDataLength ≠ 0) (socketDesc : Int) :
    cpyWithin x.buffer offset x.gusTxRxDataOffset x.gusTxRxDataLength =
      some (receiveRecord W offset socketDesc x).2.2.buffer := by
  obtain ⟨-, hend⟩ := hx.region.resolve_left hpending
  have hlen : x.gusTxRxDataLength ≤ MAX_IO_DATA_SIZE := by
    have hmax := hx.input.2
    simp only [MAX_IO_BUFFER_SIZE, MAX_IO_DATA_SIZE, MAX_IO_CTRL_LEN] at hend hmax ⊢
    rw [int16_of_lt (by omega) (by omega)] at hmax
    omega
  have hfits : offset + x.gusTxRxDataLength ≤ MAX_IO_BUFFER_SIZE := by
    simp only [MAX_IO_CTRL_LEN, MAX_IO_DATA_SIZE, MAX_IO_BUFFER_SIZE] at hoffset hlen ⊢
    omega
  obtain ⟨ab', hrun, hab'⟩ := @cpyWithin_refines x.buffer offset x.gusTxRxDataOffset
    x.gusTxRxDataLength (by simpa using hfits) (by simpa using hend)
  rw [Kse.size_buffer] at hab'
  rw [hrun, receiveRecord, if_neg hpending]
  refine congrArg some (hab'.eq_buffer fun i hi => ?_)
  change cpy (flat x.buffer) offset _ _ i = cpy x.gabTxRxData offset _ _ i
  rw [cpy_eq_blit, cpy_eq_blit]
  by_cases hin : offset ≤ i ∧ i < offset + x.gusTxRxDataLength
  · rw [blit_in _ _ hin.1 hin.2, blit_in _ _ hin.1 hin.2, x.flat_buffer (by omega)]
  · rw [blit_out _ _ (by omega), blit_out _ _ (by omega), x.flat_buffer hi]

end MavlinkDim
