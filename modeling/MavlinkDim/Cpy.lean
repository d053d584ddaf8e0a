import MavlinkDim.ByteMemory

/-!
# `_cpy`

The byte mover of the driver.  It copies upwards when the destination lies
below the source and downwards when it lies above, so a copy inside one array
reads every source byte before it is overwritten.
-/

namespace MavlinkDim

open ByteMemory

/-- `while (iSize--) *pbC++ = *pbA++;` -/
def cpyUp (m : Bytes) (pbC pbA : Nat) : Nat → Bytes
  | 0 => m
  | iSize + 1 => cpyUp (poke m pbC (m pbA)) (pbC + 1) (pbA + 1) iSize

/-- `while (iSize--) *(--pbC) = *(--pbA);` after both pointers went up by `iSize` -/
def cpyDown (m : Bytes) (pbC pbA : Nat) : Nat → Bytes
  | 0 => m
  | iSize + 1 => cpyDown (poke m (pbC + iSize) (m (pbA + iSize))) pbC pbA iSize

def cpy (m : Bytes) (pbC pbA iSize : Nat) : Bytes :=
  if pbC < pbA then cpyUp m pbC pbA iSize
  else if pbC > pbA then cpyDown m pbC pbA iSize
  else m

/-- `_cpy` between two different arrays: the pointers are not ordered by the
    language, and in either direction each byte of `a` is copied once. -/
def cpyFrom (c : Bytes) (pbC : Nat) (a : Bytes) (pbA iSize : Nat) : Bytes :=
  blit c pbC a pbA iSize

/-- Going up, the bytes already written lie below every byte still to be read. -/
theorem cpyUp_eq_blit (m : Bytes) {pbC pbA : Nat} (iSize : Nat) (h : pbC < pbA) :
    cpyUp m pbC pbA iSize = blit m pbC m pbA iSize := by
  induction iSize generalizing m pbC pbA with
  | zero => simp [cpyUp]
  | succ iSize ih =>
    rw [cpyUp, ih _ (by omega)]
    funext i
    by_cases hin : pbC + 1 ≤ i ∧ i < pbC + 1 + iSize
    · rw [blit_in _ _ hin.1 hin.2, blit_in m m (by omega) (by omega), poke_ne m _ (by omega)]
      congr 1
      omega
    · rw [blit_out _ _ (by omega)]
      by_cases hfirst : i = pbC
      · subst hfirst
        rw [poke_same, blit_in m m (Nat.le_refl i) (by omega), Nat.sub_self, Nat.add_zero]
      · rw [poke_ne m _ hfirst, blit_out m m (by omega)]

/-- Going down, the bytes already written lie above every byte still to be read. -/
theorem cpyDown_eq_blit (m : Bytes) {pbC pbA : Nat} (iSize : Nat) (h : pbA < pbC) :
    cpyDown m pbC pbA iSize = blit m pbC m pbA iSize := by
  induction iSize generalizing m with
  | zero => simp [cpyDown]
  | succ iSize ih =>
    rw [cpyDown, ih]
    funext i
    by_cases hin : pbC ≤ i ∧ i < pbC + iSize
    · rw [blit_in _ _ hin.1 hin.2, blit_in m m (by omega) (by omega), poke_ne m _ (by omega)]
    · rw [blit_out _ _ (by omega)]
      by_cases hlast : i = pbC + iSize
      · subst hlast
        rw [poke_same, blit_in m m (by omega) (by omega), Nat.add_sub_cancel_left]
      · rw [poke_ne m _ hlast, blit_out m m (by omega)]

/-- **`_cpy` moves all bytes at once**, however source and destination overlap. -/
theorem cpy_eq_blit (m : Bytes) (pbC pbA iSize : Nat) :
    cpy m pbC pbA iSize = blit m pbC m pbA iSize := by
  unfold cpy
  split
  · exact cpyUp_eq_blit m iSize ‹_›
  · split
    · exact cpyDown_eq_blit m iSize ‹_›
    · have heq : pbC = pbA := by omega
      subst heq
      funext i
      by_cases hin : pbC ≤ i ∧ i < pbC + iSize
      · rw [blit_in m m hin.1 hin.2]
        congr 1
        omega
      · rw [blit_out m m (by omega)]

/-- Two arrays placed at `c` and `a` of one memory: seen from the two arrays,
    `_cpy` is `cpyFrom`. -/
theorem cpy_eq_cpyFrom (m : Bytes) (c a pbC pbA iSize : Nat) :
    (fun i => cpy m (c + pbC) (a + pbA) iSize (c + i)) =
      cpyFrom (fun i => m (c + i)) pbC (fun i => m (a + i)) pbA iSize := by
  funext i
  rw [cpy_eq_blit, cpyFrom]
  by_cases hin : pbC ≤ i ∧ i < pbC + iSize
  · rw [blit_in m m (by omega) (by omega), blit_in _ _ hin.1 hin.2]
    congr 1
    omega
  · rw [blit_out m m (by omega), blit_out _ _ (by omega)]

end MavlinkDim
