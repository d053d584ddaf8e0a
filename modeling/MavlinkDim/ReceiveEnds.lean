import Mathlib.Algebra.BigOperators.Fin
import MavlinkDim.Framing

/-!
# When the receive loop ends

The loop goes on as long as the device marks its blocks as middle ones.  The running
length is its only measure, and an empty block does not increase it, so that a device
that sends empty middle blocks is echoed for ever.  `receive_ends_iff` says which
streams of reports end the receive phase.
-/

namespace MavlinkDim

open ByteMemory

/-- A device that sends a stream of reports, whatever it is sent; every transfer succeeds.  The
    state is the number of the next report. -/
def streaming (reports : Nat → Report) (behind : Bytes) : Usb Nat where
  bulkOut n _ := (⟨0, REPORT_SIZE⟩, n)
  bulkIn n := (⟨0, REPORT_SIZE⟩, reports n, n + 1)
  behind _ := behind

/-- What the blocks from number `n` to number `n + k` say that they carry. -/
def declared (reports : Nat → Report) (n k : Nat) : Nat :=
  ∑ i ∈ Finset.range (k + 1), (reports (n + i)).len

/-- After `usRecvLen` bytes the blocks from number `n` to number `n + k` do not end the loop: they
    are middle blocks of a response, and together not too long. -/
def Continues (reports : Nat → Report) (usRecvLen n k : Nat) : Prop :=
  ∀ i ≤ k, (reports (n + i)).marker = REP_MIDDLE_BLOCK ∧ (reports (n + i)).tag = 0x06 ∧
    usRecvLen + declared reports n i ≤ MAX_IO_BUFFER_SIZE

section Stream

variable (reports : Nat → Report) (behind : Bytes)

theorem declared_zero (n : Nat) : declared reports n 0 = (reports n).len := by
  simp [declared]

theorem declared_succ (n k : Nat) :
    declared reports n (k + 1) = (reports n).len + declared reports (n + 1) k := by
  rw [declared, Finset.sum_range_succ', Nat.add_comm]
  simp only [declared, Nat.add_zero, Nat.add_assoc, Nat.add_comm 1]

theorem continues_zero (usRecvLen n : Nat) :
    Continues reports usRecvLen n 0 ↔
      (reports n).marker = REP_MIDDLE_BLOCK ∧ (reports n).tag = 0x06 ∧
        usRecvLen + (reports n).len ≤ MAX_IO_BUFFER_SIZE := by
  constructor
  · intro h
    rw [← declared_zero]
    exact h 0 (Nat.le_refl 0)
  · intro h i hi
    obtain rfl := Nat.le_zero.mp hi
    rw [declared_zero]
    exact h

theorem continues_succ (usRecvLen n k : Nat) :
    Continues reports usRecvLen n (k + 1) ↔
      Continues reports usRecvLen n 0 ∧
        Continues reports (usRecvLen + (reports n).len) (n + 1) k := by
  have hshift : ∀ i, n + (i + 1) = n + 1 + i := fun i => by omega
  constructor
  · intro h
    refine ⟨fun i hi => h i (hi.trans (Nat.zero_le _)), fun i hi => ?_⟩
    have hnext := h (i + 1) (Nat.succ_le_succ hi)
    rwa [hshift, declared_succ, ← Nat.add_assoc] at hnext
  · rintro ⟨hfirst, hrest⟩ i hi
    cases i with
    | zero => exact hfirst 0 (Nat.le_refl 0)
    | succ i =>
      rw [hshift, declared_succ, ← Nat.add_assoc]
      exact hrest i (Nat.le_of_succ_le_succ hi)

theorem transferReports_streaming (x : Reports Nat) :
    transferReports (streaming reports behind) x =
      (KSE_SUCCESS, { x with abInReport := (reports x.usb).toArray behind, usb := x.usb + 1 }) := by
  simp [transferReports, streaming, Transfer.failed]

/-- A round takes the next block, and goes on exactly if that block does not end the loop. -/
theorem recvRound_streaming (pbRecvData : Nat) {x : Receive Nat}
    (hmax : x.usRecvLen ≤ MAX_IO_BUFFER_SIZE) :
    (Continues reports x.usRecvLen x.usb 0 ∧
      ∃ y, recvRound (streaming reports behind) pbRecvData x = .again y ∧ y.usb = x.usb + 1 ∧
        y.usRecvLen = x.usRecvLen + (reports x.usb).len) ∨
    ¬Continues reports x.usRecvLen x.usb 0 ∧
      ∃ sRv y, recvRound (streaming reports behind) pbRecvData x = .done sRv y := by
  have hbyte : (reports x.usb).len < 256 := UInt8.toNat_lt _
  have hwrap : (x.usRecvLen + (reports x.usb).len) % 65536 = x.usRecvLen + (reports x.usb).len := by
    simp only [MAX_IO_BUFFER_SIZE, MAX_IO_DATA_SIZE, MAX_IO_CTRL_LEN] at hmax
    exact Nat.mod_eq_of_lt (by omega)
  have hmarker : (reports x.usb).toArray behind 0 = (reports x.usb).marker :=
    Report.toArray_of_lt _ _ (by decide)
  have htag : (reports x.usb).toArray behind 1 = (reports x.usb).tag :=
    Report.toArray_of_lt _ _ (by decide)
  have hlen : ((reports x.usb).toArray behind 3).toNat = (reports x.usb).len :=
    congrArg UInt8.toNat (Report.toArray_of_lt _ _ (by decide))
  rw [continues_zero]
  simp only [recvRound, transferReports_streaming, ne_eq, not_true, if_false, htag, hlen, hwrap]
  by_cases hresponse : (reports x.usb).tag = 0x06
  · rw [if_neg (not_not.mpr hresponse)]
    by_cases hfits : x.usRecvLen + (reports x.usb).len ≤ MAX_IO_BUFFER_SIZE
    · rw [if_neg (Nat.not_lt.mpr hfits)]
      simp only [Receive.copyBlock, hmarker]
      by_cases hmiddle : (reports x.usb).marker = REP_MIDDLE_BLOCK
      · rw [if_pos hmiddle]
        exact Or.inl ⟨⟨hmiddle, hresponse, hfits⟩, _, rfl, rfl, rfl⟩
      · rw [if_neg hmiddle]
        exact Or.inr ⟨fun h => hmiddle h.1, _, _, rfl⟩
    · rw [if_pos (Nat.lt_of_not_le hfits)]
      exact Or.inr ⟨fun h => hfits h.2.2, _, _, rfl⟩
  · rw [if_pos hresponse]
    exact Or.inr ⟨fun h => hresponse h.2.1, _, _, rfl⟩

/-- The loop is still running exactly as long as no block has ended it. -/
theorem recvLoop_streaming (pbRecvData fuel : Nat) {x : Receive Nat}
    (hmax : x.usRecvLen ≤ MAX_IO_BUFFER_SIZE) :
    (recvLoop (streaming reports behind) pbRecvData (fuel + 1) x).1 = none ↔
      Continues reports x.usRecvLen x.usb fuel := by
  induction fuel generalizing x with
  | zero =>
    rcases recvRound_streaming reports behind pbRecvData hmax with
      ⟨hgoes, y, hround, -, -⟩ | ⟨hends, sRv, y, hround⟩
    · simp [recvLoop, hround, hgoes]
    · simp [recvLoop, hround, hends]
  | succ fuel ih =>
    rw [recvLoop, continues_succ]
    rcases recvRound_streaming reports behind pbRecvData hmax with
      ⟨hgoes, y, hround, husb, hlen⟩ | ⟨hends, sRv, y, hround⟩
    · have hfits := ((continues_zero reports _ _).mp hgoes).2.2
      rw [hround, ← hlen, ← husb]
      simp only [hgoes, true_and]
      exact ih (hlen ▸ hfits)
    · simp [hround, hends]

/-- So is the receive phase, behind a first block. -/
theorem receive_streaming (pbRecvData fuel : Nat) (m : Bytes) (x : Reports Nat) :
    (receive (streaming reports behind) (fuel + 1) pbRecvData m x).1 = none ↔
      x.abInReport 0 = REP_FIRST_BLOCK ∧
        Continues reports (x.abInReport 3).toNat x.usb fuel := by
  have hbyte := (x.abInReport 3).toNat_lt
  have hmax : (x.abInReport 3).toNat ≤ MAX_IO_BUFFER_SIZE := by
    simp only [MAX_IO_BUFFER_SIZE, MAX_IO_DATA_SIZE, MAX_IO_CTRL_LEN]
    omega
  simp only [receive, if_neg (Nat.not_lt.mpr hmax)]
  generalize hy : Receive.copyBlock pbRecvData 0 (x.abInReport 3).toNat
    { x with mem := m, usRecvLen := (x.abInReport 3).toNat, blocks := [] } = y
  have hmarker : y.abInReport 0 = x.abInReport 0 := by
    rw [← hy]
    rfl
  have hlen : y.usRecvLen = (x.abInReport 3).toNat := by
    rw [← hy]
    rfl
  have husb : y.usb = x.usb := by
    rw [← hy]
    rfl
  rw [hmarker]
  by_cases hfirst : x.abInReport 0 = REP_FIRST_BLOCK
  · have hloop := recvLoop_streaming reports behind pbRecvData fuel (hlen.trans_le hmax)
    rw [if_pos hfirst, hloop, hlen, husb]
    simp [hfirst]
  · simp [hfirst]

/-- **When the receive phase ends.**  With every transfer succeeding, and whatever the reports
    are, it returns after finitely many of them exactly if the report that acknowledges the request
    is not a first block, or some report behind it is not a middle block, is not a block of a
    response, or brings the lengths declared so far over `MAX_IO_BUFFER_SIZE`. -/
theorem receive_ends_iff (pbRecvData : Nat) (m : Bytes) (x : Reports Nat) :
    (∃ fuel, (receive (streaming reports behind) fuel pbRecvData m x).1 ≠ none) ↔
      x.abInReport 0 ≠ REP_FIRST_BLOCK ∨
        ∃ k, (reports (x.usb + k)).marker ≠ REP_MIDDLE_BLOCK ∨
          (reports (x.usb + k)).tag ≠ 0x06 ∨
          MAX_IO_BUFFER_SIZE < (x.abInReport 3).toNat + declared reports x.usb k := by
  have hrunning := fun fuel => receive_streaming reports behind pbRecvData fuel m x
  constructor
  · rintro ⟨fuel, hends⟩
    by_contra hnone
    simp only [not_or, not_exists, not_not, Nat.not_lt] at hnone
    obtain ⟨hfirst, hblocks⟩ := hnone
    have hforever := fun fuel => (hrunning fuel).mpr ⟨hfirst, fun i _ => hblocks i⟩
    cases fuel with
    | succ fuel => exact hends (hforever fuel)
    | zero =>
      -- no fuel is still less than one round
      have hzero : (receive (streaming reports behind) 0 pbRecvData m x).1 = none := by
        have hone := hforever 0
        simp only [receive] at hone ⊢
        split at hone
        · cases hone
        · split at hone
          · next hlen hmarker => rw [if_neg hlen, if_pos hmarker, recvLoop]
          · cases hone
      exact hends hzero
  · rintro (hfirst | ⟨k, hblock⟩)
    · exact ⟨1, fun hnone => hfirst ((hrunning 0).mp hnone).1⟩
    · refine ⟨k + 1, fun hnone => ?_⟩
      obtain ⟨hmiddle, htag, hfits⟩ := ((hrunning k).mp hnone).2 k (Nat.le_refl k)
      rcases hblock with h | h | h
      · exact h hmiddle
      · exact h htag
      · exact Nat.not_lt.mpr hfits h

end Stream

/-- A first block and then middle blocks, all empty. -/
def emptyBlocks : Nat → Report
  | 0 => Report.ofList [REP_FIRST_BLOCK, 0x06, 0, 0]
  | _ + 1 => Report.ofList [REP_MIDDLE_BLOCK, 0x06, 0, 0]

theorem declared_emptyBlocks (k : Nat) : declared emptyBlocks 1 k = 0 := by
  apply Finset.sum_eq_zero
  intro i _
  rw [Nat.add_comm]
  rfl

theorem continues_emptyBlocks (fuel : Nat) : Continues emptyBlocks 0 1 fuel := by
  intro i _
  rw [declared_emptyBlocks, Nat.add_comm 1 i]
  exact ⟨rfl, rfl, by decide⟩

/-- The first of them acknowledges a request of one report. -/
theorem sendLoop_emptyBlocks {x : Reports Nat} (husb : x.usb = 0) (hfresh : x.abOutReport 0 = 0) :
    ∃ y, sendLoop (streaming emptyBlocks fun _ => 0) (ofList []) 0 2 0 x = (KSE_SUCCESS, y) ∧
      y.abInReport = (emptyBlocks 0).toArray (fun _ => 0) ∧ y.usb = 1 := by
  have hmarker : requestReport (ofList []) 0 2 0 x.abOutReport 0 = REP_ONE_BLOCK := by
    rw [requestReport_marker, hfresh]
    rfl
  have hack : unexpectedAck (requestReport (ofList []) 0 2 0 x.abOutReport)
      ((emptyBlocks x.usb).toArray fun _ => 0) = false := by
    rw [husb, unexpectedAck, hmarker]
    rfl
  have hround := sendRound_again (streaming emptyBlocks fun _ => 0)
    (transferReports_streaming emptyBlocks _ _) hack
  rw [sendLoop, if_pos (by decide), hround]
  simp only [gt_iff_lt, Nat.reduceLT, if_false, Nat.sub_self]
  rw [sendLoop, husb]
  exact ⟨_, rfl, rfl, rfl⟩

/-- A request of two bytes to a device that answers with them never returns. -/
theorem receive_ends_never : ¬∃ fuel,
    (kseTransceive (streaming emptyBlocks fun _ => 0) fuel (some 0) (ofList []) 0 0 2 0).sRv ≠
      none := by
  rintro ⟨fuel, hends⟩
  apply hends
  simp only [kseTransceive, reduceCtorEq, if_false]
  generalize hx : Reports.mk _ _ 0 = x
  obtain ⟨y, hsend, habIn, husb⟩ := sendLoop_emptyBlocks (x := x) (hx ▸ rfl) (hx ▸ rfl)
  simp only [hsend, ne_eq, not_true, if_false]
  have hlen : (y.abInReport 3).toNat = 0 := by
    rw [habIn]
    rfl
  have hfirst : y.abInReport 0 = REP_FIRST_BLOCK := by
    rw [habIn]
    rfl
  cases fuel with
  | zero => simp [receive, hlen, Receive.copyBlock, hfirst, recvLoop]
  | succ fuel =>
    refine (receive_streaming emptyBlocks _ 0 fuel _ y).mpr ⟨hfirst, ?_⟩
    rw [hlen, husb]
    exact continues_emptyBlocks fuel

end MavlinkDim
