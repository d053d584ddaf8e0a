import MavlinkDim.Codes
import MavlinkDim.Cpy

/-!
# `_kseTransceive`

One command exchange over USB.  The request goes out in reports of at most 60
payload bytes, each of which the device acknowledges; the response comes back
in blocks, each of which the host echoes to get the next one.

The device behind libusb is an arbitrary `Usb`: what a transfer returns may
depend on everything that happened before.  The two local report buffers are
flat memories whose first 64 bytes are the array, so a copy that leaves
`abInReport` reads what lies behind it on the stack.

The receive loop has no bound of its own, so it runs on fuel; a call whose return
code is `none` has not returned after that many rounds.
-/

namespace MavlinkDim

open ByteMemory

abbrev Report := Vector UInt8 64

def Report.ofArray (ab : Bytes) : Report := Vector.ofFn fun i => ab i

@[simp] theorem Report.getElem_ofArray (ab : Bytes) (i : Nat) (h : i < 64) :
    (Report.ofArray ab)[i] = ab i := by
  simp [Report.ofArray]

/-- The local array after a transfer stored a report in it. -/
def Report.toArray (r : Report) (behind : Bytes) : Bytes :=
  fun i => if h : i < 64 then r[i] else behind i

theorem Report.toArray_of_lt (r : Report) (behind : Bytes) {i : Nat} (h : i < 64) :
    r.toArray behind i = r[i] := by
  simp [Report.toArray, h]

structure Transfer where
  iRv : Int
  iTransferred : Int
deriving DecidableEq, Repr

/-- `(iRv < 0) || (iTransferred != REPORT_SIZE)` -/
def Transfer.failed (t : Transfer) : Bool :=
  decide (t.iRv < 0) || decide (t.iTransferred ≠ REPORT_SIZE)

/-- A device behind libusb.  `behind` is the memory that follows `abInReport`. -/
structure Usb (σ : Type) where
  bulkOut : σ → Report → Transfer × σ
  bulkIn : σ → Transfer × Report × σ
  behind : σ → Bytes

def Report.ofList (l : List UInt8) : Report := Report.ofArray (ByteMemory.ofList l)

/-- A device that takes every report and answers with the reports of a list. -/
def scripted : Usb (List Report) where
  bulkOut s _ := (⟨0, REPORT_SIZE⟩, s)
  bulkIn
    | [] => (⟨-1, 0⟩, Report.ofList [], [])
    | r :: s => (⟨0, REPORT_SIZE⟩, r, s)
  behind _ := fun _ => 0

/-- One copy of the receive phase:
    `_cpy(pbRecvData + usOffset * 60, abInReport + 4, usLen)`. -/
structure Block where
  abInReport : Bytes
  usOffset : Nat
  usLen : Nat

/-- The report buffers of `_kseTransceive` and the device. -/
structure Reports (σ : Type) where
  abInReport : Bytes
  abOutReport : Bytes
  usb : σ

/-- The receive phase: the memory the receive buffer lies in, the running
    length, and the copies made so far. -/
structure Receive (σ : Type) extends Reports σ where
  mem : Bytes
  usRecvLen : Nat
  blocks : List Block

/-- What a call leaves behind.  `usRecvLen` is the running length, which success
    stores in `*pusRecvLen`; `blocks` records the copies of the receive phase. -/
structure Transceived (σ : Type) where
  sRv : Option Int
  usRecvLen : Nat
  mem : Bytes
  usb : σ
  blocks : List Block

inductive Round (α : Type) where
  | again (x : α)
  | done (sRv : Int) (x : α)

variable {σ : Type} (U : Usb σ)

def transferReports (x : Reports σ) : Int × Reports σ :=
  let (o, s) := U.bulkOut x.usb (Report.ofArray x.abOutReport)
  if o.failed then (KSE_FAIL_USB_SEND_REPORT, { x with usb := s })
  else
    let (i, r, s) := U.bulkIn s
    let x := { x with abInReport := r.toArray (U.behind s), usb := s }
    if i.failed then (KSE_FAIL_USB_RECV_REPORT, x) else (KSE_SUCCESS, x)

@[simp] theorem transferReports_abOutReport (x : Reports σ) :
    (transferReports U x).2.abOutReport = x.abOutReport := by
  simp only [transferReports]
  split
  · rfl
  · split <;> rfl

theorem transferReports_neg {x : Reports σ} (h : (transferReports U x).1 ≠ KSE_SUCCESS) :
    (transferReports U x).1 < 0 := by
  simp only [transferReports] at h ⊢
  split
  · simp
  · split
    · simp
    · simp_all

/-! ### Sending -/

/-- The marker of the next request report; byte 0 still holds the one before. -/
def requestMarker (marker : UInt8) (usSendLen : Nat) : UInt8 :=
  if marker = 0x00 ∧ usSendLen ≤ 60 then REP_ONE_BLOCK
  else if marker = 0x00 ∧ usSendLen > 60 then REP_FIRST_BLOCK
  else if marker ≠ 0x00 ∧ usSendLen > 60 then REP_MIDDLE_BLOCK
  else REP_LAST_BLOCK

def unexpectedAck (abOutReport abInReport : Bytes) : Bool :=
  (decide (abOutReport 0 = REP_ONE_BLOCK) || decide (abOutReport 0 = REP_LAST_BLOCK)) &&
      (decide (abInReport 1 ≠ 0x06) || decide (abInReport 2 ≠ 0x00)) ||
    (decide (abOutReport 0 = REP_FIRST_BLOCK) || decide (abOutReport 0 = REP_MIDDLE_BLOCK)) &&
      (decide (abInReport 0 ≠ abOutReport 0) || decide (abInReport 1 ≠ 0xFE) ||
        decide (abInReport 2 ≠ abOutReport 2) || decide (abInReport 3 ≠ abOutReport 3))

/-- The next request report, built over the one before. -/
def requestReport (m : Bytes) (pbSendData usSendLen usOffset : Nat) (abOutReport : Bytes) :
    Bytes :=
  let usLen := if usSendLen > 60 then 60 else usSendLen
  let ab := poke abOutReport 0 (requestMarker (abOutReport 0) usSendLen)
  let ab := poke ab 1 0x05
  let ab := poke ab 2 (loByte usOffset)
  let ab := poke ab 3 (loByte usLen)
  cpyFrom ab 4 m (pbSendData + usOffset * 60) usLen

def sendRound (m : Bytes) (pbSendData usSendLen usOffset : Nat) (x : Reports σ) :
    Round (Reports σ) :=
  let abOutReport := requestReport m pbSendData usSendLen usOffset x.abOutReport
  let (sRv, x) := transferReports U { x with abOutReport }
  if sRv ≠ KSE_SUCCESS then .done sRv x
  else if unexpectedAck x.abOutReport x.abInReport then .done KSE_FAIL_UNEXPECTED_RESP x
  else .again x

/-- `while (usSendLen > 0)` -/
def sendLoop (m : Bytes) (pbSendData usSendLen usOffset : Nat) (x : Reports σ) :
    Int × Reports σ :=
  if usSendLen > 0 then
    let usLen := if usSendLen > 60 then 60 else usSendLen
    match sendRound U m pbSendData usSendLen usOffset x with
    | .again x => sendLoop m pbSendData (usSendLen - usLen) (usOffset + 1) x
    | .done sRv x => (sRv, x)
  else (KSE_SUCCESS, x)
termination_by usSendLen
decreasing_by split <;> omega

/-! ### Receiving -/

def Receive.copyBlock (pbRecvData usOffset usLen : Nat) (x : Receive σ) : Receive σ :=
  { x with
    mem := cpyFrom x.mem (pbRecvData + usOffset * 60) x.abInReport 4 usLen
    blocks := x.blocks ++ [⟨x.abInReport, usOffset, usLen⟩] }

/-- One round of the receive loop: echo the header, take the next block. -/
def recvRound (pbRecvData : Nat) (x : Receive σ) : Round (Receive σ) :=
  let abOutReport := poke (cpyFrom x.abOutReport 0 x.abInReport 0 4) 1 0xFE
  let (sRv, y) := transferReports U { x.toReports with abOutReport }
  let x := { x with toReports := y }
  if sRv ≠ KSE_SUCCESS then .done sRv x
  else if x.abInReport 1 ≠ 0x06 then .done KSE_FAIL_UNEXPECTED_RESP x
  else
    let usOffset := (x.abInReport 2).toNat
    let usLen := (x.abInReport 3).toNat
    let x := { x with usRecvLen := (x.usRecvLen + usLen) % 65536 }
    if x.usRecvLen > MAX_IO_BUFFER_SIZE then .done KSE_FAIL_RECV_BUF_OVERFLOW x
    else
      let x := x.copyBlock pbRecvData usOffset usLen
      if x.abInReport 0 = REP_MIDDLE_BLOCK then .again x else .done KSE_SUCCESS x

/-- `do { … } while (abInReport[0] == REP_MIDDLE_BLOCK);` -/
def recvLoop (pbRecvData : Nat) : Nat → Receive σ → Option Int × Receive σ
  | 0, x => (none, x)
  | fuel + 1, x =>
    match recvRound U pbRecvData x with
    | .again x => recvLoop pbRecvData fuel x
    | .done sRv x => (some sRv, x)

/-- The receive phase, entered with the acknowledgement of the last request report. -/
def receive (fuel pbRecvData : Nat) (m : Bytes) (x : Reports σ) : Option Int × Receive σ :=
  let usRecvLen := (x.abInReport 3).toNat
  let x : Receive σ := { x with mem := m, usRecvLen, blocks := [] }
  if usRecvLen > MAX_IO_BUFFER_SIZE then (some KSE_FAIL_RECV_BUF_OVERFLOW, x)
  else
    let x := x.copyBlock pbRecvData 0 usRecvLen
    if x.abInReport 0 = REP_FIRST_BLOCK then recvLoop U pbRecvData fuel x
    else (some KSE_SUCCESS, x)

/-- `_kseTransceive`.  The send and the receive buffer are two pointers into one
    memory, so they may be the same array. -/
def kseTransceive (fuel : Nat) (ghDev : Option Nat) (m : Bytes)
    (pbRecvData pbSendData usSendLen : Nat) (s : σ) : Transceived σ :=
  if ghDev = none then ⟨some KSE_FAIL_NOT_FOUND, 0, m, s, []⟩
  else
    let zeros : Report := Vector.replicate 64 0
    let (sRv, x) := sendLoop U m pbSendData usSendLen 0
      ⟨zeros.toArray (U.behind s), zeros.toArray (U.behind s), s⟩
    if sRv ≠ KSE_SUCCESS then ⟨some sRv, 0, m, x.usb, []⟩
    else
      let (sRv, x) := receive U fuel pbRecvData m x
      ⟨sRv, x.usRecvLen, x.mem, x.usb, x.blocks⟩

/-! ### What a call does -/

@[simp] theorem requestReport_marker (m : Bytes) (pbSendData usSendLen usOffset : Nat)
    (ab : Bytes) :
    requestReport m pbSendData usSendLen usOffset ab 0 = requestMarker (ab 0) usSendLen := by
  simp only [requestReport, cpyFrom]
  rw [blit_out _ _ (by omega)]
  simp

theorem requestMarker_last {marker : UInt8} {usSendLen : Nat} (h : usSendLen ≤ 60) :
    requestMarker marker usSendLen = REP_ONE_BLOCK ∨
      requestMarker marker usSendLen = REP_LAST_BLOCK := by
  unfold requestMarker
  by_cases hm : marker = 0x00
  · simp [hm, h]
  · simp [hm, show ¬usSendLen > 60 by omega]

theorem sendRound_again {m : Bytes} {pbSendData usSendLen usOffset : Nat} {x y : Reports σ}
    (h : transferReports U
      { x with abOutReport := requestReport m pbSendData usSendLen usOffset x.abOutReport } =
      (KSE_SUCCESS, y)) (hack : unexpectedAck y.abOutReport y.abInReport = false) :
    sendRound U m pbSendData usSendLen usOffset x = .again y := by
  simp [sendRound, h, hack]

theorem sendRound_done {m : Bytes} {pbSendData usSendLen usOffset : Nat} {x y : Reports σ}
    {sRv : Int} (h : sendRound U m pbSendData usSendLen usOffset x = .done sRv y) : sRv < 0 := by
  simp only [sendRound] at h
  split at h
  · rename_i hfail
    obtain ⟨rfl, -⟩ := Round.done.inj h
    exact transferReports_neg U hfail
  · split at h
    · obtain ⟨rfl, -⟩ := Round.done.inj h
      simp
    · cases h

theorem sendRound_ack {m : Bytes} {pbSendData usSendLen usOffset : Nat} {x y : Reports σ}
    (hlast : usSendLen ≤ 60)
    (h : sendRound U m pbSendData usSendLen usOffset x = .again y) : y.abInReport 2 = 0 := by
  simp only [sendRound] at h
  split at h
  · cases h
  · split at h
    · cases h
    · rename_i hack
      obtain rfl := Round.again.inj h
      simp only [unexpectedAck, transferReports_abOutReport, requestReport_marker] at hack
      rcases @requestMarker_last (x.abOutReport 0) usSendLen hlast with hm | hm <;>
        simp [hm] at hack <;> simp [hack]

theorem sendLoop_neg {m : Bytes} {pbSendData usSendLen usOffset : Nat} {x : Reports σ}
    (h : (sendLoop U m pbSendData usSendLen usOffset x).1 ≠ KSE_SUCCESS) :
    (sendLoop U m pbSendData usSendLen usOffset x).1 < 0 := by
  induction usSendLen using Nat.strongRecOn generalizing usOffset x with
  | ind usSendLen ih =>
    rw [sendLoop] at h ⊢
    by_cases hpos : usSendLen > 0
    · simp only [if_pos hpos] at h ⊢
      cases hround : sendRound U m pbSendData usSendLen usOffset x with
      | again y =>
        simp only [hround] at h ⊢
        exact ih _ (by split <;> omega) h
      | done sRv y => exact sendRound_done U hround
    · simp [if_neg hpos] at h

theorem sendLoop_ack {m : Bytes} {pbSendData usSendLen usOffset : Nat} {x : Reports σ}
    (hpos : 0 < usSendLen)
    (h : (sendLoop U m pbSendData usSendLen usOffset x).1 = KSE_SUCCESS) :
    (sendLoop U m pbSendData usSendLen usOffset x).2.abInReport 2 = 0 := by
  induction usSendLen using Nat.strongRecOn generalizing usOffset x with
  | ind usSendLen ih =>
    rw [sendLoop] at h ⊢
    simp only [if_pos (show usSendLen > 0 from hpos)] at h ⊢
    cases hround : sendRound U m pbSendData usSendLen usOffset x with
    | again y =>
      simp only [hround] at h ⊢
      by_cases hlast : usSendLen ≤ 60
      · have hstop : usSendLen - (if usSendLen > 60 then 60 else usSendLen) = 0 := by
          split <;> omega
        rw [hstop, sendLoop]
        exact sendRound_ack U hlast hround
      · exact ih _ (by split <;> omega) (by split <;> omega) h
    | done sRv y =>
      simp only [hround] at h
      have := sendRound_done U hround
      simp [h] at this

def Receive.take (pbRecvData : Nat) (x : Receive σ) (y : Reports σ) : Receive σ :=
  Receive.copyBlock pbRecvData (y.abInReport 2).toNat (y.abInReport 3).toNat
    { x with toReports := y, usRecvLen := (x.usRecvLen + (y.abInReport 3).toNat) % 65536 }

/-- A transfer that brings a response block that fits: the block is taken, and its
    marker decides whether there is another round. -/
theorem recvRound_take {pbRecvData : Nat} {x : Receive σ} {y : Reports σ}
    (h : transferReports U
      { x.toReports with abOutReport := poke (cpyFrom x.abOutReport 0 x.abInReport 0 4) 1 0xFE } =
      (KSE_SUCCESS, y)) (htag : y.abInReport 1 = 0x06)
    (hfits : (x.usRecvLen + (y.abInReport 3).toNat) % 65536 ≤ MAX_IO_BUFFER_SIZE) :
    recvRound U pbRecvData x =
      if y.abInReport 0 = REP_MIDDLE_BLOCK then .again (x.take pbRecvData y)
      else .done KSE_SUCCESS (x.take pbRecvData y) := by
  simp only [recvRound, h]
  rw [if_neg (by simp), if_neg (by simp [htag]), if_neg (Nat.not_lt.mpr hfits)]
  rfl

/-- A call fails before the receive phase, and then has written nothing, or it is
    its receive phase. -/
theorem kseTransceive_cases (fuel : Nat) (ghDev : Option Nat) (m : Bytes)
    (pbRecvData pbSendData usSendLen : Nat) (s : σ) :
    (∃ sRv s', sRv < 0 ∧ kseTransceive U fuel ghDev m pbRecvData pbSendData usSendLen s =
      ⟨some sRv, 0, m, s', []⟩) ∨
    ∃ x sRv y, receive U fuel pbRecvData m x = (sRv, y) ∧ x.abInReport 2 = 0 ∧
      kseTransceive U fuel ghDev m pbRecvData pbSendData usSendLen s =
        ⟨sRv, y.usRecvLen, y.mem, y.usb, y.blocks⟩ := by
  unfold kseTransceive
  split
  · exact Or.inl ⟨_, _, by simp, rfl⟩
  · simp only
    split
    · rename_i hfail
      exact Or.inl ⟨_, _, sendLoop_neg U hfail, rfl⟩
    · rename_i hsend
      refine Or.inr ⟨_, _, _, rfl, ?_, rfl⟩
      rcases Nat.eq_zero_or_pos usSendLen with hz | hpos
      · subst hz
        rw [sendLoop]
        simp [Report.toArray]
      · exact sendLoop_ack U hpos (by simpa using hsend)

/-! ### The codes of a call -/

/-- The codes of a call that reaches the device. -/
def TransferCode (sRv : Int) : Prop :=
  sRv ∈ [KSE_SUCCESS, KSE_FAIL_USB_SEND_REPORT, KSE_FAIL_USB_RECV_REPORT,
    KSE_FAIL_UNEXPECTED_RESP, KSE_FAIL_RECV_BUF_OVERFLOW]

theorem transferReports_code (x : Reports σ) : TransferCode (transferReports U x).1 := by
  simp only [transferReports]
  split
  · simp [TransferCode]
  · split <;> simp [TransferCode]

theorem sendRound_code {m : Bytes} {pbSendData usSendLen usOffset : Nat} {x y : Reports σ}
    {sRv : Int} (h : sendRound U m pbSendData usSendLen usOffset x = .done sRv y) :
    TransferCode sRv := by
  simp only [sendRound] at h
  split at h
  · obtain ⟨rfl, -⟩ := Round.done.inj h
    exact transferReports_code U _
  · split at h
    · obtain ⟨rfl, -⟩ := Round.done.inj h
      simp [TransferCode]
    · cases h

theorem sendLoop_code (m : Bytes) (pbSendData usSendLen usOffset : Nat) (x : Reports σ) :
    TransferCode (sendLoop U m pbSendData usSendLen usOffset x).1 := by
  fun_induction sendLoop U m pbSendData usSendLen usOffset x with
  | case1 usSendLen usOffset x _ usLen y hround ih => exact ih
  | case2 usSendLen usOffset x _ sRv y hround => exact sendRound_code U hround
  | case3 usSendLen usOffset x _ => simp [TransferCode]

theorem recvRound_code {pbRecvData : Nat} {x y : Receive σ} {sRv : Int}
    (h : recvRound U pbRecvData x = .done sRv y) : TransferCode sRv := by
  simp only [recvRound] at h
  split at h
  · obtain ⟨rfl, -⟩ := Round.done.inj h
    exact transferReports_code U _
  · split at h
    · cases h
      simp [TransferCode]
    · split at h
      · cases h
        simp [TransferCode]
      · split at h
        · cases h
        · cases h
          simp [TransferCode]

theorem recvLoop_code (pbRecvData fuel : Nat) (x : Receive σ) {sRv : Int}
    (h : (recvLoop U pbRecvData fuel x).1 = some sRv) : TransferCode sRv := by
  fun_induction recvLoop U pbRecvData fuel x with
  | case1 x => cases h
  | case2 fuel x y hround ih => exact ih h
  | case3 fuel x code y hround =>
    cases h
    exact recvRound_code U hround

theorem receive_code (fuel pbRecvData : Nat) (m : Bytes) (x : Reports σ) {sRv : Int}
    (h : (receive U fuel pbRecvData m x).1 = some sRv) : TransferCode sRv := by
  simp only [receive] at h
  split at h
  · cases h
    simp [TransferCode]
  · split at h
    · exact recvLoop_code U _ _ _ h
    · cases h
      simp [TransferCode]

/-- A call finds no device exactly when there is no handle. -/
theorem kseTransceive_notFound_iff (fuel : Nat) (ghDev : Option Nat) (m : Bytes)
    (pbRecvData pbSendData usSendLen : Nat) (s : σ) :
    (kseTransceive U fuel ghDev m pbRecvData pbSendData usSendLen s).sRv =
      some KSE_FAIL_NOT_FOUND ↔ ghDev = none := by
  have hnot : ¬TransferCode KSE_FAIL_NOT_FOUND := by simp [TransferCode]
  constructor
  · intro h
    by_contra hdev
    simp only [kseTransceive, if_neg hdev] at h
    split at h
    · have hcode := Option.some.inj h
      apply hnot
      rw [← hcode]
      exact sendLoop_code U m pbSendData usSendLen 0 _
    · exact hnot (receive_code U fuel pbRecvData m _ h)
  · intro hdev
    simp only [kseTransceive, if_pos hdev]

end MavlinkDim
