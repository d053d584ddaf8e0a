import MavlinkDim.Driver

/-!
# The kseTLS functions

A record from the socket is placed behind the command header in the shared
buffer, so the device answers into the same bytes.  What the device did not
consume stays where it was, and `gusTxRxDataOffset` and `gusTxRxDataLength` say
where.
-/

namespace MavlinkDim

open ByteMemory

variable {σ : Type} (W : World σ) (fuel : Nat)

/-- `0x06`, the command and the socket. -/
def tlsHeader (bCmd : UInt8) (socketDesc : Int) : List UInt8 :=
  [0x06, bCmd] ++ socketBytes socketDesc

@[simp] theorem length_tlsHeader (bCmd : UInt8) (socketDesc : Int) :
    (tlsHeader bCmd socketDesc).length = 6 := rfl

def Kse.field (x : Kse σ) (offset : Nat) : Nat :=
  word (x.gabTxRxData offset) (x.gabTxRxData (offset + 1))

/-- `Receive Record`: `sInLen` bytes of new input from the socket, or of the pending input moved
    behind the header.  A return with `sInLen` is `true`. -/
def receiveRecord (offset : Nat) (socketDesc : Int) (x : Kse σ) : Bool × Int × Kse σ :=
  if x.gusTxRxDataLength = 0 then
    let (sInLen, x) := tlsRecv W offset MAX_IO_DATA_SIZE socketDesc x
    (decide (sInLen < 0), sInLen, x)
  else
    (false, int16 x.gusTxRxDataLength,
      { x with gabTxRxData := cpy x.gabTxRxData offset x.gusTxRxDataOffset x.gusTxRxDataLength })

/-- `Send Record`, and `sOutLen`, which is not assigned when there is no record.  A return with
    `sOutLen` is `true`. -/
def sendRecord (socketDesc : Int) (offset usRecordLen : Nat) (x : Kse σ) : Bool × Int × Kse σ :=
  if usRecordLen > 0 then
    let (sOutLen, x) := tlsSend W socketDesc offset (int16 usRecordLen) x
    (decide (sOutLen < 0), sOutLen, x)
  else (false, W.indeterminate x.world, x)

theorem sendRecord_eq (socketDesc : Int) (offset usRecordLen : Nat) (x : Kse σ) :
    ∃ returned sOutLen w, sendRecord W socketDesc offset usRecordLen x =
      (returned, sOutLen,
        { x with world := w
                 trace := x.trace ++ if usRecordLen > 0 then
                   [.sent offset (sizeT (int16 usRecordLen))] else [] }) := by
  unfold sendRecord
  split
  · obtain ⟨sOutLen, w, hsend⟩ := tlsSend_eq W socketDesc offset (int16 usRecordLen) x
    rw [hsend]
    exact ⟨_, _, _, rfl⟩
  · exact ⟨false, W.indeterminate x.world, x.world, by simp⟩

/-- `Next`: what the device left of its input is pending. -/
def Kse.next (x : Kse σ) (sInLen : Int) (offset usUnusedInputLen : Nat) : Kse σ :=
  if usUnusedInputLen > 0 then
    { x with gusTxRxDataOffset := uint16 (sInLen + offset - usUnusedInputLen)
             gusTxRxDataLength := usUnusedInputLen }
  else { x with gusTxRxDataLength := 0 }

@[simp] theorem Kse.next_trace (x : Kse σ) (sInLen : Int) (offset usUnusedInputLen : Nat) :
    (x.next sInLen offset usUnusedInputLen).trace = x.trace := by
  unfold Kse.next
  split <;> rfl

@[simp] theorem Kse.next_app (x : Kse σ) (sInLen : Int) (offset usUnusedInputLen : Nat) :
    (x.next sInLen offset usUnusedInputLen).app = x.app := by
  unfold Kse.next
  split <;> rfl

/-- What is pending then: the last `usUnusedInputLen` bytes of the input. -/
theorem Kse.next_pending (x : Kse σ) {sInLen offset usUnusedInputLen : Nat}
    (hunused : usUnusedInputLen ≤ sInLen) (hword : sInLen + offset < 65536) :
    (x.next sInLen offset usUnusedInputLen).pending =
      slice x.gabTxRxData (sInLen + offset - usUnusedInputLen) usUnusedInputLen := by
  unfold Kse.next
  split
  · have hoffset : uint16 (sInLen + offset - usUnusedInputLen) =
        sInLen + offset - usUnusedInputLen := by
      simp only [uint16]
      omega
    simp only [Kse.pending, hoffset]
  · have hzero : usUnusedInputLen = 0 := by omega
    simp [Kse.pending, hzero]

/-! ### Open and close -/

def ksetlsOpen (socketDesc : Int) (bMode bEndpoint : UInt8)
    (usCertIndex usCaCertIndex _usRfu : Nat) (bSaveOption : UInt8) (x : Kse σ) :
    Option Int × Kse σ :=
  if x.gusKsePower ≠ .on then (some KSE_FAIL_NOT_POWERED_ON, x)
  else if socketDesc = INVALID_SOCKET ∨ bMode ≠ KSETLS_MODE_TLS ∧ bMode ≠ KSETLS_MODE_DTLS ∨
      bEndpoint ≠ KSETLS_CLIENT ∧ bEndpoint ≠ KSETLS_SERVER ∨
      usCertIndex ≥ MAX_CERT_KEY_COUNT ∨ usCaCertIndex ≥ MAX_CERT_KEY_COUNT ∨
      bSaveOption ≠ NONE ∧ bSaveOption ≠ SESSION then (some KSE_FAIL_WRONG_INPUT, x)
  else
    let x := x.store 0 (tlsHeader 0x00 socketDesc ++ [bMode, bEndpoint] ++
      bytes16 usCertIndex ++ bytes16 usCaCertIndex ++ [0xFF, 0xFF] ++ [bSaveOption])
    let (sRv, usLen, x) := transceive W fuel 15 x
    if sRv ≠ some KSE_SUCCESS then (sRv, x)
    else if usLen ≠ 2 then (some KSE_FAIL_UNEXPECTED_RESP_LEN, x)
    else
      (some (status x.gabTxRxData), { x with gusTxRxDataOffset := 0, gusTxRxDataLength := 0 })

def ksetlsClose (socketDesc : Int) (x : Kse σ) : Option Int × Kse σ :=
  if x.gusKsePower ≠ .on then (some KSE_FAIL_NOT_POWERED_ON, x)
  else if socketDesc = INVALID_SOCKET then (some KSE_FAIL_WRONG_INPUT, x)
  else
    let x := x.store 0 (tlsHeader 0x02 socketDesc)
    let (sRv, usLen, x) := transceive W fuel 6 x
    if sRv ≠ some KSE_SUCCESS then (sRv, x)
    else if usLen ≠ 2 then (some KSE_FAIL_UNEXPECTED_RESP_LEN, x)
    else if status x.gabTxRxData ≠ KSE_SUCCESS then (some (status x.gabTxRxData), x)
    else
      (some (status x.gabTxRxData), { x with gusTxRxDataOffset := 0, gusTxRxDataLength := 0 })

/-! ### Handshakes -/

/-- The variables that live from one round of a handshake to the next. -/
structure Handshake (σ : Type) where
  bNextInput : UInt8
  kse : Kse σ

inductive HandshakeRound (σ : Type) where
  | again (h : Handshake σ)
  | done (sRv : Option Int) (x : Kse σ)

def HandshakeRound.kse : HandshakeRound σ → Kse σ
  | .again h => h.kse
  | .done _ x => x

/-- One round of the handshake whose command is `cmd`. -/
def handshakeRound (cmd : List UInt8) (socketDesc : Int) (h : Handshake σ) : HandshakeRound σ :=
  let offset := cmd.length + 2
  let (returned, sInLen, x) :=
    if h.bNextInput = KSE_TRUE then receiveRecord W offset socketDesc h.kse
    else (false, 0, h.kse)
  if returned then .done (some sInLen) x
  else
    let x := x.store 0 (cmd ++ bytes16 (uint16 sInLen))
    let (sRv, usLen, x) := transceive W fuel (uint16 (sInLen + offset)) x
    if sRv ≠ some KSE_SUCCESS then .done sRv x
    else
      let sRv := status x.gabTxRxData
      if sRv = KSE_SUCCESS ∧ usLen < 7 then .done (some KSE_FAIL_UNEXPECTED_RESP_LEN) x
      else
        let usUnusedInputLen := if usLen > 2 then x.field 2 else 0
        let bNextInput := if usLen > 2 then x.gabTxRxData 4 else KSE_FALSE
        let usRecordLen := if usLen > 2 then x.field 5 else 0
        let (returned, sOutLen, x) := sendRecord W socketDesc 7 usRecordLen x
        if returned then .done (some sOutLen) x
        else
          let x := x.next sInLen offset usUnusedInputLen
          if sRv = KSE_SUCCESS then .again ⟨bNextInput, x⟩
          else .done (some (if sRv = KSETLS_HANDSHAKE_DONE then KSE_SUCCESS else sRv)) x

/-- `do { … } while (sRv == KSE_SUCCESS);` -/
def handshakeLoop (cmd : List UInt8) (socketDesc : Int) :
    Nat → Handshake σ → Option Int × Kse σ
  | 0, h => (none, h.kse)
  | rounds + 1, h =>
    match handshakeRound W fuel cmd socketDesc h with
    | .again h => handshakeLoop cmd socketDesc rounds h
    | .done sRv x => (sRv, x)

def ksetlsTlsClientHandshake (socketDesc : Int) (bType : UInt8) (x : Kse σ) :
    Option Int × Kse σ :=
  if x.gusKsePower ≠ .on then (some KSE_FAIL_NOT_POWERED_ON, x)
  else if socketDesc = INVALID_SOCKET then (some KSE_FAIL_WRONG_INPUT, x)
  else handshakeLoop W fuel (tlsHeader 0x10 socketDesc ++ [bType]) socketDesc fuel ⟨KSE_FALSE, x⟩

def ksetlsTlsServerHandshake (socketDesc : Int) (x : Kse σ) : Option Int × Kse σ :=
  if x.gusKsePower ≠ .on then (some KSE_FAIL_NOT_POWERED_ON, x)
  else if socketDesc = INVALID_SOCKET then (some KSE_FAIL_WRONG_INPUT, x)
  else handshakeLoop W fuel (tlsHeader 0x11 socketDesc) socketDesc fuel ⟨KSE_TRUE, x⟩

/-! ### Application data -/

/-- `Set Alert`: tell the device which alert to send, and send its record.  A return inside
    the block is `true`. -/
def setAlert (socketDesc : Int) (x : Kse σ) : Bool × Option Int × Kse σ :=
  let x := x.store 6 [x.gabTxRxData 2, x.gabTxRxData 3]
  let x := x.store 0 (tlsHeader 0x22 socketDesc)
  let (sRv, usLen, x) := transceive W fuel 8 x
  if sRv ≠ some KSE_SUCCESS then (true, sRv, x)
  else
    let sRv := status x.gabTxRxData
    if sRv = KSE_SUCCESS ∧ usLen < 4 ∨ sRv ≠ KSE_SUCCESS ∧ usLen ≠ 2 then
      (true, some KSE_FAIL_UNEXPECTED_RESP_LEN, x)
    else if sRv ≠ KSE_SUCCESS then (true, some sRv, x)
    else
      let (returned, sOutLen, x) := sendRecord W socketDesc 4 (x.field 2) x
      if returned then (true, some sOutLen, x)
      else (false, some sRv, x)

/-- `_ksetlsTlsRead` after the record was placed in the shared buffer. -/
def parseRecord (pbInAppData : Nat) (psInAppDataLen : Option Int) (socketDesc sInLen : Int)
    (x : Kse σ) : Option Int × Option Int × Kse σ :=
  let x := x.store 0 (tlsHeader 0x20 socketDesc ++ bytes16 (uint16 sInLen))
  let (sRv, usLen, x) := transceive W fuel (uint16 (sInLen + 8)) x
  if sRv ≠ some KSE_SUCCESS then (sRv, psInAppDataLen, x)
  else
    let sRv := status x.gabTxRxData
    if sRv = KSE_SUCCESS ∧ usLen < 6 ∨ sRv ≠ KSE_SUCCESS ∧ usLen ≠ 2 ∧ usLen ≠ 4 then
      (some KSE_FAIL_UNEXPECTED_RESP_LEN, psInAppDataLen, x)
    else if sRv ≠ KSE_SUCCESS then
      let (returned, sRv, x) := if usLen = 4 then setAlert W fuel socketDesc x
        else (false, some sRv, x)
      if returned then (sRv, psInAppDataLen, x)
      else (sRv, psInAppDataLen, { x with gusTxRxDataLength := 0 })
    else
      let usUnusedInputLen := x.field 2
      let usMessageLen := x.field 4
      let x := x.copyOut pbInAppData 6 usMessageLen
      (some (int16 usMessageLen), some (int16 usMessageLen), x.next sInLen 8 usUnusedInputLen)

/-- `_ksetlsTlsRead`.  The second component is `*psInAppDataLen`, or `none` for a null pointer. -/
def ksetlsTlsRead (pbInAppData : Nat) (psInAppDataLen : Option Int) (socketDesc : Int)
    (x : Kse σ) : Option Int × Option Int × Kse σ :=
  if x.gusKsePower ≠ .on then (some KSE_FAIL_NOT_POWERED_ON, psInAppDataLen, x)
  else if pbInAppData = NULL_PTR ∨ psInAppDataLen = none ∨ socketDesc = INVALID_SOCKET then
    (some KSE_FAIL_WRONG_INPUT, psInAppDataLen, x)
  else
    let (returned, sInLen, x) := receiveRecord W 8 socketDesc x
    if returned then (some sInLen, psInAppDataLen, x)
    else parseRecord W fuel pbInAppData psInAppDataLen socketDesc sInLen x

/-- `_ksetlsTlsWrite` and `_ksetlsTlsCloseNotify` after the request was stored.  The code of
    success is `sOutLen`, which is not assigned when there is no record to send. -/
def writeRecord (socketDesc : Int) (usSendLen : Nat) (x : Kse σ) : Option Int × Kse σ :=
  let (sRv, usLen, x) := transceive W fuel usSendLen x
  if sRv ≠ some KSE_SUCCESS then (sRv, x)
  else
    let sRv := status x.gabTxRxData
    if sRv = KSE_SUCCESS ∧ usLen < 4 ∨ sRv ≠ KSE_SUCCESS ∧ usLen ≠ 2 then
      (some KSE_FAIL_UNEXPECTED_RESP_LEN, x)
    else if sRv ≠ KSE_SUCCESS then (some sRv, x)
    else
      let (returned, sOutLen, x) := sendRecord W socketDesc 4 (x.field 2) x
      if returned then (some sOutLen, x)
      else (some sOutLen, { x with gusTxRxDataLength := 0 })

def ksetlsTlsWrite (socketDesc : Int) (pbOutAppData : Nat) (sOutAppDataLen : Int) (x : Kse σ) :
    Option Int × Kse σ :=
  if x.gusKsePower ≠ .on then (some KSE_FAIL_NOT_POWERED_ON, x)
  else if socketDesc = INVALID_SOCKET ∨ pbOutAppData = NULL_PTR ∨ sOutAppDataLen ≤ 0 ∨
      sOutAppDataLen > MAX_IO_DATA_SIZE then (some KSE_FAIL_WRONG_INPUT, x)
  else
    writeRecord W fuel socketDesc (uint16 (sOutAppDataLen + 8))
      (x.store 0 (tlsHeader 0x21 socketDesc ++ bytes16 (uint16 sOutAppDataLen) ++
        x.arg pbOutAppData sOutAppDataLen.toNat))

def ksetlsTlsCloseNotify (socketDesc : Int) (x : Kse σ) : Option Int × Kse σ :=
  if x.gusKsePower ≠ .on then (some KSE_FAIL_NOT_POWERED_ON, x)
  else if socketDesc = INVALID_SOCKET then (some KSE_FAIL_WRONG_INPUT, x)
  else writeRecord W fuel socketDesc 6 (x.store 0 (tlsHeader 0x23 socketDesc))

/-! ### What a call does with its response -/

def Exchange.field (e : Exchange) (offset : Nat) : Nat :=
  word (e.gabTxRxData offset) (e.gabTxRxData (offset + 1))

/-- The device accepted the command, and its response has at least `usLen` bytes. -/
def Exchange.Accepted (e : Exchange) (usLen : Nat) : Prop :=
  e.sRv = some KSE_SUCCESS ∧ status e.gabTxRxData = KSE_SUCCESS ∧ usLen ≤ e.usLen

instance (e : Exchange) (usLen : Nat) : Decidable (e.Accepted usLen) := by
  unfold Exchange.Accepted; infer_instance

/-- The response is a positive status word. -/
def Exchange.PositiveStatus (e : Exchange) : Prop :=
  e.sRv = some KSE_SUCCESS ∧ e.usLen = 2 ∧ 0 < status e.gabTxRxData

instance (e : Exchange) : Decidable e.PositiveStatus := by
  unfold Exchange.PositiveStatus; infer_instance

/-- A function of the driver returns a positive code. -/
def PositiveCode (sRv : Option Int) : Prop := ∃ code, sRv = some code ∧ 0 < code

@[simp] theorem positiveCode_some (code : Int) : PositiveCode (some code) ↔ 0 < code := by
  simp [PositiveCode]

theorem not_positiveCode {sRv : Option Int} (h : ∀ code, sRv = some code → code ≤ 0) :
    ¬PositiveCode sRv := by
  rintro ⟨code, hcode, hpos⟩
  have := h code hcode
  omega

@[simp] theorem Kse.exchanged_field (x : Kse σ) (e : Exchange) (w : σ) (offset : Nat) :
    (x.exchanged e w).field offset = e.field offset := rfl

theorem Exchange.field_lt (e : Exchange) (offset : Nat) : e.field offset < 65536 := word_lt _ _

theorem receiveRecord_cases (offset : Nat) (socketDesc : Int) (x : Kse σ) :
    (x.gusTxRxDataLength = 0 ∧ ∃ w,
      receiveRecord W offset socketDesc x = (true, -1, { x with world := w })) ∨
    (x.gusTxRxDataLength = 0 ∧ ∃ l w, l.length ≤ MAX_IO_DATA_SIZE ∧
      receiveRecord W offset socketDesc x = (false, (l.length : Int),
        { x with gabTxRxData := put x.gabTxRxData offset l, world := w
                 trace := x.trace ++ [.received l] })) ∨
    (x.gusTxRxDataLength ≠ 0 ∧ receiveRecord W offset socketDesc x =
      (false, int16 x.gusTxRxDataLength,
        { x with gabTxRxData := put x.gabTxRxData offset x.pending })) := by
  unfold receiveRecord
  split
  · rename_i hempty
    rcases tlsRecv_cases W offset MAX_IO_DATA_SIZE socketDesc x with
      ⟨w, hrecv⟩ | ⟨l, w, hlen, hrecv⟩
    · exact Or.inl ⟨hempty, w, by rw [hrecv]; rfl⟩
    · rw [sizeT_of_nonneg (by simp) (by simp)] at hlen
      have hword : int16 (l.length : Int) = l.length := by
        simp at hlen
        exact int16_of_lt (by omega) (by omega)
      refine Or.inr (Or.inl ⟨hempty, l, w, by simpa using hlen, ?_⟩)
      rw [hrecv, hword]
      simp
  · rename_i hpending
    refine Or.inr (Or.inr ⟨hpending, ?_⟩)
    rw [cpy_eq_blit, blit_eq_put]
    rfl

/-- `_ksetlsTlsWrite` and `_ksetlsTlsCloseNotify` use an accepted response, and no other. -/
theorem writeRecord_cases (socketDesc : Int) (usSendLen : Nat) (x : Kse σ) :
    ∃ e w, e.Of W fuel w usSendLen x ∧
      (¬e.Accepted 4 ∧
        (∃ sRv, writeRecord W fuel socketDesc usSendLen x = (sRv, x.exchanged e w)) ∨
      e.Accepted 4 ∧ ∃ returned sOutLen y,
        sendRecord W socketDesc 4 (e.field 2) (x.exchanged e w) = (returned, sOutLen, y) ∧
        writeRecord W fuel socketDesc usSendLen x =
          (some sOutLen, if returned then y else { y with gusTxRxDataLength := 0 })) := by
  obtain ⟨e, w, hof⟩ := exists_exchange W fuel usSendLen x
  refine ⟨e, w, hof, ?_⟩
  simp only [writeRecord, hof.call, Kse.exchanged_gabTxRxData, Kse.exchanged_field]
  by_cases hok : e.sRv = some KSE_SUCCESS
  · rw [if_neg (not_not.mpr hok)]
    by_cases hstatus : status e.gabTxRxData = KSE_SUCCESS
    · by_cases hlen : 4 ≤ e.usLen
      · rcases hsend : sendRecord W socketDesc 4 (e.field 2) (x.exchanged e w) with
          ⟨returned, sOutLen, y⟩
        refine Or.inr ⟨⟨hok, hstatus, hlen⟩, returned, sOutLen, y, rfl, ?_⟩
        rw [if_neg (by omega), if_neg (not_not.mpr hstatus)]
        cases returned <;> rfl
      · have hrejected : ¬e.Accepted 4 := by
          intro h
          exact hlen h.2.2
        rw [if_pos (Or.inl ⟨hstatus, by omega⟩)]
        exact Or.inl ⟨hrejected, _, rfl⟩
    · have hrejected : ¬e.Accepted 4 := by
        intro h
        exact hstatus h.2.1
      refine Or.inl ⟨hrejected, ?_⟩
      split <;> exact ⟨_, rfl⟩
  · have hrejected : ¬e.Accepted 4 := by
      intro h
      exact hok h.1
    rw [if_pos hok]
    exact Or.inl ⟨hrejected, _, rfl⟩

/-- Only an error that `write` reports makes the block return. -/
theorem sendRecord_neg {socketDesc : Int} {offset usRecordLen : Nat} {x y : Kse σ} {sOutLen : Int}
    (h : sendRecord W socketDesc offset usRecordLen x = (true, sOutLen, y)) : sOutLen < 0 := by
  unfold sendRecord at h
  split at h
  · simp only [Prod.mk.injEq, decide_eq_true_eq] at h
    rw [← h.2.1]
    exact h.1
  · simp at h

theorem Exchange.Of.positiveCode_of_failed {e : Exchange} {w : σ} {usSendLen : Nat} {x : Kse σ}
    (h : e.Of W fuel w usSendLen x) (hfailed : e.sRv ≠ some KSE_SUCCESS) :
    PositiveCode e.sRv ↔ e.PositiveStatus := by
  apply iff_of_false (not_positiveCode h.sRv_le)
  intro hpositive
  exact hfailed hpositive.1

theorem setAlert_cases (socketDesc : Int) (x : Kse σ) :
    ∃ (e : Exchange) (w : σ) (y : Kse σ), y.gabTxRxData 1 = 0x22 ∧ e.Of W fuel w 8 y ∧
      y = { x with gabTxRxData := y.gabTxRxData } ∧
      (¬e.Accepted 4 ∧ (∃ sRv, setAlert W fuel socketDesc x = (true, sRv, y.exchanged e w) ∧
        (PositiveCode sRv ↔ e.PositiveStatus)) ∨
      e.Accepted 4 ∧ ∃ returned sOutLen z,
        sendRecord W socketDesc 4 (e.field 2) (y.exchanged e w) = (returned, sOutLen, z) ∧
        setAlert W fuel socketDesc x =
          (returned, some (if returned then sOutLen else KSE_SUCCESS), z)) := by
  have hcmd : ((x.store 6 [x.gabTxRxData 2, x.gabTxRxData 3]).store 0
      (tlsHeader 0x22 socketDesc)).gabTxRxData 1 = 0x22 := by
    rw [Kse.store_gabTxRxData, put_in _ (Nat.zero_le _) (by simp)]
    rfl
  rcases hy : (x.store 6 [x.gabTxRxData 2, x.gabTxRxData 3]).store 0
    (tlsHeader 0x22 socketDesc) with y
  obtain ⟨e, w, hof⟩ := exists_exchange W fuel 8 y
  refine ⟨e, w, y, hy ▸ hcmd, hof, hy ▸ rfl, ?_⟩
  simp only [setAlert, hy, hof.call, Kse.exchanged_gabTxRxData, Kse.exchanged_field]
  by_cases hok : e.sRv = some KSE_SUCCESS
  · rw [if_neg (not_not.mpr hok)]
    by_cases hstatus : status e.gabTxRxData = KSE_SUCCESS
    · by_cases hlen : 4 ≤ e.usLen
      · rcases hsend : sendRecord W socketDesc 4 (e.field 2) (y.exchanged e w) with
          ⟨returned, sOutLen, z⟩
        refine Or.inr ⟨⟨hok, hstatus, hlen⟩, returned, sOutLen, z, rfl, ?_⟩
        rw [if_neg (by omega), if_neg (not_not.mpr hstatus), hstatus]
        cases returned <;> rfl
      · have hrejected : ¬e.Accepted 4 := by
          intro h
          exact hlen h.2.2
        rw [if_pos (Or.inl ⟨hstatus, by omega⟩)]
        exact Or.inl ⟨hrejected, _, rfl, by simp [Exchange.PositiveStatus, hstatus]⟩
    · have hrejected : ¬e.Accepted 4 := by
        intro h
        exact hstatus h.2.1
      refine Or.inl ⟨hrejected, ?_⟩
      by_cases hlen : e.usLen = 2
      · rw [if_neg (by omega), if_pos hstatus]
        exact ⟨_, rfl, by simp [Exchange.PositiveStatus, hok, hlen]⟩
      · rw [if_pos (Or.inr ⟨hstatus, hlen⟩)]
        exact ⟨_, rfl, by simp [Exchange.PositiveStatus, hlen]⟩
  · have hrejected : ¬e.Accepted 4 := by
      intro h
      exact hok h.1
    rw [if_pos hok]
    exact Or.inl ⟨hrejected, _, rfl, hof.positiveCode_of_failed W fuel hok⟩

/-- `_ksetlsTlsRead` copies the message of an accepted response, sets the alert that another
    response of four bytes asks for, and returns at any other. -/
theorem parseRecord_cases (pbInAppData : Nat) (psInAppDataLen : Option Int)
    (socketDesc sInLen : Int) (x : Kse σ) :
    ∃ (e : Exchange) (w : σ) (y : Kse σ),
      y = x.store 0 (tlsHeader 0x20 socketDesc ++ bytes16 (uint16 sInLen)) ∧
      e.Of W fuel w (uint16 (sInLen + 8)) y ∧
      ((¬e.Accepted 6 ∧ ∃ sRv z,
          parseRecord W fuel pbInAppData psInAppDataLen socketDesc sInLen x =
            (sRv, psInAppDataLen, z) ∧
          (z = y.exchanged e w ∨ z = { y.exchanged e w with gusTxRxDataLength := 0 }) ∧
          (PositiveCode sRv ↔ e.PositiveStatus)) ∨
        (¬e.Accepted 6 ∧ e.usLen = 4 ∧ ∃ returned sRv z,
          setAlert W fuel socketDesc (y.exchanged e w) = (returned, sRv, z) ∧
          parseRecord W fuel pbInAppData psInAppDataLen socketDesc sInLen x =
            (sRv, psInAppDataLen,
              if returned then z else { z with gusTxRxDataLength := 0 })) ∨
        (e.Accepted 6 ∧ parseRecord W fuel pbInAppData psInAppDataLen socketDesc sInLen x =
          (some (int16 (e.field 4)), some (int16 (e.field 4)),
            ((y.exchanged e w).copyOut pbInAppData 6 (e.field 4)).next sInLen 8
              (e.field 2)))) := by
  obtain ⟨e, w, hof⟩ := exists_exchange W fuel (uint16 (sInLen + 8))
    (x.store 0 (tlsHeader 0x20 socketDesc ++ bytes16 (uint16 sInLen)))
  refine ⟨e, w, _, rfl, hof, ?_⟩
  simp only [parseRecord, hof.call, Kse.exchanged_gabTxRxData, Kse.exchanged_field]
  by_cases hok : e.sRv = some KSE_SUCCESS
  · rw [if_neg (not_not.mpr hok)]
    by_cases hstatus : status e.gabTxRxData = KSE_SUCCESS
    · by_cases hlen : 6 ≤ e.usLen
      · rw [if_neg (by omega), if_neg (not_not.mpr hstatus)]
        exact Or.inr (Or.inr ⟨⟨hok, hstatus, hlen⟩, rfl⟩)
      · have hrejected : ¬e.Accepted 6 := by
          intro h
          exact hlen h.2.2
        rw [if_pos (Or.inl ⟨hstatus, by omega⟩)]
        exact Or.inl ⟨hrejected, _, _, rfl, Or.inl rfl,
          by simp [Exchange.PositiveStatus, hstatus]⟩
    · have hrejected : ¬e.Accepted 6 := by
        intro h
        exact hstatus h.2.1
      by_cases hlen : e.usLen = 2 ∨ e.usLen = 4
      · rw [if_neg (by omega), if_pos hstatus]
        by_cases halert : e.usLen = 4
        · rw [if_pos halert]
          rcases hset : setAlert W fuel socketDesc (Kse.exchanged _ e w) with ⟨returned, sRv, z⟩
          refine Or.inr (Or.inl ⟨hrejected, halert, returned, sRv, z, rfl, ?_⟩)
          cases returned <;> rfl
        · have hshort : e.usLen = 2 := by omega
          rw [if_neg halert]
          exact Or.inl ⟨hrejected, _, _, rfl, Or.inr rfl,
            by simp [Exchange.PositiveStatus, hok, hshort]⟩
      · have hlong : e.usLen ≠ 2 := by omega
        rw [if_pos (Or.inr ⟨hstatus, by omega, by omega⟩)]
        exact Or.inl ⟨hrejected, _, _, rfl, Or.inl rfl,
          by simp [Exchange.PositiveStatus, hlong]⟩
  · have hrejected : ¬e.Accepted 6 := by
      intro h
      exact hok h.1
    rw [if_pos hok]
    exact Or.inl ⟨hrejected, _, _, rfl, Or.inl rfl, hof.positiveCode_of_failed W fuel hok⟩

/-- A round of a handshake sends the record of a response it uses, and returns at any other. -/
theorem handshakeRound_cases (cmd : List UInt8) (socketDesc : Int) (h : Handshake σ) :
    ∃ returned sInLen y,
      (if h.bNextInput = KSE_TRUE then receiveRecord W (cmd.length + 2) socketDesc h.kse
        else (false, 0, h.kse)) = (returned, sInLen, y) ∧
      (returned = true ∧
          handshakeRound W fuel cmd socketDesc h = .done (some sInLen) y ∨
        returned = false ∧ ∃ e w,
          e.Of W fuel w (uint16 (sInLen + (cmd.length + 2)))
            (y.store 0 (cmd ++ bytes16 (uint16 sInLen))) ∧
          (¬(e.sRv = some KSE_SUCCESS ∧
                ¬(status e.gabTxRxData = KSE_SUCCESS ∧ e.usLen < 7)) ∧
              (∃ sRv, handshakeRound W fuel cmd socketDesc h = .done sRv
                ((y.store 0 (cmd ++ bytes16 (uint16 sInLen))).exchanged e w)) ∨
            e.sRv = some KSE_SUCCESS ∧
              ¬(status e.gabTxRxData = KSE_SUCCESS ∧ e.usLen < 7) ∧
              ∃ returned sOutLen z,
                sendRecord W socketDesc 7 (if e.usLen > 2 then e.field 5 else 0)
                    ((y.store 0 (cmd ++ bytes16 (uint16 sInLen))).exchanged e w) =
                  (returned, sOutLen, z) ∧
                handshakeRound W fuel cmd socketDesc h =
                  if returned then .done (some sOutLen) z
                  else
                    let z := z.next sInLen (cmd.length + 2) (if e.usLen > 2 then e.field 2 else 0)
                    if status e.gabTxRxData = KSE_SUCCESS then
                      .again ⟨if e.usLen > 2 then e.gabTxRxData 4 else KSE_FALSE, z⟩
                    else .done (some (if status e.gabTxRxData = KSETLS_HANDSHAKE_DONE
                      then KSE_SUCCESS else status e.gabTxRxData)) z)) := by
  rcases hinput : (if h.bNextInput = KSE_TRUE then
      receiveRecord W (cmd.length + 2) socketDesc h.kse else (false, 0, h.kse)) with
    ⟨returned, sInLen, y⟩
  refine ⟨returned, sInLen, y, rfl, ?_⟩
  simp only [handshakeRound, hinput]
  cases returned with
  | true => exact Or.inl ⟨rfl, rfl⟩
  | false =>
    refine Or.inr ⟨rfl, ?_⟩
    obtain ⟨e, w, hof⟩ := exists_exchange W fuel (uint16 (sInLen + (cmd.length + 2)))
      (y.store 0 (cmd ++ bytes16 (uint16 sInLen)))
    refine ⟨e, w, hof, ?_⟩
    simp only [Nat.cast_add, Nat.cast_ofNat, hof.call, Kse.exchanged_gabTxRxData,
      Kse.exchanged_field, Bool.false_eq_true, if_false]
    by_cases hok : e.sRv = some KSE_SUCCESS
    · rw [if_neg (not_not.mpr hok)]
      by_cases hshort : status e.gabTxRxData = KSE_SUCCESS ∧ e.usLen < 7
      · exact Or.inl ⟨fun h => h.2 hshort, _, if_pos hshort⟩
      · rcases hsend : sendRecord W socketDesc 7 (if e.usLen > 2 then e.field 5 else 0)
            (Kse.exchanged _ e w) with ⟨returned, sOutLen, z⟩
        refine Or.inr ⟨hok, hshort, returned, sOutLen, z, rfl, ?_⟩
        rw [if_neg hshort]
    · exact Or.inl ⟨fun h => hok h.1, _, if_pos hok⟩

/-! ### The parse command for pending input -/

def parseRequest (socketDesc : Int) (l : List UInt8) : List UInt8 :=
  tlsHeader 0x20 socketDesc ++ bytes16 l.length ++ l

theorem slice_parseRequest (m : Bytes) (socketDesc : Int) (l : List UInt8) :
    slice (put (put m 8 l) 0 (tlsHeader 0x20 socketDesc ++ bytes16 l.length)) 0
      (8 + l.length) = parseRequest socketDesc l :=
  slice_put_put m 0 (tlsHeader 0x20 socketDesc ++ bytes16 l.length) l

theorem drop_parseRequest (socketDesc : Int) (l : List UInt8) :
    (parseRequest socketDesc l).drop 8 = l := rfl

theorem length_parseRequest (socketDesc : Int) (l : List UInt8) :
    (parseRequest socketDesc l).length = 8 + l.length := by
  simp only [parseRequest, List.length_append, length_tlsHeader, length_bytes16]

/-- The first thing that happened between `x` and `y` is the parse command for `l`. -/
def Parsed (socketDesc : Int) (l : List UInt8) (x y : Kse σ) : Prop :=
  ∃ e es, y.trace = x.trace ++ .exchange e :: es ∧ e.request = parseRequest socketDesc l

theorem setAlert_trace (socketDesc : Int) (x : Kse σ) :
    ∃ es, (setAlert W fuel socketDesc x).2.2.trace = x.trace ++ es := by
  obtain ⟨e, w, y, -, -, hy, hcase⟩ := setAlert_cases W fuel socketDesc x
  have htrace : y.trace = x.trace := by rw [hy]
  rcases hcase with ⟨-, sRv, hcall, -⟩ | ⟨-, returned, sOutLen, z, hsend, hcall⟩
  · exact ⟨[.exchange e], by rw [hcall, Kse.exchanged_trace, htrace]⟩
  · obtain ⟨_, _, w', hsent⟩ := sendRecord_eq W socketDesc 4 (e.field 2) (y.exchanged e w)
    have hz := congrArg (fun r => r.2.2.trace) (hsend.symm.trans hsent)
    exact ⟨_, by rw [hcall, hz, Kse.exchanged_trace, htrace, List.append_assoc]⟩

theorem parseRecord_trace (pbInAppData : Nat) (psInAppDataLen : Option Int)
    (socketDesc sInLen : Int) (x : Kse σ) :
    ∃ e w es, e.Of W fuel w (uint16 (sInLen + 8))
        (x.store 0 (tlsHeader 0x20 socketDesc ++ bytes16 (uint16 sInLen))) ∧
      (parseRecord W fuel pbInAppData psInAppDataLen socketDesc sInLen x).2.2.trace =
        x.trace ++ .exchange e :: es := by
  obtain ⟨e, w, y, rfl, hof, hcase⟩ :=
    parseRecord_cases W fuel pbInAppData psInAppDataLen socketDesc sInLen x
  rcases hcase with ⟨-, sRv, z, hcall, hz, -⟩ | ⟨-, -, returned, sRv, z, hset, hcall⟩ |
    ⟨-, hcall⟩
  · refine ⟨e, w, [], hof, ?_⟩
    rw [hcall]
    rcases hz with rfl | rfl <;> rfl
  · obtain ⟨es, htrace⟩ := setAlert_trace W fuel socketDesc
      (Kse.exchanged (x.store 0 (tlsHeader 0x20 socketDesc ++ bytes16 (uint16 sInLen))) e w)
    rw [hset] at htrace
    refine ⟨e, w, es, hof, ?_⟩
    rw [hcall]
    cases returned <;> simpa using htrace
  · exact ⟨e, w, [.copied 6 (e.field 4)], hof, by rw [hcall]; simp [Kse.copyOut]⟩

/-- The request with the length field and the length that `sInLen = (int16_t)n` gives. -/
theorem pending_request_iff (m : Bytes) {socketDesc : Int} {l l' : List UInt8} {n : Nat}
    (hl : l.length = n) (hl' : l'.length = n) :
    slice (put (put m 8 l') 0 (tlsHeader 0x20 socketDesc ++ bytes16 (uint16 (int16 n)))) 0
        (uint16 (int16 n + 8)) = parseRequest socketDesc l ↔ n + 8 < 65536 ∧ l = l' := by
  have hlen : uint16 (int16 n + 8) = (n + 8) % 65536 := by
    simp only [uint16, int16]
    split <;> omega
  constructor
  · intro h
    have hlength := congrArg List.length h
    rw [length_slice, length_parseRequest, hlen, hl] at hlength
    have hshort : n + 8 < 65536 := by omega
    refine ⟨hshort, ?_⟩
    have hword : uint16 (int16 n) = l'.length := by
      simp only [uint16, int16]
      split <;> omega
    rw [hword, hlen, Nat.mod_eq_of_lt hshort, Nat.add_comm, ← hl', slice_parseRequest] at h
    rw [← drop_parseRequest socketDesc l, ← h, drop_parseRequest]
  · rintro ⟨hshort, rfl⟩
    have hword : uint16 (int16 n) = l.length := by
      simp only [uint16, int16]
      split <;> omega
    rw [hword, hlen, Nat.mod_eq_of_lt hshort, Nat.add_comm, ← hl, slice_parseRequest]

/-- `_ksetlsTlsRead` with input pending sends a parse command for it, and for nothing else of
    that length, when it gets that far and the command has a 16-bit length. -/
theorem ksetlsTlsRead_parsed_iff {x : Kse σ} (hpending : 0 < x.gusTxRxDataLength)
    (pbInAppData : Nat) (psInAppDataLen : Option Int) (socketDesc : Int) {l : List UInt8}
    (hl : l.length = x.gusTxRxDataLength) :
    Parsed socketDesc l x (ksetlsTlsRead W fuel pbInAppData psInAppDataLen socketDesc x).2.2 ↔
      (x.gusKsePower = .on ∧ pbInAppData ≠ NULL_PTR ∧ psInAppDataLen ≠ none ∧
        socketDesc ≠ INVALID_SOCKET) ∧ x.gusTxRxDataLength + 8 < 65536 ∧ l = x.pending := by
  have hidle : ¬Parsed socketDesc l x x := by
    rintro ⟨e, es, htrace, -⟩
    simp at htrace
  unfold ksetlsTlsRead
  by_cases hpower : x.gusKsePower = .on
  · rw [if_neg (not_not.mpr hpower)]
    by_cases hargs : pbInAppData = NULL_PTR ∨ psInAppDataLen = none ∨ socketDesc = INVALID_SOCKET
    · rw [if_pos hargs]
      constructor
      · intro h
        exact absurd h hidle
      · intro h
        exact absurd hargs (by tauto)
    · obtain ⟨e, w, es, hof, htrace⟩ := parseRecord_trace W fuel pbInAppData psInAppDataLen
        socketDesc (int16 x.gusTxRxDataLength)
        { x with gabTxRxData := put x.gabTxRxData 8 x.pending }
      have hparsed : Parsed socketDesc l x (parseRecord W fuel pbInAppData psInAppDataLen
          socketDesc (int16 x.gusTxRxDataLength)
          { x with gabTxRxData := put x.gabTxRxData 8 x.pending }).2.2 ↔
          e.request = parseRequest socketDesc l := by
        constructor
        · rintro ⟨e', es', htrace', hrequest⟩
          rw [htrace, List.append_cancel_left_eq, List.cons.injEq, Event.exchange.injEq] at htrace'
          rw [htrace'.1, hrequest]
        · intro hrequest
          exact ⟨e, es, htrace, hrequest⟩
      rcases receiveRecord_cases W 8 socketDesc x with ⟨hzero, -⟩ | ⟨hzero, -⟩ | ⟨-, hrecv⟩
      · omega
      · omega
      · simp only [if_neg hargs, hrecv, Bool.false_eq_true, if_false]
        rw [hparsed, Exchange.request, hof.pbSendData, hof.usSendLen, Kse.store_gabTxRxData,
          pending_request_iff _ hl (by simp [Kse.pending])]
        constructor
        · intro h
          exact ⟨⟨hpower, by tauto⟩, h⟩
        · intro h
          exact h.2
  · rw [if_pos hpower]
    constructor
    · intro h
      exact absurd h hidle
    · intro h
      exact absurd h.1.1 hpower

end MavlinkDim
