import MavlinkDim.DimRecv

/-!
# Rejected records

A record that the device rejects is answered with an error, and with an alert if
one is to be sent; the driver then gives the alert to the device in a second
command and sends the record that it gets.  `rejected_reported_iff` says when the
error is still there at the end.
-/

namespace MavlinkDim

open ByteMemory

variable {σ : Type} (W : World σ) (fuel : Nat) (socketDesc : Int)

/-! ### The two exchanges -/

/-- A parse command is answered with an error, without or with an alert. -/
structure Exchange.Rejected (e : Exchange) : Prop where
  sRv : e.sRv = some KSE_SUCCESS
  status_neg : status e.gabTxRxData < 0
  usLen : e.usLen = 2 ∨ e.usLen = 4

/-- `e` is the parse command of a read that begins in `x`, and `y` is the state after it. -/
def ParseExchange (x : Kse σ) (e : Exchange) (y : Kse σ) : Prop :=
  ∃ sInLen y₀ w, receiveRecord W 8 socketDesc x = (false, sInLen, y₀) ∧
    e.Of W fuel w (uint16 (sInLen + 8))
      (y₀.store 0 (tlsHeader 0x20 socketDesc ++ bytes16 (uint16 sInLen))) ∧
    y = (y₀.store 0 (tlsHeader 0x20 socketDesc ++ bytes16 (uint16 sInLen))).exchanged e w

/-- The request to set the alert of a response. -/
def alertRequest (y : Kse σ) : Kse σ :=
  (y.store 6 [y.gabTxRxData 2, y.gabTxRxData 3]).store 0 (tlsHeader 0x22 socketDesc)

/-- `e` is the command that sets the alert, and `z` is the state after it. -/
def AlertExchange (y : Kse σ) (e : Exchange) (z : Kse σ) : Prop :=
  ∃ w, e.Of W fuel w 8 (alertRequest socketDesc y) ∧
    z = (alertRequest socketDesc y).exchanged e w

/-- The socket is in error, or `write` fails or reports a count that is negative as an
    `int16_t`. -/
def SendRefused (offset : Nat) (count : Int) (z : Kse σ) : Prop :=
  let (iRv, error, s) := W.getsockopt z.world socketDesc
  iRv = -1 ∨ error ≠ 0 ∨ ∀ k,
    (W.write s socketDesc (fun i => z.gabTxRxData (offset + i)) (sizeT count)).1 = some k →
      int16 k.val < 0

/-- The alert command is refused, without a positive status word, or its record is not sent. -/
def AlertRefused (e : Exchange) (z : Kse σ) : Prop :=
  ¬e.PositiveStatus ∧ (e.Accepted 4 →
    0 < e.field 2 ∧ SendRefused W socketDesc 4 (int16 (e.field 2)) z)

variable {W fuel socketDesc} {x y z : Kse σ} {e e' : Exchange}

theorem tlsSend_neg_iff (offset : Nat) (count : Int) (z : Kse σ) :
    (tlsSend W socketDesc offset count z).1 < 0 ↔ SendRefused W socketDesc offset count z := by
  rw [tlsSend, SendRefused]
  rcases W.getsockopt z.world socketDesc with ⟨iRv, error, s⟩
  dsimp only
  by_cases hrv : iRv = -1
  · simp [hrv]
  · by_cases herror : error = 0
    · rw [if_neg hrv, if_neg (not_not.mpr herror)]
      rcases hwrite : W.write s socketDesc (fun i => z.gabTxRxData (offset + i)) (sizeT count)
        with ⟨_ | k, s'⟩
      · simp
      · simp [hrv, herror]
    · rw [if_neg hrv, if_pos herror]
      simp [herror]

/-- A code that is negative. -/
def NegativeCode (sRv : Option Int) : Prop := ∃ code, sRv = some code ∧ code < 0

@[simp] theorem negativeCode_some (code : Int) : NegativeCode (some code) ↔ code < 0 := by
  simp [NegativeCode]

theorem sendRecord_returned_iff (offset usRecordLen : Nat) (z : Kse σ) :
    (sendRecord W socketDesc offset usRecordLen z).1 = true ↔
      0 < usRecordLen ∧ SendRefused W socketDesc offset (int16 usRecordLen) z := by
  rw [sendRecord]
  by_cases hrecord : usRecordLen > 0
  · rw [if_pos hrecord, ← tlsSend_neg_iff]
    simp [hrecord]
  · rw [if_neg hrecord]
    simp [hrecord]

/-- The code for a response to a command with a record that is not accepted: the error of the
    exchange, or the status word if there is nothing else in the response. -/
def Exchange.refusedCode (e : Exchange) : Option Int :=
  if e.sRv ≠ some KSE_SUCCESS then e.sRv
  else if status e.gabTxRxData = KSE_SUCCESS ∨ e.usLen ≠ 2 then
    some KSE_FAIL_UNEXPECTED_RESP_LEN
  else some (status e.gabTxRxData)

/-- The check that `_ksetlsTlsWrite`, `_ksetlsTlsCloseNotify` and the alert command make of the
    length of such a response. -/
theorem Exchange.unexpectedLen_iff (hok : e.sRv = some KSE_SUCCESS) (hrejected : ¬e.Accepted 4) :
    (status e.gabTxRxData = KSE_SUCCESS ∧ e.usLen < 4 ∨
        status e.gabTxRxData ≠ KSE_SUCCESS ∧ e.usLen ≠ 2) ↔
      status e.gabTxRxData = KSE_SUCCESS ∨ e.usLen ≠ 2 := by
  by_cases hstatus : status e.gabTxRxData = KSE_SUCCESS
  · have hshort : e.usLen < 4 := by
      by_contra hlong
      exact hrejected ⟨hok, hstatus, Nat.le_of_not_lt hlong⟩
    exact iff_of_true (Or.inl ⟨hstatus, hshort⟩) (Or.inl hstatus)
  · simp only [hstatus, ne_eq, false_and, not_false_eq_true, true_and, false_or]

/-- Only a positive status word gives a code that is not negative. -/
theorem Exchange.Of.refusedCode_cases {usSendLen : Nat} {w : σ}
    (hof : e.Of W fuel w usSendLen y) :
    (e.PositiveStatus ∧ ∃ code, e.refusedCode = some code ∧ 0 < code) ∨
      (¬e.PositiveStatus ∧ ((e.sRv = none ∧ e.refusedCode = none) ∨
        ∃ code, e.refusedCode = some code ∧ code < 0)) := by
  rw [Exchange.refusedCode]
  by_cases hok : e.sRv = some KSE_SUCCESS
  · rw [if_neg (not_not.mpr hok)]
    by_cases hlen : status e.gabTxRxData = KSE_SUCCESS ∨ e.usLen ≠ 2
    · rw [if_pos hlen]
      refine Or.inr ⟨?_, Or.inr ⟨_, rfl, by decide⟩⟩
      rintro ⟨-, htwo, hpos⟩
      rcases hlen with hzero | hne
      · rw [hzero] at hpos
        exact absurd hpos (by decide)
      · exact hne htwo
    · rw [if_neg hlen]
      obtain ⟨hstatus, htwo⟩ := not_or.mp hlen
      rcases lt_or_gt_of_ne hstatus with hneg | hpos
      · refine Or.inr ⟨?_, Or.inr ⟨_, rfl, hneg⟩⟩
        rintro ⟨-, -, hpos⟩
        exact absurd hneg (Int.not_lt.mpr (Int.le_of_lt hpos))
      · exact Or.inl ⟨⟨hok, not_not.mp htwo, hpos⟩, _, rfl, hpos⟩
  · rw [if_pos hok]
    refine Or.inr ⟨fun h => hok h.1, ?_⟩
    cases hcode : e.sRv with
    | none => exact Or.inl ⟨rfl, rfl⟩
    | some code =>
      refine Or.inr ⟨code, rfl, lt_of_le_of_ne (hof.sRv_le code hcode) ?_⟩
      rintro rfl
      exact hok hcode

/-- The alert of an accepted response is set, unless its record is not sent. -/
theorem setAlert_accepted (h : AlertExchange W fuel socketDesc y e z) (haccepted : e.Accepted 4) :
    ∃ returned sOutLen z', sendRecord W socketDesc 4 (e.field 2) z = (returned, sOutLen, z') ∧
      (setAlert W fuel socketDesc y).2.1 = some (if returned then sOutLen else KSE_SUCCESS) := by
  obtain ⟨w, hof, rfl⟩ := h
  obtain ⟨hok, hstatus, hlen⟩ := haccepted
  have hstore : (y.store 6 [y.gabTxRxData 2, y.gabTxRxData 3]).store 0
      (tlsHeader 0x22 socketDesc) = alertRequest socketDesc y := rfl
  rcases hsend : sendRecord W socketDesc 4 (e.field 2)
    ((alertRequest socketDesc y).exchanged e w) with ⟨returned, sOutLen, z'⟩
  refine ⟨returned, sOutLen, z', rfl, ?_⟩
  simp only [setAlert, hstore, hof.call, Kse.exchanged_gabTxRxData, Kse.exchanged_field, hsend]
  rw [if_neg (not_not.mpr hok), if_neg (by omega), if_neg (not_not.mpr hstatus), hstatus]
  cases returned <;> rfl

/-- The code of any other response to the alert command. -/
theorem setAlert_refused (h : AlertExchange W fuel socketDesc y e z)
    (hrejected : ¬e.Accepted 4) : (setAlert W fuel socketDesc y).2.1 = e.refusedCode := by
  obtain ⟨w, hof, rfl⟩ := h
  have hstore : (y.store 6 [y.gabTxRxData 2, y.gabTxRxData 3]).store 0
      (tlsHeader 0x22 socketDesc) = alertRequest socketDesc y := rfl
  simp only [setAlert, hstore, hof.call, Kse.exchanged_gabTxRxData, Exchange.refusedCode]
  by_cases hok : e.sRv = some KSE_SUCCESS
  · rw [if_neg (not_not.mpr hok), if_neg (not_not.mpr hok)]
    simp only [Exchange.unexpectedLen_iff hok hrejected]
    by_cases hlen : status e.gabTxRxData = KSE_SUCCESS ∨ e.usLen ≠ 2
    · rw [if_pos hlen, if_pos hlen]
    · rw [if_neg hlen, if_neg hlen, if_pos (not_or.mp hlen).1]
  · rw [if_pos hok, if_pos hok]

/-- The error of a refused alert command is negative. -/
theorem setAlert_negative_iff (h : AlertExchange W fuel socketDesc y e z)
    (hreply : e.sRv ≠ none) :
    NegativeCode (setAlert W fuel socketDesc y).2.1 ↔ AlertRefused W socketDesc e z := by
  by_cases haccepted : e.Accepted 4
  · have hnot : ¬e.PositiveStatus := by
      rintro ⟨-, -, hpos⟩
      rw [haccepted.2.1] at hpos
      exact absurd hpos (by decide)
    have hrefused : AlertRefused W socketDesc e z ↔
        (sendRecord W socketDesc 4 (e.field 2) z).1 = true := by
      rw [sendRecord_returned_iff]
      constructor
      · intro h
        exact h.2 haccepted
      · intro h
        exact ⟨hnot, fun _ => h⟩
    obtain ⟨returned, sOutLen, z', hsend, hcode⟩ := setAlert_accepted h haccepted
    rw [hrefused, hcode, hsend]
    cases returned with
    | true =>
      have hneg := sendRecord_neg W hsend
      simpa using hneg
    | false => simp
  · have hrefused : AlertRefused W socketDesc e z ↔ ¬e.PositiveStatus := by
      constructor
      · intro h
        exact h.1
      · intro h
        exact ⟨h, fun h' => absurd h' haccepted⟩
    rw [hrefused, setAlert_refused h haccepted]
    obtain ⟨w, hof, -⟩ := h
    rcases hof.refusedCode_cases with
      ⟨hpositive, code, hcode, hpos⟩ | ⟨hnot, ⟨hnone, -⟩ | ⟨code, hcode, hneg⟩⟩
    · apply iff_of_false
      · rw [hcode, negativeCode_some]
        exact Int.not_lt.mpr (Int.le_of_lt hpos)
      · exact not_not.mpr hpositive
    · exact absurd hnone hreply
    · exact iff_of_true ⟨code, hcode, hneg⟩ hnot

/-! ### The read -/

/-- A read whose record is rejected returns the error, or the code of the alert. -/
theorem ksetlsTlsRead_rejected (hpower : x.gusKsePower = .on) {pbInAppData : Nat}
    (hptr : pbInAppData ≠ NULL_PTR) (sInAppDataLen : Int) (hsock : socketDesc ≠ INVALID_SOCKET)
    (hparse : ParseExchange W fuel socketDesc x e y) (h : e.Rejected) :
    (ksetlsTlsRead W fuel pbInAppData (some sInAppDataLen) socketDesc x).1 =
      if e.usLen = 4 then (setAlert W fuel socketDesc y).2.1
      else some (status e.gabTxRxData) := by
  obtain ⟨sInLen, y₀, w, hrecv, hof, rfl⟩ := hparse
  have hargs : ¬(pbInAppData = NULL_PTR ∨ some sInAppDataLen = none ∨
      socketDesc = INVALID_SOCKET) := by
    simp only [reduceCtorEq, false_or, not_or]
    exact ⟨hptr, hsock⟩
  have hneg := h.status_neg
  have hstatus : status e.gabTxRxData ≠ KSE_SUCCESS := Int.ne_of_lt hneg
  have hlen := h.usLen
  rw [ksetlsTlsRead, if_neg (not_not.mpr hpower), if_neg hargs, hrecv]
  simp only [Bool.false_eq_true, if_false, parseRecord, hof.call, h.sRv, ne_eq, not_true,
    Kse.exchanged_gabTxRxData]
  rw [if_neg (by omega), if_pos hstatus]
  by_cases halert : e.usLen = 4
  · rw [if_pos halert, if_pos halert]
    rcases setAlert W fuel socketDesc _ with ⟨returned, sRv, z⟩
    cases returned <;> rfl
  · rw [if_neg halert, if_neg halert]
    rfl

theorem Dim.Reads.pollFd_ne {H : Host σ} {x : Dim σ} (h : x.Reads H) :
    x.pollFd ≠ INVALID_SOCKET := by
  obtain ⟨-, -, -, hpollin⟩ := h
  have hpos := (H.poll x.kse.world x.pollFd).2.1.property hpollin
  intro hinvalid
  rw [hinvalid] at hpos
  exact absurd hpos (by decide)

/-- `recv` takes note of an error of the driver. -/
theorem recv_tlsReadError {H : Host σ} {x : Dim σ} (h : x.Reads H) (size : Option Int)
    (data : Nat) {code : Int}
    (hcode : (ksetlsTlsRead H.toWorld fuel data size x.pollFd (x.polled H)).1 = some code) :
    (x.recv H fuel size data).2.2.tlsReadError = if code < 0 then -1 else 0 := by
  obtain ⟨hconnected, hpoll, hwrite, hpollin⟩ := h
  rcases hread : ksetlsTlsRead H.toWorld fuel data size x.pollFd (x.polled H) with
    ⟨sRv, size', y⟩
  rw [hread] at hcode
  rw [Dim.polled] at hread
  obtain rfl : sRv = some code := hcode
  simp only [Dim.recv, if_neg (not_not.mpr hconnected), if_pos (And.intro hpoll hwrite),
    if_pos hpollin, hread]

/-- **When a rejected record is an error.**  For every state and every reply of the device to
    the parse command that is an error: `_ksetlsTlsRead` returns a negative code and `recv` sets
    `_tls_read_error`, exactly when the reply has no alert, or the command that sets the alert
    is refused without a positive status word, or the record of the alert is not empty and the
    socket does not take it. -/
theorem rejected_reported_iff (H : Host σ) {x : Dim σ} (hreads : x.Reads H)
    (hpower : x.kse.gusKsePower = .on) {data : Nat} (hptr : data ≠ NULL_PTR) (size : Int)
    {e e' : Exchange} {y z : Kse σ}
    (hparse : ParseExchange H.toWorld fuel x.pollFd (x.polled H) e y) (hrejected : e.Rejected)
    (halert : e.usLen = 4 → AlertExchange H.toWorld fuel x.pollFd y e' z ∧ e'.sRv ≠ none) :
    (NegativeCode (ksetlsTlsRead H.toWorld fuel data (some size) x.pollFd (x.polled H)).1 ∧
        (x.recv H fuel (some size) data).2.2.tlsReadError = -1) ↔
      (e.usLen = 4 → AlertRefused H.toWorld x.pollFd e' z) := by
  have hpower' : (x.polled H).gusKsePower = .on := hpower
  have hread := ksetlsTlsRead_rejected hpower' hptr size hreads.pollFd_ne hparse hrejected
  have hnegative :
      NegativeCode (ksetlsTlsRead H.toWorld fuel data (some size) x.pollFd (x.polled H)).1 ↔
        (e.usLen = 4 → AlertRefused H.toWorld x.pollFd e' z) := by
    rw [hread]
    by_cases hlen : e.usLen = 4
    · obtain ⟨hexchange, hreply⟩ := halert hlen
      rw [if_pos hlen, setAlert_negative_iff hexchange hreply]
      constructor
      · intro h _
        exact h
      · intro h
        exact h hlen
    · rw [if_neg hlen]
      refine iff_of_true ⟨_, rfl, hrejected.status_neg⟩ ?_
      intro h
      exact absurd h hlen
  rw [← hnegative]
  constructor
  · intro h
    exact h.1
  · intro h
    obtain ⟨code, hcode, hneg⟩ := id h
    rw [recv_tlsReadError hreads (some size) data hcode, if_pos hneg]
    exact ⟨h, rfl⟩

/-! ### A rejection with an alert -/

variable (W fuel socketDesc) in
/-- The parse command of a read that begins in `x`. -/
def parseCall (x : Kse σ) : Option Int × Nat × Kse σ :=
  let (_, sInLen, y) := receiveRecord W 8 socketDesc x
  transceive W fuel (uint16 (sInLen + 8))
    (y.store 0 (tlsHeader 0x20 socketDesc ++ bytes16 (uint16 sInLen)))

variable (W fuel socketDesc) in
/-- The command that sets the alert in the response in `y`. -/
def alertCall (y : Kse σ) : Option Int × Nat × Kse σ :=
  transceive W fuel 8 (alertRequest socketDesc y)

theorem exists_parseExchange (hrecv : (receiveRecord W 8 socketDesc x).1 = false) :
    ∃ e, ParseExchange W fuel socketDesc x e (parseCall W fuel socketDesc x).2.2 ∧
      (e.sRv, e.usLen, e.gabTxRxData) = ((parseCall W fuel socketDesc x).1,
        (parseCall W fuel socketDesc x).2.1, (parseCall W fuel socketDesc x).2.2.gabTxRxData) := by
  rcases hcase : receiveRecord W 8 socketDesc x with ⟨returned, sInLen, y₀⟩
  rw [hcase] at hrecv
  obtain rfl : returned = false := hrecv
  obtain ⟨e, w, hof⟩ := exists_exchange W fuel (uint16 (sInLen + 8))
    (y₀.store 0 (tlsHeader 0x20 socketDesc ++ bytes16 (uint16 sInLen)))
  simp only [parseCall, hcase, hof.call]
  refine ⟨e, ⟨sInLen, y₀, w, hcase, hof, rfl⟩, ?_⟩
  rw [Kse.exchanged_gabTxRxData]

theorem exists_alertExchange (y : Kse σ) :
    ∃ e, AlertExchange W fuel socketDesc y e (alertCall W fuel socketDesc y).2.2 ∧
      (e.sRv, e.usLen, e.gabTxRxData) = ((alertCall W fuel socketDesc y).1,
        (alertCall W fuel socketDesc y).2.1, (alertCall W fuel socketDesc y).2.2.gabTxRxData) := by
  obtain ⟨e, w, hof⟩ := exists_exchange W fuel 8 (alertRequest socketDesc y)
  simp only [alertCall, hof.call]
  refine ⟨e, ⟨w, hof, rfl⟩, ?_⟩
  rw [Kse.exchanged_gabTxRxData]

theorem Exchange.rejected_of_reply {r : Option Int × Nat × Kse σ}
    (hreply : (e.sRv, e.usLen, e.gabTxRxData) = (r.1, r.2.1, r.2.2.gabTxRxData))
    (hr : r.1 = some KSE_SUCCESS ∧ status r.2.2.gabTxRxData < 0 ∧ (r.2.1 = 2 ∨ r.2.1 = 4)) :
    e.Rejected := by
  simp only [Prod.mk.injEq] at hreply
  obtain ⟨hsRv, husLen, hgab⟩ := hreply
  obtain ⟨hok, hneg, hlen⟩ := hr
  constructor
  · rw [hsRv, hok]
  · rw [hgab]
    exact hneg
  · rw [husLen]
    exact hlen

/-- A connection whose next record is rejected with the status word `0x8880` and a fatal alert;
    `report` answers the command that sets it. -/
def alerted (report : Report) : Dim Script :=
  accepted [Report.ofList [REP_ONE_BLOCK, 0x06, 0, 4, 0x88, 0x80, 2, 40], report] [[0x17]]

theorem rejected_reported_iff_refused :
    let x := alerted (statusReport 0x88 0x80)
    NegativeCode (ksetlsTlsRead scriptedHost.toWorld 5 1 (some 0) x.pollFd
        (x.polled scriptedHost)).1 ∧
      (x.recv scriptedHost 5 (some 0) 1).2.2.tlsReadError = -1 := by
  intro x
  obtain ⟨e, hparse, hreply⟩ := @exists_parseExchange Script scriptedHost.toWorld 5 x.pollFd
    (x.polled scriptedHost) (by decide +kernel)
  have hrejected : e.Rejected := Exchange.rejected_of_reply hreply (by decide +kernel)
  obtain ⟨e', halert, hreply'⟩ := @exists_alertExchange Script scriptedHost.toWorld 5 x.pollFd
    (parseCall scriptedHost.toWorld 5 x.pollFd (x.polled scriptedHost)).2.2
  simp only [Prod.mk.injEq] at hreply'
  obtain ⟨hsRv', -, hgab'⟩ := hreply'
  have hreads : x.Reads scriptedHost :=
    ⟨by decide +kernel, by decide +kernel, by decide +kernel, by decide +kernel⟩
  have hterminates : e'.sRv ≠ none := by
    rw [hsRv']
    decide +kernel
  apply (rejected_reported_iff scriptedHost hreads (by decide +kernel) (by decide) 0 hparse
    hrejected (fun _ => ⟨halert, hterminates⟩)).mpr
  intro _
  have hstatus : status e'.gabTxRxData < 0 := by
    rw [hgab']
    decide +kernel
  constructor
  · rintro ⟨-, -, hpos⟩
    omega
  · rintro ⟨-, hsuccess, -⟩
    rw [hsuccess] at hstatus
    exact absurd hstatus (by decide)

/-- The alert is set: the rejected record is reported as 0, which is `no data`. -/
theorem rejected_reported_zero :
    let x := alerted (Report.ofList [REP_ONE_BLOCK, 0x06, 0, 4, 0, 0, 0, 0])
    (∃ e y, ParseExchange scriptedHost.toWorld 5 x.pollFd (x.polled scriptedHost) e y ∧
        e.Rejected) ∧
      (ksetlsTlsRead scriptedHost.toWorld 5 1 (some 0) x.pollFd (x.polled scriptedHost)).1 =
        some 0 ∧
      (x.recv scriptedHost 5 (some 0) 1).1 = .returned 0 ∧
      (x.recv scriptedHost 5 (some 0) 1).2.2.tlsReadError = 0 := by
  intro x
  obtain ⟨e, hparse, hreply⟩ := @exists_parseExchange Script scriptedHost.toWorld 5 x.pollFd
    (x.polled scriptedHost) (by decide +kernel)
  have hrejected : e.Rejected := Exchange.rejected_of_reply hreply (by decide +kernel)
  exact ⟨⟨e, _, hparse, hrejected⟩, by decide +kernel, by decide +kernel, by decide +kernel⟩

end MavlinkDim
