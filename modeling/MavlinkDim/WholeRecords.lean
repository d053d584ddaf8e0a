import MavlinkDim.RejectedRecord
import MavlinkDim.TlsStream

/-!
# Whole records

`_tlsSend` makes one `write`, and its callers look at the sign of the count that
it returns.  `whole_records_iff` says for the two functions that return the count,
and for the rounds of both handshakes, when a record that counts as sent was
written whole.
-/

namespace MavlinkDim

open ByteMemory

variable {σ : Type} (W : World σ) (fuel : Nat) (socketDesc : Int)

/-! ### One record -/

/-- The socket is in order, and `write` takes all bytes of the record. -/
def TakesAll (offset usRecordLen : Nat) (z : Kse σ) : Prop :=
  let (iRv, error, s) := W.getsockopt z.world socketDesc
  iRv ≠ -1 ∧ error = 0 ∧ ∃ k,
    (W.write s socketDesc (fun i => z.gabTxRxData (offset + i))
      (sizeT (int16 usRecordLen))).1 = some k ∧ usRecordLen ≤ k.val

variable {W fuel socketDesc} {x y z : Kse σ} {e e' : Exchange}

/-- A record that is not refused is sent with the count of `write`. -/
theorem tlsSend_count {offset usRecordLen : Nat}
    (h : ¬SendRefused W socketDesc offset (int16 usRecordLen) z) :
    ∃ k ≤ sizeT (int16 usRecordLen), 0 ≤ int16 k ∧
      (tlsSend W socketDesc offset (int16 usRecordLen) z).1 = int16 k ∧
      (TakesAll W socketDesc offset usRecordLen z ↔ usRecordLen ≤ k) := by
  rw [tlsSend, TakesAll]
  rcases hopt : W.getsockopt z.world socketDesc with ⟨iRv, error, s⟩
  simp only [SendRefused, hopt, not_or, not_forall, not_lt, ne_eq, not_not] at h
  obtain ⟨hrv, herror, k, hwrite, hpos⟩ := h
  dsimp only
  rcases hcall : W.write s socketDesc (fun i => z.gabTxRxData (offset + i))
    (sizeT (int16 usRecordLen)) with ⟨r, s'⟩
  rw [hcall] at hwrite
  obtain rfl : r = some k := hwrite
  refine ⟨k.val, k.property, hpos, ?_, ?_⟩
  · rw [if_neg hrv, if_neg (not_not.mpr herror)]
  · simp [hrv, herror]

/-- What is returned for a record that is not empty is its length, and all of it was written,
    exactly when the socket refuses the record or the length fits an `int16_t` and the socket
    takes all of it. -/
theorem sendRecord_whole_iff (offset : Nat) {usRecordLen : Nat} (hpos : 0 < usRecordLen)
    (hword : usRecordLen < 65536) :
    (0 ≤ (sendRecord W socketDesc offset usRecordLen z).2.1 →
        (sendRecord W socketDesc offset usRecordLen z).2.1 = usRecordLen ∧
          TakesAll W socketDesc offset usRecordLen z) ↔
      SendRefused W socketDesc offset (int16 usRecordLen) z ∨
        usRecordLen < 32768 ∧ TakesAll W socketDesc offset usRecordLen z := by
  have hsend : (sendRecord W socketDesc offset usRecordLen z).2.1 =
      (tlsSend W socketDesc offset (int16 usRecordLen) z).1 := by
    rw [sendRecord, if_pos hpos]
  rw [hsend]
  by_cases hrefused : SendRefused W socketDesc offset (int16 usRecordLen) z
  · apply iff_of_true _ (Or.inl hrefused)
    intro hcode
    exact absurd ((tlsSend_neg_iff offset _ z).mpr hrefused) (Int.not_lt.mpr hcode)
  · obtain ⟨k, hk, hkpos, hcode, htakes⟩ := tlsSend_count hrefused
    rw [hcode, htakes]
    constructor
    · intro h
      obtain ⟨heq, hall⟩ := h hkpos
      refine Or.inr ⟨?_, hall⟩
      have hlt : int16 k < 32768 := by
        simp only [int16]
        split <;> omega
      omega
    · rintro (h | ⟨hshort, hall⟩) _
      · exact absurd h hrefused
      · have hcount : sizeT (int16 usRecordLen) = usRecordLen := by
          rw [int16_of_lt (by omega) (by omega), sizeT_of_nonneg (by omega) (by omega)]
          exact Int.toNat_natCast usRecordLen
        have heq : k = usRecordLen := by omega
        rw [heq, int16_of_lt (by omega) (by omega)]
        exact ⟨rfl, Nat.le_refl _⟩

/-! ### The functions that return the count -/

/-- `_ksetlsTlsWrite` or `_ksetlsTlsCloseNotify`. -/
inductive RecordCall where
  | write (pbOutAppData : Nat) (sOutAppDataLen : Int)
  | closeNotify

namespace RecordCall

variable (W fuel socketDesc) in
def run : RecordCall → Kse σ → Option Int
  | .write pbOutAppData sOutAppDataLen, x =>
    (ksetlsTlsWrite W fuel socketDesc pbOutAppData sOutAppDataLen x).1
  | .closeNotify, x => (ksetlsTlsCloseNotify W fuel socketDesc x).1

/-- The call goes past its input check. -/
def Accepted (socketDesc : Int) : RecordCall → Prop
  | .write pbOutAppData sOutAppDataLen => WriteAccepted socketDesc pbOutAppData sOutAppDataLen
  | .closeNotify => socketDesc ≠ INVALID_SOCKET

/-- The state with the request of the call in the shared buffer. -/
def stored (socketDesc : Int) : RecordCall → Kse σ → Kse σ
  | .write pbOutAppData sOutAppDataLen, x =>
    x.store 0 (tlsHeader 0x21 socketDesc ++ bytes16 (uint16 sOutAppDataLen) ++
      x.arg pbOutAppData sOutAppDataLen.toNat)
  | .closeNotify, x => x.store 0 (tlsHeader 0x23 socketDesc)

def usSendLen : RecordCall → Nat
  | .write _ sOutAppDataLen => uint16 (sOutAppDataLen + 8)
  | .closeNotify => 6

variable (W fuel socketDesc) in
/-- `e` is the command of the call, and `z` is the state after it. -/
def Exchanges (call : RecordCall) (x : Kse σ) (e : Exchange) (z : Kse σ) : Prop :=
  x.gusKsePower = .on ∧ call.Accepted socketDesc ∧
    ∃ w, e.Of W fuel w call.usSendLen (call.stored socketDesc x) ∧
      z = (call.stored socketDesc x).exchanged e w

variable (W fuel socketDesc) in
/-- A code that is not negative is the length of a record that was written whole, and for an
    empty record the code is 0. -/
structure Whole (call : RecordCall) (x : Kse σ) : Prop where
  written : ∀ code, call.run W fuel socketDesc x = some code → 0 ≤ code →
    ∃ e z, call.Exchanges W fuel socketDesc x e z ∧ e.Accepted 4 ∧ code = e.field 2 ∧
      (0 < e.field 2 → TakesAll W socketDesc 4 (e.field 2) z)
  empty : ∀ e z, call.Exchanges W fuel socketDesc x e z → e.Accepted 4 → e.field 2 = 0 →
    call.run W fuel socketDesc x = some 0

variable (W socketDesc) in
/-- The response is not a positive status word.  If it has a record, the socket refuses the record
    or takes all of it, and the length fits an `int16_t`; if the record is empty, the `int16_t`
    that was never assigned is 0. -/
def Sound (e : Exchange) (z : Kse σ) : Prop :=
  ¬e.PositiveStatus ∧ (e.Accepted 4 →
    if e.field 2 = 0 then W.indeterminate z.world = 0
    else SendRefused W socketDesc 4 (int16 (e.field 2)) z ∨
      e.field 2 < 32768 ∧ TakesAll W socketDesc 4 (e.field 2) z)

theorem exchanges_unique {call : RecordCall} {z' : Kse σ}
    (h : call.Exchanges W fuel socketDesc x e z) (h' : call.Exchanges W fuel socketDesc x e' z') :
    e = e' ∧ z = z' := by
  obtain ⟨-, -, w, hof, rfl⟩ := h
  obtain ⟨-, -, w', hof', rfl⟩ := h'
  obtain ⟨rfl, rfl⟩ := hof.unique W fuel hof'
  exact ⟨rfl, rfl⟩

/-- A call that does not go past its checks returns an error. -/
theorem run_refused {call : RecordCall}
    (h : ¬(x.gusKsePower = .on ∧ call.Accepted socketDesc)) :
    ∃ code, call.run W fuel socketDesc x = some code ∧ code < 0 := by
  by_cases hpower : x.gusKsePower = .on
  · refine ⟨KSE_FAIL_WRONG_INPUT, ?_, by decide⟩
    cases call with
    | write pbOutAppData sOutAppDataLen =>
      rw [run, ksetlsTlsWrite, if_neg (not_not.mpr hpower), if_pos]
      by_contra hargs
      simp only [not_or, not_le, gt_iff_lt, not_lt] at hargs
      exact h ⟨hpower, hargs⟩
    | closeNotify =>
      rw [run, ksetlsTlsCloseNotify, if_neg (not_not.mpr hpower), if_pos]
      by_contra hsock
      exact h ⟨hpower, hsock⟩
  · refine ⟨KSE_FAIL_NOT_POWERED_ON, ?_, by decide⟩
    cases call with
    | write pbOutAppData sOutAppDataLen => rw [run, ksetlsTlsWrite, if_pos hpower]
    | closeNotify => rw [run, ksetlsTlsCloseNotify, if_pos hpower]

theorem run_accepted {call : RecordCall} (hpower : x.gusKsePower = .on)
    (h : call.Accepted socketDesc) :
    call.run W fuel socketDesc x =
      (writeRecord W fuel socketDesc call.usSendLen (call.stored socketDesc x)).1 := by
  cases call with
  | write pbOutAppData sOutAppDataLen =>
    obtain ⟨hsock, hptr, hpos, hmax⟩ := h
    rw [run, ksetlsTlsWrite, if_neg (not_not.mpr hpower), if_neg]
    · rfl
    · simp only [not_or, not_le, gt_iff_lt, not_lt]
      exact ⟨hsock, hptr, hpos, hmax⟩
  | closeNotify =>
    rw [run, ksetlsTlsCloseNotify, if_neg (not_not.mpr hpower), if_neg h]
    rfl

end RecordCall

/-- The code of an accepted response is that of its record. -/
theorem writeRecord_accepted {usSendLen : Nat} {w : σ} (hof : e.Of W fuel w usSendLen y)
    (haccepted : e.Accepted 4) :
    (writeRecord W fuel socketDesc usSendLen y).1 =
      some (sendRecord W socketDesc 4 (e.field 2) (y.exchanged e w)).2.1 := by
  obtain ⟨e', w', hof', hcases⟩ := writeRecord_cases W fuel socketDesc usSendLen y
  obtain ⟨rfl, rfl⟩ := hof'.unique W fuel hof
  rcases hcases with ⟨hrejected, -⟩ | ⟨-, returned, sOutLen, y', hsend, hcall⟩
  · exact absurd haccepted hrejected
  · rw [hcall, hsend]

/-- The code of any other response. -/
theorem writeRecord_refused {usSendLen : Nat} {w : σ} (hof : e.Of W fuel w usSendLen y)
    (hrejected : ¬e.Accepted 4) :
    (writeRecord W fuel socketDesc usSendLen y).1 = e.refusedCode := by
  simp only [writeRecord, hof.call, Kse.exchanged_gabTxRxData, Exchange.refusedCode]
  by_cases hok : e.sRv = some KSE_SUCCESS
  · rw [if_neg (not_not.mpr hok), if_neg (not_not.mpr hok)]
    simp only [Exchange.unexpectedLen_iff hok hrejected]
    by_cases hlen : status e.gabTxRxData = KSE_SUCCESS ∨ e.usLen ≠ 2
    · rw [if_pos hlen, if_pos hlen]
    · rw [if_neg hlen, if_neg hlen, if_pos (not_or.mp hlen).1]
  · rw [if_pos hok, if_pos hok]

/-- It is negative, unless the response is a positive status word. -/
theorem writeRecord_refused_iff {usSendLen : Nat} {w : σ} (hof : e.Of W fuel w usSendLen y)
    (hrejected : ¬e.Accepted 4) :
    (∃ code, (writeRecord W fuel socketDesc usSendLen y).1 = some code ∧ 0 ≤ code) ↔
      e.PositiveStatus := by
  rw [writeRecord_refused hof hrejected]
  rcases hof.refusedCode_cases with
    ⟨hpositive, code, hcode, hpos⟩ | ⟨hnot, ⟨-, hnone⟩ | ⟨code, hcode, hneg⟩⟩
  · exact iff_of_true ⟨code, hcode, Int.le_of_lt hpos⟩ hpositive
  · apply iff_of_false _ hnot
    rintro ⟨code, hcode, -⟩
    rw [hnone] at hcode
    cases hcode
  · apply iff_of_false _ hnot
    rintro ⟨code', hcode', hpos⟩
    rw [hcode] at hcode'
    obtain rfl := Option.some.inj hcode'
    exact absurd hneg (Int.not_lt.mpr hpos)

namespace RecordCall

variable {call : RecordCall}

theorem run_of_accepted (h : call.Exchanges W fuel socketDesc x e z) (haccepted : e.Accepted 4) :
    call.run W fuel socketDesc x = some (sendRecord W socketDesc 4 (e.field 2) z).2.1 := by
  obtain ⟨hpower, hargs, w, hof, rfl⟩ := h
  rw [run_accepted hpower hargs, writeRecord_accepted hof haccepted]

theorem sound_iff_of_accepted (haccepted : e.Accepted 4) :
    Sound W socketDesc e z ↔
      if e.field 2 = 0 then W.indeterminate z.world = 0
      else SendRefused W socketDesc 4 (int16 (e.field 2)) z ∨
        e.field 2 < 32768 ∧ TakesAll W socketDesc 4 (e.field 2) z := by
  constructor
  · intro h
    exact h.2 haccepted
  · intro h
    refine ⟨?_, fun _ => h⟩
    rintro ⟨-, -, hpos⟩
    rw [haccepted.2.1] at hpos
    exact absurd hpos (by decide)

/-- An empty record: what is returned was never assigned. -/
theorem whole_iff_of_empty (h : call.Exchanges W fuel socketDesc x e z) (haccepted : e.Accepted 4)
    (hzero : e.field 2 = 0) : call.Whole W fuel socketDesc x ↔ Sound W socketDesc e z := by
  have hrun := run_of_accepted h haccepted
  have hcode : (sendRecord W socketDesc 4 (e.field 2) z).2.1 = W.indeterminate z.world := by
    rw [sendRecord, hzero]
    rfl
  rw [hcode] at hrun
  rw [sound_iff_of_accepted haccepted, if_pos hzero]
  constructor
  · intro hwhole
    have hempty := hwhole.empty e z h haccepted hzero
    rw [hrun] at hempty
    exact Option.some.inj hempty
  · intro hindeterminate
    rw [hindeterminate] at hrun
    constructor
    · intro code hcode' _
      rw [hrun] at hcode'
      refine ⟨e, z, h, haccepted, ?_, ?_⟩
      · rw [← Option.some.inj hcode', hzero]
        rfl
      · intro hpos
        rw [hzero] at hpos
        exact absurd hpos (Nat.lt_irrefl 0)
    · intro _ _ _ _ _
      exact hrun

/-- A record that is not empty: what is returned is the count of `write`. -/
theorem whole_iff_of_record (h : call.Exchanges W fuel socketDesc x e z) (haccepted : e.Accepted 4)
    (hpos : 0 < e.field 2) : call.Whole W fuel socketDesc x ↔ Sound W socketDesc e z := by
  have hrun := run_of_accepted h haccepted
  have hne : e.field 2 ≠ 0 := Nat.pos_iff_ne_zero.mp hpos
  rw [sound_iff_of_accepted haccepted, if_neg hne,
    ← sendRecord_whole_iff 4 hpos (e.field_lt 2)]
  constructor
  · intro hwhole hcode
    obtain ⟨e', z', h', -, hlen, htakes⟩ := hwhole.written _ hrun hcode
    obtain ⟨rfl, rfl⟩ := exchanges_unique h h'
    exact ⟨hlen, htakes hpos⟩
  · intro hcode
    constructor
    · intro code hcode' hnonneg
      rw [hrun] at hcode'
      obtain rfl := Option.some.inj hcode'
      obtain ⟨hlen, htakes⟩ := hcode hnonneg
      exact ⟨e, z, h, haccepted, hlen, fun _ => htakes⟩
    · intro e' z' h' _ hzero
      obtain ⟨rfl, rfl⟩ := exchanges_unique h h'
      exact absurd hzero hne

/-- No record: what is returned is the status word, or an error. -/
theorem whole_iff_of_rejected (h : call.Exchanges W fuel socketDesc x e z)
    (hrejected : ¬e.Accepted 4) :
    call.Whole W fuel socketDesc x ↔ Sound W socketDesc e z := by
  have hnone : ∀ {e' z'}, call.Exchanges W fuel socketDesc x e' z' → ¬e'.Accepted 4 := by
    intro e' z' h'
    obtain ⟨rfl, rfl⟩ := exchanges_unique h h'
    exact hrejected
  have hpositive : (∃ code, call.run W fuel socketDesc x = some code ∧ 0 ≤ code) ↔
      e.PositiveStatus := by
    obtain ⟨hpower, hargs, w, hof, rfl⟩ := h
    rw [run_accepted hpower hargs]
    exact writeRecord_refused_iff hof hrejected
  constructor
  · intro hwhole
    refine ⟨?_, fun haccepted => absurd haccepted hrejected⟩
    intro hstatus
    obtain ⟨code, hcode, hpos⟩ := hpositive.mpr hstatus
    obtain ⟨e', z', h', haccepted, -⟩ := hwhole.written code hcode hpos
    exact hnone h' haccepted
  · rintro ⟨hstatus, -⟩
    constructor
    · intro code hcode hpos
      exact absurd (hpositive.mp ⟨code, hcode, hpos⟩) hstatus
    · intro e' z' h' haccepted
      exact absurd haccepted (hnone h')

/-- A call is whole exactly when its response and the socket are sound. -/
theorem whole_iff (call : RecordCall) (x : Kse σ) :
    call.Whole W fuel socketDesc x ↔
      ∀ e z, call.Exchanges W fuel socketDesc x e z → Sound W socketDesc e z := by
  by_cases hargs : x.gusKsePower = .on ∧ call.Accepted socketDesc
  · obtain ⟨e, w, hof⟩ := exists_exchange W fuel call.usSendLen (call.stored socketDesc x)
    have h : call.Exchanges W fuel socketDesc x e
        ((call.stored socketDesc x).exchanged e w) := ⟨hargs.1, hargs.2, w, hof, rfl⟩
    have hwhole : call.Whole W fuel socketDesc x ↔
        Sound W socketDesc e ((call.stored socketDesc x).exchanged e w) := by
      by_cases haccepted : e.Accepted 4
      · rcases Nat.eq_zero_or_pos (e.field 2) with hzero | hpos
        · exact whole_iff_of_empty h haccepted hzero
        · exact whole_iff_of_record h haccepted hpos
      · exact whole_iff_of_rejected h haccepted
    rw [hwhole]
    constructor
    · intro hsound e' z' h'
      obtain ⟨rfl, rfl⟩ := exchanges_unique h h'
      exact hsound
    · intro hall
      exact hall e _ h
  · have hnone : ∀ e z, ¬call.Exchanges W fuel socketDesc x e z := by
      rintro e z ⟨hpower, haccepted, -⟩
      exact hargs ⟨hpower, haccepted⟩
    obtain ⟨code, hrun, hneg⟩ := @run_refused σ W fuel socketDesc x call hargs
    apply iff_of_true
    · constructor
      · intro code' hrun' hpos
        rw [hrun] at hrun'
        obtain rfl := Option.some.inj hrun'
        exact absurd hneg (Int.not_lt.mpr hpos)
      · intro e z h
        exact absurd h (hnone e z)
    · intro e z h
      exact absurd h (hnone e z)

end RecordCall

/-! ### The rounds of a handshake -/

/-- The length of the record in a response of a handshake. -/
def Exchange.recordLen (e : Exchange) : Nat := if e.usLen > 2 then e.field 5 else 0

variable (W fuel socketDesc) in
/-- The rounds that a handshake goes through: what each of them starts with. -/
def handshakeRounds (cmd : List UInt8) : Nat → Handshake σ → List (Handshake σ)
  | 0, _ => []
  | rounds + 1, h =>
    h :: match handshakeRound W fuel cmd socketDesc h with
      | .again h => handshakeRounds cmd rounds h
      | .done _ _ => []

/-- The loop returns what the last of its rounds returns, and nothing if that one would go on. -/
theorem handshakeLoop_eq_last (cmd : List UInt8) (rounds : Nat) (h : Handshake σ) :
    handshakeLoop W fuel cmd socketDesc rounds h =
      match (handshakeRounds W fuel socketDesc cmd rounds h).getLast? with
      | none => (none, h.kse)
      | some h =>
        match handshakeRound W fuel cmd socketDesc h with
        | .again h => (none, h.kse)
        | .done sRv x => (sRv, x) := by
  induction rounds generalizing h with
  | zero => rfl
  | succ rounds ih =>
    rw [handshakeLoop, handshakeRounds]
    cases hround : handshakeRound W fuel cmd socketDesc h with
    | again h' =>
      dsimp only
      rw [ih, List.getLast?_cons]
      cases (handshakeRounds W fuel socketDesc cmd rounds h').getLast? with
      | none => simp [hround]
      | some h'' => rfl
    | done sRv x => simp [hround]

variable (W fuel socketDesc) in
/-- `e` is a response that a round uses, and `z` is the state in which its record is sent. -/
def RoundRecord (cmd : List UInt8) (h : Handshake σ) (e : Exchange) (z : Kse σ) : Prop :=
  ∃ sInLen y w,
    (if h.bNextInput = KSE_TRUE then receiveRecord W (cmd.length + 2) socketDesc h.kse
      else (false, 0, h.kse)) = (false, sInLen, y) ∧
    e.Of W fuel w (uint16 (sInLen + (cmd.length + 2)))
      (y.store 0 (cmd ++ bytes16 (uint16 sInLen))) ∧
    e.sRv = some KSE_SUCCESS ∧ ¬(status e.gabTxRxData = KSE_SUCCESS ∧ e.usLen < 7) ∧
    z = (y.store 0 (cmd ++ bytes16 (uint16 sInLen))).exchanged e w

variable (W fuel socketDesc) in
/-- The round returns the error of `_tlsSend`, and the handshake ends there. -/
def StopsAtRecord (cmd : List UInt8) (h : Handshake σ) (e : Exchange) (z : Kse σ) : Prop :=
  ∃ code z', tlsSend W socketDesc 7 (int16 e.recordLen) z = (code, z') ∧ code < 0 ∧
    handshakeRound W fuel cmd socketDesc h = .done (some code) z'

variable {cmd : List UInt8} {h : Handshake σ}

/-- The round sends its record, and returns there if it has to. -/
theorem RoundRecord.sent (hrecord : RoundRecord W fuel socketDesc cmd h e z) :
    ∃ returned sOutLen z', sendRecord W socketDesc 7 e.recordLen z = (returned, sOutLen, z') ∧
      (returned = true → handshakeRound W fuel cmd socketDesc h = .done (some sOutLen) z') := by
  obtain ⟨sInLen, y, w, hinput, hof, hok, hlong, rfl⟩ := hrecord
  obtain ⟨returned, sInLen', y', hinput', hcases⟩ := handshakeRound_cases W fuel cmd socketDesc h
  rw [hinput] at hinput'
  cases hinput'
  rcases hcases with ⟨hreturned, -⟩ | ⟨-, e', w', hof', hcases⟩
  · cases hreturned
  · obtain ⟨rfl, rfl⟩ := hof'.unique W fuel hof
    rcases hcases with ⟨hfailed, -⟩ | ⟨-, -, returned, sOutLen, z', hsend, hcall⟩
    · exact absurd ⟨hok, hlong⟩ hfailed
    · refine ⟨returned, sOutLen, z', hsend, ?_⟩
      rintro rfl
      exact hcall

theorem RoundRecord.stops_iff (hrecord : RoundRecord W fuel socketDesc cmd h e z)
    (hpos : 0 < e.recordLen) :
    StopsAtRecord W fuel socketDesc cmd h e z ↔
      SendRefused W socketDesc 7 (int16 e.recordLen) z := by
  rw [← tlsSend_neg_iff]
  constructor
  · rintro ⟨code, z', hsend, hneg, -⟩
    rw [hsend]
    exact hneg
  · intro hneg
    obtain ⟨returned, sOutLen, z', hsend, hreturns⟩ := hrecord.sent
    rw [sendRecord, if_pos hpos, Prod.mk.injEq, Prod.mk.injEq] at hsend
    obtain ⟨hreturned, rfl, rfl⟩ := hsend
    exact ⟨_, _, rfl, hneg, hreturns (hreturned.symm.trans (decide_eq_true hneg))⟩

/-- `_ksetlsTlsClientHandshake` or `_ksetlsTlsServerHandshake`. -/
inductive HandshakeCall where
  | client (bType : UInt8)
  | server

namespace HandshakeCall

variable (W fuel socketDesc) in
def run : HandshakeCall → Kse σ → Option Int × Kse σ
  | .client bType, x => ksetlsTlsClientHandshake W fuel socketDesc bType x
  | .server, x => ksetlsTlsServerHandshake W fuel socketDesc x

/-- The command of every round. -/
def command (socketDesc : Int) : HandshakeCall → List UInt8
  | .client bType => tlsHeader 0x10 socketDesc ++ [bType]
  | .server => tlsHeader 0x11 socketDesc

/-- Whether the first round takes input. -/
def bNextInput : HandshakeCall → UInt8
  | .client _ => KSE_FALSE
  | .server => KSE_TRUE

/-- A call that goes past its input check runs the loop. -/
theorem run_eq (call : HandshakeCall) (x : Kse σ) :
    call.run W fuel socketDesc x =
      if x.gusKsePower ≠ .on then (some KSE_FAIL_NOT_POWERED_ON, x)
      else if socketDesc = INVALID_SOCKET then (some KSE_FAIL_WRONG_INPUT, x)
      else handshakeLoop W fuel (call.command socketDesc) socketDesc fuel ⟨call.bNextInput, x⟩ := by
  cases call <;> rfl

variable (W fuel socketDesc) in
/-- The rounds of the call. -/
def rounds (call : HandshakeCall) (x : Kse σ) : List (Handshake σ) :=
  if x.gusKsePower ≠ .on then []
  else if socketDesc = INVALID_SOCKET then []
  else handshakeRounds W fuel socketDesc (call.command socketDesc) fuel ⟨call.bNextInput, x⟩

/-- A call that goes past its input check returns what the last of its rounds returns. -/
theorem run_eq_last (call : HandshakeCall) {x : Kse σ} (hpower : x.gusKsePower = .on)
    (hsocket : socketDesc ≠ INVALID_SOCKET) :
    call.run W fuel socketDesc x =
      match (call.rounds W fuel socketDesc x).getLast? with
      | none => (none, x)
      | some h =>
        match handshakeRound W fuel (call.command socketDesc) socketDesc h with
        | .again h => (none, h.kse)
        | .done sRv x => (sRv, x) := by
  have hon : ¬x.gusKsePower ≠ .on := not_not_intro hpower
  rw [run_eq, if_neg hon, if_neg hsocket, rounds, if_neg hon, if_neg hsocket, handshakeLoop_eq_last]

variable (W fuel socketDesc) in
/-- No round goes past a record that was not written whole. -/
def Whole (call : HandshakeCall) (x : Kse σ) : Prop :=
  ∀ h ∈ call.rounds W fuel socketDesc x, ∀ e z,
    RoundRecord W fuel socketDesc (call.command socketDesc) h e z → 0 < e.recordLen →
    StopsAtRecord W fuel socketDesc (call.command socketDesc) h e z ∨
      TakesAll W socketDesc 7 e.recordLen z

end HandshakeCall

/-- **When records are written whole.**  For every response of the device and every socket:
    `_ksetlsTlsWrite` and `_ksetlsTlsCloseNotify` return a code that is not negative only for a
    record written whole, and then its length, exactly when the response is not a positive status
    word, a record in it is refused or has less than 32768 bytes and is taken whole, and the
    `int16_t` that is returned for an empty record is 0 by chance.  No round of a handshake
    goes past a record that was not written whole exactly when each of them is refused or taken
    whole. -/
theorem whole_records_iff (x : Kse σ) :
    (∀ call : RecordCall, call.Whole W fuel socketDesc x ↔
        ∀ e z, call.Exchanges W fuel socketDesc x e z → RecordCall.Sound W socketDesc e z) ∧
      ∀ call : HandshakeCall, call.Whole W fuel socketDesc x ↔
        ∀ h ∈ call.rounds W fuel socketDesc x, ∀ e z,
          RoundRecord W fuel socketDesc (call.command socketDesc) h e z → 0 < e.recordLen →
          SendRefused W socketDesc 7 (int16 e.recordLen) z ∨
            TakesAll W socketDesc 7 e.recordLen z := by
  constructor
  · intro call
    exact RecordCall.whole_iff call x
  · intro call
    constructor
    · intro hwhole h hmem e z hrecord hpos
      rw [← hrecord.stops_iff hpos]
      exact hwhole h hmem e z hrecord hpos
    · intro hcond h hmem e z hrecord hpos
      rw [hrecord.stops_iff hpos]
      exact hcond h hmem e z hrecord hpos

/-! ### A socket that takes one byte -/

/-- The scripted world, with a socket that takes one byte of what it is given. -/
def oneByteWorld : World Script :=
  { scriptedWorld with
    write := fun s _ data count =>
      (some ⟨min 1 count, Nat.min_le_right 1 count⟩,
        { s with output := s.output ++ [slice data 0 (min 1 count)] }) }

theorem oneByteWorld_write (s : Script) (socketDesc : Int) (data : Bytes) (count : Nat) :
    (oneByteWorld.write s socketDesc data count).1 =
      some ⟨min 1 count, Nat.min_le_right 1 count⟩ := rfl

theorem not_takesAll_oneByteWorld {offset usRecordLen : Nat} (h : 1 < usRecordLen)
    (z : Kse Script) : ¬TakesAll oneByteWorld socketDesc offset usRecordLen z := by
  rintro ⟨-, -, k, hk, hle⟩
  rw [oneByteWorld_write] at hk
  obtain rfl := Option.some.inj hk
  have hone : usRecordLen ≤ 1 := Nat.le_trans hle (Nat.min_le_left 1 _)
  omega

theorem not_sendRefused_oneByteWorld (offset : Nat) (count : Int) (z : Kse Script) :
    ¬SendRefused oneByteWorld socketDesc offset count z := by
  rintro (hrv | herror | hnone)
  · exact absurd hrv (by decide)
  · exact herror rfl
  · have hneg := hnone _ (oneByteWorld_write _ _ _ _)
    have hone : min 1 (sizeT count) ≤ 1 := Nat.min_le_left 1 _
    dsimp only at hneg
    rw [int16_of_lt (by omega) (by omega)] at hneg
    omega

theorem RecordCall.Exchanges.field_eq {call : RecordCall}
    (h : call.Exchanges W fuel socketDesc x e z) (offset : Nat) :
    e.field offset =
      (transceive W fuel call.usSendLen (call.stored socketDesc x)).2.2.field offset := by
  obtain ⟨-, -, w, hof, -⟩ := h
  rw [hof.call, Kse.exchanged_field]

variable (W fuel socketDesc) in
/-- The command of a round. -/
def roundCall (cmd : List UInt8) (h : Handshake σ) : Option Int × Nat × Kse σ :=
  let (_, sInLen, y) :=
    if h.bNextInput = KSE_TRUE then receiveRecord W (cmd.length + 2) socketDesc h.kse
    else (false, 0, h.kse)
  transceive W fuel (uint16 (sInLen + (cmd.length + 2)))
    (y.store 0 (cmd ++ bytes16 (uint16 sInLen)))

theorem exists_roundRecord
    (hinput : (if h.bNextInput = KSE_TRUE then receiveRecord W (cmd.length + 2) socketDesc h.kse
      else (false, 0, h.kse)).1 = false)
    (hok : (roundCall W fuel socketDesc cmd h).1 = some KSE_SUCCESS)
    (hlong : 7 ≤ (roundCall W fuel socketDesc cmd h).2.1) :
    ∃ e, RoundRecord W fuel socketDesc cmd h e (roundCall W fuel socketDesc cmd h).2.2 ∧
      e.recordLen = (roundCall W fuel socketDesc cmd h).2.2.field 5 := by
  rcases hcase : (if h.bNextInput = KSE_TRUE then
      receiveRecord W (cmd.length + 2) socketDesc h.kse else (false, 0, h.kse)) with
    ⟨returned, sInLen, y⟩
  rw [hcase] at hinput
  obtain rfl : returned = false := hinput
  obtain ⟨e, w, hof⟩ := exists_exchange W fuel (uint16 (sInLen + (cmd.length + 2)))
    (y.store 0 (cmd ++ bytes16 (uint16 sInLen)))
  simp only [roundCall, hcase, hof.call] at hok hlong ⊢
  refine ⟨e, ⟨sInLen, y, w, hcase, hof, hok, by omega, rfl⟩, ?_⟩
  rw [Exchange.recordLen, if_pos (by omega), Kse.exchanged_field]

/-- A driver whose device answers with `response`, and whose peer sends one byte. -/
def answered (response : List UInt8) : Kse Script :=
  poweredOn (fun _ => 0)
    ⟨[Report.ofList ([REP_ONE_BLOCK, 0x06, 0, loByte response.length] ++ response)], [[0x16]], []⟩

/-- One of the three bytes of the record is written: `_ksetlsTlsWrite` returns 1, and a handshake
    succeeds. -/
theorem whole_records_cut :
    let x := answered [0, 0, 0, 3, 0x17, 0x18, 0x19]
    let y := answered ([0, 1, 0, 0, KSE_FALSE, 0, 3] ++ [0x16, 0x17, 0x18])
    (RecordCall.write 1 1).run oneByteWorld 5 5 x = some 1 ∧
      ¬(RecordCall.write 1 1).Whole oneByteWorld 5 5 x ∧
      (HandshakeCall.server.run oneByteWorld 5 5 y).1 = some KSE_SUCCESS ∧
      (HandshakeCall.server.run oneByteWorld 5 5 y).2.world.output = [[0x16]] ∧
      ¬HandshakeCall.server.Whole oneByteWorld 5 5 y := by
  intro x y
  have hrun : (RecordCall.write 1 1).run oneByteWorld 5 5 x = some 1 := by decide +kernel
  refine ⟨hrun, ?_, by decide +kernel, by decide +kernel, ?_⟩
  · intro hwhole
    obtain ⟨e, z, hexchange, -, hcode, -⟩ := hwhole.written 1 hrun (by decide)
    rw [hexchange.field_eq] at hcode
    exact absurd hcode (by decide +kernel)
  · intro hwhole
    obtain ⟨e, hrecord, hlen⟩ := @exists_roundRecord Script oneByteWorld 5 5
      (HandshakeCall.server.command 5) ⟨KSE_TRUE, y⟩ (by decide +kernel) (by decide +kernel)
      (by decide +kernel)
    have hthree : e.recordLen = 3 := by
      rw [hlen]
      decide +kernel
    have hmem : ⟨KSE_TRUE, y⟩ ∈ HandshakeCall.server.rounds oneByteWorld 5 5 y :=
      List.mem_cons_self ..
    rcases hwhole _ hmem e _ hrecord (by omega) with hstops | htakes
    · exact not_sendRefused_oneByteWorld _ _ _ ((hrecord.stops_iff (by omega)).mp hstops)
    · exact not_takesAll_oneByteWorld (by omega) _ htakes

end MavlinkDim
