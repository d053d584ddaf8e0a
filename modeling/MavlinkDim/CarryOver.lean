import MavlinkDim.CommandFrame
import MavlinkDim.PendingRegion
import MavlinkDim.WholeRecords

/-!
# Carry-over between the rounds of a handshake

What the device does not consume of the input of a round stays in the shared
buffer, where the response to the round arrives, and is the input of the next
round that takes one.  `carry_over_iff` says for both handshakes, and for the read
that follows them, when every byte that was not consumed is presented again.
-/

namespace MavlinkDim

open ByteMemory

variable {σ : Type} (W : World σ) (fuel : Nat) (socketDesc : Int)

/-! ### What is presented and what is left -/

/-- The input that the command `cmd` presents to the device. -/
def Exchange.presented (cmd : List UInt8) (e : Exchange) : List UInt8 :=
  e.request.drop (cmd.length + 2)

/-- The end of the input, which the device did not consume. -/
def Exchange.left (cmd : List UInt8) (e : Exchange) : List UInt8 :=
  (e.presented cmd).drop ((e.presented cmd).length - e.unused)

/-- `e` is the command of a round, with whatever response. -/
def RoundExchange (cmd : List UInt8) (h : Handshake σ) (e : Exchange) : Prop :=
  ∃ sInLen y w,
    (if h.bNextInput = KSE_TRUE then receiveRecord W (cmd.length + 2) socketDesc h.kse
      else (false, 0, h.kse)) = (false, sInLen, y) ∧
    e.Of W fuel w (uint16 (sInLen + (cmd.length + 2)))
      (y.store 0 (cmd ++ bytes16 (uint16 sInLen)))

/-- A round that takes input presents what is not consumed yet, and if that is nothing, what the
    socket gives; any other round presents nothing. -/
def RoundPresents (cmd unconsumed : List UInt8) (h : Handshake σ) (e : Exchange) : Prop :=
  ∃ es es', (handshakeRound W fuel cmd socketDesc h).kse.trace =
      h.kse.trace ++ es ++ .exchange e :: es' ∧
    if h.bNextInput = KSE_TRUE then
      if unconsumed = [] then es = [.received (e.presented cmd)]
      else es = [] ∧ e.presented cmd = unconsumed
    else es = [] ∧ e.presented cmd = []

/-- What is not consumed after a round. -/
def unconsumedAfter (cmd unconsumed : List UInt8) (h : Handshake σ) (e : Exchange) : List UInt8 :=
  if h.bNextInput = KSE_TRUE then e.left cmd else unconsumed

/-- The loop from the round `h` on, when `unconsumed` is what the device did not consume before:
    every round presents what it should, and what is not consumed after it is pending, whether its
    record is sent or not.  When the loop is done, the next `_ksetlsTlsRead` presents it. -/
def CarriesOver (cmd : List UInt8) : Nat → List UInt8 → Handshake σ → Prop
  | 0, _, _ => True
  | rounds + 1, unconsumed, h =>
    (∀ e, RoundExchange W fuel socketDesc cmd h e →
        RoundPresents W fuel socketDesc cmd unconsumed h e) ∧
      ∀ e z, RoundRecord W fuel socketDesc cmd h e z →
        (handshakeRound W fuel cmd socketDesc h).kse.pending =
            unconsumedAfter cmd unconsumed h e ∧
          match handshakeRound W fuel cmd socketDesc h with
          | .again h' => CarriesOver cmd rounds (unconsumedAfter cmd unconsumed h e) h'
          | .done _ z => unconsumedAfter cmd unconsumed h e ≠ [] →
            ∀ (pbInAppData : Nat) (sInAppDataLen : Int), pbInAppData ≠ NULL_PTR →
              Parsed socketDesc (unconsumedAfter cmd unconsumed h e) z
                (ksetlsTlsRead W fuel pbInAppData (some sInAppDataLen) socketDesc z).2.2

/-- No input is pending in a round that takes none, and the blocks of the response leave the
    bytes that the device did not consume as they are. -/
structure RoundClean (h : Handshake σ) (e : Exchange) : Prop where
  idle : h.bNextInput ≠ KSE_TRUE → h.kse.gusTxRxDataLength = 0
  spared : Undisturbed e.pbSendData (e.blocks.map Block.write) (e.usSendLen - e.unused) e.unused

/-- What was pending before the round is still all that is not consumed, and the command and its
    response leave it where it is. -/
structure RoundHeld (h : Handshake σ) (e : Exchange) : Prop where
  unused : h.bNextInput = KSE_TRUE → e.unused = h.kse.gusTxRxDataLength
  spared : Undisturbed h.kse.gabTxRxData e.writes h.kse.gusTxRxDataOffset h.kse.gusTxRxDataLength

/-- The socket refuses the record of the response, and the round returns before the count of the
    response is taken. -/
def RecordRefused (e : Exchange) (z : Kse σ) : Prop :=
  0 < e.recordLen ∧ SendRefused W socketDesc 7 (int16 e.recordLen) z

/-- What it takes for a round to carry its input over. -/
structure RoundSound (h : Handshake σ) (e : Exchange) (z : Kse σ) : Prop where
  sent : ¬RecordRefused W socketDesc e z → RoundClean h e
  refused : RecordRefused W socketDesc e z → RoundHeld h e

variable {W fuel socketDesc} {cmd : List UInt8} {h : Handshake σ} {e : Exchange} {z : Kse σ}

/-! ### One round -/

theorem Kse.pending_eq_nil_iff (x : Kse σ) : x.pending = [] ↔ x.gusTxRxDataLength = 0 := by
  rw [← List.length_eq_zero_iff, Kse.pending, length_slice]

/-- The input of a round: what is pending, or what the socket gives, or nothing. -/
theorem roundInput_cases (hlength : h.kse.gusTxRxDataLength ≤ MAX_IO_DATA_SIZE) {offset : Nat}
    {sInLen : Int} {y : Kse σ}
    (hinput : (if h.bNextInput = KSE_TRUE then receiveRecord W offset socketDesc h.kse
      else (false, 0, h.kse)) = (false, sInLen, y)) :
    ∃ l es, l.length ≤ MAX_IO_DATA_SIZE ∧ sInLen = l.length ∧
      y.gabTxRxData = put h.kse.gabTxRxData offset l ∧ y.trace = h.kse.trace ++ es ∧
      if h.bNextInput = KSE_TRUE then
        if h.kse.pending = [] then es = [.received l] else es = [] ∧ l = h.kse.pending
      else es = [] ∧ l = [] := by
  by_cases hnext : h.bNextInput = KSE_TRUE
  · rw [if_pos hnext] at hinput
    simp only [if_pos hnext, Kse.pending_eq_nil_iff]
    rcases receiveRecord_cases W offset socketDesc h.kse with
      ⟨-, w, hcall⟩ | ⟨hempty, l, w, hl, hcall⟩ | ⟨hpending, hcall⟩
    · rw [hcall] at hinput
      cases hinput
    · rw [hcall, Prod.mk.injEq, Prod.mk.injEq] at hinput
      obtain ⟨-, rfl, rfl⟩ := hinput
      refine ⟨l, [.received l], hl, rfl, rfl, rfl, ?_⟩
      rw [if_pos hempty]
    · rw [hcall, Prod.mk.injEq, Prod.mk.injEq] at hinput
      obtain ⟨-, rfl, rfl⟩ := hinput
      have hlen : h.kse.pending.length = h.kse.gusTxRxDataLength := length_slice _ _ _
      refine ⟨h.kse.pending, [], by omega, ?_, rfl, (List.append_nil _).symm, ?_⟩
      · simp only [MAX_IO_DATA_SIZE] at hlength
        rw [hlen, int16_of_lt (by omega) (by omega)]
      · rw [if_neg hpending]
        exact ⟨rfl, rfl⟩
  · rw [if_neg hnext, Prod.mk.injEq, Prod.mk.injEq] at hinput
    obtain ⟨-, rfl, rfl⟩ := hinput
    refine ⟨[], [], Nat.zero_le _, rfl, (put_nil _ _).symm, (List.append_nil _).symm, ?_⟩
    rw [if_neg hnext]
    exact ⟨rfl, rfl⟩

/-- The request of a round, stored over the buffer `m`: the command, the length of the input, and
    the input. -/
structure RoundRequest (m : Bytes) (cmd l : List UInt8) (e : Exchange) : Prop where
  usSendLen : e.usSendLen = cmd.length + 2 + l.length
  pbSendData : e.pbSendData = put m 0 e.request
  presented : e.presented cmd = l
  stored : slice e.pbSendData (cmd.length + 2) l.length = l

theorem Exchange.Of.roundRequest (hcmd : cmd.length + 2 ≤ MAX_IO_CTRL_LEN) {l : List UInt8}
    (hl : l.length ≤ MAX_IO_DATA_SIZE) {y : Kse σ} {m : Bytes}
    (hgab : y.gabTxRxData = put m (cmd.length + 2) l) {w : σ}
    (hof : e.Of W fuel w (uint16 ((l.length : Int) + (cmd.length + 2)))
      (y.store 0 (cmd ++ bytes16 (uint16 l.length)))) : RoundRequest m cmd l e := by
  simp only [MAX_IO_CTRL_LEN] at hcmd
  simp only [MAX_IO_DATA_SIZE] at hl
  have hheader : (cmd ++ bytes16 (uint16 l.length)).length = cmd.length + 2 := by
    rw [List.length_append, length_bytes16]
  have hlen : uint16 ((l.length : Int) + (cmd.length + 2)) = cmd.length + 2 + l.length := by
    simp only [uint16]
    omega
  have hstore : e.pbSendData = put (put m (cmd.length + 2) l) 0
      (cmd ++ bytes16 (uint16 l.length)) := by
    rw [hof.pbSendData, Kse.store_gabTxRxData, hgab]
  have hrequest : e.request = (cmd ++ bytes16 (uint16 l.length)) ++ l := by
    rw [Exchange.request, hof.usSendLen, hlen, hstore, ← hheader]
    simpa only [Nat.zero_add] using slice_put_put m 0 (cmd ++ bytes16 (uint16 l.length)) l
  refine ⟨hof.usSendLen.trans hlen, ?_, ?_, ?_⟩
  · have hbefore := put_put_before m 0 (cmd ++ bytes16 (uint16 l.length)) l
    rw [hheader, Nat.zero_add] at hbefore
    rw [hstore, hrequest, hbefore]
  · rw [Exchange.presented, hrequest, ← hheader, List.drop_left]
  · rw [hstore, slice_put_disjoint _ (Or.inr (by omega)), slice_put_same]

/-- The bytes that were not consumed are those at the end of the request. -/
theorem RoundRequest.left_eq {m : Bytes} {l : List UInt8} (hrequest : RoundRequest m cmd l e)
    (hunused : e.unused ≤ l.length) :
    e.left cmd = slice e.pbSendData (e.usSendLen - e.unused) e.unused := by
  have hdrop := drop_slice e.pbSendData (cmd.length + 2) (Nat.sub_le l.length e.unused)
  rw [hrequest.stored, Nat.sub_sub_self hunused] at hdrop
  rw [Exchange.left, hrequest.presented, hdrop, hrequest.usSendLen]
  congr 1
  omega

theorem RoundRecord.exchange (hrecord : RoundRecord W fuel socketDesc cmd h e z) :
    RoundExchange W fuel socketDesc cmd h e := by
  obtain ⟨sInLen, y, w, hinput, hof, -⟩ := hrecord
  exact ⟨sInLen, y, w, hinput, hof⟩

theorem RoundRecord.unique {e' : Exchange} {z' : Kse σ}
    (hrecord : RoundRecord W fuel socketDesc cmd h e z)
    (hrecord' : RoundRecord W fuel socketDesc cmd h e' z') : e = e' ∧ z = z' := by
  obtain ⟨sInLen, y, w, hinput, hof, -, -, rfl⟩ := hrecord
  obtain ⟨sInLen', y', w', hinput', hof', -, -, rfl⟩ := hrecord'
  rw [hinput] at hinput'
  cases hinput'
  obtain ⟨rfl, rfl⟩ := hof.unique W fuel hof'
  exact ⟨rfl, rfl⟩

theorem RoundRecord.forall_iff (hrecord : RoundRecord W fuel socketDesc cmd h e z)
    {P : Exchange → Kse σ → Prop} :
    (∀ e' z', RoundRecord W fuel socketDesc cmd h e' z' → P e' z') ↔ P e z := by
  constructor
  · intro hall
    exact hall e z hrecord
  · intro he e' z' hrecord'
    obtain ⟨rfl, rfl⟩ := hrecord.unique hrecord'
    exact he

/-- The count of a response is taken unless its record is refused. -/
theorem RoundRecord.counts_iff (hrecord : RoundRecord W fuel socketDesc cmd h e z) :
    RoundCounts W fuel cmd socketDesc h e ↔ ¬RecordRefused W socketDesc e z := by
  obtain ⟨sInLen, y, w, hinput, hof, hok, hlong, rfl⟩ := hrecord
  rw [RecordRefused, ← sendRecord_returned_iff, Bool.not_eq_true]
  constructor
  · intro hcounts
    exact (hcounts.unique W fuel hinput hof).2.2.2
  · intro hsent
    exact ⟨sInLen, y, w, hinput, hof, hok, hlong, hsent⟩

variable (W fuel socketDesc) in
/-- A round from its input `l`, which the events `es` brought, to the state `z` in which its
    exchange and perhaps its record are made. -/
structure RoundMade (cmd : List UInt8) (h : Handshake σ) (e : Exchange) (l : List UInt8)
    (es es' : List Event) (z : Kse σ) : Prop where
  length : l.length ≤ MAX_IO_DATA_SIZE
  request : RoundRequest h.kse.gabTxRxData cmd l e
  input : if h.bNextInput = KSE_TRUE then
      if h.kse.pending = [] then es = [.received l] else es = [] ∧ l = h.kse.pending
    else es = [] ∧ l = []
  memory : z.gabTxRxData = writeAll e.pbSendData (e.blocks.map Block.write)
  trace : z.trace = h.kse.trace ++ es ++ .exchange e :: es'
  region : SameRegion h.kse z
  next : (RoundCounts W fuel cmd socketDesc h e ∧
      (handshakeRound W fuel cmd socketDesc h).kse = z.next l.length (cmd.length + 2) e.unused) ∨
    (¬RoundCounts W fuel cmd socketDesc h e ∧ (handshakeRound W fuel cmd socketDesc h).kse = z)

theorem RoundExchange.made (hcmd : cmd.length + 2 ≤ MAX_IO_CTRL_LEN)
    (hlength : h.kse.gusTxRxDataLength ≤ MAX_IO_DATA_SIZE)
    (hexchange : RoundExchange W fuel socketDesc cmd h e) :
    ∃ l es es' z, RoundMade W fuel socketDesc cmd h e l es es' z := by
  obtain ⟨sInLen, y, w, hinput, hof⟩ := hexchange
  obtain ⟨l, es, hl, rfl, hgab, htrace, hfrom⟩ := roundInput_cases hlength hinput
  obtain ⟨z, es', hzgab, hztrace, hregion, hnext⟩ := handshakeRound_next W fuel hinput hof
  refine ⟨l, es, es', z, hl, hof.roundRequest hcmd hl hgab, hfrom, ?_, ?_,
    (roundInput_same W hinput).trans hregion, hnext⟩
  · rw [hzgab, hof.copied.mem_eq, copyAll_eq_writeAll, hof.pbSendData]
  · rw [hztrace, htrace]

/-- A round presents what is pending. -/
theorem RoundExchange.presents (hcmd : cmd.length + 2 ≤ MAX_IO_CTRL_LEN)
    (hlength : h.kse.gusTxRxDataLength ≤ MAX_IO_DATA_SIZE)
    (hexchange : RoundExchange W fuel socketDesc cmd h e) :
    RoundPresents W fuel socketDesc cmd h.kse.pending h e := by
  obtain ⟨l, es, es', z, hmade⟩ := hexchange.made hcmd hlength
  refine ⟨es, es', ?_, ?_⟩
  · rcases hmade.next with ⟨-, hround⟩ | ⟨-, hround⟩
    · rw [hround, Kse.next_trace, hmade.trace]
    · rw [hround, hmade.trace]
  · rw [hmade.request.presented]
    exact hmade.input

/-- What is pending after a round whose count is taken is what is not consumed, exactly when the
    round is clean. -/
theorem RoundRecord.pending_iff_of_sent (hcmd : cmd.length + 2 ≤ MAX_IO_CTRL_LEN)
    (hlength : h.kse.gusTxRxDataLength ≤ MAX_IO_DATA_SIZE)
    (hrecord : RoundRecord W fuel socketDesc cmd h e z)
    (hcounts : RoundCounts W fuel cmd socketDesc h e)
    (hunused : e.unused ≤ (e.presented cmd).length) :
    (handshakeRound W fuel cmd socketDesc h).kse.gusTxRxDataLength ≤ MAX_IO_DATA_SIZE ∧
      ((handshakeRound W fuel cmd socketDesc h).kse.pending =
          unconsumedAfter cmd h.kse.pending h e ↔ RoundClean h e) := by
  obtain ⟨l, es, es', z, hl, hrequest, hfrom, hmemory, -, -, ⟨-, hround⟩ | ⟨hnot, -⟩⟩ :=
    hrecord.exchange.made hcmd hlength
  swap
  · exact absurd hcounts hnot
  rw [hrequest.presented] at hunused
  have hpending : (handshakeRound W fuel cmd socketDesc h).kse.pending =
      slice (writeAll e.pbSendData (e.blocks.map Block.write)) (e.usSendLen - e.unused)
        e.unused := by
    simp only [MAX_IO_CTRL_LEN, MAX_IO_DATA_SIZE] at hcmd hl
    rw [hround, Kse.next_pending z hunused (by omega), hmemory, hrequest.usSendLen, Nat.add_comm]
  constructor
  · rw [hround, Kse.next_length]
    omega
  · rw [hpending, unconsumedAfter]
    by_cases htakes : h.bNextInput = KSE_TRUE
    · rw [if_pos htakes, hrequest.left_eq hunused, slice_writeAll_eq_iff]
      constructor
      · intro hspared
        exact ⟨fun hno => absurd htakes hno, hspared⟩
      · intro hclean
        exact hclean.spared
    · -- nothing was presented, so nothing is left of it
      rw [if_neg htakes] at hfrom
      obtain ⟨-, rfl⟩ := hfrom
      have hzero : e.unused = 0 := Nat.le_zero.mp hunused
      rw [if_neg htakes, hzero, slice_zero, eq_comm, Kse.pending_eq_nil_iff]
      constructor
      · intro hempty
        refine ⟨fun _ => hempty, ?_⟩
        rw [hzero]
        intro i hi
        exact absurd hi (Nat.not_lt_zero i)
      · intro hclean
        exact hclean.idle htakes

/-- Where the count is that of all that was pending, that is what is left. -/
theorem left_eq_pending {l : List UInt8} {es : List Event}
    (hpresented : e.presented cmd = l) (hunused : e.unused = h.kse.gusTxRxDataLength)
    (hfrom : if h.kse.pending = [] then es = [.received l] else es = [] ∧ l = h.kse.pending) :
    e.left cmd = h.kse.pending := by
  have hlen : h.kse.pending.length = h.kse.gusTxRxDataLength := length_slice _ _ _
  rw [Exchange.left, hpresented, hunused, ← hlen]
  by_cases hempty : h.kse.pending = []
  · rw [hempty, List.length_nil, Nat.sub_zero, List.drop_length]
  · rw [if_neg hempty] at hfrom
    rw [hfrom.2, Nat.sub_self, List.drop_zero]

/-- What is pending after a round whose record is refused is what is not consumed, exactly when
    that is what was pending before and it was not written over. -/
theorem RoundRecord.pending_iff_of_refused (hcmd : cmd.length + 2 ≤ MAX_IO_CTRL_LEN)
    (hlength : h.kse.gusTxRxDataLength ≤ MAX_IO_DATA_SIZE)
    (hrecord : RoundRecord W fuel socketDesc cmd h e z)
    (hcounts : ¬RoundCounts W fuel cmd socketDesc h e)
    (hunused : e.unused ≤ (e.presented cmd).length) :
    (handshakeRound W fuel cmd socketDesc h).kse.gusTxRxDataLength ≤ MAX_IO_DATA_SIZE ∧
      ((handshakeRound W fuel cmd socketDesc h).kse.pending =
          unconsumedAfter cmd h.kse.pending h e ↔ RoundHeld h e) := by
  obtain ⟨l, es, es', z', hl, hrequest, hfrom, hmemory, -, hregion,
    ⟨hcounts', -⟩ | ⟨-, hround⟩⟩ := hrecord.exchange.made hcmd hlength
  · exact absurd hcounts' hcounts
  have hwritten : z'.gabTxRxData = writeAll h.kse.gabTxRxData e.writes := by
    rw [hmemory, hrequest.pbSendData]
    rfl
  have hpending : (handshakeRound W fuel cmd socketDesc h).kse.pending =
      slice (writeAll h.kse.gabTxRxData e.writes) h.kse.gusTxRxDataOffset
        h.kse.gusTxRxDataLength := by
    rw [hround, Kse.pending, hregion.gusTxRxDataOffset, hregion.gusTxRxDataLength, hwritten]
  have hspared : slice (writeAll h.kse.gabTxRxData e.writes) h.kse.gusTxRxDataOffset
      h.kse.gusTxRxDataLength = h.kse.pending ↔ Undisturbed h.kse.gabTxRxData e.writes
        h.kse.gusTxRxDataOffset h.kse.gusTxRxDataLength := slice_writeAll_eq_iff _ _ _ _
  refine ⟨by rwa [hround, hregion.gusTxRxDataLength], ?_⟩
  rw [hpending, unconsumedAfter]
  by_cases htakes : h.bNextInput = KSE_TRUE
  · rw [if_pos htakes] at hfrom ⊢
    constructor
    · intro hleft
      have hcount : e.unused = h.kse.gusTxRxDataLength := by
        have hlengths := congrArg List.length hleft
        rw [length_slice, Exchange.left, List.length_drop] at hlengths
        omega
      rw [left_eq_pending hrequest.presented hcount hfrom] at hleft
      exact ⟨fun _ => hcount, hspared.mp hleft⟩
    · intro hheld
      rw [left_eq_pending hrequest.presented (hheld.unused htakes) hfrom]
      exact hspared.mpr hheld.spared
  · rw [if_neg htakes, hspared]
    constructor
    · intro hundisturbed
      exact ⟨fun hyes => absurd hyes htakes, hundisturbed⟩
    · intro hheld
      exact hheld.spared

/-- What is pending after a round is what is not consumed, exactly when the round is sound. -/
theorem RoundRecord.pending_iff (hcmd : cmd.length + 2 ≤ MAX_IO_CTRL_LEN)
    (hlength : h.kse.gusTxRxDataLength ≤ MAX_IO_DATA_SIZE)
    (hrecord : RoundRecord W fuel socketDesc cmd h e z)
    (hunused : e.unused ≤ (e.presented cmd).length) :
    (handshakeRound W fuel cmd socketDesc h).kse.gusTxRxDataLength ≤ MAX_IO_DATA_SIZE ∧
      ((handshakeRound W fuel cmd socketDesc h).kse.pending =
          unconsumedAfter cmd h.kse.pending h e ↔ RoundSound W socketDesc h e z) := by
  by_cases hcounts : RoundCounts W fuel cmd socketDesc h e
  · have hsent := hrecord.counts_iff.mp hcounts
    obtain ⟨hlength', hiff⟩ := hrecord.pending_iff_of_sent hcmd hlength hcounts hunused
    refine ⟨hlength', hiff.trans ?_⟩
    constructor
    · intro hclean
      exact ⟨fun _ => hclean, fun hrefused => absurd hrefused hsent⟩
    · intro hsound
      exact hsound.sent hsent
  · have hrefused := not_not.mp (mt hrecord.counts_iff.mpr hcounts)
    obtain ⟨hlength', hiff⟩ := hrecord.pending_iff_of_refused hcmd hlength hcounts hunused
    refine ⟨hlength', hiff.trans ?_⟩
    constructor
    · intro hheld
      exact ⟨fun hsent => absurd hrefused hsent, fun _ => hheld⟩
    · intro hsound
      exact hsound.refused hrefused

/-! ### The loop -/

/-- A round after which the loop goes on used a response. -/
theorem roundRecord_of_again {h' : Handshake σ}
    (hround : handshakeRound W fuel cmd socketDesc h = .again h') :
    ∃ e z, RoundRecord W fuel socketDesc cmd h e z := by
  obtain ⟨returned, sInLen, y, hinput, hcases⟩ := handshakeRound_cases W fuel cmd socketDesc h
  rcases hcases with ⟨-, hcall⟩ | ⟨rfl, e, w, hof, hcases⟩
  · rw [hcall] at hround
    cases hround
  · rcases hcases with ⟨-, sRv, hcall⟩ | ⟨hok, hlong, returned, sOutLen, z, hsend, hcall⟩
    · rw [hcall] at hround
      cases hround
    · exact ⟨e, _, sInLen, y, w, hinput, hof, hok, hlong, rfl⟩

/-- What is pending is the first that the next `_ksetlsTlsRead` presents. -/
theorem parsed_pending {z : Kse σ} (hpower : z.gusKsePower = .on)
    (hsock : socketDesc ≠ INVALID_SOCKET) (hlength : z.gusTxRxDataLength ≤ MAX_IO_DATA_SIZE)
    (hpending : z.pending ≠ []) {pbInAppData : Nat} (hptr : pbInAppData ≠ NULL_PTR)
    (sInAppDataLen : Int) :
    Parsed socketDesc z.pending z
      (ksetlsTlsRead W fuel pbInAppData (some sInAppDataLen) socketDesc z).2.2 := by
  have hpos : 0 < z.gusTxRxDataLength := by
    apply Nat.pos_of_ne_zero
    rwa [Ne, ← Kse.pending_eq_nil_iff]
  have hlen : z.pending.length = z.gusTxRxDataLength := length_slice _ _ _
  simp only [MAX_IO_DATA_SIZE] at hlength
  rw [ksetlsTlsRead_parsed_iff W fuel hpos _ _ _ hlen]
  exact ⟨⟨hpower, hptr, by simp, hsock⟩, by omega, rfl⟩

/-- A round after which the loop goes on. -/
theorem carriesOver_again (hcmd : cmd.length + 2 ≤ MAX_IO_CTRL_LEN) {rounds : Nat}
    {h' : Handshake σ} (hround : handshakeRound W fuel cmd socketDesc h = .again h')
    (hlength : h.kse.gusTxRxDataLength ≤ MAX_IO_DATA_SIZE)
    (hrecord : RoundRecord W fuel socketDesc cmd h e z)
    (hunused : e.unused ≤ (e.presented cmd).length) :
    CarriesOver W fuel socketDesc cmd (rounds + 1) h.kse.pending h ↔
      RoundSound W socketDesc h e z ∧
        CarriesOver W fuel socketDesc cmd rounds h'.kse.pending h' := by
  obtain ⟨-, hiff⟩ := hrecord.pending_iff hcmd hlength hunused
  rw [hround] at hiff
  rw [CarriesOver, hrecord.forall_iff, hround]
  constructor
  · rintro ⟨-, hpending, hcarries⟩
    refine ⟨hiff.mp hpending, ?_⟩
    rwa [← hpending] at hcarries
  · rintro ⟨hsound, hcarries⟩
    have hpending := hiff.mpr hsound
    refine ⟨fun e' hexchange => hexchange.presents hcmd hlength, hpending, ?_⟩
    rwa [← hpending]

/-- The last round. -/
theorem carriesOver_done (hcmd : cmd.length + 2 ≤ MAX_IO_CTRL_LEN)
    (hsock : socketDesc ≠ INVALID_SOCKET) {rounds : Nat} {sRv : Option Int} {x : Kse σ}
    (hround : handshakeRound W fuel cmd socketDesc h = .done sRv x)
    (hpower : x.gusKsePower = .on) (hlength : h.kse.gusTxRxDataLength ≤ MAX_IO_DATA_SIZE)
    (hunused : ∀ e z, RoundRecord W fuel socketDesc cmd h e z →
      e.unused ≤ (e.presented cmd).length) :
    CarriesOver W fuel socketDesc cmd (rounds + 1) h.kse.pending h ↔
      ∀ e z, RoundRecord W fuel socketDesc cmd h e z → RoundSound W socketDesc h e z := by
  rw [CarriesOver, hround]
  constructor
  · rintro ⟨-, hlast⟩ e z hrecord
    obtain ⟨-, hiff⟩ := hrecord.pending_iff hcmd hlength (hunused e z hrecord)
    rw [hround] at hiff
    exact hiff.mp (hlast e z hrecord).1
  · intro hsound
    refine ⟨fun e hexchange => hexchange.presents hcmd hlength, ?_⟩
    intro e z hrecord
    obtain ⟨hlength', hiff⟩ := hrecord.pending_iff hcmd hlength (hunused e z hrecord)
    rw [hround] at hlength' hiff
    have hpending := hiff.mpr (hsound e z hrecord)
    refine ⟨hpending, ?_⟩
    rw [← hpending]
    intro hleft pbInAppData sInAppDataLen hptr
    exact parsed_pending hpower hsock hlength' hleft hptr sInAppDataLen

/-- The loop carries over what is pending exactly when its rounds are sound, by induction on the
    rounds: a sound round leaves the next one with what is not consumed pending. -/
theorem carriesOver_iff (hcmd : cmd.length + 2 ≤ MAX_IO_CTRL_LEN)
    (hsock : socketDesc ≠ INVALID_SOCKET) (rounds : Nat) {h : Handshake σ}
    (hpower : h.kse.gusKsePower = .on)
    (hlength : h.kse.gusTxRxDataLength ≤ MAX_IO_DATA_SIZE)
    (hunused : ∀ h' ∈ handshakeRounds W fuel socketDesc cmd rounds h, ∀ e z,
      RoundRecord W fuel socketDesc cmd h' e z → e.unused ≤ (e.presented cmd).length) :
    CarriesOver W fuel socketDesc cmd rounds h.kse.pending h ↔
      ∀ h' ∈ handshakeRounds W fuel socketDesc cmd rounds h, ∀ e z,
        RoundRecord W fuel socketDesc cmd h' e z → RoundSound W socketDesc h' e z := by
  induction rounds generalizing h with
  | zero =>
    apply iff_of_true trivial
    intro h' hmem
    cases hmem
  | succ rounds ih =>
    rw [handshakeRounds, List.forall_mem_cons] at hunused
    obtain ⟨hfirst, hrest⟩ := hunused
    have hkept := (handshakeRound_run W fuel cmd socketDesc h).kept.gusKsePower
    rw [handshakeRounds, List.forall_mem_cons]
    cases hround : handshakeRound W fuel cmd socketDesc h with
    | again h' =>
      obtain ⟨e, z, hrecord⟩ := roundRecord_of_again hround
      have hlength' := (hrecord.pending_iff hcmd hlength (hfirst e z hrecord)).1
      rw [hround] at hlength' hkept hrest
      rw [carriesOver_again hcmd hround hlength hrecord (hfirst e z hrecord),
        hrecord.forall_iff, ih (hkept.trans hpower) hlength' hrest]
    | done sRv z =>
      rw [hround] at hkept
      rw [carriesOver_done hcmd hsock hround (hkept.trans hpower) hlength hfirst]
      constructor
      · intro hsound
        exact ⟨hsound, fun h' hmem => absurd hmem List.not_mem_nil⟩
      · intro hsound
        exact hsound.1

/-! ### Both handshakes -/

theorem HandshakeCall.length_command (call : HandshakeCall) :
    (call.command socketDesc).length + 2 ≤ MAX_IO_CTRL_LEN := by
  cases call with
  | client bType => simp [command]
  | server => simp [command]

variable (W fuel socketDesc) in
/-- The call carries over what its rounds do not consume, and what is pending when it begins. -/
def HandshakeCall.CarriesOver (call : HandshakeCall) (x : Kse σ) : Prop :=
  x.gusKsePower = .on → socketDesc ≠ INVALID_SOCKET →
    MavlinkDim.CarriesOver W fuel socketDesc (call.command socketDesc) fuel x.pending
      ⟨call.bNextInput, x⟩

/-- **When a handshake carries its input over.**  For every peer, every chunking of its bytes and
    every device whose counts of unused input are not larger than the input presented: each round
    that takes input presents what the device did not consume before, or new bytes if there is
    nothing left, all of it stays pending, and the next `_ksetlsTlsRead` presents what is left at
    the end, exactly when every round is sound.  That is, if its record is sent or there is none,
    the blocks of the response leave the unconsumed bytes as they are and, if the round takes no
    input, no input is pending; if its record is refused, the device consumed nothing and what
    came from the socket is empty, and the bytes that were pending are left where they are. -/
theorem carry_over_iff (call : HandshakeCall) {x : Kse σ}
    (hlength : x.gusTxRxDataLength ≤ MAX_IO_DATA_SIZE)
    (hunused : ∀ h ∈ call.rounds W fuel socketDesc x, ∀ e z,
      RoundRecord W fuel socketDesc (call.command socketDesc) h e z →
        e.unused ≤ (e.presented (call.command socketDesc)).length) :
    call.CarriesOver W fuel socketDesc x ↔ ∀ h ∈ call.rounds W fuel socketDesc x, ∀ e z,
      RoundRecord W fuel socketDesc (call.command socketDesc) h e z →
        RoundSound W socketDesc h e z := by
  rw [HandshakeCall.CarriesOver]
  rw [HandshakeCall.rounds] at hunused ⊢
  by_cases hpower : x.gusKsePower = .on
  · by_cases hsock : socketDesc = INVALID_SOCKET
    · rw [if_neg (not_not.mpr hpower), if_pos hsock]
      apply iff_of_true
      · intro _ h
        exact absurd hsock h
      · intro h hmem
        cases hmem
    · rw [if_neg (not_not.mpr hpower), if_neg hsock] at hunused ⊢
      rw [← carriesOver_iff (h := ⟨call.bNextInput, x⟩) call.length_command hsock fuel hpower
        hlength hunused]
      constructor
      · intro hcarries
        exact hcarries hpower hsock
      · intro hcarries _ _
        exact hcarries
  · rw [if_pos hpower]
    apply iff_of_true
    · intro h
      exact absurd h hpower
    · intro h hmem
      cases hmem

/-! ### Leftovers that stay and leftovers that do not -/

/-- The first request of a round whose count is taken, and the count. -/
theorem RoundRecord.request_count (hcmd : cmd.length + 2 ≤ MAX_IO_CTRL_LEN)
    (hlength : h.kse.gusTxRxDataLength ≤ MAX_IO_DATA_SIZE)
    (hrecord : RoundRecord W fuel socketDesc cmd h e z)
    (hcounts : RoundCounts W fuel cmd socketDesc h e) :
    (handshakeRound W fuel cmd socketDesc h).kse.gusTxRxDataLength = e.unused ∧
      ∃ rest, requests (handshakeRound W fuel cmd socketDesc h).kse.trace =
        requests h.kse.trace ++ e.request :: rest := by
  obtain ⟨l, es, es', z', -, -, hfrom, -, htrace, -, ⟨-, hround⟩ | ⟨hnot, -⟩⟩ :=
    hrecord.exchange.made hcmd hlength
  swap
  · exact absurd hcounts hnot
  have hnone : requests es = [] := by
    split at hfrom
    · split at hfrom
      · rw [hfrom]
        rfl
      · rw [hfrom.1]
        rfl
    · rw [hfrom.1]
      rfl
  refine ⟨?_, requests es', ?_⟩
  · rw [hround, Kse.next_length]
  · rw [hround, Kse.next_trace, htrace, requests_append, requests_append, hnone, List.append_nil]
    rfl

theorem RoundRecord.counts (hrecord : RoundRecord W fuel socketDesc cmd h e z)
    (hsent : (sendRecord W socketDesc 7 e.recordLen z).1 = false) :
    RoundCounts W fuel cmd socketDesc h e := by
  obtain ⟨sInLen, y, w, hinput, hof, hok, hlong, rfl⟩ := hrecord
  exact ⟨sInLen, y, w, hinput, hof, hok, hlong, hsent⟩

def HandshakeRound.goesOn : HandshakeRound σ → Bool
  | .again _ => true
  | .done _ _ => false

theorem handshakeRounds_of_last (rounds : Nat)
    (hlast : (handshakeRound W fuel cmd socketDesc h).goesOn = false) :
    handshakeRounds W fuel socketDesc cmd (rounds + 1) h = [h] := by
  rw [handshakeRounds]
  cases hround : handshakeRound W fuel cmd socketDesc h with
  | again h' =>
    rw [hround] at hlast
    cases hlast
  | done sRv z => rfl

/-- A driver whose device gives these responses, and whose peer sends ten bytes. -/
def responding (responses : List (List UInt8)) : Kse Script :=
  poweredOn (fun _ => 0)
    ⟨responses.map fun response =>
        Report.ofList ([REP_ONE_BLOCK, 0x06, 0, loByte response.length] ++ response),
      [[1, 2, 3, 4, 5, 6, 7, 8, 9, 10]], []⟩

/-- The first round of a server, with these responses. -/
def firstRound (responses : List (List UInt8)) : HandshakeRound Script :=
  handshakeRound scriptedWorld 5 (HandshakeCall.server.command 5) 5
    ⟨KSE_TRUE, responding responses⟩

/-- The input of the first round and the count of its response, when the request is this. -/
theorem firstRound_left {responses : List (List UInt8)} {request : List UInt8}
    (hrequests : (requests (firstRound responses).kse.trace).head? = some request)
    {z : Kse Script} (hrecord : RoundRecord scriptedWorld 5 5 (HandshakeCall.server.command 5)
      ⟨KSE_TRUE, responding responses⟩ e z)
    (hcounts : RoundCounts scriptedWorld 5 (HandshakeCall.server.command 5) 5
      ⟨KSE_TRUE, responding responses⟩ e) :
    e.presented (HandshakeCall.server.command 5) = request.drop 8 ∧
      e.unused = (firstRound responses).kse.gusTxRxDataLength := by
  obtain ⟨hcount, rest, htrace⟩ :=
    hrecord.request_count (by decide) (Nat.zero_le _) hcounts
  change requests (firstRound responses).kse.trace = [] ++ e.request :: rest at htrace
  rw [htrace, List.nil_append, List.head?_cons, Option.some.injEq] at hrequests
  refine ⟨?_, hcount.symm⟩
  rw [Exchange.presented, hrequests]
  rfl

/-- Four of ten bytes are left at the end, behind the seven bytes of the response. -/
theorem carry_over_kept :
    HandshakeCall.server.CarriesOver scriptedWorld 5 5 (responding [[0, 1, 0, 4, 0, 0, 0]]) := by
  have hrounds : HandshakeCall.server.rounds scriptedWorld 5 5
      (responding [[0, 1, 0, 4, 0, 0, 0]]) =
      [⟨KSE_TRUE, responding [[0, 1, 0, 4, 0, 0, 0]]⟩] :=
    handshakeRounds_of_last 4 (by decide +kernel)
  obtain ⟨e, hrecord, hlen⟩ := @exists_roundRecord Script scriptedWorld 5 5
    (HandshakeCall.server.command 5) ⟨KSE_TRUE, responding [[0, 1, 0, 4, 0, 0, 0]]⟩
    (by decide +kernel) (by decide +kernel) (by decide +kernel)
  have hcounts := hrecord.counts (by
    rw [hlen]
    decide +kernel)
  have hrequest : (requests (firstRound [[0, 1, 0, 4, 0, 0, 0]]).kse.trace).head? =
      some [0x06, 0x11, 0, 0, 0, 5, 0, 10, 1, 2, 3, 4, 5, 6, 7, 8, 9, 10] := by decide +kernel
  have hcount : (firstRound [[0, 1, 0, 4, 0, 0, 0]]).kse.gusTxRxDataLength = 4 := by
    decide +kernel
  obtain ⟨hpresented, hunused⟩ := firstRound_left hrequest hrecord hcounts
  rw [hcount] at hunused
  have hfits : e.unused ≤ (e.presented (HandshakeCall.server.command 5)).length := by
    rw [hpresented, hunused]
    decide
  apply (carry_over_iff .server (Nat.zero_le _) ?_).mpr
  · rw [hrounds, List.forall_mem_singleton, hrecord.forall_iff]
    apply (hrecord.pending_iff (by decide) (Nat.zero_le _) hfits).2.mp
    have hpending : (firstRound [[0, 1, 0, 4, 0, 0, 0]]).kse.pending = [7, 8, 9, 10] := by
      decide +kernel
    rw [unconsumedAfter, if_pos rfl, Exchange.left, hpresented, hunused]
    exact hpending
  · rw [hrounds, List.forall_mem_singleton]
    exact (hrecord.forall_iff (P := fun e _ => e.unused ≤
      (e.presented (HandshakeCall.server.command 5)).length)).mpr hfits

/-- A response of 27 bytes, with a record of twenty, that leaves four bytes, and the last one. -/
def longFlight : List (List UInt8) :=
  [[0, 0, 0, 4, KSE_TRUE, 0, 20] ++ List.replicate 20 0x16, [0, 1, 0, 0, KSE_FALSE, 0, 0]]

/-- The response covers bytes 14 to 17 of the buffer, and the device is given four bytes of the
    record that was sent to the peer.  Where the device asks for a round without input instead,
    the four bytes are not presented again, and where it gives a record of 32768 bytes, which is
    refused, they are not pending after the handshake. -/
theorem carry_over_lost :
    let x := responding longFlight
    let y := responding [[0, 0, 0, 4, KSE_FALSE, 0, 0], [0, 0, 0, 0, KSE_TRUE, 0, 0],
      [0, 1, 0, 0, KSE_FALSE, 0, 0]]
    let z := responding [[0, 1, 0, 4, KSE_FALSE, 0x80, 0]]
    (HandshakeCall.server.run scriptedWorld 5 5 x).1 = some KSE_SUCCESS ∧
      requests (HandshakeCall.server.run scriptedWorld 5 5 x).2.trace =
        [tlsHeader 0x11 5 ++ [0, 10, 1, 2, 3, 4, 5, 6, 7, 8, 9, 10],
          tlsHeader 0x11 5 ++ [0, 4, 0x16, 0x16, 0x16, 0x16]] ∧
      ¬HandshakeCall.server.CarriesOver scriptedWorld 5 5 x ∧
      requests (HandshakeCall.server.run scriptedWorld 5 5 y).2.trace =
        [tlsHeader 0x11 5 ++ [0, 10, 1, 2, 3, 4, 5, 6, 7, 8, 9, 10],
          tlsHeader 0x11 5 ++ [0, 0], tlsHeader 0x11 5 ++ [0, 0]] ∧
      requests (HandshakeCall.server.run scriptedWorld 5 5 z).2.trace =
        [tlsHeader 0x11 5 ++ [0, 10, 1, 2, 3, 4, 5, 6, 7, 8, 9, 10]] ∧
      (HandshakeCall.server.run scriptedWorld 5 5 z).2.pending = [] := by
  intro x y z
  refine ⟨by decide +kernel, by decide +kernel, ?_, by decide +kernel, by decide +kernel,
    by decide +kernel⟩
  intro hcarries
  obtain ⟨e, hrecord, hlen⟩ := @exists_roundRecord Script scriptedWorld 5 5
    (HandshakeCall.server.command 5) ⟨KSE_TRUE, x⟩ (by decide +kernel) (by decide +kernel)
    (by decide +kernel)
  have hcounts := hrecord.counts (by
    rw [hlen]
    decide +kernel)
  have hpending : (firstRound longFlight).kse.pending =
      unconsumedAfter (HandshakeCall.server.command 5) x.pending ⟨KSE_TRUE, x⟩ e :=
    ((hcarries rfl (by decide)).2 e _ hrecord).1
  have hrequest : (requests (firstRound longFlight).kse.trace).head? =
      some [0x06, 0x11, 0, 0, 0, 5, 0, 10, 1, 2, 3, 4, 5, 6, 7, 8, 9, 10] := by decide +kernel
  have hcount : (firstRound longFlight).kse.gusTxRxDataLength = 4 := by decide +kernel
  have hover : (firstRound longFlight).kse.pending = [0x16, 0x16, 0x16, 0x16] := by
    decide +kernel
  obtain ⟨hpresented, hunused⟩ := firstRound_left hrequest hrecord hcounts
  rw [hover, unconsumedAfter, if_pos rfl, Exchange.left, hpresented, hunused, hcount] at hpending
  exact absurd hpending (by decide)

end MavlinkDim
