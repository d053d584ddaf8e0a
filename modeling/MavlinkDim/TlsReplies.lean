import MavlinkDim.ReceivePhase
import MavlinkDim.Tls

/-!
# The inner length of a TLS response

The kseTLS functions take the length of a message or record from a field of the
response and never compare it with the length of the response itself.
`replies_within_iff` says what that costs: the bytes a call hands to the
application or to the socket are bytes of its responses exactly when every
response it uses is at least as long as its inner length says, and its blocks
bring the bytes that are counted.
-/

namespace MavlinkDim

open ByteMemory

/-! ### Uses of a response -/

/-- Everything copied or sent lies inside the first bytes of the buffer, as many as the response
    received last is long, which are `usLen` at the start. -/
def Within : Nat → List Event → Prop
  | _, [] => True
  | _, .exchange e :: es => Within e.usLen es
  | usLen, .received _ :: es => Within usLen es
  | usLen, .sent offset count :: es => offset + count ≤ usLen ∧ Within usLen es
  | usLen, .copied offset count :: es => offset + count ≤ usLen ∧ Within usLen es

instance decidableWithin : (usLen : Nat) → (es : List Event) → Decidable (Within usLen es)
  | _, [] => .isTrue trivial
  | _, .exchange e :: es => decidableWithin e.usLen es
  | usLen, .received _ :: es => decidableWithin usLen es
  | usLen, .sent _ _ :: es => @instDecidableAnd _ _ _ (decidableWithin usLen es)
  | usLen, .copied _ _ :: es => @instDecidableAnd _ _ _ (decidableWithin usLen es)

/-- Every byte copied or sent was written by a report of the response received last, which is
    `e?` at the start. -/
def Genuine : Option Exchange → List Event → Prop
  | _, [] => True
  | _, .exchange e :: es => Genuine (some e) es
  | e?, .received _ :: es => Genuine e? es
  | e?, .sent offset count :: es => (∃ e ∈ e?, e.Gives offset count) ∧ Genuine e? es
  | e?, .copied offset count :: es => (∃ e ∈ e?, e.Gives offset count) ∧ Genuine e? es

/-- The length of the header of a response, and the message or record length in it, when the
    function that sent the request goes on to use them. -/
def Exchange.inner (e : Exchange) : Option (Nat × Nat) :=
  let bCmd := e.pbSendData 1
  if bCmd = 0x10 ∨ bCmd = 0x11 then
    if e.sRv = some KSE_SUCCESS ∧ 2 < e.usLen ∧
        ¬(status e.gabTxRxData = KSE_SUCCESS ∧ e.usLen < 7) then some (7, e.field 5)
    else none
  else if bCmd = 0x20 then if e.Accepted 6 then some (6, e.field 4) else none
  else if e.Accepted 4 then some (4, e.field 2)
  else none

/-- The response holds as many bytes as its inner length says, and its blocks bring them. -/
def Exchange.Fits (e : Exchange) : Prop :=
  ∀ header usInnerLen, e.inner = some (header, usInnerLen) → 0 < usInnerLen →
    header + usInnerLen ≤ e.usLen ∧ e.Covers header usInnerLen

/-- A trace in which every response is followed by the uses its inner length calls for. -/
inductive Answers : List Event → Prop where
  | nil : Answers []
  | received (l : List UInt8) {es : List Event} : Answers es → Answers (.received l :: es)
  | unused (e : Exchange) {es : List Event} : e.inner = none → Answers es →
      Answers (.exchange e :: es)
  | sent (e : Exchange) {m : Bytes} {es : List Event} {header usRecordLen : Nat} :
      e.inner = some (header, usRecordLen) → e.usLen ≤ MAX_IO_BUFFER_SIZE →
      Copied m 0 e.gabTxRxData e.blocks → usRecordLen < 65536 → 0 < usRecordLen →
      Answers es →
      Answers (.exchange e :: .sent header (sizeT (int16 usRecordLen)) :: es)
  | empty (e : Exchange) {es : List Event} {header : Nat} : e.inner = some (header, 0) →
      Answers es → Answers (.exchange e :: es)
  | copied (e : Exchange) {m : Bytes} {es : List Event} {header usMessageLen : Nat} :
      e.inner = some (header, usMessageLen) → header ≤ e.usLen →
      Copied m 0 e.gabTxRxData e.blocks → Answers es →
      Answers (.exchange e :: .copied header usMessageLen :: es)

theorem Answers.append {es es' : List Event} (h : Answers es) (h' : Answers es') :
    Answers (es ++ es') := by
  induction h with
  | nil => exact h'
  | received l _ ih => exact .received l ih
  | unused e hinner _ ih => exact .unused e hinner ih
  | sent e hinner hlen hcopied hword hpos _ ih =>
    exact .sent e hinner hlen hcopied hword hpos ih
  | empty e hinner _ ih => exact .empty e hinner ih
  | copied e hinner hheader hcopied _ ih => exact .copied e hinner hheader hcopied ih

/-- A record length above 32767 is a negative count for `_tlsSend` and an enormous one for
    `write`. -/
theorem sent_eq_or {usRecordLen : Nat} (hword : usRecordLen < 65536) :
    sizeT (int16 usRecordLen) = usRecordLen ∨
      MAX_IO_BUFFER_SIZE < usRecordLen ∧ MAX_IO_BUFFER_SIZE < sizeT (int16 usRecordLen) := by
  simp only [MAX_IO_BUFFER_SIZE, MAX_IO_DATA_SIZE, MAX_IO_CTRL_LEN, sizeT, int16]
  split <;> omega

theorem sent_iff {e : Exchange} {m : Bytes} {header usRecordLen : Nat}
    (hlen : e.usLen ≤ MAX_IO_BUFFER_SIZE) (hcopied : Copied m 0 e.gabTxRxData e.blocks)
    (hword : usRecordLen < 65536) :
    header + sizeT (int16 usRecordLen) ≤ e.usLen ∧ e.Gives header (sizeT (int16 usRecordLen)) ↔
      header + usRecordLen ≤ e.usLen ∧ e.Covers header usRecordLen := by
  rw [Exchange.gives_iff hcopied]
  rcases sent_eq_or hword with heq | ⟨hlong, hlong'⟩
  · rw [heq]
  · apply iff_of_false
    · rintro ⟨hle, -⟩
      omega
    · rintro ⟨hle, -⟩
      omega

/-- The uses of such a trace stay inside the responses and are genuine exactly when all
    responses fit. -/
theorem Answers.within_iff {es : List Event} (h : Answers es) (usLen : Nat)
    (e? : Option Exchange) :
    Within usLen es ∧ Genuine e? es ↔ ∀ e, .exchange e ∈ es → e.Fits := by
  induction h generalizing usLen e? with
  | nil => simp [Within, Genuine]
  | received l _ ih => simpa [Within, Genuine] using ih usLen e?
  | unused e hinner _ ih =>
    have hfits : e.Fits := by simp [Exchange.Fits, hinner]
    rw [forall_exchange_cons, Within, Genuine, ih]
    exact (and_iff_right hfits).symm
  | @sent e m es header usRecordLen hinner hlen hcopied hword hpos _ ih =>
    have hfits : e.Fits ↔ header + usRecordLen ≤ e.usLen ∧ e.Covers header usRecordLen := by
      simp [Exchange.Fits, hinner, hpos]
    rw [forall_exchange_cons, hfits, ← sent_iff hlen hcopied hword]
    simp only [Within, Genuine, Option.mem_def, Option.some.injEq, exists_eq_left',
      List.mem_cons, reduceCtorEq, false_or, ← ih e.usLen (some e)]
    exact and_and_and_comm
  | empty e hinner _ ih =>
    have hfits : e.Fits := by simp [Exchange.Fits, hinner]
    rw [forall_exchange_cons, Within, Genuine, ih]
    exact (and_iff_right hfits).symm
  | @copied e m es header usMessageLen hinner hheader hcopied _ ih =>
    have hfits : e.Fits ↔ header + usMessageLen ≤ e.usLen ∧ e.Gives header usMessageLen := by
      rw [Exchange.gives_iff hcopied]
      simp only [Exchange.Fits, hinner, Option.some.injEq, Prod.mk.injEq]
      constructor
      · intro h
        rcases Nat.eq_zero_or_pos usMessageLen with rfl | hpos
        · refine ⟨hheader, ?_⟩
          intro i hle hlt
          omega
        · exact h header usMessageLen ⟨rfl, rfl⟩ hpos
      · rintro h _ _ ⟨rfl, rfl⟩ -
        exact h
    rw [forall_exchange_cons, hfits]
    simp only [Within, Genuine, Option.mem_def, Option.some.injEq, exists_eq_left',
      List.mem_cons, reduceCtorEq, false_or, ← ih e.usLen (some e)]
    exact and_and_and_comm

/-! ### The functions answer -/

variable {σ : Type} (W : World σ) (fuel : Nat)

/-- From `x` to `y` a function has added such a trace. -/
def Answered (x y : Kse σ) : Prop := ∃ es, y.trace = x.trace ++ es ∧ Answers es

theorem Answered.refl (x : Kse σ) : Answered x x := ⟨[], by simp, .nil⟩

theorem Answered.trans {x y z : Kse σ} (h : Answered x y) (h' : Answered y z) :
    Answered x z := by
  obtain ⟨es, hes, hans⟩ := h
  obtain ⟨es', hes', hans'⟩ := h'
  exact ⟨es ++ es', by rw [hes', hes, List.append_assoc], hans.append hans'⟩

theorem receiveRecord_answered (offset : Nat) (socketDesc : Int) (x : Kse σ) :
    Answered x (receiveRecord W offset socketDesc x).2.2 := by
  rcases receiveRecord_cases W offset socketDesc x with
    ⟨-, w, hrecv⟩ | ⟨-, l, w, -, hrecv⟩ | ⟨-, hrecv⟩
  · rw [hrecv]
    exact ⟨[], by simp, .nil⟩
  · rw [hrecv]
    exact ⟨[.received l], rfl, .received l .nil⟩
  · rw [hrecv]
    exact ⟨[], by simp, .nil⟩

theorem answered_unused (x : Kse σ) {e : Exchange} (w : σ) (hinner : e.inner = none) :
    Answered x (x.exchanged e w) :=
  ⟨[.exchange e], rfl, .unused e hinner .nil⟩

theorem answered_sendRecord {x y : Kse σ} {m : Bytes} {e : Exchange} {w : σ}
    {header usRecordLen : Nat} {socketDesc sOutLen : Int} {returned : Bool}
    (hsend : sendRecord W socketDesc header usRecordLen (x.exchanged e w) =
      (returned, sOutLen, y))
    (hinner : e.inner = some (header, usRecordLen))
    (hlen : e.usLen ≤ MAX_IO_BUFFER_SIZE) (hcopied : Copied m 0 e.gabTxRxData e.blocks)
    (hword : usRecordLen < 65536) : Answered x y := by
  obtain ⟨_, _, w', heq⟩ := sendRecord_eq W socketDesc header usRecordLen (x.exchanged e w)
  obtain ⟨-, -, rfl⟩ : _ ∧ _ ∧ _ = y := by simpa using heq.symm.trans hsend
  by_cases hpos : usRecordLen > 0
  · refine ⟨[.exchange e, .sent header (sizeT (int16 usRecordLen))], ?_, ?_⟩
    · simp [hpos]
    · exact .sent e hinner hlen hcopied hword hpos .nil
  · obtain rfl : usRecordLen = 0 := by omega
    exact ⟨[.exchange e], by simp, .empty e hinner .nil⟩

/-- The commands whose response carries a record behind the status and its length. -/
theorem Exchange.inner_record {e : Exchange}
    (hcmd : e.pbSendData 1 = 0x21 ∨ e.pbSendData 1 = 0x22 ∨ e.pbSendData 1 = 0x23) :
    (e.Accepted 4 → e.inner = some (4, e.field 2)) ∧ (¬e.Accepted 4 → e.inner = none) := by
  rcases hcmd with hc | hc | hc <;> simp +contextual [Exchange.inner, hc]

theorem Exchange.inner_read {e : Exchange} (hcmd : e.pbSendData 1 = 0x20) :
    (e.Accepted 6 → e.inner = some (6, e.field 4)) ∧ (¬e.Accepted 6 → e.inner = none) := by
  simp +contextual [Exchange.inner, hcmd]

theorem writeRecord_answered (socketDesc : Int) (usSendLen : Nat) (x : Kse σ)
    (hcmd : x.gabTxRxData 1 = 0x21 ∨ x.gabTxRxData 1 = 0x22 ∨ x.gabTxRxData 1 = 0x23) :
    Answered x (writeRecord W fuel socketDesc usSendLen x).2 := by
  obtain ⟨e, w, hof, hcase⟩ := writeRecord_cases W fuel socketDesc usSendLen x
  have hinner := @Exchange.inner_record e (by rw [hof.pbSendData]; exact hcmd)
  rcases hcase with ⟨hrejected, sRv, hcall⟩ | ⟨haccepted, returned, sOutLen, y, hsend, hcall⟩
  · rw [hcall]
    exact answered_unused x w (hinner.2 hrejected)
  · have hans := answered_sendRecord W hsend (hinner.1 haccepted)
      (hof.usLen_le haccepted.1) hof.copied (e.field_lt 2)
    rw [hcall]
    cases returned <;> exact hans

theorem setAlert_answered (socketDesc : Int) (x : Kse σ) :
    Answered x (setAlert W fuel socketDesc x).2.2 := by
  obtain ⟨e, w, y, hcmd, hof, hy, hcase⟩ := setAlert_cases W fuel socketDesc x
  have hinner := @Exchange.inner_record e (by rw [hof.pbSendData]; exact Or.inr (Or.inl hcmd))
  have hxy : Answered x y := ⟨[], by rw [hy]; simp, .nil⟩
  refine hxy.trans ?_
  rcases hcase with ⟨hrejected, sRv, hcall, -⟩ | ⟨haccepted, returned, sOutLen, z, hsend, hcall⟩
  · rw [hcall]
    exact answered_unused y w (hinner.2 hrejected)
  · rw [hcall]
    exact answered_sendRecord W hsend (hinner.1 haccepted) (hof.usLen_le haccepted.1)
      hof.copied (e.field_lt 2)

theorem parseRecord_answered (pbInAppData : Nat) (psInAppDataLen : Option Int)
    (socketDesc sInLen : Int) (x : Kse σ) :
    Answered x (parseRecord W fuel pbInAppData psInAppDataLen socketDesc sInLen x).2.2 := by
  obtain ⟨e, w, y, hy, hof, hcase⟩ :=
    parseRecord_cases W fuel pbInAppData psInAppDataLen socketDesc sInLen x
  have hcmd : e.pbSendData 1 = 0x20 := by
    rw [hof.pbSendData, hy, Kse.store_gabTxRxData, put_in _ (Nat.zero_le _) (by simp)]
    rfl
  have hinner := Exchange.inner_read hcmd
  have hxy : Answered x y := ⟨[], by rw [hy]; simp, .nil⟩
  refine hxy.trans ?_
  rcases hcase with ⟨hrejected, sRv, z, hcall, hz, -⟩ |
    ⟨hrejected, -, returned, sRv, z, hset, hcall⟩ | ⟨haccepted, hcall⟩
  · have hans := answered_unused y w (hinner.2 hrejected)
    rw [hcall]
    rcases hz with rfl | rfl <;> exact hans
  · have halert := setAlert_answered W fuel socketDesc (y.exchanged e w)
    have hans := (answered_unused y w (hinner.2 hrejected)).trans halert
    rw [hset] at hans
    rw [hcall]
    cases returned <;> exact hans
  · rw [hcall]
    refine ⟨[.exchange e, .copied 6 (e.field 4)], ?_, ?_⟩
    · simp [Kse.copyOut]
    · exact .copied e (hinner.1 haccepted) haccepted.2.2 hof.copied .nil

theorem handshakeRound_answered {cmd : List UInt8} (socketDesc : Int) (h : Handshake σ)
    (hcmd : cmd[1]? = some 0x10 ∨ cmd[1]? = some 0x11) :
    Answered h.kse (handshakeRound W fuel cmd socketDesc h).kse := by
  obtain ⟨returned, sInLen, y, hinput, hcase⟩ := handshakeRound_cases W fuel cmd socketDesc h
  have hhy : Answered h.kse y := by
    by_cases hnext : h.bNextInput = KSE_TRUE
    · have hans := receiveRecord_answered W (cmd.length + 2) socketDesc h.kse
      rw [if_pos hnext] at hinput
      rwa [hinput] at hans
    · rw [if_neg hnext] at hinput
      obtain ⟨-, -, rfl⟩ : _ ∧ _ ∧ _ = y := by simpa using hinput
      exact Answered.refl _
  refine hhy.trans ?_
  rcases hcase with ⟨-, hround⟩ | ⟨-, e, w, hof, hcase⟩
  · rw [hround]
    exact Answered.refl _
  · have hbyte : e.pbSendData 1 = 0x10 ∨ e.pbSendData 1 = 0x11 := by
      have hlen : 1 < cmd.length := by
        rcases hcmd with h | h <;> exact (List.getElem?_eq_some_iff.mp h).1
      rw [hof.pbSendData, Kse.store_gabTxRxData,
        put_in _ (Nat.zero_le _) (by simp), List.getElem_append_left hlen]
      rcases hcmd with h | h
      · exact Or.inl (List.getElem?_eq_some_iff.mp h).2
      · exact Or.inr (List.getElem?_eq_some_iff.mp h).2
    rcases hcase with ⟨hrejected, sRv, hround⟩ |
      ⟨hok, hlong, returned, sOutLen, z, hsend, hround⟩
    · have hinner : e.inner = none := by
        simp only [Exchange.inner, if_pos hbyte]
        exact if_neg fun h => hrejected ⟨h.1, h.2.2⟩
      rw [hround]
      exact answered_unused _ w hinner
    · have hans : Answered (y.store 0 (cmd ++ bytes16 (uint16 sInLen))) z := by
        by_cases hlen : e.usLen > 2
        · have hinner : e.inner = some (7, e.field 5) := by
            simp only [Exchange.inner, if_pos hbyte]
            exact if_pos ⟨hok, hlen, hlong⟩
          rw [if_pos hlen] at hsend
          exact answered_sendRecord W hsend hinner (hof.usLen_le hok) hof.copied (e.field_lt 5)
        · have hinner : e.inner = none := by
            simp only [Exchange.inner, if_pos hbyte]
            exact if_neg fun h => hlen h.2.1
          rw [if_neg hlen] at hsend
          obtain ⟨_, _, w', heq⟩ := sendRecord_eq W socketDesc 7 0
            ((y.store 0 (cmd ++ bytes16 (uint16 sInLen))).exchanged e w)
          obtain ⟨-, -, rfl⟩ : _ ∧ _ ∧ _ = z := by simpa using heq.symm.trans hsend
          exact ⟨[.exchange e], by simp, .unused e hinner .nil⟩
      obtain ⟨es, hes, hanswers⟩ := hans
      refine ⟨es, ?_, hanswers⟩
      rw [hround]
      simp only [Kse.store_trace] at hes
      cases returned with
      | true => exact hes
      | false =>
        simp only [Bool.false_eq_true, if_false]
        split <;> simpa [HandshakeRound.kse] using hes

theorem handshakeLoop_answered {cmd : List UInt8} (socketDesc : Int) (rounds : Nat)
    (h : Handshake σ) (hcmd : cmd[1]? = some 0x10 ∨ cmd[1]? = some 0x11) :
    Answered h.kse (handshakeLoop W fuel cmd socketDesc rounds h).2 := by
  induction rounds generalizing h with
  | zero => exact Answered.refl _
  | succ rounds ih =>
    have hround := handshakeRound_answered W fuel socketDesc h hcmd
    rw [handshakeLoop]
    cases hcase : handshakeRound W fuel cmd socketDesc h with
    | again h' =>
      rw [hcase] at hround
      exact hround.trans (ih h')
    | done sRv x =>
      rw [hcase] at hround
      exact hround

/-! ### The functions that use responses -/

/-- A call of one of the five functions. -/
inductive TlsCall where
  | clientHandshake (socketDesc : Int) (bType : UInt8)
  | serverHandshake (socketDesc : Int)
  | read (pbInAppData : Nat) (psInAppDataLen : Option Int) (socketDesc : Int)
  | write (socketDesc : Int) (pbOutAppData : Nat) (sOutAppDataLen : Int)
  | closeNotify (socketDesc : Int)

def TlsCall.run : TlsCall → Kse σ → Kse σ
  | .clientHandshake socketDesc bType, x => (ksetlsTlsClientHandshake W fuel socketDesc bType x).2
  | .serverHandshake socketDesc, x => (ksetlsTlsServerHandshake W fuel socketDesc x).2
  | .read pbInAppData psInAppDataLen socketDesc, x =>
    (ksetlsTlsRead W fuel pbInAppData psInAppDataLen socketDesc x).2.2
  | .write socketDesc pbOutAppData sOutAppDataLen, x =>
    (ksetlsTlsWrite W fuel socketDesc pbOutAppData sOutAppDataLen x).2
  | .closeNotify socketDesc, x => (ksetlsTlsCloseNotify W fuel socketDesc x).2

def TlsCall.events (call : TlsCall) (x : Kse σ) : List Event :=
  (call.run W fuel x).trace.drop x.trace.length

theorem TlsCall.run_answered (call : TlsCall) (x : Kse σ) :
    Answered x (call.run W fuel x) := by
  cases call with
  | clientHandshake socketDesc bType =>
    simp only [run, ksetlsTlsClientHandshake]
    split
    · exact Answered.refl x
    · split
      · exact Answered.refl x
      · exact handshakeLoop_answered W fuel socketDesc fuel _ (Or.inl rfl)
  | serverHandshake socketDesc =>
    simp only [run, ksetlsTlsServerHandshake]
    split
    · exact Answered.refl x
    · split
      · exact Answered.refl x
      · exact handshakeLoop_answered W fuel socketDesc fuel _ (Or.inr rfl)
  | read pbInAppData psInAppDataLen socketDesc =>
    simp only [run, ksetlsTlsRead]
    split
    · exact Answered.refl x
    · split
      · exact Answered.refl x
      · have hrecv := receiveRecord_answered W 8 socketDesc x
        split
        · exact hrecv
        · exact hrecv.trans (parseRecord_answered W fuel _ _ _ _ _)
  | write socketDesc pbOutAppData sOutAppDataLen =>
    simp only [run, ksetlsTlsWrite]
    split
    · exact Answered.refl x
    · split
      · exact Answered.refl x
      · exact writeRecord_answered W fuel socketDesc _ (x.store 0 _) (Or.inl rfl)
  | closeNotify socketDesc =>
    simp only [run, ksetlsTlsCloseNotify]
    split
    · exact Answered.refl x
    · split
      · exact Answered.refl x
      · exact writeRecord_answered W fuel socketDesc _ (x.store 0 _) (Or.inr (Or.inr rfl))

/-- **When no response is over-read.**  For every call and every device, whatever the call
    copies to the application or hands to `_tlsSend` lies inside its responses and was written
    by their reports, so no byte of a request is among it, exactly when every response that it
    uses is as long as its inner length says and its blocks bring the bytes that are counted. -/
theorem replies_within_iff (call : TlsCall) (x : Kse σ) :
    Within 0 (call.events W fuel x) ∧ Genuine none (call.events W fuel x) ↔
      ∀ e, .exchange e ∈ call.events W fuel x → e.Fits := by
  obtain ⟨es, hes, hanswers⟩ := call.run_answered W fuel x
  have hevents : call.events W fuel x = es := by
    rw [TlsCall.events, hes, List.drop_left]
  rw [hevents]
  exact hanswers.within_iff 0 none

/-- A write of 100 bytes answered by a response of four bytes that announces a record of 100. -/
def shortReply : Kse Script :=
  poweredOn (fun _ => 0x4B)
    ⟨[Report.ofList [REP_FIRST_BLOCK, 0xFE, 0, 60],
      Report.ofList [REP_ONE_BLOCK, 0x06, 0, 4, 0, 0, 0, 100]], [], []⟩

/-- The call reports 100 bytes sent; 96 of them are the plaintext of its own request. -/
theorem replies_within_plaintext :
    (ksetlsTlsWrite scriptedWorld 0 3 1 100 shortReply).1 = some 100 ∧
      (TlsCall.run scriptedWorld 0 (.write 3 1 100) shortReply).world.output =
        [[0, 3, 0, 100] ++ List.replicate 96 0x4B] ∧
      ¬(Within 0 (TlsCall.events scriptedWorld 0 (.write 3 1 100) shortReply) ∧
        Genuine none (TlsCall.events scriptedWorld 0 (.write 3 1 100) shortReply)) := by
  refine ⟨by decide +kernel, by decide +kernel, ?_⟩
  rintro ⟨hwithin, -⟩
  revert hwithin
  decide +kernel

/-- The same write, answered by 70 bytes with a record of 66, the last block in slot 5. -/
def skippingReply : Kse Script :=
  poweredOn (fun _ => 0x4B)
    ⟨[Report.ofList [REP_FIRST_BLOCK, 0xFE, 0, 60],
      Report.ofList ([REP_FIRST_BLOCK, 0x06, 0, 60, 0, 0, 0, 66] ++ List.replicate 56 0x16),
      Report.ofList ([REP_LAST_BLOCK, 0x06, 5, 10] ++ List.replicate 10 0x16)], [], []⟩

/-- The lengths are in order, and the last ten bytes sent are of the plaintext. -/
example : Within 0 (TlsCall.events scriptedWorld 1 (.write 3 1 100) skippingReply) ∧
    (TlsCall.run scriptedWorld 1 (.write 3 1 100) skippingReply).world.output =
      [List.replicate 56 0x16 ++ List.replicate 10 0x4B] := by
  decide +kernel

end MavlinkDim
