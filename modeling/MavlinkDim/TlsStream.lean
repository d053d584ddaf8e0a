import MavlinkDim.Framing
import MavlinkDim.Tls

/-!
# The TLS input stream

`_ksetlsTlsRead` gives the device at most one read of the socket at a time and
keeps what the device did not consume for the next call.  `_ksetlsTlsWrite` sets
the pending length to zero.  `stream_intact_iff` says for any run of the two that
the bytes consumed by the device, followed by the pending ones, are the bytes
received, exactly as long as no write is accepted while input is pending.
-/

namespace MavlinkDim

open ByteMemory

variable {σ δ : Type}

/-! ### A world with a conforming device -/

/-- A conforming device and a network that share the environment. -/
def frameWorld (D : Device δ) (N : Net δ) (indeterminate : δ → Int) : World (Frame δ) where
  toUsb := frameUsb D
  getsockopt f socketDesc :=
    let (iRv, error, env) := N.getsockopt f.env socketDesc
    (iRv, error, { f with env })
  read f socketDesc count :=
    let (l, env) := N.read f.env socketDesc count
    (l, { f with env })
  write f socketDesc data count :=
    let (k, env) := N.write f.env socketDesc data count
    (k, { f with env })
  indeterminate f := indeterminate f.env

/-- The driver is powered on, its device waits for a request, and the pending input is no
    more than one read of the socket. -/
structure Ready (x : Kse (Frame δ)) : Prop where
  power : x.gusKsePower = .on
  dev : ∃ d, x.ghDev = some d
  idle : x.world.request = []
  length : x.gusTxRxDataLength ≤ MAX_IO_DATA_SIZE

variable (D : Device δ) (N : Net δ) (indeterminate : δ → Int) (fuel : Nat)

theorem transceive_frame {x : Kse (Frame δ)} (hdev : ∃ d, x.ghDev = some d)
    (hidle : x.world.request = []) {usSendLen : Nat} (hpos : 0 < usSendLen)
    (hmax : usSendLen ≤ MAX_IO_BUFFER_SIZE) (hfuel : 51 ≤ fuel)
    (hresp : (D.exec x.world.env (slice x.gabTxRxData 0 usSendLen)).1.length ≤
      MAX_IO_BUFFER_SIZE) :
    ∃ e w, Exchange.Of (frameWorld D N indeterminate) fuel e w usSendLen x ∧
      e.sRv = some KSE_SUCCESS ∧
      e.usLen = (D.exec x.world.env (slice x.gabTxRxData 0 usSendLen)).1.length ∧
      e.gabTxRxData =
        put x.gabTxRxData 0 (D.exec x.world.env (slice x.gabTxRxData 0 usSendLen)).1 ∧
      w.request = [] ∧ w.env = (D.exec x.world.env (slice x.gabTxRxData 0 usSendLen)).2 := by
  obtain ⟨d, hdev⟩ := hdev
  obtain ⟨r, reports, hr, -, -, hok, hlen, -, hmem, henv, -, hrequest⟩ :=
    kseTransceive_frame D x.world fuel d x.gabTxRxData 0 0 usSendLen hidle hpos hmax hresp (by
      simp only [MAX_IO_BUFFER_SIZE, MAX_IO_DATA_SIZE, MAX_IO_CTRL_LEN] at hresp
      simp only [blockCount]
      omega)
  obtain ⟨e, w, hof⟩ := exists_exchange (frameWorld D N indeterminate) fuel usSendLen x
  have hcall := hof.call
  simp only [transceive, hdev] at hcall
  have hr' : kseTransceive (frameWorld D N indeterminate).toUsb fuel (some d) x.gabTxRxData 0 0
      usSendLen x.world = r := hr
  rw [hr'] at hcall
  obtain ⟨hsRv, husLen, hx⟩ : _ ∧ _ ∧ _ := by simpa using hcall
  have hgab := congrArg Kse.gabTxRxData hx
  have hworld := congrArg Kse.world hx
  simp only [Kse.exchanged] at hgab hworld
  exact ⟨e, w, hof, hsRv.symm.trans hok, husLen.symm.trans hlen, hgab.symm.trans hmem,
    by rw [← hworld, hrequest], by rw [← hworld, henv]⟩

/-- The device executes the request that is in the shared buffer, and its response is received
    over it. -/
theorem Exchange.Of.frame {x : Kse (Frame δ)} {e : Exchange} {w : Frame δ} {usSendLen : Nat}
    (hof : e.Of (frameWorld D N indeterminate) fuel w usSendLen x) (hdev : ∃ d, x.ghDev = some d)
    (hidle : x.world.request = []) (hfuel : 51 ≤ fuel) {request : List UInt8}
    (hrequest : slice x.gabTxRxData 0 usSendLen = request) (hpos : 0 < usSendLen)
    (hmax : usSendLen ≤ MAX_IO_BUFFER_SIZE) {response : List UInt8} {env : δ}
    (hexec : D.exec x.world.env request = (response, env))
    (hresp : response.length ≤ MAX_IO_BUFFER_SIZE) :
    e.sRv = some KSE_SUCCESS ∧ e.request = request ∧ e.usLen = response.length ∧
      e.gabTxRxData = put x.gabTxRxData 0 response ∧ w.request = [] ∧ w.env = env := by
  obtain ⟨e', w', hof', hok, husLen, hgab, hw, henv⟩ :=
    @transceive_frame δ D N indeterminate fuel x hdev hidle usSendLen hpos hmax hfuel (by
      rw [hrequest, hexec]
      exact hresp)
  obtain ⟨rfl, rfl⟩ := hof.unique _ _ hof'
  rw [hrequest, hexec] at husLen hgab henv
  refine ⟨hok, ?_, husLen, hgab, hw, henv⟩
  rw [Exchange.request, hof.pbSendData, hof.usSendLen, hrequest]

/-! ### What is assumed of the device and the network -/

def writeRequest (socketDesc : Int) (l : List UInt8) : List UInt8 :=
  tlsHeader 0x21 socketDesc ++ bytes16 l.length ++ l

/-- No socket call fails, and `write` reports a count that is not negative as an `int16_t`. -/
structure NoTransportError (N : Net δ) : Prop where
  getsockopt : ∀ env socketDesc,
    (N.getsockopt env socketDesc).1 ≠ -1 ∧ (N.getsockopt env socketDesc).2.1 = 0
  read : ∀ env socketDesc count, (N.read env socketDesc count).1 ≠ none
  write : ∀ env socketDesc data count, ∃ k, (N.write env socketDesc data count).1 = some k ∧
    0 ≤ int16 k.val

def responseStatus (response : List UInt8) : Int := status (ofList response)

def unusedInputLen (response : List UInt8) : Nat :=
  word (ofList response 2) (ofList response 3)

/-- The device accepts every parse and write command, reports no more unused input than it was
    given, and answers a parse command with at most 8 bytes more than it consumed. -/
structure AcceptsAll (D : Device δ) (socketDesc : Int) : Prop where
  parse : ∀ env l, l.length ≤ MAX_IO_DATA_SIZE →
    let response := (D.exec env (parseRequest socketDesc l)).1
    6 ≤ response.length ∧ responseStatus response = KSE_SUCCESS ∧
      unusedInputLen response ≤ l.length ∧
      response.length ≤ l.length - unusedInputLen response + 8
  write : ∀ env l, 0 < l.length → l.length ≤ MAX_IO_DATA_SIZE →
    let response := (D.exec env (writeRequest socketDesc l)).1
    4 ≤ response.length ∧ response.length ≤ MAX_IO_BUFFER_SIZE ∧
      responseStatus response = KSE_SUCCESS

variable {N}

theorem tlsRecv_frame (hN : NoTransportError N) (offset : Nat) (sDataBufferLen socketDesc : Int)
    (x : Kse (Frame δ)) :
    ∃ l w, l.length ≤ sizeT sDataBufferLen ∧ w.request = x.world.request ∧
      tlsRecv (frameWorld D N indeterminate) offset sDataBufferLen socketDesc x =
        (int16 l.length,
          { x with gabTxRxData := put x.gabTxRxData offset l, world := w
                   trace := x.trace ++ [.received l] }) := by
  obtain ⟨hrv, herror⟩ := hN.getsockopt x.world.env socketDesc
  have hread := hN.read (N.getsockopt x.world.env socketDesc).2.2 socketDesc
    (sizeT sDataBufferLen)
  rcases hcall : N.read (N.getsockopt x.world.env socketDesc).2.2 socketDesc
    (sizeT sDataBufferLen) with ⟨l, env⟩
  rw [hcall] at hread
  obtain ⟨l, rfl⟩ := Option.ne_none_iff_exists'.mp hread
  refine ⟨l.val, { x.world with env }, l.property, rfl, ?_⟩
  simp only [tlsRecv, frameWorld, if_neg hrv, herror, ne_eq, not_true, if_false, hcall]
  rfl

theorem tlsSend_frame (hN : NoTransportError N) (socketDesc : Int) (offset : Nat)
    (sDataBufferLen : Int) (x : Kse (Frame δ)) :
    ∃ sOutLen w, 0 ≤ sOutLen ∧ w.request = x.world.request ∧
      tlsSend (frameWorld D N indeterminate) socketDesc offset sDataBufferLen x =
        (sOutLen,
          { x with world := w
                   trace := x.trace ++ [.sent offset (sizeT sDataBufferLen)] }) := by
  obtain ⟨hrv, herror⟩ := hN.getsockopt x.world.env socketDesc
  rcases hcall : N.write (N.getsockopt x.world.env socketDesc).2.2 socketDesc
    (fun i => x.gabTxRxData (offset + i)) (sizeT sDataBufferLen) with ⟨k, env⟩
  obtain ⟨k', hk', hpos⟩ := hN.write (N.getsockopt x.world.env socketDesc).2.2 socketDesc
    (fun i => x.gabTxRxData (offset + i)) (sizeT sDataBufferLen)
  rw [hcall] at hk'
  obtain rfl : k = some k' := hk'
  refine ⟨int16 k'.val, { x.world with env }, hpos, rfl, ?_⟩
  simp only [tlsSend, frameWorld, if_neg hrv, herror, ne_eq, not_true, if_false, hcall]

/-! ### The two ends of the stream -/

/-- The input bytes that a parse command made the device consume. -/
def Exchange.consumed (e : Exchange) : List UInt8 :=
  if e.pbSendData 1 = 0x20 ∧ e.Accepted 6 then
    (e.request.drop 8).take ((e.request.drop 8).length - e.field 2)
  else []

/-- The input bytes consumed by the parse commands of a trace, in order. -/
def consumed : List Event → List UInt8
  | [] => []
  | .exchange e :: es => e.consumed ++ consumed es
  | .received _ :: es => consumed es
  | .sent _ _ :: es => consumed es
  | .copied _ _ :: es => consumed es

/-- The bytes received from the socket in a trace, in order. -/
def received : List Event → List UInt8
  | [] => []
  | .exchange _ :: es => received es
  | .received l :: es => l ++ received es
  | .sent _ _ :: es => received es
  | .copied _ _ :: es => received es

theorem consumed_append (es es' : List Event) :
    consumed (es ++ es') = consumed es ++ consumed es' := by
  induction es with
  | nil => rfl
  | cons ev es ih => cases ev <;> simp [consumed, ih]

theorem received_append (es es' : List Event) :
    received (es ++ es') = received es ++ received es' := by
  induction es with
  | nil => rfl
  | cons ev es ih => cases ev <;> simp [received, ih]

/-- From `x` to `y` no input byte was lost, duplicated or reordered: what the device consumed,
    followed by what is pending now, is what was pending then, followed by what was received. -/
def Intact (x y : Kse σ) : Prop :=
  ∃ es, y.trace = x.trace ++ es ∧ consumed es ++ y.pending = x.pending ++ received es

theorem Intact.refl (x : Kse σ) : Intact x x := ⟨[], by simp, by simp [consumed, received]⟩

theorem Intact.trans {x y z : Kse σ} (h : Intact x y) (h' : Intact y z) : Intact x z := by
  obtain ⟨es, hes, heq⟩ := h
  obtain ⟨es', hes', heq'⟩ := h'
  refine ⟨es ++ es', by rw [hes', hes, List.append_assoc], ?_⟩
  rw [consumed_append, received_append, List.append_assoc, heq', ← List.append_assoc, heq,
    List.append_assoc]

theorem Intact.of_trans {x y z : Kse σ} (h : Intact x y) (h' : Intact x z) {es : List Event}
    (hes : z.trace = y.trace ++ es) : Intact y z := by
  obtain ⟨es₀, hes₀, heq⟩ := h
  obtain ⟨es₁, hes₁, heq'⟩ := h'
  obtain rfl : es₁ = es₀ ++ es := by
    rw [hes₀, List.append_assoc, hes₁] at hes
    exact List.append_cancel_left hes
  refine ⟨es, hes, ?_⟩
  rw [consumed_append, received_append, ← List.append_assoc x.pending, ← heq,
    List.append_assoc, List.append_assoc] at heq'
  exact List.append_cancel_left heq'

/-! ### One read -/

/-- The record of a read is the pending input, or what the socket gave when there was none. -/
theorem receiveRecord_frame (hN : NoTransportError N) (offset : Nat) (socketDesc : Int)
    {x : Kse (Frame δ)} (hx : Ready x) :
    ∃ l w es, l.length ≤ MAX_IO_DATA_SIZE ∧ w.request = [] ∧
      x.pending ++ received es = l ∧ consumed es = [] ∧
      receiveRecord (frameWorld D N indeterminate) offset socketDesc x =
        (false, (l.length : Int),
          { x with gabTxRxData := put x.gabTxRxData offset l, world := w
                   trace := x.trace ++ es }) := by
  have hmax := hx.length
  unfold receiveRecord
  by_cases hempty : x.gusTxRxDataLength = 0
  · obtain ⟨l, w, hlen, hw, hrecv⟩ := tlsRecv_frame D indeterminate hN offset MAX_IO_DATA_SIZE
      socketDesc x
    rw [sizeT_of_nonneg (by simp) (by simp)] at hlen
    simp only [MAX_IO_DATA_SIZE, Int.toNat_natCast] at hlen
    have hword : int16 (l.length : Int) = l.length := int16_of_lt (by omega) (by omega)
    refine ⟨l, w, [.received l], by simpa using hlen, hw.trans hx.idle, ?_, rfl, ?_⟩
    · simp [Kse.pending, hempty, received]
    · rw [if_pos hempty, hrecv, hword]
      simp
  · have hword : int16 (x.gusTxRxDataLength : Int) = x.gusTxRxDataLength := by
      simp only [MAX_IO_DATA_SIZE] at hmax
      exact int16_of_lt (by omega) (by omega)
    refine ⟨x.pending, x.world, [], by simpa [Kse.pending] using hmax, hx.idle, ?_, rfl, ?_⟩
    · simp [received]
    · rw [if_neg hempty, hword, cpy_eq_blit, blit_eq_put]
      simp [Kse.pending]

theorem word_put (m : Bytes) {response : List UInt8} {offset : Nat}
    (h : offset + 1 < response.length) :
    word (put m 0 response offset) (put m 0 response (offset + 1)) =
      word (ofList response offset) (ofList response (offset + 1)) := by
  rw [put_in m (Nat.zero_le _) (by omega), put_in m (Nat.zero_le _) (by omega)]
  simp [ofList, h, show offset < response.length by omega]

theorem status_put (m : Bytes) {response : List UInt8} (h : 2 ≤ response.length) :
    status (put m 0 response) = responseStatus response := by
  rw [status, word_put m (by omega)]
  rfl

variable {socketDesc : Int}

/-- The count of a response leaves the driver ready. -/
theorem ready_next {x : Kse (Frame δ)} (hpower : x.gusKsePower = .on)
    (hdev : ∃ d, x.ghDev = some d) (hidle : x.world.request = []) {unused : Nat}
    (hunused : unused ≤ MAX_IO_DATA_SIZE) (sInLen : Int) (offset : Nat) :
    Ready (x.next sInLen offset unused) := by
  unfold Kse.next
  split
  · exact ⟨hpower, hdev, hidle, hunused⟩
  · exact ⟨hpower, hdev, hidle, Nat.zero_le _⟩

/-- An accepted response to the request for `l` consumes what it does not count as unused. -/
theorem Exchange.consumed_parseRequest {e : Exchange} {l : List UInt8}
    (hcmd : e.pbSendData 1 = 0x20) (hrequest : e.request = parseRequest socketDesc l)
    (haccepted : e.Accepted 6) : e.consumed = l.take (l.length - e.field 2) := by
  rw [Exchange.consumed, if_pos ⟨hcmd, haccepted⟩, hrequest, drop_parseRequest]

theorem slice_put_front (m : Bytes) (l l' : List UInt8) :
    slice (put m 0 (l ++ l')) l.length l'.length = l' := by
  have hdrop := drop_slice (put m 0 (l ++ l')) 0 (Nat.le_add_right l.length l'.length)
  rw [← List.length_append, slice_put_same, List.drop_left' rfl, Nat.zero_add, List.length_append,
    Nat.add_sub_cancel_left] at hdrop
  exact hdrop.symm

/-- The unused input is the end of `l`, where the request put it. -/
theorem slice_unused (m : Bytes) (l : List UInt8) {unused : Nat} (hunused : unused ≤ l.length) :
    slice (put m 8 l) (l.length + 8 - unused) unused = l.drop (l.length - unused) := by
  have hdrop := congrArg (List.drop (l.length - unused)) (slice_put_same m 8 l)
  rw [drop_slice _ _ (Nat.sub_le _ _), Nat.sub_sub_self hunused] at hdrop
  rw [← hdrop, Nat.add_comm, Nat.add_sub_assoc hunused]

/-- The device is given `l`, accepts it and answers with `response`, which ends before the input
    that it did not consume begins: that input is pending, and the message was copied. -/
structure RecordParsed (socketDesc : Int) (l response : List UInt8) (pbInAppData : Nat) (env : δ)
    (y z : Kse (Frame δ)) (e : Exchange) : Prop where
  trace : z.trace = y.trace ++ [.exchange e, .copied 6 (e.field 4)]
  request : e.request = parseRequest socketDesc l
  consumed : e.consumed = l.take (l.length - unusedInputLen response)
  messageLen : e.field 4 = word (ofList response 4) (ofList response 5)
  buffer : ∃ m, e.gabTxRxData = put m 0 response
  app : z.app = put y.app pbInAppData (slice e.gabTxRxData 6 (e.field 4))
  pending : z.pending = l.drop (l.length - unusedInputLen response)
  ready : Ready z
  length : z.gusTxRxDataLength = unusedInputLen response
  env : z.world.env = env

theorem Kse.next_length (x : Kse σ) (sInLen : Int) (offset usUnusedInputLen : Nat) :
    (x.next sInLen offset usUnusedInputLen).gusTxRxDataLength = usUnusedInputLen := by
  unfold Kse.next
  split
  · rfl
  · rename_i hnone
    show 0 = usUnusedInputLen
    omega

@[simp] theorem Kse.next_world (x : Kse σ) (sInLen : Int) (offset usUnusedInputLen : Nat) :
    (x.next sInLen offset usUnusedInputLen).world = x.world := by
  unfold Kse.next
  split <;> rfl

/-- `e` gives the device the input `l`, which lies behind the header in `m`, and the device
    accepts it with `response`. -/
structure ParseReplied (socketDesc : Int) (m : Bytes) (l response : List UInt8) (e : Exchange) :
    Prop where
  accepted : e.Accepted 6
  request : e.request = parseRequest socketDesc l
  pbSendData : e.pbSendData = put (put m 8 l) 0 (tlsHeader 0x20 socketDesc ++ bytes16 l.length)
  gabTxRxData : e.gabTxRxData = put e.pbSendData 0 response

namespace ParseReplied

variable {m : Bytes} {l response : List UInt8} {e : Exchange}

theorem field_eq (h : ParseReplied socketDesc m l response e) {offset : Nat}
    (hoffset : offset + 1 < response.length) :
    e.field offset = word (ofList response offset) (ofList response (offset + 1)) := by
  rw [Exchange.field, h.gabTxRxData, word_put _ hoffset]

theorem consumed_eq (h : ParseReplied socketDesc m l response e) (hsix : 6 ≤ response.length) :
    e.consumed = l.take (l.length - unusedInputLen response) := by
  have hcmd : e.pbSendData 1 = 0x20 := by
    rw [h.pbSendData, put_in _ (Nat.zero_le _) (by simp)]
    rfl
  rw [Exchange.consumed_parseRequest hcmd h.request h.accepted, h.field_eq (by omega)]
  rfl

/-- A response that ends before the unused input begins leaves it there. -/
theorem unused_eq (h : ParseReplied socketDesc m l response e)
    (hunused : unusedInputLen response ≤ l.length)
    (hshort : response.length ≤ l.length - unusedInputLen response + 8) :
    slice e.gabTxRxData (l.length + 8 - unusedInputLen response) (unusedInputLen response) =
      l.drop (l.length - unusedInputLen response) := by
  rw [h.gabTxRxData, slice_put_disjoint _ (Or.inr (by omega)), h.pbSendData,
    slice_put_disjoint _ (Or.inr (by simp; omega)), slice_unused m l hunused]

end ParseReplied

/-- The parse command to a device that executes it. -/
theorem parseReplied_frame (hfuel : 51 ≤ fuel) {y : Kse (Frame δ)} {m : Bytes} {l : List UInt8}
    (hm : y.gabTxRxData = put m 8 l) (hl : l.length ≤ MAX_IO_DATA_SIZE)
    (hdev : ∃ d, y.ghDev = some d) (hidle : y.world.request = []) {response : List UInt8} {env : δ}
    (hexec : D.exec y.world.env (parseRequest socketDesc l) = (response, env))
    (hsix : 6 ≤ response.length) (hstatus : responseStatus response = KSE_SUCCESS)
    (hmax : response.length ≤ MAX_IO_BUFFER_SIZE) {e : Exchange} {w : Frame δ}
    (hof : e.Of (frameWorld D N indeterminate) fuel w (uint16 ((l.length : Int) + 8))
      (y.store 0 (tlsHeader 0x20 socketDesc ++ bytes16 (uint16 l.length)))) :
    ParseReplied socketDesc m l response e ∧ w.request = [] ∧ w.env = env := by
  have hl' : l.length ≤ 2944 := hl
  have hlen : uint16 ((l.length : Int) + 8) = 8 + l.length := by
    simp only [uint16]
    omega
  rw [hlen, uint16_of_lt (by omega)] at hof
  have hgab : (y.store 0 (tlsHeader 0x20 socketDesc ++ bytes16 l.length)).gabTxRxData =
      put (put m 8 l) 0 (tlsHeader 0x20 socketDesc ++ bytes16 l.length) := by
    rw [Kse.store_gabTxRxData, hm]
  have hrequest : slice (y.store 0 (tlsHeader 0x20 socketDesc ++ bytes16 l.length)).gabTxRxData 0
      (8 + l.length) = parseRequest socketDesc l := by
    rw [hgab, slice_parseRequest]
  obtain ⟨hok, hsent, husLen, hresp, hw, henv⟩ := hof.frame D N indeterminate fuel hdev hidle hfuel
    hrequest (by omega) (by simp; omega) hexec hmax
  refine ⟨⟨⟨hok, ?_, by omega⟩, hsent, hof.pbSendData.trans hgab, ?_⟩, hw, henv⟩
  · rw [hresp, status_put _ (by omega), hstatus]
  · rw [hresp, hof.pbSendData]

theorem parseRecord_accepted (hfuel : 51 ≤ fuel) (pbInAppData : Nat)
    (psInAppDataLen : Option Int) {y : Kse (Frame δ)} {m : Bytes} {l : List UInt8}
    (hm : y.gabTxRxData = put m 8 l) (hl : l.length ≤ MAX_IO_DATA_SIZE)
    (hpower : y.gusKsePower = .on) (hdev : ∃ d, y.ghDev = some d)
    (hidle : y.world.request = []) {response : List UInt8} {env : δ}
    (hexec : D.exec y.world.env (parseRequest socketDesc l) = (response, env))
    (hsix : 6 ≤ response.length) (hstatus : responseStatus response = KSE_SUCCESS)
    (hunused : unusedInputLen response ≤ l.length)
    (hshort : response.length ≤ l.length - unusedInputLen response + 8) :
    ∃ e z, parseRecord (frameWorld D N indeterminate) fuel pbInAppData psInAppDataLen
        socketDesc l.length y = (some (int16 (e.field 4)), some (int16 (e.field 4)), z) ∧
      RecordParsed socketDesc l response pbInAppData env y z e := by
  obtain ⟨e, w, x, rfl, hof, hcase⟩ := parseRecord_cases (frameWorld D N indeterminate) fuel
    pbInAppData psInAppDataLen socketDesc l.length y
  have hl' : l.length ≤ 2944 := hl
  obtain ⟨hreplied, hw, henv⟩ := @parseReplied_frame δ D N indeterminate fuel socketDesc hfuel y m
    l hm hl hdev hidle response env hexec hsix hstatus (by simp; omega) e w hof
  have hfield : e.field 2 = unusedInputLen response := hreplied.field_eq (by omega)
  rcases hcase with ⟨hrejected, -⟩ | ⟨hrejected, -⟩ | ⟨-, hcall⟩
  · exact absurd hreplied.accepted hrejected
  · exact absurd hreplied.accepted hrejected
  · rw [hfield] at hcall
    refine ⟨e, _, hcall, ?_, hreplied.request, hreplied.consumed_eq hsix,
      hreplied.field_eq (by omega), ⟨_, hreplied.gabTxRxData⟩, ?_, ?_, ?_,
      Kse.next_length _ _ _ _, ?_⟩
    · simp [Kse.copyOut]
    · rw [Kse.next_app, Kse.copyOut, cpyFrom, blit_eq_put]
      rfl
    · rw [Kse.next_pending _ hunused (by omega)]
      exact hreplied.unused_eq hunused hshort
    · apply ready_next
      · exact hpower
      · exact hdev
      · exact hw
      · exact hunused.trans hl
    · rw [Kse.next_world]
      exact henv

theorem parseRecord_intact (hD : AcceptsAll D socketDesc) (hfuel : 51 ≤ fuel)
    (pbInAppData : Nat) (psInAppDataLen : Option Int) {y : Kse (Frame δ)} {m : Bytes}
    {l : List UInt8} (hm : y.gabTxRxData = put m 8 l) (hl : l.length ≤ MAX_IO_DATA_SIZE)
    (hpower : y.gusKsePower = .on) (hdev : ∃ d, y.ghDev = some d)
    (hidle : y.world.request = []) :
    ∃ z es, (parseRecord (frameWorld D N indeterminate) fuel pbInAppData psInAppDataLen
        socketDesc l.length y).2.2 = z ∧
      Ready z ∧ z.trace = y.trace ++ es ∧ consumed es ++ z.pending = l ∧ received es = [] := by
  obtain ⟨hsix, hstatus, hunused, hshort⟩ := hD.parse y.world.env l hl
  obtain ⟨e, z, hcall, hparsed⟩ := @parseRecord_accepted δ D N indeterminate fuel socketDesc hfuel
    pbInAppData psInAppDataLen y m l hm hl hpower hdev hidle _ _ rfl hsix hstatus hunused hshort
  refine ⟨z, _, by rw [hcall], hparsed.ready, hparsed.trace, ?_, rfl⟩
  simp only [MavlinkDim.consumed, hparsed.consumed, hparsed.pending, List.append_nil]
  exact List.take_append_drop _ _

/-- A read keeps the stream intact, whatever the chunk the socket gives. -/
theorem ksetlsTlsRead_intact (hN : NoTransportError N) (hD : AcceptsAll D socketDesc)
    (hfuel : 51 ≤ fuel) (pbInAppData : Nat) (psInAppDataLen : Option Int) {x : Kse (Frame δ)}
    (hx : Ready x) :
    ∃ z, (ksetlsTlsRead (frameWorld D N indeterminate) fuel pbInAppData psInAppDataLen
        socketDesc x).2.2 = z ∧ Ready z ∧ Intact x z := by
  simp only [ksetlsTlsRead, hx.power]
  rw [if_neg (by simp)]
  split
  · exact ⟨x, rfl, hx, Intact.refl x⟩
  · obtain ⟨l, w, es, hl, hw, hinput, hconsumed, hrecv⟩ :=
      receiveRecord_frame D indeterminate hN 8 socketDesc hx
    simp only [hrecv, Bool.false_eq_true, if_false]
    obtain ⟨z, es', hz, hready, htrace, hstream, hreceived⟩ :=
      @parseRecord_intact δ D N indeterminate fuel socketDesc hD hfuel pbInAppData psInAppDataLen
        { x with gabTxRxData := put x.gabTxRxData 8 l, world := w, trace := x.trace ++ es }
        _ _ rfl hl hx.power hx.dev hw
    refine ⟨z, hz, hready, es ++ es', by rw [htrace, List.append_assoc], ?_⟩
    rw [consumed_append, received_append, hconsumed, hreceived, List.append_nil, hinput,
      List.nil_append, hstream]

/-! ### One write -/

/-- `_ksetlsTlsWrite` goes past its input check. -/
def WriteAccepted (socketDesc : Int) (pbOutAppData : Nat) (sOutAppDataLen : Int) : Prop :=
  socketDesc ≠ INVALID_SOCKET ∧ pbOutAppData ≠ NULL_PTR ∧ 0 < sOutAppDataLen ∧
    sOutAppDataLen ≤ MAX_IO_DATA_SIZE

theorem sendRecord_frame (hN : NoTransportError N) (socketDesc : Int) (offset usRecordLen : Nat)
    (x : Kse (Frame δ)) :
    ∃ sOutLen w es, w.request = x.world.request ∧ consumed es = [] ∧ received es = [] ∧
      sendRecord (frameWorld D N indeterminate) socketDesc offset usRecordLen x =
        (false, sOutLen, { x with world := w, trace := x.trace ++ es }) := by
  unfold sendRecord
  split
  · obtain ⟨sOutLen, w, hpos, hw, hsend⟩ :=
      tlsSend_frame D indeterminate hN socketDesc offset (int16 usRecordLen) x
    rw [hsend]
    exact ⟨sOutLen, w, [.sent offset (sizeT (int16 usRecordLen))], hw, rfl, rfl,
      by simp [hpos]⟩
  · exact ⟨indeterminate x.world.env, x.world, [], rfl, rfl, rfl, by simp [frameWorld]⟩

/-- A write that goes past its input check drops the pending input. -/
theorem ksetlsTlsWrite_drops (hN : NoTransportError N) (hD : AcceptsAll D socketDesc)
    (hfuel : 51 ≤ fuel) {pbOutAppData : Nat} {sOutAppDataLen : Int} {x : Kse (Frame δ)}
    (hx : Ready x) (hargs : WriteAccepted socketDesc pbOutAppData sOutAppDataLen) :
    ∃ z es, (ksetlsTlsWrite (frameWorld D N indeterminate) fuel socketDesc pbOutAppData
        sOutAppDataLen x).2 = z ∧
      Ready z ∧ z.gusTxRxDataLength = 0 ∧ z.trace = x.trace ++ es ∧ consumed es = [] ∧
      received es = [] := by
  obtain ⟨hsock, hptr, hpos, hmax⟩ := hargs
  have hmax' : sOutAppDataLen ≤ 2944 := hmax
  obtain ⟨n, rfl⟩ := Int.eq_ofNat_of_zero_le (Int.le_of_lt hpos)
  simp only [ksetlsTlsWrite, hx.power]
  rw [if_neg (by simp), if_neg (by simp only [not_or]; exact ⟨hsock, hptr, by omega, by omega⟩)]
  have hword : uint16 ((n : Int) + 8) = 8 + n := by
    simp only [uint16]
    omega
  rw [uint16_of_lt (by omega), hword]
  generalize hy : x.store 0 (tlsHeader 0x21 socketDesc ++ bytes16 n ++
    x.arg pbOutAppData (n : Int).toNat) = y
  have hgab : y.gabTxRxData =
      put x.gabTxRxData 0 (writeRequest socketDesc (x.arg pbOutAppData n)) := by
    rw [← hy, Kse.store_gabTxRxData, writeRequest]
    simp [Kse.arg]
  have hrequest : slice y.gabTxRxData 0 (8 + n) =
      writeRequest socketDesc (x.arg pbOutAppData n) := by
    have hlen : (writeRequest socketDesc (x.arg pbOutAppData n)).length = 8 + n := by
      simp [writeRequest, Kse.arg]
      omega
    rw [hgab, ← hlen, slice_put_same]
  obtain ⟨hfour, hresp, hstatus⟩ := hD.write y.world.env (x.arg pbOutAppData n)
    (by simp [Kse.arg]; omega) (by simp [Kse.arg]; omega)
  rcases hexec : D.exec y.world.env (writeRequest socketDesc (x.arg pbOutAppData n)) with
    ⟨response, env⟩
  rw [hexec] at hfour hresp hstatus
  dsimp only at hfour hresp hstatus
  obtain ⟨e, w, hof, hcase⟩ := writeRecord_cases (frameWorld D N indeterminate) fuel socketDesc
    (8 + n) y
  obtain ⟨hok, -, husLen, hbuf, hw, -⟩ := hof.frame D N indeterminate fuel
    (by rw [← hy]; exact hx.dev) (by rw [← hy]; exact hx.idle) hfuel hrequest (by omega)
    (by simp; omega) hexec hresp
  have haccepted : e.Accepted 4 := by
    refine ⟨hok, ?_, by omega⟩
    rw [hbuf, status_put _ (by omega), hstatus]
  rcases hcase with ⟨hrejected, -⟩ | ⟨-, returned, sOutLen, z, hsend, hcall⟩
  · exact absurd haccepted hrejected
  · obtain ⟨sOutLen', w', es, hw', hconsumed, hreceived, hsend'⟩ :=
      sendRecord_frame D indeterminate hN socketDesc 4 (e.field 2) (y.exchanged e w)
    obtain ⟨rfl, -, rfl⟩ : false = returned ∧ sOutLen' = sOutLen ∧ _ = z := by
      simpa using hsend'.symm.trans hsend
    have hcmd : e.pbSendData 1 ≠ 0x20 := by
      rw [hof.pbSendData, hgab, put_in _ (Nat.zero_le _) (by simp [writeRequest]; omega)]
      exact (by decide : (0x21 : UInt8) ≠ 0x20)
    have hz := congrArg Prod.snd hcall
    simp only [Bool.false_eq_true, if_false] at hz
    refine ⟨_, [.exchange e] ++ es, hz, ?_, rfl, ?_, ?_, ?_⟩
    · exact ⟨by rw [← hy]; exact hx.power, by rw [← hy]; exact hx.dev, hw'.trans hw, by simp⟩
    · simp [← hy]
    · rw [consumed_append, hconsumed]
      simp [consumed, Exchange.consumed, hcmd]
    · rw [received_append, hreceived]
      rfl

/-! ### Runs -/

/-- A call of `_ksetlsTlsRead` or `_ksetlsTlsWrite` on the connection. -/
inductive StreamCall where
  | read (pbInAppData : Nat) (psInAppDataLen : Option Int)
  | write (pbOutAppData : Nat) (sOutAppDataLen : Int)

def StreamCall.Writes (socketDesc : Int) : StreamCall → Prop
  | .read _ _ => False
  | .write pbOutAppData sOutAppDataLen => WriteAccepted socketDesc pbOutAppData sOutAppDataLen

def StreamCall.run {σ : Type} (W : World σ) (fuel : Nat) (socketDesc : Int) (x : Kse σ) :
    StreamCall → Kse σ
  | .read pbInAppData psInAppDataLen =>
    (ksetlsTlsRead W fuel pbInAppData psInAppDataLen socketDesc x).2.2
  | .write pbOutAppData sOutAppDataLen =>
    (ksetlsTlsWrite W fuel socketDesc pbOutAppData sOutAppDataLen x).2

def runCalls {σ : Type} (W : World σ) (fuel : Nat) (socketDesc : Int) (x : Kse σ)
    (calls : List StreamCall) (k : Nat) : Kse σ :=
  (calls.take k).foldl (StreamCall.run W fuel socketDesc) x

theorem runCalls_succ {σ : Type} (W : World σ) (fuel : Nat) (socketDesc : Int) (x : Kse σ)
    {calls : List StreamCall} {k : Nat} {call : StreamCall} (h : calls[k]? = some call) :
    runCalls W fuel socketDesc x calls (k + 1) =
      call.run W fuel socketDesc (runCalls W fuel socketDesc x calls k) := by
  simp [runCalls, List.take_add_one, h]

/-- One call leaves the driver ready.  It keeps the stream intact unless it is a write that goes
    past its input check while input is pending. -/
theorem StreamCall.run_step (hN : NoTransportError N) (hD : AcceptsAll D socketDesc)
    (hfuel : 51 ≤ fuel) (call : StreamCall) {x : Kse (Frame δ)} (hx : Ready x) :
    Ready (call.run (frameWorld D N indeterminate) fuel socketDesc x) ∧
      (∃ es, (call.run (frameWorld D N indeterminate) fuel socketDesc x).trace = x.trace ++ es) ∧
      (Intact x (call.run (frameWorld D N indeterminate) fuel socketDesc x) ↔
        (call.Writes socketDesc → x.gusTxRxDataLength = 0)) := by
  cases call with
  | read pbInAppData psInAppDataLen =>
    obtain ⟨z, hz, hready, hintact⟩ := ksetlsTlsRead_intact D indeterminate fuel hN hD hfuel
      pbInAppData psInAppDataLen hx
    simp only [run, hz]
    obtain ⟨es, htrace, -⟩ := id hintact
    exact ⟨hready, ⟨es, htrace⟩, fun _ h => h.elim, fun _ => hintact⟩
  | write pbOutAppData sOutAppDataLen =>
    by_cases hargs : WriteAccepted socketDesc pbOutAppData sOutAppDataLen
    · obtain ⟨z, es, hz, hready, hempty, htrace, hconsumed, hreceived⟩ :=
        ksetlsTlsWrite_drops D indeterminate fuel hN hD hfuel hx hargs
      simp only [run, hz]
      refine ⟨hready, ⟨es, htrace⟩, ?_, ?_⟩
      · rintro ⟨es', htrace', hstream⟩ -
        obtain rfl : es = es' := List.append_cancel_left (htrace.symm.trans htrace')
        have hlen := congrArg List.length hstream
        simpa [Kse.pending, hempty, hconsumed, hreceived] using hlen.symm
      · intro h
        refine ⟨es, htrace, ?_⟩
        simp [Kse.pending, hempty, hconsumed, hreceived, h hargs]
    · have hrefused : (StreamCall.write pbOutAppData sOutAppDataLen).run
          (frameWorld D N indeterminate) fuel socketDesc x = x := by
        simp only [run, ksetlsTlsWrite, hx.power]
        rw [if_neg (by simp), if_pos]
        simp only [WriteAccepted] at hargs
        by_contra h
        simp only [not_or, not_le, gt_iff_lt, not_lt] at h
        exact hargs h
      rw [hrefused]
      exact ⟨hx, ⟨[], by simp⟩, fun _ h => absurd h hargs, fun _ => Intact.refl x⟩

theorem runCalls_ready (hN : NoTransportError N) (hD : AcceptsAll D socketDesc)
    (hfuel : 51 ≤ fuel) {x : Kse (Frame δ)} (hx : Ready x) (calls : List StreamCall) (k : Nat) :
    Ready (runCalls (frameWorld D N indeterminate) fuel socketDesc x calls k) := by
  simp only [runCalls]
  induction calls.take k generalizing x with
  | nil => exact hx
  | cons call calls ih =>
    exact ih (StreamCall.run_step D indeterminate fuel hN hD hfuel call hx).1

/-- **When the input stream is intact.**  In a run of any reads and writes on one connection, for
    every chunking of the socket's bytes and every device that accepts its commands and answers
    in the USB framing of `kseTransceive_frame`, nothing received is lost, duplicated or reordered
    up to any point of the run, exactly when every write that goes past its input check finds no
    input pending. -/
theorem stream_intact_iff (hN : NoTransportError N) (hD : AcceptsAll D socketDesc)
    (hfuel : 51 ≤ fuel) {x : Kse (Frame δ)} (hx : Ready x) (calls : List StreamCall) :
    (∀ k ≤ calls.length,
        Intact x (runCalls (frameWorld D N indeterminate) fuel socketDesc x calls k)) ↔
      ∀ k call, calls[k]? = some call → call.Writes socketDesc →
        (runCalls (frameWorld D N indeterminate) fuel socketDesc x calls k).gusTxRxDataLength =
          0 := by
  constructor
  · intro h k call hcall
    have hlt := (List.getElem?_eq_some_iff.mp hcall).1
    obtain ⟨-, ⟨es, hes⟩, hstep⟩ := StreamCall.run_step D indeterminate fuel hN hD hfuel call
      (runCalls_ready D indeterminate fuel hN hD hfuel hx calls k)
    have hnext := h (k + 1) hlt
    rw [runCalls_succ _ _ _ _ hcall] at hnext
    exact hstep.mp ((h k (Nat.le_of_lt hlt)).of_trans hnext hes)
  · intro h k
    induction k with
    | zero =>
      intro _
      exact Intact.refl x
    | succ k ih =>
      intro hlt
      have hcall : calls[k]? = some calls[k] := List.getElem?_eq_getElem hlt
      obtain ⟨-, -, hstep⟩ := StreamCall.run_step D indeterminate fuel hN hD hfuel calls[k]
        (runCalls_ready D indeterminate fuel hN hD hfuel hx calls k)
      rw [runCalls_succ _ _ _ _ hcall]
      exact (ih (Nat.le_of_lt hlt)).trans (hstep.mpr (h k _ hcall))

theorem responseStatus_zero (l : List UInt8) : responseStatus (0 :: 0 :: l) = KSE_SUCCESS := by
  simp [responseStatus, status, ofList, word, int16_zero]

/-- A device whose records are three bytes long and carry no message. -/
def threeByteRecords : Device Unit where
  exec _ request :=
    (if request[1]? = some 0x20 then
      [0, 0] ++ bytes16 (request.length - 8 - 3) ++ [0, 0] else [0, 0, 0, 0], ())
  fill _ := fun _ => 0
  behind _ := fun _ => 0

/-- A network that delivers two such records with every read. -/
def twoRecords : Net Unit where
  getsockopt _ _ := (0, 0, ())
  read _ _ count := (some ⟨[1, 2, 3, 4, 5, 6].take count, List.length_take_le _ _⟩, ())
  write _ _ _ _ := (some ⟨0, Nat.zero_le _⟩, ())

theorem noTransportError_twoRecords : NoTransportError twoRecords :=
  ⟨by simp [twoRecords], by simp [twoRecords], fun _ _ _ _ => ⟨_, rfl, by simp [int16_zero]⟩⟩

theorem acceptsAll_threeByteRecords : AcceptsAll threeByteRecords 3 := by
  constructor
  · intro _ l hl
    have hl' : l.length ≤ 2944 := hl
    have hrequest : (parseRequest 3 l).length - 8 - 3 = l.length - 3 := by
      simp [parseRequest]
      omega
    have hresponse : (threeByteRecords.exec () (parseRequest 3 l)).1 =
        [0, 0, hiByte (l.length - 3), loByte (l.length - 3), 0, 0] := by
      simp only [threeByteRecords, hrequest]
      rfl
    have hunused : unusedInputLen [0, 0, hiByte (l.length - 3), loByte (l.length - 3), 0, 0] =
        l.length - 3 := word_hiByte_loByte (by omega)
    simp only [hresponse, hunused, List.length_cons, List.length_nil]
    exact ⟨by omega, responseStatus_zero _, by omega, by omega⟩
  · intro _ l _ _
    have hresponse : (threeByteRecords.exec () (writeRequest 3 l)).1 = [0, 0, 0, 0] := by
      simp [threeByteRecords, writeRequest, tlsHeader]
    rw [hresponse]
    exact ⟨by decide, by decide, responseStatus_zero _⟩

/-- Two reads on a fresh connection. -/
theorem stream_intact_two_reads :
    let W := frameWorld threeByteRecords twoRecords fun _ => 0
    let x := poweredOn (fun _ => 0) (Frame.idle ())
    let calls : List StreamCall := [.read 1 (some 0), .read 1 (some 0)]
    (∀ k ≤ calls.length, Intact x (runCalls W 51 3 x calls k)) ↔
      ∀ k call, calls[k]? = some call → call.Writes 3 →
        (runCalls W 51 3 x calls k).gusTxRxDataLength = 0 :=
  stream_intact_iff threeByteRecords (fun _ => 0) 51 noTransportError_twoRecords
    acceptsAll_threeByteRecords (Nat.le_refl 51)
    ⟨rfl, ⟨0, rfl⟩, rfl, Nat.zero_le _⟩ _

/-- A write between two reads: the second record was received and is never consumed. -/
theorem stream_intact_lost :
    let W := frameWorld threeByteRecords twoRecords fun _ => 0
    let x := poweredOn (fun _ => 0) (Frame.idle ())
    let y := runCalls W 1 3 x [.read 1 (some 0), .write 1 1] 2
    received y.trace = [1, 2, 3, 4, 5, 6] ∧ consumed y.trace = [1, 2, 3] ∧ y.pending = [] ∧
      ¬Intact x y := by
  intro W x y
  have hreceived : received y.trace = [1, 2, 3, 4, 5, 6] := by decide +kernel
  have hconsumed : consumed y.trace = [1, 2, 3] := by decide +kernel
  have hpending : y.pending = [] := by decide +kernel
  refine ⟨hreceived, hconsumed, hpending, ?_⟩
  rintro ⟨es, hes, hstream⟩
  obtain rfl : y.trace = es := hes
  rw [hreceived, hconsumed, hpending] at hstream
  exact absurd hstream (by decide)

end MavlinkDim
