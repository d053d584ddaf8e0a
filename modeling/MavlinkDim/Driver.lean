import MavlinkDim.ReceivePhase

/-!
# The state of the driver

The globals of `kse_ubuntu.c`, the world the driver acts on (the device behind
libusb and the sockets), and the three functions through which every command
reaches it: `_kseTransceive` on the shared buffer, `_tlsRecv` and `_tlsSend`.

A function of the driver returns its code as `some sRv`, or `none` when a call of
`_kseTransceive` in it has not returned within the fuel.  The memory of the
application is one flat memory, a `uint8_t *` of the interface an address in it.
`trace` records what passed between the driver and the world; no function reads it.
-/

namespace MavlinkDim

open ByteMemory SlotTiling

inductive KsePower where
  | off
  | on
deriving DecidableEq, Repr

/-- The socket calls.  A count that is `none` is the return value `-1`; the kernel never
    transfers more than it was asked for. -/
structure Net (σ : Type) where
  getsockopt : σ → Int → Int × Int × σ
  read : σ → Int → (count : Nat) → Option { l : List UInt8 // l.length ≤ count } × σ
  write : σ → Int → Bytes → (count : Nat) → Option { k : Nat // k ≤ count } × σ

/-- What the driver runs on.  `indeterminate` is what a local `int16_t` holds that was never
    assigned. -/
structure World (σ : Type) extends Usb σ, Net σ where
  indeterminate : σ → Int

/-- One call of `_kseTransceive`: the buffer before it and the length of the request, the
    return code, and what it left in `*pusRecvLen` and in the buffer. -/
structure Exchange where
  pbSendData : Bytes
  usSendLen : Nat
  sRv : Option Int
  usLen : Nat
  gabTxRxData : Bytes
  blocks : List Block

def Exchange.request (e : Exchange) : List UInt8 := slice e.pbSendData 0 e.usSendLen

/-- What passes between the driver and the world: an exchange with the device, bytes read
    from the socket, bytes of the shared buffer handed to `_tlsSend`, and bytes of the shared
    buffer copied to the application. -/
inductive Event where
  | exchange (e : Exchange)
  | received (l : List UInt8)
  | sent (offset count : Nat)
  | copied (offset count : Nat)

theorem forall_exchange_cons {P : Exchange → Prop} {e : Exchange} {es : List Event} :
    (∀ e', .exchange e' ∈ .exchange e :: es → P e') ↔ P e ∧ ∀ e', .exchange e' ∈ es → P e' := by
  simp [or_imp, forall_and]

def exchanges (es : List Event) : List Exchange :=
  es.filterMap fun
    | .exchange e => some e
    | _ => none

theorem exchanges_append (es es' : List Event) :
    exchanges (es ++ es') = exchanges es ++ exchanges es' := List.filterMap_append

/-- The requests of the exchanges of a trace. -/
def requests (es : List Event) : List (List UInt8) :=
  es.filterMap fun
    | .exchange e => some e.request
    | _ => none

theorem requests_append (es es' : List Event) :
    requests (es ++ es') = requests es ++ requests es' := List.filterMap_append

/-- The globals of the driver, the memory of the application, and the world.  What is copied past
    the 3072 bytes of the array stays apart from the other globals here, so what is shown of
    those holds as long as no block leaves the array. -/
structure Kse (σ : Type) where
  ghDev : Option Nat
  gusKsePower : KsePower
  gabTxRxData : Bytes
  gusTxRxDataOffset : Nat
  gusTxRxDataLength : Nat
  app : Bytes
  world : σ
  trace : List Event

variable {σ : Type}

/-- `(int16_t)(((uint16_t)gabTxRxData[0] << 8) | ((uint16_t)gabTxRxData[1]))` -/
def status (gabTxRxData : Bytes) : Int := int16 (word (gabTxRxData 0) (gabTxRxData 1))

namespace Kse

def store (x : Kse σ) (offset : Nat) (l : List UInt8) : Kse σ :=
  { x with gabTxRxData := put x.gabTxRxData offset l }

/-- `_cpy(pb, gabTxRxData + offset, n)` -/
def copyOut (x : Kse σ) (pb offset n : Nat) : Kse σ :=
  { x with app := cpyFrom x.app pb x.gabTxRxData offset n
           trace := x.trace ++ [.copied offset n] }

def exchanged (x : Kse σ) (e : Exchange) (w : σ) : Kse σ :=
  { x with gabTxRxData := e.gabTxRxData, world := w, trace := x.trace ++ [.exchange e] }

theorem copyOut_app (x : Kse σ) (pb offset n : Nat) :
    (x.copyOut pb offset n).app = put x.app pb (slice x.gabTxRxData offset n) :=
  blit_eq_put x.app x.gabTxRxData pb offset n

@[simp] theorem store_gabTxRxData (x : Kse σ) (offset : Nat) (l : List UInt8) :
    (x.store offset l).gabTxRxData = put x.gabTxRxData offset l := rfl

@[simp] theorem store_trace (x : Kse σ) (offset : Nat) (l : List UInt8) :
    (x.store offset l).trace = x.trace := rfl

@[simp] theorem exchanged_gabTxRxData (x : Kse σ) (e : Exchange) (w : σ) :
    (x.exchanged e w).gabTxRxData = e.gabTxRxData := rfl

@[simp] theorem exchanged_trace (x : Kse σ) (e : Exchange) (w : σ) :
    (x.exchanged e w).trace = x.trace ++ [.exchange e] := rfl

def arg (x : Kse σ) (pb n : Nat) : List UInt8 := slice x.app pb n

/-- The input that the device has not consumed yet. -/
def pending (x : Kse σ) : List UInt8 :=
  slice x.gabTxRxData x.gusTxRxDataOffset x.gusTxRxDataLength

end Kse

variable (W : World σ) (fuel : Nat)

/-- `_kseTransceive(gabTxRxData, &usLen, gabTxRxData, usSendLen)` -/
def transceive (usSendLen : Nat) (x : Kse σ) : Option Int × Nat × Kse σ :=
  let r := kseTransceive W.toUsb fuel x.ghDev x.gabTxRxData 0 0 usSendLen x.world
  (r.sRv, r.usRecvLen,
    x.exchanged ⟨x.gabTxRxData, usSendLen, r.sRv, r.usRecvLen, r.mem, r.blocks⟩ r.usb)

/-- `_tlsRecv(gabTxRxData + offset, sDataBufferLen, socketDesc)` -/
def tlsRecv (offset : Nat) (sDataBufferLen : Int) (socketDesc : Int) (x : Kse σ) : Int × Kse σ :=
  let (iRv, error, s) := W.getsockopt x.world socketDesc
  if iRv = -1 then (-1, { x with world := s })
  else if error ≠ 0 then (-1, { x with world := s })
  else
    match W.read s socketDesc (sizeT sDataBufferLen) with
    | (none, s) => (-1, { x with world := s })
    | (some l, s) =>
      (int16 l.val.length,
        { x.store offset l.val with world := s, trace := x.trace ++ [.received l.val] })

/-- `_tlsSend(socketDesc, gabTxRxData + offset, sDataBufferLen)` -/
def tlsSend (socketDesc : Int) (offset : Nat) (sDataBufferLen : Int) (x : Kse σ) : Int × Kse σ :=
  let x := { x with trace := x.trace ++ [Event.sent offset (sizeT sDataBufferLen)] }
  let (iRv, error, s) := W.getsockopt x.world socketDesc
  if iRv = -1 then (-1, { x with world := s })
  else if error ≠ 0 then (-1, { x with world := s })
  else
    match W.write s socketDesc (fun i => x.gabTxRxData (offset + i)) (sizeT sDataBufferLen) with
    | (none, s) => (-1, { x with world := s })
    | (some k, s) => (int16 k.val, { x with world := s })

/-! ### A scripted world -/

/-- The reports the device will send, the reads the socket will answer, and what was
    written to it. -/
structure Script where
  reports : List Report
  input : List (List UInt8)
  output : List (List UInt8)

/-- A world that takes everything and answers from a script; a socket with nothing left to
    read is at its end. -/
def scriptedWorld : World Script where
  bulkOut s _ := (⟨0, REPORT_SIZE⟩, s)
  bulkIn s :=
    match s.reports with
    | [] => (⟨-1, 0⟩, Report.ofList [], s)
    | r :: reports => (⟨0, REPORT_SIZE⟩, r, { s with reports })
  behind _ := fun _ => 0
  getsockopt s _ := (0, 0, s)
  read s _ count := (some ⟨(s.input.headD []).take count, List.length_take_le _ _⟩,
    { s with input := s.input.tail })
  write s _ data count := (some ⟨count, Nat.le_refl _⟩,
    { s with output := s.output ++ [slice data 0 count] })
  indeterminate _ := 0

def poweredOn {σ : Type} (app : Bytes) (world : σ) : Kse σ :=
  ⟨some 0, .on, fun _ => 0, 0, 0, app, world, []⟩

/-! ### What the three functions do -/

/-- `e` is the call of `_kseTransceive` on the shared buffer of `x`, and `w` the world it leaves. -/
structure Exchange.Of (e : Exchange) (w : σ) (usSendLen : Nat) (x : Kse σ) : Prop where
  call : transceive W fuel usSendLen x = (e.sRv, e.usLen, x.exchanged e w)
  pbSendData : e.pbSendData = x.gabTxRxData
  usSendLen : e.usSendLen = usSendLen
  usLen_eq : e.sRv = some KSE_SUCCESS → e.usLen = total Block.usLen e.blocks
  sRv_le : ∀ sRv, e.sRv = some sRv → sRv ≤ 0
  copied : Copied x.gabTxRxData 0 e.gabTxRxData e.blocks

theorem exists_exchange (usSendLen : Nat) (x : Kse σ) :
    ∃ e w, Exchange.Of W fuel e w usSendLen x := by
  have hrecv := @kseTransceive_received σ W.toUsb x.gabTxRxData 0 fuel x.ghDev 0 usSendLen
    x.world _ rfl
  refine ⟨⟨x.gabTxRxData, usSendLen, _, _, _, _⟩, _, rfl, rfl, rfl, fun hok => ?_,
    hrecv.code_le, hrecv.copied⟩
  rcases hrecv.recvLen with hlen | ⟨-, hover⟩
  · exact hlen
  · have := hover.symm.trans hok
    simp at this

theorem Exchange.Of.usLen_le {W : World σ} {fuel : Nat} {e : Exchange} {w : σ} {usSendLen : Nat}
    {x : Kse σ} (h : e.Of W fuel w usSendLen x) (hok : e.sRv = some KSE_SUCCESS) :
    e.usLen ≤ MAX_IO_BUFFER_SIZE :=
  le_of_eq_of_le (h.usLen_eq hok) h.copied.fits

theorem Exchange.Of.request_eq {W : World σ} {fuel : Nat} {e : Exchange} {w : σ} {x : Kse σ}
    {request : List UInt8} (h : e.Of W fuel w request.length (x.store 0 request)) :
    e.request = request := by
  rw [Exchange.request, h.pbSendData, h.usSendLen, Kse.store_gabTxRxData, slice_put_same]

theorem Exchange.Of.unique {e e' : Exchange} {w w' : σ} {usSendLen : Nat} {x : Kse σ}
    (h : e.Of W fuel w usSendLen x) (h' : e'.Of W fuel w' usSendLen x) : e = e' ∧ w = w' := by
  have heq := congrArg (fun r => (r.2.2.trace, r.2.2.world)) (h.call.symm.trans h'.call)
  simp only [Kse.exchanged, Prod.mk.injEq, List.append_cancel_left_eq, List.cons.injEq,
    Event.exchange.injEq, and_true] at heq
  exact heq

/-! ### The bytes of a response -/

/-- Byte `i` of the shared buffer is a payload byte of a report of this response. -/
def Exchange.FromResponse (e : Exchange) (i : Nat) : Prop :=
  Transceived.FromResponse 0 ⟨e.sRv, e.usLen, e.gabTxRxData, (), e.blocks⟩ i

/-- Every byte of the range is. -/
def Exchange.Gives (e : Exchange) (offset count : Nat) : Prop :=
  ∀ i, offset ≤ i → i < offset + count → e.FromResponse i

/-- Of the blocks that reach a byte of the range by their sequence numbers and lengths, the last
    one has the number of the slot that the byte lies in. -/
def Exchange.Covers (e : Exchange) (offset count : Nat) : Prop :=
  ∀ i, offset ≤ i → i < offset + count → Fresh Block.seq Block.len 60 e.blocks i

theorem Exchange.gives_iff {m : Bytes} {e : Exchange} (h : Copied m 0 e.gabTxRxData e.blocks)
    (offset count : Nat) : e.Gives offset count ↔ e.Covers offset count := by
  have hbyte : ∀ i, e.FromResponse i ↔ Fresh Block.seq Block.len 60 e.blocks i := by
    intro i
    have hcopied : Copied m 0 (⟨e.sRv, e.usLen, e.gabTxRxData, (), e.blocks⟩ :
      Transceived Unit).mem e.blocks := h
    rw [FromResponse, hcopied.fromResponse_iff]
    constructor
    · exact Fresh.congr h.seq h.len
    · exact Fresh.congr (fun b hb => (h.seq b hb).symm) fun b hb => (h.len b hb).symm
  simp only [Gives, Covers, hbyte]

/-- Where the blocks tile the response they cover all of it. -/
theorem Exchange.Of.covers_of_tiled {W : World σ} {fuel : Nat} {e : Exchange} {w : σ}
    {usSendLen : Nat} {x : Kse σ} (h : e.Of W fuel w usSendLen x)
    (hok : e.sRv = some KSE_SUCCESS) (htiled : Tiled Block.seq Block.len 60 e.blocks)
    {offset count : Nat} (hle : offset + count ≤ e.usLen) : e.Covers offset count := by
  have hlen : e.usLen = total Block.len e.blocks :=
    (h.usLen_eq hok).trans (congrArg List.sum (List.map_congr_left h.copied.len))
  intro i _ hi
  exact fresh_of_tiled (by omega) htiled i (by omega)

/-- `_tlsRecv` fails and stores nothing, or stores at most what it was asked for. -/
theorem tlsRecv_cases (offset : Nat) (sDataBufferLen socketDesc : Int) (x : Kse σ) :
    (∃ w, tlsRecv W offset sDataBufferLen socketDesc x = (-1, { x with world := w })) ∨
    ∃ l w, l.length ≤ sizeT sDataBufferLen ∧ tlsRecv W offset sDataBufferLen socketDesc x =
      (int16 l.length,
        { x with gabTxRxData := put x.gabTxRxData offset l, world := w
                 trace := x.trace ++ [.received l] }) := by
  simp only [tlsRecv]
  split
  · exact Or.inl ⟨_, rfl⟩
  · split
    · exact Or.inl ⟨_, rfl⟩
    · split
      · exact Or.inl ⟨_, rfl⟩
      · rename_i l w _
        exact Or.inr ⟨l.val, w, l.property, rfl⟩

theorem tlsSend_eq (socketDesc : Int) (offset : Nat) (sDataBufferLen : Int) (x : Kse σ) :
    ∃ sOutLen w, tlsSend W socketDesc offset sDataBufferLen x =
      (sOutLen,
        { x with world := w, trace := x.trace ++ [.sent offset (sizeT sDataBufferLen)] }) := by
  simp only [tlsSend]
  split
  · exact ⟨_, _, rfl⟩
  · split
    · exact ⟨_, _, rfl⟩
    · split <;> exact ⟨_, _, rfl⟩

end MavlinkDim
