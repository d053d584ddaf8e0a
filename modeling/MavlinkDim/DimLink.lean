import MavlinkDim.DimRecv
import MavlinkDim.RecordLayer
import MavlinkDim.RecordRelocation

/-!
# Two sockets and their connection

A `DimSocket` at each end of a connection, each over its own driver and device.
`link_in_order` says for any interleaving of `send` and `recv` at the two ends,
and of what the connection delivers when, that each end reads what the other end
wrote.
-/

namespace MavlinkDim

open ByteMemory RecordLayer

variable {δ : Type}

/-! ### One end -/

/-- What the driver of one end runs on: its device, the bytes that have come to it and those that
    are on their way from it, and what `poll`, `read` and `write` will do.  A read gives at most
    `chunk` bytes, and a write leaves out the last `cut`. -/
structure Endpoint (δ : Type) where
  device : δ
  incoming : List UInt8
  outgoing : List UInt8
  polled : Int × Bool
  chunk : Nat
  cut : Nat

def endpointDevice (D : Device δ) : Device (Endpoint δ) where
  exec env request :=
    let (response, device) := D.exec env.device request
    (response, { env with device })
  fill env := D.fill env.device
  behind env := D.behind env.device

def endpointNet : Net (Endpoint δ) where
  getsockopt env _ := (0, 0, env)
  read env _ count :=
    (some ⟨env.incoming.take (min env.chunk count),
        (List.length_take_le _ _).trans (Nat.min_le_right _ _)⟩,
      { env with incoming := env.incoming.drop (min env.chunk count) })
  write env _ data count :=
    (some ⟨count - env.cut, Nat.sub_le _ _⟩,
      { env with outgoing := env.outgoing ++ slice data 0 (count - env.cut) })

variable (D : Device δ) (indeterminate : Endpoint δ → Int)

abbrev endpointWorld : World (Frame (Endpoint δ)) :=
  frameWorld (endpointDevice D) endpointNet indeterminate

def endpointHost : Host (Frame (Endpoint δ)) where
  toWorld := endpointWorld D indeterminate
  accept f _ := (-1, f)
  socket f := (-1, f)
  connect f _ := (-1, f)
  close f _ := (0, f)
  poll f fd := (f.env.polled.1, ⟨f.env.polled.2 && decide (0 ≤ fd), by simp⟩, f)

/-- An accepted response to a write command, with the record of the message. -/
def writeReply (record : List UInt8) : List UInt8 :=
  [0x00, 0x00] ++ bytes16 record.length ++ record

theorem length_writeReply (record : List UInt8) :
    (writeReply record).length = 4 + record.length := by
  simp only [writeReply, List.length_append, length_bytes16, List.length_cons, List.length_nil]

variable {D} {fuel : Nat} {socketDesc : Int} {x : Kse (Frame (Endpoint δ))}

theorem endpointDevice_exec {env : Endpoint δ} {request response : List UInt8} {d : δ}
    (h : D.exec env.device request = (response, d)) :
    (endpointDevice D).exec env request = (response, { env with device := d }) := by
  simp only [endpointDevice, h]

theorem sendRecord_endpoint {record : List UInt8} (hne : record ≠ [])
    (hmax : record.length < 32768) (hrecord : slice x.gabTxRxData 4 record.length = record)
    (hcut : x.world.env.cut = 0) :
    sendRecord (endpointWorld D indeterminate) socketDesc 4 record.length x =
      (false, (record.length : Int), { x with
        world := { x.world with
          env := { x.world.env with outgoing := x.world.env.outgoing ++ record } }
        trace := x.trace ++ [.sent 4 record.length] }) := by
  have hpos : record.length > 0 := List.length_pos_of_ne_nil hne
  have hword : int16 (record.length : Int) = record.length := int16_of_lt (by omega) (by omega)
  have hsize : sizeT (record.length : Int) = record.length :=
    sizeT_of_nonneg (by omega) (by omega)
  have hslice : slice (fun i => x.gabTxRxData (4 + i)) 0 record.length = record := by
    rw [← hrecord, length_slice]
    apply slice_congr
    intro i _
    rw [Nat.zero_add]
  rw [sendRecord, if_pos hpos, hword]
  simp only [tlsSend, endpointWorld, frameWorld, endpointNet, hsize, hcut, Nat.sub_zero, hslice]
  simp [hword]

/-- An accepted write puts the record that the device makes on the connection. -/
theorem ksetlsTlsWrite_endpoint (hfuel : 51 ≤ fuel) (hx : Ready x) {pbOutAppData n : Nat}
    (hargs : WriteAccepted socketDesc pbOutAppData n) {record : List UInt8} {d : δ}
    (hexec : D.exec x.world.env.device (writeRequest socketDesc (x.arg pbOutAppData n)) =
      (writeReply record, d))
    (hne : record ≠ []) (hmax : (writeReply record).length ≤ MAX_IO_BUFFER_SIZE)
    (hcut : x.world.env.cut = 0) :
    ∃ z, ksetlsTlsWrite (endpointWorld D indeterminate) fuel socketDesc pbOutAppData n x =
        (some (record.length : Int), z) ∧
      Ready z ∧ z.gusTxRxDataLength = 0 ∧ z.app = x.app ∧
      z.world.env =
        { x.world.env with device := d, outgoing := x.world.env.outgoing ++ record } := by
  obtain ⟨hsock, hptr, hpos, hn⟩ := hargs
  have hn' : (n : Int) ≤ 2944 := hn
  have hlen := length_writeReply record
  have hmax' : 4 + record.length ≤ 3072 := by
    rw [← hlen]
    exact hmax
  have hword : uint16 ((n : Int) + 8) = 8 + n := by
    simp only [uint16]
    omega
  simp only [ksetlsTlsWrite, hx.power]
  rw [if_neg (by simp), if_neg (by simp only [not_or]; exact ⟨hsock, hptr, by omega, by omega⟩),
    uint16_of_lt (by omega), hword]
  generalize hy : x.store 0 (tlsHeader 0x21 socketDesc ++ bytes16 n ++
    x.arg pbOutAppData (n : Int).toNat) = y
  have hrequest : slice y.gabTxRxData 0 (8 + n) =
      writeRequest socketDesc (x.arg pbOutAppData n) := by
    have hlength : (writeRequest socketDesc (x.arg pbOutAppData n)).length = 8 + n := by
      simp [writeRequest, Kse.arg]
      omega
    have hgab : y.gabTxRxData =
        put x.gabTxRxData 0 (writeRequest socketDesc (x.arg pbOutAppData n)) := by
      rw [← hy, Kse.store_gabTxRxData, writeRequest]
      simp [Kse.arg]
    rw [hgab, ← hlength, slice_put_same]
  have hworld : y.world = x.world := by
    rw [← hy]
    rfl
  obtain ⟨e, w, hof, hcase⟩ := writeRecord_cases (endpointWorld D indeterminate) fuel socketDesc
    (8 + n) y
  obtain ⟨hok, -, husLen, hbuf, hw, henv⟩ := hof.frame _ _ _ _ (by rw [← hy]; exact hx.dev)
    (by rw [hworld]; exact hx.idle) hfuel hrequest (by omega) (by simp; omega)
    (by rw [hworld]; exact endpointDevice_exec hexec) hmax
  have hfield : e.field 2 = record.length := by
    rw [Exchange.field, hbuf, word_put _ (by omega)]
    exact word_hiByte_loByte (by omega)
  have haccepted : e.Accepted 4 := by
    refine ⟨hok, ?_, by omega⟩
    rw [hbuf, status_put _ (by omega)]
    exact responseStatus_zero _
  rcases hcase with ⟨hrejected, -⟩ | ⟨-, returned, sOutLen, z, hsend, hcall⟩
  · exact absurd haccepted hrejected
  · have hrecord : slice (y.exchanged e w).gabTxRxData 4 record.length = record := by
      rw [Kse.exchanged_gabTxRxData, hbuf]
      exact slice_put_front _ ([0x00, 0x00] ++ bytes16 record.length) record
    have hcut' : (y.exchanged e w).world.env.cut = 0 := by
      show w.env.cut = 0
      rw [henv]
      exact hcut
    rw [hfield, sendRecord_endpoint indeterminate hne (by omega) hrecord hcut'] at hsend
    obtain ⟨rfl, rfl, rfl⟩ : false = returned ∧ (record.length : Int) = sOutLen ∧ _ = z := by
      simpa using hsend
    rw [if_neg (by simp)] at hcall
    refine ⟨_, hcall, ?_, rfl, ?_, ?_⟩
    · exact ⟨by rw [← hy]; exact hx.power, by rw [← hy]; exact hx.dev, hw, Nat.zero_le _⟩
    · rw [← hy]
      rfl
    · show { w.env with outgoing := w.env.outgoing ++ record } = _
      rw [henv]

/-- The input of a read is a part of what waits at this end. -/
theorem readInput_endpoint (socketDesc : Int) (x : Kse (Frame (Endpoint δ))) :
    ∃ l incoming, ReadInput endpointNet socketDesc x l { x.world.env with incoming } ∧
      l ++ incoming = x.pending ++ x.world.env.incoming := by
  by_cases hempty : x.gusTxRxDataLength = 0
  · have hnone : x.pending = [] := by rw [Kse.pending, hempty, slice_zero]
    refine ⟨_, _, @ReadInput.fresh _ endpointNet socketDesc x 0 _ _ _ hempty rfl (by decide) rfl,
      ?_⟩
    rw [hnone]
    exact List.take_append_drop _ _
  · exact ⟨x.pending, x.world.env.incoming, .pending hempty, rfl⟩

/-! ### The devices -/

/-- A device at one end, with what it has made records of and what it has taken of the stream
    that comes to it, and the socket of the session. -/
structure LinkEnd (δ : Type) where
  device : Device δ
  socketDesc : Int
  sealed : δ → List (List UInt8)
  taken : δ → List UInt8

/-- The device makes a record of each message.  Of a genuine stream it takes what it is given up
    to some point, and answers with the data that can be opened then and could not before; these
    are at most two bytes more than it took, so that the response ends before the unused input
    begins. -/
structure LinkEnd.Conforms (E : LinkEnd δ) (out inp : Format UInt8) : Prop where
  socket : 0 ≤ E.socketDesc
  write : ∀ d m, m ≠ [] → m.length ≤ MAX_IO_DATA_SIZE →
    let record := out.record (E.sealed d).length m
    record ≠ [] ∧ (writeReply record).length ≤ MAX_IO_BUFFER_SIZE ∧ ∃ d',
      E.device.exec d (writeRequest E.socketDesc m) = (writeReply record, d') ∧
        E.sealed d' = E.sealed d ++ [m] ∧ E.taken d' = E.taken d
  parse : ∀ d l messages, l.length ≤ MAX_IO_DATA_SIZE →
    E.taken d ++ l <+: stream inp.record messages → ∃ unused data d',
      E.device.exec d (parseRequest E.socketDesc l) = (parseReply unused data, d') ∧
        unused ≤ l.length ∧ data.length ≤ l.length - unused + 2 ∧ E.sealed d' = E.sealed d ∧
        E.taken d' = E.taken d ++ l.take (l.length - unused) ∧
        inp.opened (E.taken d') = inp.opened (E.taken d) ++ data

/-! ### One call -/

/-- The socket is connected and no call is running. -/
structure Dim.Up (E : LinkEnd δ) (x : Dim (Frame (Endpoint δ))) : Prop where
  connected : x.connectionStatus = .connected
  onRead : x.onRead = false
  onWrite : x.onWrite = false
  fd : x.fd = E.socketDesc
  pollFd : x.pollFd = E.socketDesc
  ready : Ready x.kse

def Dim.env (x : Dim (Frame (Endpoint δ))) : Endpoint δ := x.kse.world.env

/-- What has come to this end and was not given to the device. -/
def Dim.waiting (x : Dim (Frame (Endpoint δ))) : List UInt8 := x.kse.pending ++ x.env.incoming

theorem ksetlsTlsWrite_refused {σ : Type} (W : World σ) (fuel : Nat) {x : Kse σ}
    {socketDesc : Int} {pbOutAppData : Nat} {sOutAppDataLen : Int} (hpower : x.gusKsePower = .on)
    (h : ¬WriteAccepted socketDesc pbOutAppData sOutAppDataLen) :
    ksetlsTlsWrite W fuel socketDesc pbOutAppData sOutAppDataLen x =
      (some KSE_FAIL_WRONG_INPUT, x) := by
  rw [ksetlsTlsWrite, if_neg (not_not.mpr hpower), if_pos]
  by_contra hright
  simp only [not_or, not_le, gt_iff_lt, not_lt] at hright
  exact h hright

theorem ksetlsTlsRead_refused {σ : Type} (W : World σ) (fuel : Nat) {x : Kse σ}
    {socketDesc : Int} {pbInAppData : Nat} {psInAppDataLen : Option Int}
    (hpower : x.gusKsePower = .on)
    (h : ¬(ReadAccepted socketDesc pbInAppData ∧ psInAppDataLen ≠ none)) :
    ksetlsTlsRead W fuel pbInAppData psInAppDataLen socketDesc x =
      (some KSE_FAIL_WRONG_INPUT, psInAppDataLen, x) := by
  rw [ksetlsTlsRead, if_neg (not_not.mpr hpower), if_pos]
  by_contra hright
  simp only [not_or] at hright
  exact h ⟨⟨hright.1, hright.2.2⟩, hright.2.1⟩

namespace Dim

theorem send_of_write {σ : Type} {H : Host σ} {x : Dim σ} {size data : Nat} {result : Int}
    {kse : Kse σ} (hconnected : x.connectionStatus = .connected) (hread : x.onRead = false)
    (herror : x.tlsReadError ≠ -1)
    (hwrite : ksetlsTlsWrite H.toWorld fuel x.fd data (int16 size) x.kse = (some result, kse)) :
    x.send H fuel size data = (.returned result,
      { x with onWrite := false, tlsWriteError := if result < 0 then -1 else 0, kse }) := by
  simp only [Dim.send, hconnected, hread, hwrite, ne_eq, not_true, if_false, if_neg herror,
    Bool.false_eq_true]

variable {E : LinkEnd δ} {out inp : Format UInt8} {x : Dim (Frame (Endpoint δ))}

/-- A call of `send` that does not come to the device. -/
theorem send_refused (H : Host (Frame (Endpoint δ))) (fuel : Nat) (hx : x.Up E) {size data : Nat}
    (h : ¬(x.tlsReadError ≠ -1 ∧ WriteAccepted E.socketDesc data (int16 size))) :
    ∃ result y, x.send H fuel size data = (.returned result, y) ∧ result ≤ 0 ∧ y.Up E ∧
      y.kse = x.kse := by
  by_cases herror : x.tlsReadError = -1
  · refine ⟨0, x, ?_, Int.le_refl 0, hx, rfl⟩
    rw [Dim.send, if_neg (not_not.mpr hx.connected), if_pos herror]
  · have hwrite : ksetlsTlsWrite H.toWorld fuel x.fd data (int16 size) x.kse =
        (some KSE_FAIL_WRONG_INPUT, x.kse) := by
      apply ksetlsTlsWrite_refused _ _ hx.ready.power
      rw [hx.fd]
      exact fun hargs => h ⟨herror, hargs⟩
    exact ⟨_, _, send_of_write hx.connected hx.onRead herror hwrite, by decide,
      ⟨hx.connected, hx.onRead, rfl, hx.fd, hx.pollFd, hx.ready⟩, rfl⟩

/-- A call of `send` that does, when the device has been given all input that was read. -/
theorem send_accepted (hE : E.Conforms out inp) (hfuel : 51 ≤ fuel) (hx : x.Up E)
    (hempty : x.kse.gusTxRxDataLength = 0) (hcut : x.env.cut = 0) {size data : Nat}
    (hsize : size < 65536) (herror : x.tlsReadError ≠ -1)
    (hargs : WriteAccepted E.socketDesc data (int16 size)) :
    ∃ (result : Int) (y : Dim (Frame (Endpoint δ))) (record : List UInt8),
      x.send (endpointHost E.device indeterminate) fuel size data = (.returned result, y) ∧
        0 < result ∧ y.Up E ∧ y.waiting = x.waiting ∧
        record = out.record (E.sealed x.env.device).length (slice x.kse.app data size) ∧
        y.env.outgoing = x.env.outgoing ++ record ∧
        E.sealed y.env.device = E.sealed x.env.device ++ [slice x.kse.app data size] ∧
        E.taken y.env.device = E.taken x.env.device := by
  have hword : int16 size = size := int16_of_pos hsize hargs.2.2.1
  obtain ⟨-, -, hpos, hle⟩ := id hargs
  rw [hword] at hpos hle
  have hlen : (slice x.kse.app data size).length = size := length_slice _ _ _
  obtain ⟨hne, hmax, d', hexec, hsealed, htaken⟩ := hE.write x.env.device
    (slice x.kse.app data size) (by
      apply List.ne_nil_of_length_pos
      omega) (by
      rw [hlen]
      exact Int.ofNat_le.mp hle)
  rw [hword] at hargs
  obtain ⟨z, hcall, hz, hnone, -, henv⟩ := ksetlsTlsWrite_endpoint indeterminate
    hfuel hx.ready hargs hexec hne hmax hcut
  rw [← hx.fd, ← hword] at hcall
  refine ⟨_, _, _, send_of_write hx.connected hx.onRead herror hcall, ?_,
    ⟨hx.connected, hx.onRead, rfl, hx.fd, hx.pollFd, hz⟩, ?_, rfl, ?_, ?_, ?_⟩
  · exact Int.natCast_pos.mpr (List.length_pos_of_ne_nil hne)
  · simp only [waiting, env, Kse.pending, hnone, hempty, henv, slice_zero]
  · simp only [env, henv]
  · simp only [env, henv]
    exact hsealed
  · simp only [env, henv]
    exact htaken

theorem recv_of_read {size : Option Int} {data : Nat} (hx : x.Up E) (hfd : 0 ≤ E.socketDesc)
    (hpoll : 0 < x.env.polled.1 ∧ x.env.polled.2 = true) {result : Int} {size' : Option Int}
    {kse : Kse (Frame (Endpoint δ))}
    (hread : ksetlsTlsRead (endpointWorld E.device indeterminate) fuel data size x.pollFd x.kse =
      (some result, size', kse)) :
    x.recv (endpointHost E.device indeterminate) fuel size data = (.returned result, size',
      { x with onRead := false, tlsReadError := if result < 0 then -1 else 0, kse }) := by
  have hcall : (endpointHost E.device indeterminate).poll x.kse.world x.pollFd =
      (x.env.polled.1, ⟨true, fun _ => by rw [hx.pollFd]; exact hfd⟩, x.kse.world) := by
    simp only [endpointHost, env] at hpoll ⊢
    simp [hpoll.2, hx.pollFd, hfd]
  simp only [Dim.recv, hx.connected, hcall, hx.onWrite, ne_eq, not_true, if_false, gt_iff_lt,
    hpoll.1, and_self, if_true]
  rw [show (endpointHost E.device indeterminate).toWorld =
    endpointWorld E.device indeterminate from rfl, hread]

/-- A call of `recv` that does not come to the device. -/
theorem recv_refused (fuel : Nat) (hx : x.Up E) (hfd : 0 ≤ E.socketDesc) {size : Option Int}
    {data : Nat}
    (h : ¬((0 < x.env.polled.1 ∧ x.env.polled.2 = true) ∧ data ≠ NULL_PTR ∧ size ≠ none)) :
    ∃ result size' y, x.recv (endpointHost E.device indeterminate) fuel size data =
        (.returned result, size', y) ∧ result ≤ 0 ∧ y.Up E ∧ y.kse = x.kse := by
  by_cases hpoll : 0 < x.env.polled.1 ∧ x.env.polled.2 = true
  · have hread : ksetlsTlsRead (endpointWorld E.device indeterminate) fuel data size x.pollFd
        x.kse = (some KSE_FAIL_WRONG_INPUT, size, x.kse) := by
      apply ksetlsTlsRead_refused _ _ hx.ready.power
      rintro ⟨⟨hdata, -⟩, hsize⟩
      exact h ⟨hpoll, hdata, hsize⟩
    exact ⟨_, _, _, recv_of_read indeterminate hx hfd hpoll hread, by decide,
      ⟨hx.connected, rfl, hx.onWrite, hx.fd, hx.pollFd, hx.ready⟩, rfl⟩
  · have hrecv : x.recv (endpointHost E.device indeterminate) fuel size data =
        (.returned 0, size, { x with onRead := false }) := by
      simp only [Dim.recv, hx.connected, endpointHost, hx.onWrite, ne_eq, not_true, if_false,
        and_true, Bool.and_eq_true]
      simp only [env, not_and] at hpoll
      split
      · rename_i hpos
        rw [if_neg (fun hin => hpoll hpos hin.1)]
      · rfl
    exact ⟨_, _, _, hrecv, Int.le_refl 0,
      ⟨hx.connected, rfl, hx.onWrite, hx.fd, hx.pollFd, hx.ready⟩, rfl⟩

/-- A call of `recv` that does: the device takes the first `n` bytes of what was waiting. -/
theorem recv_accepted (hE : E.Conforms out inp) (hfuel : 51 ≤ fuel) (hx : x.Up E)
    {messages : List (List UInt8)}
    (hgenuine : E.taken x.env.device ++ x.waiting <+: stream inp.record messages)
    (hpoll : 0 < x.env.polled.1 ∧ x.env.polled.2 = true) (size : Int) {data : Nat}
    (hdata : data ≠ NULL_PTR) :
    ∃ (y : Dim (Frame (Endpoint δ))) (n : Nat) (l : List UInt8),
      x.recv (endpointHost E.device indeterminate) fuel (some size) data =
          (.returned l.length, some (l.length : Int), y) ∧
        y.Up E ∧ n ≤ x.waiting.length ∧ y.waiting = x.waiting.drop n ∧
        y.env.outgoing = x.env.outgoing ∧ y.kse.app = put x.kse.app data l ∧
        E.sealed y.env.device = E.sealed x.env.device ∧
        E.taken y.env.device = E.taken x.env.device ++ x.waiting.take n ∧
        inp.opened (E.taken y.env.device) = inp.opened (E.taken x.env.device) ++ l := by
  have hfd := hE.socket
  obtain ⟨l, incoming, hinput, hwaiting⟩ := readInput_endpoint E.socketDesc x.kse
  have hwaiting' : l ++ incoming = x.waiting := hwaiting
  have hmax : l.length ≤ MAX_IO_DATA_SIZE := by
    obtain ⟨-, -, hmax, -⟩ := receiveRecord_readInput (D := endpointDevice E.device)
      indeterminate hx.ready hinput
    exact hmax
  obtain ⟨unused, m, d', hexec, hunused, hshort, hsealed, htaken, hopened⟩ :=
    hE.parse x.env.device l messages hmax (by
      refine List.IsPrefix.trans ?_ hgenuine
      rw [← hwaiting']
      exact (List.prefix_append_right_inj _).mpr (List.prefix_append _ _))
  obtain ⟨z, hcall, hz⟩ := read_relocated indeterminate hfuel hx.ready
    ⟨hdata, by simp only [INVALID_SOCKET]; omega⟩ size hinput
    (endpointDevice_exec (D := E.device) hexec) hunused hshort
  rw [← hx.pollFd] at hcall
  have htake : x.waiting.take (l.length - unused) = l.take (l.length - unused) := by
    rw [← hwaiting', List.take_append_of_le_length (Nat.sub_le _ _)]
  refine ⟨_, l.length - unused, m, recv_of_read indeterminate hx hfd hpoll hcall,
    ⟨hx.connected, rfl, hx.onWrite, hx.fd, hx.pollFd, hz.ready⟩, ?_, ?_, ?_, hz.app, ?_, ?_, ?_⟩
  · rw [← hwaiting', List.length_append]
    omega
  · simp only [waiting, env, hz.pending, hz.env]
    rw [← List.drop_append_of_le_length (Nat.sub_le _ _)]
    exact congrArg _ hwaiting'
  · simp only [env, hz.env]
  · simp only [env, hz.env]
    exact hsealed
  · rw [htake]
    simp only [env, hz.env]
    exact htaken
  · simp only [env, hz.env]
    exact hopened

end Dim

/-! ### One end, with its application -/

/-- A socket, the data of the calls of `send` that returned a positive result, and what the
    calls of `recv` gave. -/
structure Party (δ : Type) where
  dim : Dim (Frame (Endpoint δ))
  written : List (List UInt8)
  delivered : List UInt8

namespace Party

variable (E : LinkEnd δ) (indeterminate : Endpoint δ → Int) (fuel : Nat)

/-- The socket when a call is made, with the memory of the application then and what the calls
    of the host will do. -/
def calling (p : Party δ) (app : Bytes) (env : Endpoint δ) : Dim (Frame (Endpoint δ)) :=
  { p.dim with kse := { p.dim.kse with app, world := { p.dim.kse.world with env } } }

def withEnv (f : Endpoint δ → Endpoint δ) (p : Party δ) : Party δ :=
  { p with dim := p.calling p.dim.kse.app (f p.dim.env) }

def send (app : Bytes) (size : UInt16) (data cut : Nat) (p : Party δ) : Option (Party δ) :=
  match (p.calling app { p.dim.env with cut }).send (endpointHost E.device indeterminate) fuel
    size.toNat data with
  | (.returned result, dim) =>
    some { p with
      dim
      written := if 0 < result then p.written ++ [slice app data size.toNat] else p.written }
  | _ => none

def recv (app : Bytes) (size : Option Int) (data : Nat) (polled : Int × Bool) (chunk : Nat)
    (p : Party δ) : Option (Party δ) :=
  match (p.calling app { p.dim.env with polled, chunk }).recv
    (endpointHost E.device indeterminate) fuel size data with
  | (.returned result, _, dim) =>
    some { p with
      dim
      delivered := if 0 < result then p.delivered ++ slice dim.kse.app data result.toNat
        else p.delivered }
  | _ => none

def taken (p : Party δ) : List UInt8 := E.taken p.dim.env.device

structure Up (p : Party δ) : Prop where
  dim : p.dim.Up E
  written : p.written = E.sealed p.dim.env.device

/-- `q` is `p` after a call of `send`: nothing has happened, or a record of a message is on its
    way. -/
structure Wrote (out : Format UInt8) (p q : Party δ) : Prop where
  up : q.Up E
  delivered : q.delivered = p.delivered
  waiting : q.dim.waiting = p.dim.waiting
  taken : q.taken E = p.taken E
  record : q.written = p.written ∧ q.dim.env.outgoing = p.dim.env.outgoing ∨ ∃ m,
    q.written = p.written ++ [m] ∧
      q.dim.env.outgoing = p.dim.env.outgoing ++ out.record p.written.length m

/-- `q` is `p` after a call of `recv`: the device was given the first `n` bytes of what was
    waiting, and their data was delivered. -/
structure Received (inp : Format UInt8) (p q : Party δ) (n : Nat) (l : List UInt8) : Prop where
  up : q.Up E
  written : q.written = p.written
  outgoing : q.dim.env.outgoing = p.dim.env.outgoing
  le : n ≤ p.dim.waiting.length
  waiting : q.dim.waiting = p.dim.waiting.drop n
  taken : q.taken E = p.taken E ++ p.dim.waiting.take n
  delivered : q.delivered = p.delivered ++ l
  opened : inp.opened (q.taken E) = inp.opened (p.taken E) ++ l

variable {E fuel} {out inp : Format UInt8} {p : Party δ}

theorem Up.calling (h : p.Up E) (app : Bytes) (env : Endpoint δ) : (p.calling app env).Up E :=
  ⟨h.dim.connected, h.dim.onRead, h.dim.onWrite, h.dim.fd, h.dim.pollFd, h.dim.ready.power,
    h.dim.ready.dev, h.dim.ready.idle, h.dim.ready.length⟩

theorem Up.withEnv (h : p.Up E) (f : Endpoint δ → Endpoint δ)
    (hdevice : (f p.dim.env).device = p.dim.env.device) : (p.withEnv f).Up E := by
  refine ⟨h.calling _ _, ?_⟩
  show p.written = E.sealed (f p.dim.env).device
  rw [hdevice, h.written]

theorem send_wrote (hE : E.Conforms out inp) (hfuel : 51 ≤ fuel) (hp : p.Up E)
    (hempty : p.dim.kse.gusTxRxDataLength = 0) (app : Bytes) (size : UInt16) (data : Nat) :
    ∃ q, p.send E indeterminate fuel app size data 0 = some q ∧ Wrote E out p q := by
  have hup := hp.calling app { p.dim.env with cut := 0 }
  by_cases h : p.dim.tlsReadError ≠ -1 ∧ WriteAccepted E.socketDesc data (int16 size.toNat)
  · obtain ⟨result, y, record, hsend, hpos, hy, hwaiting, rfl, houtgoing, hsealed, htaken⟩ :=
      Dim.send_accepted indeterminate hE hfuel hup hempty rfl size.toNat_lt
        h.1 h.2
    have hcall : p.send E indeterminate fuel app size data 0 =
        some { p with dim := y, written := p.written ++ [slice app data size.toNat] } := by
      rw [send, hsend]
      simp only [if_pos hpos]
    refine ⟨_, hcall, ⟨hy, ?_⟩, rfl, hwaiting, htaken, Or.inr ⟨_, rfl, ?_⟩⟩
    · rw [hp.written]
      exact hsealed.symm
    · rw [hp.written]
      exact houtgoing
  · obtain ⟨result, y, hsend, hle, hy, hkse⟩ :=
      Dim.send_refused (endpointHost E.device indeterminate) fuel hup h
    have hcall : p.send E indeterminate fuel app size data 0 = some { p with dim := y } := by
      rw [send, hsend]
      simp only [if_neg (not_lt.mpr hle)]
    have henv : y.env = { p.dim.env with cut := 0 } := by rw [Dim.env, hkse]; rfl
    refine ⟨_, hcall, ⟨hy, ?_⟩, rfl, ?_, ?_, Or.inl ⟨rfl, ?_⟩⟩
    · simp only [henv]
      exact hp.written
    · simp only [Dim.waiting, hkse, henv]
      rfl
    · simp only [taken, henv]
    · simp only [henv]

theorem recv_received (hE : E.Conforms out inp) (hfuel : 51 ≤ fuel) (hp : p.Up E)
    {messages : List (List UInt8)}
    (hgenuine : p.taken E ++ p.dim.waiting <+: stream inp.record messages) (app : Bytes)
    (size : Option Int) (data : Nat) (polled : Int × Bool) (chunk : Nat) :
    ∃ q, p.recv E indeterminate fuel app size data polled chunk = some q ∧
      ∃ n l, Received E inp p q n l := by
  have hup := hp.calling app { p.dim.env with polled, chunk }
  by_cases h : (0 < polled.1 ∧ polled.2 = true) ∧ data ≠ NULL_PTR ∧ size ≠ none
  · obtain ⟨hpoll, hdata, hsize⟩ := h
    obtain ⟨size, rfl⟩ := Option.ne_none_iff_exists'.mp hsize
    obtain ⟨y, n, l, hrecv, hy, hle, hwaiting, houtgoing, happ, hsealed, htaken, hopened⟩ :=
      Dim.recv_accepted indeterminate hE hfuel hup hgenuine hpoll size hdata
    have hcall : p.recv E indeterminate fuel app (some size) data polled chunk =
        some { p with dim := y, delivered := p.delivered ++ l } := by
      rw [recv, hrecv]
      simp only [happ, Int.toNat_natCast, slice_put_same]
      split
      · rfl
      · rename_i hnone
        obtain rfl : l = [] := List.eq_nil_of_length_eq_zero (by omega)
        rw [List.append_nil]
    refine ⟨_, hcall, n, l, ⟨hy, ?_⟩, rfl, houtgoing, hle, hwaiting, htaken, rfl, hopened⟩
    rw [hp.written]
    exact hsealed.symm
  · obtain ⟨result, size', y, hrecv, hle, hy, hkse⟩ :=
      Dim.recv_refused indeterminate fuel hup hE.socket h
    have hcall : p.recv E indeterminate fuel app size data polled chunk =
        some { p with dim := y } := by
      rw [recv, hrecv]
      simp only [if_neg (not_lt.mpr hle)]
    have henv : y.env = { p.dim.env with polled, chunk } := by rw [Dim.env, hkse]; rfl
    have hwaiting : y.waiting = p.dim.waiting := by
      simp only [Dim.waiting, hkse, henv]
      rfl
    refine ⟨_, hcall, 0, [], ⟨hy, ?_⟩, rfl, ?_, Nat.zero_le _, hwaiting, ?_, ?_, ?_⟩
    · simp only [henv]
      exact hp.written
    · simp only [henv]
    · simp only [taken, henv, List.take_zero, List.append_nil]
    · rw [List.append_nil]
    · simp only [taken, henv, List.append_nil]

end Party

/-! ### Both ends -/

inductive Side where
  | client
  | server
deriving DecidableEq, Repr

def Side.other : Side → Side
  | .client => .server
  | .server => .client

@[simp] theorem Side.other_other (side : Side) : side.other.other = side := by cases side <;> rfl

@[simp] theorem Side.other_ne (side : Side) : side.other ≠ side := by cases side <;> decide

abbrev Link (δ : Type) := Side → Party δ

/-- A call of the application of one end, with the memory that it is made with and what the calls
    of the host will do, or bytes that come to the other end. -/
inductive LinkStep where
  | send (side : Side) (app : Bytes) (size : UInt16) (data cut : Nat)
  | recv (side : Side) (app : Bytes) (size : Option Int) (data : Nat) (polled : Int × Bool)
      (chunk : Nat)
  | deliver (side : Side) (n : Nat)

namespace Link

def set (side : Side) (q : Party δ) (s : Link δ) : Link δ := Function.update s side q

@[simp] theorem set_self (side : Side) (q : Party δ) (s : Link δ) : s.set side q side = q :=
  Function.update_self ..

@[simp] theorem set_other (side : Side) (q : Party δ) (s : Link δ) :
    s.set side q side.other = s side.other := Function.update_of_ne side.other_ne ..

/-- The first `n` bytes on their way from one end come to the other. -/
def deliver (side : Side) (n : Nat) (s : Link δ) : Link δ :=
  let arrived := (s side).dim.env.outgoing.take n
  let source := (s side).withEnv fun env => { env with outgoing := env.outgoing.drop n }
  let target := (s side.other).withEnv fun env => { env with incoming := env.incoming ++ arrived }
  (s.set side source).set side.other target

variable (E : Side → LinkEnd δ)

/-- What the application of one end gives the other. -/
def flow (s : Link δ) (side : Side) : OneWay UInt8 where
  written := (s side).written
  flight := (s side.other).dim.waiting ++ (s side).dim.env.outgoing
  taken := (s side.other).taken (E side.other)
  delivered := (s side.other).delivered

/-- A connection of which nothing has been used yet. -/
structure Fresh (s : Link δ) : Prop where
  up : ∀ side, (s side).Up (E side)
  flow : ∀ side, s.flow E side = .start

/-- Both sockets are up, and neither direction has lost anything. -/
structure Ok (R : Side → Format UInt8) (s : Link δ) : Prop where
  up : ∀ side, (s side).Up (E side)
  flow : ∀ side, (s.flow E side).Ok (R side)

end Link

namespace LinkStep

variable (E : Side → LinkEnd δ) (indeterminate : Endpoint δ → Int) (fuel : Nat)

def run : LinkStep → Link δ → Option (Link δ)
  | send side app size data cut, s =>
    ((s side).send (E side) indeterminate fuel app size data cut).map fun q => s.set side q
  | recv side app size data polled chunk, s =>
    ((s side).recv (E side) indeterminate fuel app size data polled chunk).map
      fun q => s.set side q
  | deliver side n, s => some (s.deliver side n)

/-- The socket takes the whole record of a `send`, which is called only when the device has been
    given all input that was read. -/
def Careful : LinkStep → Link δ → Prop
  | send side _ _ _ cut, s => cut = 0 ∧ (s side).dim.kse.gusTxRxDataLength = 0
  | _, _ => True

instance (step : LinkStep) (s : Link δ) : Decidable (step.Careful s) := by
  cases step <;> (unfold Careful; infer_instance)

end LinkStep

theorem Side.eq_or_other (side side' : Side) : side' = side ∨ side' = side.other := by
  cases side <;> cases side' <;> decide

variable {E : Side → LinkEnd δ} {R : Side → Format UInt8} {s : Link δ} {side : Side}
  (indeterminate : Endpoint δ → Int) {fuel : Nat}

namespace Link

theorem flow_update (s : Link δ) (side : Side) (q : Party δ) :
    (s.set side q).flow E side =
      { s.flow E side with
        written := q.written
        flight := (s side.other).dim.waiting ++ q.dim.env.outgoing } := by
  simp [flow]

theorem flow_update_other (s : Link δ) (side : Side) (q : Party δ) :
    (s.set side q).flow E side.other =
      { s.flow E side.other with
        flight := q.dim.waiting ++ (s side.other).dim.env.outgoing
        taken := q.taken (E side)
        delivered := q.delivered } := by
  simp [flow]

theorem Ok.update (h : s.Ok E R) {q : Party δ} (hq : q.Up (E side))
    (hflow : ((s.set side q).flow E side).Ok (R side))
    (hother : ((s.set side q).flow E side.other).Ok (R side.other)) :
    (s.set side q).Ok E R := by
  constructor
  · intro side'
    rcases side.eq_or_other side' with rfl | rfl
    · rw [set_self]
      exact hq
    · rw [set_other]
      exact h.up side.other
  · intro side'
    rcases side.eq_or_other side' with rfl | rfl
    · exact hflow
    · exact hother

theorem Ok.send (h : s.Ok E R) {q : Party δ} (hq : Party.Wrote (E side) (R side) (s side) q) :
    (s.set side q).Ok E R := by
  have hflow := h.flow side
  apply h.update hq.up
  · rw [flow_update]
    rcases hq.record with ⟨hwritten, houtgoing⟩ | ⟨m, hwritten, houtgoing⟩
    · rw [hwritten, houtgoing]
      exact hflow
    · rw [hwritten, houtgoing, ← List.append_assoc]
      exact hflow.write m
  · rw [flow_update_other, hq.waiting, hq.taken, hq.delivered]
    have hother := h.flow side.other
    simpa [Link.flow] using hother

theorem Ok.recv (h : s.Ok E R) {q : Party δ} {n : Nat} {l : List UInt8}
    (hq : Party.Received (E side) (R side.other) (s side) q n l) : (s.set side q).Ok E R := by
  have hflow := h.flow side
  have hother := h.flow side.other
  apply h.update hq.up
  · rw [flow_update, hq.written, hq.outgoing]
    exact hflow
  · have htake := @OneWay.Ok.take _ _ _ hother n l
    simp only [Link.flow, Side.other_other, OneWay.take, List.take_append_of_le_length hq.le,
      List.drop_append_of_le_length hq.le] at htake
    rw [flow_update_other, hq.waiting, hq.taken, hq.delivered]
    apply htake
    rw [← hq.taken]
    exact hq.opened

theorem deliver_self (side : Side) (n : Nat) (s : Link δ) :
    s.deliver side n side =
      (s side).withEnv fun env => { env with outgoing := env.outgoing.drop n } := by
  obtain ⟨side, rfl⟩ : ∃ side', side = side'.other := ⟨side.other, side.other_other.symm⟩
  rw [Link.deliver, Side.other_other, set_other, set_self]

theorem deliver_other (side : Side) (n : Nat) (s : Link δ) :
    s.deliver side n side.other = (s side.other).withEnv fun env =>
      { env with incoming := env.incoming ++ (s side).dim.env.outgoing.take n } := by
  rw [Link.deliver, set_self]

/-- Bytes that come to one end have left the other. -/
theorem flow_deliver (side : Side) (n : Nat) (s : Link δ) (side' : Side) :
    (s.deliver side n).flow E side' = s.flow E side' := by
  rcases side.eq_or_other side' with rfl | rfl
  · have hflight : ((s side'.other).dim.kse.pending ++ ((s side'.other).dim.env.incoming ++
        (s side').dim.env.outgoing.take n)) ++ (s side').dim.env.outgoing.drop n =
          ((s side'.other).dim.kse.pending ++ (s side'.other).dim.env.incoming) ++
            (s side').dim.env.outgoing := by
      simp only [List.append_assoc, List.take_append_drop]
    simp only [Link.flow, deliver_self, deliver_other]
    exact congrArg (OneWay.mk _ · _ _) hflight
  · simp only [Link.flow, Side.other_other, deliver_self, deliver_other]
    rfl

theorem Ok.deliver (h : s.Ok E R) (side : Side) (n : Nat) : (s.deliver side n).Ok E R := by
  constructor
  · intro side'
    rcases side.eq_or_other side' with rfl | rfl
    · rw [deliver_self]
      exact (h.up side').withEnv _ rfl
    · rw [deliver_other]
      exact (h.up side.other).withEnv _ rfl
  · intro side'
    rw [flow_deliver]
    exact h.flow side'

end Link

/-- One step. -/
theorem LinkStep.run_ok (hE : ∀ side, (E side).Conforms (R side) (R side.other))
    (hfuel : 51 ≤ fuel) (step : LinkStep) (s : Link δ) (h : s.Ok E R) (hcareful : step.Careful s) :
    ∃ s', step.run E indeterminate fuel s = some s' ∧ s'.Ok E R := by
  cases step with
  | send side app size data cut =>
    obtain ⟨rfl, hempty⟩ := hcareful
    obtain ⟨q, hsend, hq⟩ := Party.send_wrote indeterminate (hE side) hfuel
      (h.up side) hempty app size data
    exact ⟨s.set side q, by rw [run, hsend]; rfl, h.send hq⟩
  | recv side app size data polled chunk =>
    have hgenuine := @OneWay.Ok.taken_append _ _ _ (h.flow side.other) (s side).dim.waiting (by
      simp [Link.flow])
    obtain ⟨q, hrecv, n, l, hq⟩ := Party.recv_received indeterminate (hE side)
      hfuel (h.up side) (by simpa [Link.flow] using hgenuine) app size data polled chunk
    exact ⟨s.set side q, by rw [run, hrecv]; rfl, h.recv hq⟩
  | deliver side n => exact ⟨s.deliver side n, rfl, h.deliver side n⟩

/-- **A connection of two sockets.**  However the calls of `send` and `recv` at the two ends and
    the bytes between them interleave, with reads cut anywhere: if the device of an end has been
    given all input that was read whenever `send` is called there, and the socket takes whole
    records, then every call returns, and what one end reads is at any time a prefix of what the
    other wrote, and all of it once nothing is on the way. -/
theorem link_in_order (hE : ∀ side, (E side).Conforms (R side) (R side.other))
    (hfuel : 51 ≤ fuel) (hs : s.Fresh E) {steps : List LinkStep}
    (hcareful : Runs.Meets (LinkStep.run E indeterminate fuel) LinkStep.Careful s steps) :
    (Runs.states (LinkStep.run E indeterminate fuel) s steps).length = steps.length ∧
      ∀ s' ∈ Runs.states (LinkStep.run E indeterminate fuel) s steps, ∀ side : Side,
        (s' side.other).delivered <+: (s' side).written.flatten ∧
          ((s' side).dim.env.outgoing = [] → (s' side.other).dim.waiting = [] →
            (s' side.other).delivered = (s' side).written.flatten) := by
  have hok : s.Ok E R := by
    refine ⟨hs.up, ?_⟩
    intro side
    rw [hs.flow]
    exact OneWay.ok_start
  obtain ⟨hlen, hall⟩ := Runs.states_of_meets (LinkStep.run_ok indeterminate hE hfuel) hok hcareful
  refine ⟨hlen, ?_⟩
  intro s' hs' side
  have hflow := (hall s' hs').flow side
  refine ⟨hflow.delivered_prefix, ?_⟩
  intro houtgoing hwaiting
  apply hflow.delivered_all
  rw [Link.flow, houtgoing, hwaiting]
  rfl

/-! ### Two devices -/

def maskFormat : Format UInt8 := .mask (· ^^^ 0x5A) fun b => by
  show b ^^^ 0x5A ^^^ 0x5A = b
  rw [UInt8.xor_assoc, UInt8.xor_self, UInt8.xor_zero]

/-- A device that masks each byte of what it is to write, and takes at most three bytes at a time
    of what it is to parse.  It keeps what it has written and taken. -/
def maskDevice : Device (List (List UInt8) × List UInt8) where
  exec d request :=
    let l := request.drop 8
    if request[1]? = some 0x21 then
      (writeReply (maskFormat.record d.1.length l), (d.1 ++ [l], d.2))
    else (parseReply (l.length - 3) (maskFormat.opened (l.take 3)), (d.1, d.2 ++ l.take 3))
  fill _ := fun _ => 0
  behind _ := fun _ => 0

def maskEnd : LinkEnd (List (List UInt8) × List UInt8) := ⟨maskDevice, 5, Prod.fst, Prod.snd⟩

theorem maskEnd_conforms : maskEnd.Conforms maskFormat maskFormat := by
  constructor
  · decide
  · intro d m hne hmax
    have hlen : (maskFormat.record d.1.length m).length = m.length := List.length_map _
    have hmax' : m.length ≤ 2944 := hmax
    refine ⟨?_, ?_, (d.1 ++ [m], d.2), rfl, rfl, rfl⟩
    · intro hnil
      have hzero := congrArg List.length hnil
      exact hne (List.eq_nil_of_length_eq_zero (hlen.symm.trans hzero))
    · rw [length_writeReply]
      show 4 + (maskFormat.record d.1.length m).length ≤ _
      rw [hlen]
      simp only [MAX_IO_BUFFER_SIZE, MAX_IO_DATA_SIZE, MAX_IO_CTRL_LEN]
      omega
  · intro d l messages hmax _
    have htake : l.take (l.length - (l.length - 3)) = l.take 3 := by
      rw [List.take_eq_take_iff]
      omega
    refine ⟨l.length - 3, maskFormat.opened (l.take 3), (d.1, d.2 ++ l.take 3), rfl,
      Nat.sub_le _ _, ?_, rfl, ?_, ?_⟩
    · show ((l.take 3).map _).length ≤ _
      rw [List.length_map, List.length_take]
      omega
    · rw [htake]
      rfl
    · exact List.map_append

/-- Both sockets right after the handshake. -/
def maskLink : Link (List (List UInt8) × List UInt8) := fun _ =>
  ⟨⟨5, 4, KSETLS_FULL_HANDSHAKE, .connected, false, false, 0, 0, 5, some KSE_SUCCESS,
    poweredOn (fun _ => 0) (Frame.idle ⟨([], []), [], [], (0, false), 0, 0⟩)⟩, [], []⟩

theorem fresh_maskLink : maskLink.Fresh fun _ => maskEnd :=
  ⟨fun _ => ⟨⟨rfl, rfl, rfl, rfl, rfl, rfl, ⟨0, rfl⟩, rfl, Nat.zero_le _⟩, rfl⟩, fun _ => rfl⟩

/-- The client sends five bytes, of which the server reads three and then two, and answers. -/
def maskSteps : List LinkStep :=
  let app := ofList [0, 1, 2, 3, 4, 5]
  [.send .client app 5 1 0, .deliver .client 4, .deliver .client 4,
    .recv .server app (some 0) 1 (1, true) 100, .recv .server app (some 0) 1 (1, true) 100,
    .send .server app 2 3 0, .deliver .server 2, .recv .client app (some 0) 1 (1, true) 1]

theorem maskSteps_careful : Runs.Meets (LinkStep.run (fun _ => maskEnd) (fun _ => 0) 51)
    LinkStep.Careful maskLink maskSteps := by
  decide +kernel

theorem link_in_order_masked :
    let states := Runs.states (LinkStep.run (fun _ => maskEnd) (fun _ => 0) 51) maskLink maskSteps
    states.length = 8 ∧
      states.getLast?.map (fun s => ((s .server).delivered, (s .client).delivered)) =
        some ([1, 2, 3, 4, 5], [3]) ∧
      ∀ s ∈ states, ∀ side : Side, (s side.other).delivered <+: (s side).written.flatten ∧
        ((s side).dim.env.outgoing = [] → (s side.other).dim.waiting = [] →
          (s side.other).delivered = (s side).written.flatten) := by
  intro states
  obtain ⟨hlen, hall⟩ := link_in_order (fun _ => 0) (fun _ => maskEnd_conforms) (Nat.le_refl 51)
    fresh_maskLink maskSteps_careful
  exact ⟨hlen, by decide +kernel, hall⟩

end MavlinkDim
