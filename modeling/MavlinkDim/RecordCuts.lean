import MavlinkDim.RecordBoundaries
import MavlinkDim.RecordRelocation

/-!
# Every cut occurs

`record_boundaries` is about the records of a run, whatever they are.  Here is a
host in which they are any records of an input buffer at most, in any order with
calls of `recv` that find nothing: `every_cut_occurs` says that a server and a
client read them one after the other, and enqueue the messages of the uncut bytes.
-/

namespace MavlinkDim

open ByteMemory

/-- What calls of `recv` find, one after the other: no input, or the input for a record, which
    may be empty. -/
abbrev RecordCut := List (Option { l : List UInt8 // l.length ≤ MAX_IO_DATA_SIZE })

/-- The record that a call delivers. -/
def cutRecord (r : Option { l : List UInt8 // l.length ≤ MAX_IO_DATA_SIZE }) :
    Option (List UInt8) := (r.map Subtype.val).filter (· ≠ [])

def RecordCut.records (cut : RecordCut) : List (List UInt8) := cut.filterMap cutRecord

/-- A device that decrypts to the records of a cut. -/
def cuttingDevice : Device RecordCut where
  exec
    | some l :: cut, _ => (parseReply 0 l.val, cut)
    | cut, _ => (parseReply 0 [], cut)
  fill _ _ := 0
  behind _ _ := 0

/-- A socket on which a record comes with a header of five bytes, or as many of them as there is
    space for. -/
def cuttingNet : Net RecordCut where
  getsockopt cut _ := (0, 0, cut)
  read cut _ count :=
    let length := match cut with
      | some l :: _ => l.val.length + 5
      | _ => 0
    (some ⟨List.replicate (min length count) 0x17, by simp⟩, cut)
  write cut _ _ count := (some ⟨count, Nat.le_refl _⟩, cut)

def cuttingWorld : World (Frame RecordCut) := frameWorld cuttingDevice cuttingNet fun _ => 0

/-- `poll` reports input when there is a record, and time passes when there is none. -/
def cuttingHost : ClientHost (Frame RecordCut) where
  toWorld := cuttingWorld
  accept f _ := (5, f)
  socket f := (5, f)
  connect f _ := (0, f)
  close f _ := (0, f)
  poll f fd := match f.env with
    | none :: cut => (0, ⟨false, by simp⟩, { f with env := cut })
    | _ => (1, ⟨decide (0 ≤ fd), by simp⟩, f)
  libusbInit f := (0, f)
  libusbExit f := f
  libusbGetDeviceList f := (.devices 1 [], f)
  libusbFreeDeviceList f _ := f
  libusbGetDeviceDescriptor f _ := (0, ⟨VENDOR_ID, PRODUCT_ID⟩, f)
  libusbOpen f _ := (⟨(0, some 7), by simp⟩, f)
  libusbClose f _ := f
  libusbKernelDriverActive f _ _ := (0, f)
  libusbDetachKernelDriver f _ _ := (0, f)
  libusbClaimInterface f _ _ := (0, f)
  libusbReleaseInterface f _ _ := (0, f)
  bind f _ := (0, f)
  listen f _ := (0, f)
  pollErrors _ _ := false

/-! ### One call -/

theorem exchanges_of_requests {es : List Event} (h : requests es = []) : exchanges es = [] := by
  apply exchanges_of_not
  intro e he
  rw [requests, List.filterMap_eq_nil_iff] at h
  exact absurd (h _ he) (by simp)

/-- The events of a parse command that was answered with a message. -/
theorem ReadReplied.recordsFit {δ : Type} {socketDesc : Int} {l message : List UInt8}
    {unused pbInAppData : Nat} {env : δ} {x z : Kse (Frame δ)} {es : List Event} {e : Exchange}
    (h : ReadReplied socketDesc l unused message pbInAppData env x z es e)
    (hmessage : message.length ≤ MAX_IO_DATA_SIZE) :
    RecordsFit (es ++ [.exchange e, .copied 6 (e.field 4)]) := by
  obtain ⟨y, -, hparsed⟩ := h.parsed
  obtain ⟨m, hbuffer⟩ := hparsed.buffer
  have hstatus : status e.gabTxRxData = KSE_SUCCESS := by
    rw [hbuffer, status_put _ (by rw [length_parseReply]; omega)]
    exact responseStatus_zero _
  rw [recordsFit_append, RecordsFit, exchanges_of_requests h.requests]
  refine ⟨by simp, ?_⟩
  intro e' he'
  obtain rfl : e' = e := by simpa [exchanges] using he'
  refine ⟨?_, ?_⟩
  · rintro ⟨-, -, hpos⟩
    rw [hstatus] at hpos
    exact absurd hpos (by decide)
  · intro _ _
    rw [h.length]
    exact hmessage

variable {fuel recvBuffer : Nat} {cut : RecordCut}

theorem ksetlsTlsRead_cut (hfuel : 51 ≤ fuel) (hbuffer : recvBuffer ≠ NULL_PTR)
    {socketDesc : Int} (hsocket : socketDesc ≠ INVALID_SOCKET) (recvSize : Int)
    {x : Kse (Frame RecordCut)} (hx : Ready x) (hempty : x.gusTxRxDataLength = 0)
    {l : { l : List UInt8 // l.length ≤ MAX_IO_DATA_SIZE }} (henv : x.world.env = some l :: cut) :
    ∃ z es, ksetlsTlsRead cuttingWorld fuel recvBuffer (some recvSize) socketDesc x =
        (some (l.val.length : Int), some (l.val.length : Int), z) ∧
      Ready z ∧ z.gusTxRxDataLength = 0 ∧ z.world.env = cut ∧ z.trace = x.trace ++ es ∧
      RecordsFit es ∧ records es = (cutRecord (some l)).toList := by
  have hmax : l.val.length ≤ 2944 := l.property
  have hinput : ReadInput cuttingNet socketDesc x
      (List.replicate (min (l.val.length + 5) MAX_IO_DATA_SIZE) 0x17) (some l :: cut) := by
    rw [← henv]
    refine @ReadInput.fresh _ cuttingNet socketDesc x 0 _ ⟨_, by simp⟩ _ hempty rfl (by decide) ?_
    rw [cuttingNet, henv]
  have hreply : ∀ request, cuttingDevice.exec (some l :: cut) request =
      (parseReply 0 l.val, cut) := fun _ => rfl
  obtain ⟨z, es, e, hcall, hreplied⟩ := read_replied (fun _ => 0) hfuel hx ⟨hbuffer, hsocket⟩
    recvSize hinput (hreply _) (Nat.zero_le _) (by simp; omega)
  obtain ⟨y, htrace, hparsed⟩ := hreplied.parsed
  have hevents : z.trace = x.trace ++ (es ++ [.exchange e, .copied 6 (e.field 4)]) := by
    rw [hparsed.trace, htrace, List.append_assoc]
  have hfits := hreplied.recordsFit l.property
  obtain ⟨es', htrace', hdelivers⟩ := ksetlsTlsRead_delivers cuttingWorld fuel recvBuffer
    (some recvSize) socketDesc x
  have hcall' : ksetlsTlsRead cuttingWorld fuel recvBuffer (some recvSize) socketDesc x =
      (some (l.val.length : Int), some (l.val.length : Int), z) := hcall
  rw [hcall'] at htrace' hdelivers
  obtain rfl := List.append_cancel_left (htrace'.symm.trans hevents)
  refine ⟨z, _, hcall', hparsed.ready, hparsed.length.trans hreplied.unused, hparsed.env, hevents,
    hfits, ?_⟩
  rcases hdelivers hfits with ⟨hnone, hcode⟩ | ⟨record, hrecord, hne, hcode, -, happ⟩
  · have hnil : l.val = [] := List.eq_nil_of_length_eq_zero (by simpa using hcode)
    rw [hnone, cutRecord, Option.map_some, hnil]
    rfl
  · have hlen : l.val.length = record.length := by simpa using hcode
    rw [hreplied.app, ← hlen, slice_put_same] at happ
    rw [hrecord, cutRecord, Option.map_some, happ, Option.filter_some]
    simp [hne]

/-- An object with a connection on which a cut is still to come. -/
structure Life.Finds (cut : RecordCut) (l : Life (Frame RecordCut)) : Prop where
  connected : l.Connected
  onWrite : l.dim.onWrite = false
  pollFd : 0 ≤ l.dim.pollFd
  ready : Ready l.dim.kse
  empty : l.dim.kse.gusTxRxDataLength = 0
  env : l.dim.kse.world.env = cut

theorem Life.Finds.store {l : Life (Frame RecordCut)} (h : l.Finds cut) (off : Nat)
    (bytes : List UInt8) : (l.store off bytes).Finds cut :=
  ⟨h.connected, h.onWrite, h.pollFd, ⟨h.ready.power, h.ready.dev, h.ready.idle, h.ready.length⟩,
    h.empty, h.env⟩

/-- A call that finds nothing. -/
theorem recv_none {l : Life (Frame RecordCut)} (h : l.Finds (none :: cut)) (recvSize : Int) :
    ∃ result recvSize' l',
      l.recv cuttingHost.toDimHost fuel recvSize recvBuffer = some (result, recvSize', l') ∧
        l'.Finds cut ∧ l.driverEvents cuttingHost.toDimHost fuel recvBuffer recvSize = [] := by
  have hpoll : cuttingHost.poll l.dim.kse.world l.dim.pollFd =
      (0, ⟨false, by simp⟩, { l.dim.kse.world with env := cut }) := by
    simp only [cuttingHost, h.env]
  have hidle : ¬l.dim.Reads cuttingHost.toHost := by
    rintro ⟨-, hpos, -⟩
    rw [hpoll] at hpos
    exact lt_irrefl 0 hpos
  have hrecv : l.dim.recv cuttingHost.toHost fuel (some recvSize) recvBuffer =
      (.returned 0, some recvSize, { l.dim with
        onRead := false
        kse := { l.dim.kse with world := { l.dim.kse.world with env := cut } } }) := by
    have hconnected : ¬l.dim.connectionStatus ≠ .connected := not_not_intro h.connected
    rw [Dim.recv, if_neg hconnected]
    simp only [hpoll]
    rw [if_neg (by simp)]
  obtain ⟨-, -, -, htrace⟩ := recv_idle fuel cuttingHost.toHost (some recvSize) recvBuffer hidle
  refine ⟨0, recvSize, _, by rw [Life.recv, hrecv]; rfl, ?_, ?_⟩
  · exact ⟨h.connected, h.onWrite, h.pollFd,
      ⟨h.ready.power, h.ready.dev, h.ready.idle, h.ready.length⟩, h.empty, rfl⟩
  · rw [Life.driverEvents, if_pos h.connected, recvEvents, htrace, List.drop_length]

/-- A call that finds the input for a record. -/
theorem recv_some (hfuel : 51 ≤ fuel) (hbuffer : recvBuffer ≠ NULL_PTR)
    {r : { l : List UInt8 // l.length ≤ MAX_IO_DATA_SIZE }} {l : Life (Frame RecordCut)}
    (h : l.Finds (some r :: cut)) (recvSize : Int) :
    ∃ result recvSize' l',
      l.recv cuttingHost.toDimHost fuel recvSize recvBuffer = some (result, recvSize', l') ∧
        l'.Finds cut ∧ RecordsFit (l.driverEvents cuttingHost.toDimHost fuel recvBuffer recvSize) ∧
        records (l.driverEvents cuttingHost.toDimHost fuel recvBuffer recvSize) =
          (cutRecord (some r)).toList := by
  have hfd := h.pollFd
  have hsocket : l.dim.pollFd ≠ INVALID_SOCKET := by
    simp only [INVALID_SOCKET]
    omega
  have hpoll : cuttingHost.poll l.dim.kse.world l.dim.pollFd =
      (1, ⟨decide (0 ≤ l.dim.pollFd), by simp⟩, l.dim.kse.world) := by
    simp only [cuttingHost, h.env]
  obtain ⟨z, es, hcall, hready, hempty, henv, htrace, hfits, hrecords⟩ :=
    ksetlsTlsRead_cut hfuel hbuffer hsocket recvSize h.ready h.empty h.env
  have hread : ksetlsTlsRead cuttingHost.toWorld fuel recvBuffer (some recvSize) l.dim.pollFd
      { l.dim.kse with world := l.dim.kse.world } =
        (some (r.val.length : Int), some (r.val.length : Int), z) := hcall
  have hrecv : l.dim.recv cuttingHost.toHost fuel (some recvSize) recvBuffer =
      (.returned r.val.length, some (r.val.length : Int), { l.dim with
        onRead := false, tlsReadError := 0, kse := z }) := by
    have hconnected : ¬l.dim.connectionStatus ≠ .connected := not_not_intro h.connected
    rw [Dim.recv, if_neg hconnected]
    simp only [hpoll]
    rw [if_pos ⟨by decide, h.onWrite⟩, if_pos (by simpa using hfd), hread]
    simp
  refine ⟨r.val.length, r.val.length, _, by rw [Life.recv, hrecv]; rfl, ?_, ?_⟩
  · exact ⟨h.connected, h.onWrite, h.pollFd, hready, hempty, henv⟩
  · rw [Life.driverEvents, if_pos h.connected, recvEvents, hrecv]
    dsimp only
    rw [htrace, List.drop_left]
    exact ⟨hfits, hrecords⟩

variable {M : Mavlink}

/-- A turn of the loop that reads messages takes what comes first. -/
theorem Life.Finds.receive (hfuel : 51 ≤ fuel) (hbuffer : recvBuffer ≠ NULL_PTR)
    {r : Option { l : List UInt8 // l.length ≤ MAX_IO_DATA_SIZE }} {l : Life (Frame RecordCut)}
    (h : l.Finds (r :: cut)) (channel : M.Status) (recvSize : Int) :
    ∃ turn, l.receive M cuttingHost.toDimHost fuel recvBuffer channel recvSize = some turn ∧
      turn.life.Finds cut ∧
      RecordsFit (l.driverEvents cuttingHost.toDimHost fuel recvBuffer recvSize) ∧
      records (l.driverEvents cuttingHost.toDimHost fuel recvBuffer recvSize) =
        (cutRecord r).toList := by
  have hrecv : ∃ result recvSize' l',
      l.recv cuttingHost.toDimHost fuel recvSize recvBuffer = some (result, recvSize', l') ∧
        l'.Finds cut ∧ RecordsFit (l.driverEvents cuttingHost.toDimHost fuel recvBuffer recvSize) ∧
        records (l.driverEvents cuttingHost.toDimHost fuel recvBuffer recvSize) =
          (cutRecord r).toList := by
    cases r with
    | none =>
      obtain ⟨result, recvSize', l', hrecv, hl', hnone⟩ := recv_none h recvSize
      rw [hnone]
      exact ⟨result, recvSize', l', hrecv, hl', by decide, rfl⟩
    | some r => exact recv_some hfuel hbuffer h recvSize
  obtain ⟨result, recvSize', l', hrecv, hl', hevents⟩ := hrecv
  rw [Life.receive, if_pos h.connected, hrecv]
  dsimp only
  split
  · exact ⟨_, rfl, hl', hevents⟩
  · exact ⟨_, rfl, hl', hevents⟩

/-! ### Runs -/

/-- A call takes what comes first, and leaves the rest to come. -/
def TakesFirst {S C : Type} (step : C → Relayed M S → Option (Relayed M S)) (c : C)
    (life : S → Life (Frame RecordCut)) : Prop :=
  ∀ r cut x, (life x.threads).Finds (r :: cut) → ∃ y es, step c x = some y ∧
    (life y.threads).Finds cut ∧ y.events = x.events ++ es ∧ RecordsFit es ∧
      records es = (cutRecord r).toList

/-- As many calls as a cut has parts take all of it. -/
theorem TakesFirst.run {S C : Type} {step : C → Relayed M S → Option (Relayed M S)} {c : C}
    {life : S → Life (Frame RecordCut)} (h : TakesFirst step c life) (cut : RecordCut)
    {x : Relayed M S} (hx : (life x.threads).Finds cut) :
    ∃ y ∈ x :: Runs.states step x (List.replicate cut.length c), ∃ es,
      y.events = x.events ++ es ∧ RecordsFit es ∧ records es = cut.records := by
  induction cut generalizing x with
  | nil => exact ⟨x, List.mem_cons_self, [], by simp, by decide, rfl⟩
  | cons r cut ih =>
    obtain ⟨y, es, hstep, hy, hevents, hfits, hrecords⟩ := h r cut x hx
    obtain ⟨z, hz, es', hevents', hfits', hrecords'⟩ := ih hy
    refine ⟨z, ?_, es ++ es', ?_, ?_, ?_⟩
    · rw [List.length_cons, List.replicate_succ, Runs.states_cons_some hstep]
      exact List.mem_cons_of_mem _ hz
    · rw [hevents', hevents, List.append_assoc]
    · exact (recordsFit_append _ _).mpr ⟨hfits, hfits'⟩
    · rw [records_append, hrecords, hrecords', RecordCut.records, RecordCut.records,
        List.filterMap_cons]
      cases cutRecord r <;> rfl

/-- So its messages are enqueued. -/
theorem TakesFirst.occurs {S C : Type} {step : C → Relayed M S → Option (Relayed M S)} {c : C}
    {life : S → Life (Frame RecordCut)} (h : TakesFirst step c life) {channel : S → M.Status}
    {s : S} {cut : RecordCut} (hs : (life s).Finds cut)
    (huncut : ∀ x ∈ Runs.states step ⟨s, [], []⟩ (List.replicate cut.length c),
      x.Uncut channel (channel s)) :
    ∃ x ∈ ⟨s, [], []⟩ :: Runs.states step ⟨s, [], []⟩ (List.replicate cut.length c),
      records x.events = cut.records ∧
        x.messages = (M.parse (channel s) cut.records.flatten).2 := by
  obtain ⟨x, hx, es, hevents, hfits, hrecords⟩ := h.run cut (x := ⟨s, [], []⟩) hs
  rw [List.nil_append] at hevents
  have hstart : Relayed.Uncut channel (channel s) (⟨s, [], []⟩ : Relayed M S) := fun _ => rfl
  have hparsed := List.forall_mem_cons.mpr ⟨hstart, huncut⟩ x hx (hevents ▸ hfits)
  rw [hevents, hrecords] at hparsed
  exact ⟨x, hx, hevents ▸ hrecords, (congrArg Prod.snd hparsed).symm⟩

theorem takesFirst_server (hfuel : 51 ≤ fuel) {L : ServerLocals}
    (hbuffer : L.recvBuffer ≠ NULL_PTR) :
    TakesFirst (ServerStep.relay (M := M) cuttingHost.toDimHost fuel L) .gcsRead Server.life := by
  intro r cut x hx
  obtain ⟨turn, hreceive, hlife, hfits, hrecords⟩ :=
    hx.receive hfuel hbuffer x.threads.channel x.threads.recvSize
  have hstep : ∃ s, ServerStep.readAgain cuttingHost.toDimHost fuel L .gcsRead x.threads = some s ∧
      s.life.Finds cut := by
    simp only [ServerStep.readAgain, Server.gcsReadMessage, hreceive, Option.map_some]
    refine ⟨_, rfl, ?_⟩
    split
    · exact hlife
    · exact hlife.store _ _
  obtain ⟨s, hs, hfinds⟩ := hstep
  refine ⟨⟨s, x.events ++ ServerStep.driverEvents cuttingHost.toDimHost fuel L .gcsRead x.threads,
    x.messages ++ ServerStep.enqueued .gcsRead x.threads s⟩, _, ?_, hfinds, rfl, hfits, hrecords⟩
  rw [ServerStep.relay, hs]
  rfl

theorem takesFirst_client (hfuel : 51 ≤ fuel) {L : ClientLocals}
    (hbuffer : L.recvBuffer ≠ NULL_PTR) :
    TakesFirst (ClientTurn.relay (M := M) cuttingHost fuel L) .autopilotRead Client.life := by
  intro r cut x hx
  obtain ⟨turn, hreceive, hlife, hfits, hrecords⟩ :=
    hx.receive hfuel hbuffer x.threads.channel x.threads.recvSize
  have hstep : ∃ s, ClientTurn.run cuttingHost fuel L .autopilotRead x.threads = some s ∧
      s.life.Finds cut := by
    simp only [ClientTurn.run, Client.autopilotReadMessage, hreceive, Option.map_some]
    refine ⟨_, rfl, ?_⟩
    split <;> exact hlife
  obtain ⟨s, hs, hfinds⟩ := hstep
  refine ⟨⟨s, x.events ++ ClientTurn.driverEvents cuttingHost fuel L .autopilotRead x.threads,
    x.messages ++ ClientTurn.enqueued .autopilotRead x.threads s⟩, _, ?_, hfinds, rfl, hfits,
    hrecords⟩
  rw [ClientTurn.relay, hs]
  rfl

/-- A connected object to which a cut comes. -/
def cutLife (cut : RecordCut) : Life (Frame RecordCut) :=
  ⟨⟨5, 4, KSETLS_FULL_HANDSHAKE, .connected, false, false, 0, 0, 5, some KSE_SUCCESS,
    poweredOn (fun _ => 0) (Frame.idle cut)⟩, []⟩

theorem cutLife_finds (cut : RecordCut) : (cutLife cut).Finds cut :=
  ⟨rfl, rfl, Int.natCast_nonneg 5, ⟨rfl, ⟨0, rfl⟩, rfl, Nat.zero_le _⟩, rfl, rfl⟩

/-- **Every cut occurs.**  Whatever a server or a client has in its channel and its queues, and
    however a byte stream is cut into records, with calls of `recv` that find nothing in between:
    there is a run in which they are read, and their messages are enqueued. -/
theorem every_cut_occurs (hfuel : 51 ≤ fuel) {L : ServerLocals} {L' : ClientLocals}
    (hbuffer : L.recvBuffer ≠ NULL_PTR) (hbuffer' : L'.recvBuffer ≠ NULL_PTR)
    (s : Server M (Frame RecordCut)) (c : Client M (Frame RecordCut)) (cut : RecordCut) :
    (∃ x ∈ (⟨{ s with life := cutLife cut }.gcsReadCall L, [], []⟩ : Relayed M _) ::
        Runs.states (ServerStep.relay cuttingHost.toDimHost fuel L)
          ⟨{ s with life := cutLife cut }.gcsReadCall L, [], []⟩
          (List.replicate cut.length .gcsRead),
      records x.events = cut.records ∧ x.messages = (M.parse s.channel cut.records.flatten).2) ∧
    ∃ x ∈ (⟨{ c with life := cutLife cut }.autopilotReadCall L', [], []⟩ : Relayed M _) ::
        Runs.states (ClientTurn.relay cuttingHost fuel L')
          ⟨{ c with life := cutLife cut }.autopilotReadCall L', [], []⟩
          (List.replicate cut.length .autopilotRead),
      records x.events = cut.records ∧ x.messages = (M.parse c.channel cut.records.flatten).2 := by
  constructor
  · exact (takesFirst_server hfuel hbuffer).occurs ((cutLife_finds cut).store _ _)
      (server_uncut _ fuel L { s with life := cutLife cut } _)
  · exact (takesFirst_client hfuel hbuffer').occurs (cutLife_finds cut)
      (client_uncut _ fuel L' { c with life := cutLife cut } _)

end MavlinkDim
