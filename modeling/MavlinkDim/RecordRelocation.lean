import MavlinkDim.TlsStream

/-!
# Records of one read of the socket

The device takes one record at a time from its input, and what is left of the
input stays where the request put it, behind the place where the response
arrives.  `records_relocated` says that every record of one read of the socket is
presented once, in order, and that its message is delivered.
-/

namespace MavlinkDim

open ByteMemory

variable {δ : Type} {D : Device δ} {N : Net δ} (indeterminate : δ → Int) {fuel : Nat}
  {socketDesc : Int}

/-! ### One record -/

/-- The input of the next `_ksetlsTlsRead`, and the environment when it is there: what the socket
    gives when nothing is pending, or what is pending. -/
inductive ReadInput (N : Net δ) (socketDesc : Int) (x : Kse (Frame δ)) : List UInt8 → δ → Prop where
  | fresh {iRv : Int} {env₁ : δ} {l : { l : List UInt8 // l.length ≤ MAX_IO_DATA_SIZE }} {env : δ} :
      x.gusTxRxDataLength = 0 → N.getsockopt x.world.env socketDesc = (iRv, 0, env₁) → iRv ≠ -1 →
      N.read env₁ socketDesc MAX_IO_DATA_SIZE = (some l, env) →
      ReadInput N socketDesc x l.val env
  | pending : x.gusTxRxDataLength ≠ 0 → ReadInput N socketDesc x x.pending x.world.env

/-- An accepted response with a message, of which `unused` input bytes are left. -/
def parseReply (unused : Nat) (message : List UInt8) : List UInt8 :=
  [0x00, 0x00] ++ bytes16 unused ++ bytes16 message.length ++ message

theorem length_parseReply (unused : Nat) (message : List UInt8) :
    (parseReply unused message).length = 6 + message.length := by
  simp only [parseReply, List.length_append, length_bytes16, List.length_cons, List.length_nil]

theorem unusedInputLen_parseReply {unused : Nat} (h : unused < 65536) (message : List UInt8) :
    unusedInputLen (parseReply unused message) = unused := word_hiByte_loByte h

theorem messageLen_parseReply (unused : Nat) {message : List UInt8}
    (h : message.length < 65536) :
    word (ofList (parseReply unused message) 4) (ofList (parseReply unused message) 5) =
      message.length := word_hiByte_loByte h

theorem receiveRecord_readInput {x : Kse (Frame δ)} (hx : Ready x) {l : List UInt8} {env : δ}
    (h : ReadInput N socketDesc x l env) :
    ∃ w es, l.length ≤ MAX_IO_DATA_SIZE ∧ w.request = [] ∧ w.env = env ∧ requests es = [] ∧
      x.pending ++ received es = l ∧ consumed es = [] ∧
      receiveRecord (frameWorld D N indeterminate) 8 socketDesc x =
        (false, (l.length : Int),
          { x with gabTxRxData := put x.gabTxRxData 8 l, world := w
                   trace := x.trace ++ es }) := by
  have hmax := hx.length
  cases h with
  | @fresh iRv env₁ l env hempty hopt hok hread =>
    have hlen : l.val.length ≤ 2944 := l.property
    have hword : int16 (l.val.length : Int) = l.val.length := int16_of_lt (by omega) (by omega)
    refine ⟨{ x.world with env }, [.received l.val], l.property, hx.idle, rfl, rfl, ?_, rfl, ?_⟩
    · simp [Kse.pending, hempty, received]
    · have hread' : N.read env₁ socketDesc (sizeT MAX_IO_DATA_SIZE) = (some l, env) := hread
      have hrecv : tlsRecv (frameWorld D N indeterminate) 8 MAX_IO_DATA_SIZE socketDesc x =
          (int16 l.val.length, { x.store 8 l.val with
            world := { x.world with env }, trace := x.trace ++ [.received l.val] }) := by
        simp only [tlsRecv, frameWorld, hopt, if_neg hok, ne_eq, not_true, if_false, hread']
      rw [receiveRecord, if_pos hempty, hrecv, hword]
      simp [Kse.store]
  | pending hpending =>
    have hword : int16 (x.gusTxRxDataLength : Int) = x.gusTxRxDataLength := by
      simp only [MAX_IO_DATA_SIZE] at hmax
      exact int16_of_lt (by omega) (by omega)
    refine ⟨x.world, [], by simpa [Kse.pending] using hmax, hx.idle, rfl, rfl, ?_, rfl, ?_⟩
    · simp [received]
    · rw [receiveRecord, if_neg hpending, hword, cpy_eq_blit, blit_eq_put]
      simp [Kse.pending]

/-- `_ksetlsTlsRead` goes past its input check. -/
def ReadAccepted (socketDesc : Int) (pbInAppData : Nat) : Prop :=
  pbInAppData ≠ NULL_PTR ∧ socketDesc ≠ INVALID_SOCKET

/-- A read of the input `l`, of which the device takes all but the last `unused` bytes and
    answers with `message`. -/
structure Relocated (socketDesc : Int) (l : List UInt8) (unused : Nat) (message : List UInt8)
    (pbInAppData : Nat) (env : δ) (x z : Kse (Frame δ)) : Prop where
  ready : Ready z
  env : z.world.env = env
  app : z.app = put x.app pbInAppData message
  pending : z.pending = l.drop (l.length - unused)
  length : z.gusTxRxDataLength = unused
  trace : ∃ es, z.trace = x.trace ++ es ∧ requests es = [parseRequest socketDesc l] ∧
    x.pending ++ received es = l ∧ consumed es = l.take (l.length - unused)

/-- The parse command of such a read. -/
structure ReadReplied (socketDesc : Int) (l : List UInt8) (unused : Nat) (message : List UInt8)
    (pbInAppData : Nat) (env : δ) (x z : Kse (Frame δ)) (es : List Event) (e : Exchange) : Prop
    where
  requests : requests es = []
  received : x.pending ++ received es = l
  consumed : MavlinkDim.consumed es = []
  parsed : ∃ y, y.trace = x.trace ++ es ∧
    RecordParsed socketDesc l (parseReply unused message) pbInAppData env y z e
  app : z.app = put x.app pbInAppData message
  length : e.field 4 = message.length
  unused : unusedInputLen (parseReply unused message) = unused

theorem read_replied (hfuel : 51 ≤ fuel) {x : Kse (Frame δ)} (hx : Ready x)
    {pbInAppData : Nat} (hargs : ReadAccepted socketDesc pbInAppData) (sInAppDataLen : Int)
    {l : List UInt8} {env env' : δ} (hinput : ReadInput N socketDesc x l env) {unused : Nat}
    {message : List UInt8}
    (hreply : D.exec env (parseRequest socketDesc l) = (parseReply unused message, env'))
    (hunused : unused ≤ l.length) (hmessage : message.length ≤ l.length - unused + 2) :
    ∃ z es e, ksetlsTlsRead (frameWorld D N indeterminate) fuel pbInAppData (some sInAppDataLen)
        socketDesc x = (some (message.length : Int), some (message.length : Int), z) ∧
      ReadReplied socketDesc l unused message pbInAppData env' x z es e := by
  obtain ⟨w, es, hl, hw, henv, hrequests, hreceived, hconsumed, hrecv⟩ :=
    receiveRecord_readInput (D := D) indeterminate hx hinput
  have hl' : l.length ≤ 2944 := hl
  have hlen := unusedInputLen_parseReply (by omega : unused < 65536) message
  have hshort : (parseReply unused message).length ≤
      l.length - unusedInputLen (parseReply unused message) + 8 := by
    rw [length_parseReply, hlen]
    omega
  have hstatus : responseStatus (parseReply unused message) = KSE_SUCCESS := responseStatus_zero _
  obtain ⟨e, z, hcall, hparsed⟩ := @parseRecord_accepted δ D N indeterminate fuel socketDesc hfuel
    pbInAppData (some sInAppDataLen)
    { x with gabTxRxData := put x.gabTxRxData 8 l, world := w, trace := x.trace ++ es }
    _ _ rfl hl hx.power hx.dev hw _ _ (by rw [henv]; exact hreply)
    (by rw [length_parseReply]; omega) hstatus (by rwa [hlen]) hshort
  have hfield : e.field 4 = message.length :=
    hparsed.messageLen.trans (messageLen_parseReply unused (by omega))
  have hword : int16 (message.length : Int) = message.length :=
    int16_of_lt (by omega) (by omega)
  have htrace : ∃ y, y.trace = x.trace ++ es ∧
      RecordParsed socketDesc l (parseReply unused message) pbInAppData env' y z e := by
    refine ⟨_, ?_, hparsed⟩
    rfl
  refine ⟨z, es, e, ?_, hrequests, hreceived, hconsumed, htrace, ?_, hfield, hlen⟩
  · rw [ksetlsTlsRead, if_neg (not_not.mpr hx.power), if_neg (by
      simp only [reduceCtorEq, false_or, not_or]
      exact hargs), hrecv]
    simp only [Bool.false_eq_true, if_false]
    rw [hcall, hfield, hword]
  · obtain ⟨m, hbuffer⟩ := hparsed.buffer
    rw [hparsed.app, hfield, hbuffer]
    exact congrArg (put x.app pbInAppData) (slice_put_front m
      ([0x00, 0x00] ++ bytes16 unused ++ bytes16 message.length) message)

theorem read_relocated (hfuel : 51 ≤ fuel) {x : Kse (Frame δ)} (hx : Ready x)
    {pbInAppData : Nat} (hargs : ReadAccepted socketDesc pbInAppData) (sInAppDataLen : Int)
    {l : List UInt8} {env env' : δ} (hinput : ReadInput N socketDesc x l env) {unused : Nat}
    {message : List UInt8}
    (hreply : D.exec env (parseRequest socketDesc l) = (parseReply unused message, env'))
    (hunused : unused ≤ l.length) (hmessage : message.length ≤ l.length - unused + 2) :
    ∃ z, ksetlsTlsRead (frameWorld D N indeterminate) fuel pbInAppData (some sInAppDataLen)
        socketDesc x = (some (message.length : Int), some (message.length : Int), z) ∧
      Relocated socketDesc l unused message pbInAppData env' x z := by
  obtain ⟨z, es, e, hcall, hreplied⟩ := read_replied indeterminate hfuel hx hargs sInAppDataLen
    hinput hreply hunused hmessage
  obtain ⟨y, htrace, hparsed⟩ := hreplied.parsed
  refine ⟨z, hcall, hparsed.ready, hparsed.env, hreplied.app, ?_, ?_, ?_⟩
  · rw [hparsed.pending, hreplied.unused]
  · rw [hparsed.length, hreplied.unused]
  · refine ⟨es ++ [.exchange e, .copied 6 (e.field 4)], ?_, ?_, ?_, ?_⟩
    · rw [hparsed.trace, htrace, List.append_assoc]
    · rw [requests_append, hreplied.requests, List.nil_append, ← hparsed.request]
      rfl
    · rw [received_append]
      simpa [received] using hreplied.received
    · rw [consumed_append, hreplied.consumed]
      have hconsumed := hparsed.consumed
      rw [hreplied.unused] at hconsumed
      simp [consumed, hconsumed]

/-! ### Records -/

/-- A record, the message in it, and the call of `_ksetlsTlsRead` that is to deliver it. -/
structure RecordRead where
  record : List UInt8
  message : List UInt8
  record_ne : record ≠ []
  fits : message.length ≤ record.length + 2
  pbInAppData : Nat
  pbInAppData_ne : pbInAppData ≠ NULL_PTR
  sInAppDataLen : Int

namespace RecordRead

/-- The records, as they lie in the input. -/
def input (rs : List RecordRead) : List UInt8 := (rs.map record).flatten

/-- The device takes the records one by one. -/
def Parses (D : Device δ) (socketDesc : Int) : List RecordRead → δ → Prop
  | [], _ => True
  | r :: rs, env =>
    (D.exec env (parseRequest socketDesc (input (r :: rs)))).1 =
        parseReply (input rs).length r.message ∧
      Parses D socketDesc rs (D.exec env (parseRequest socketDesc (input (r :: rs)))).2

/-- The parse commands: each has a record and those behind it. -/
def presentations (socketDesc : Int) : List RecordRead → List (List UInt8)
  | [] => []
  | r :: rs => parseRequest socketDesc (input (r :: rs)) :: presentations socketDesc rs

/-- What each call returns, stores in `*psInAppDataLen` and leaves in the memory. -/
def deliveries : List RecordRead → Bytes → List (Option Int × Option Int × Bytes)
  | [], _ => []
  | r :: rs, app =>
    (some (r.message.length : Int), some (r.message.length : Int),
      put app r.pbInAppData r.message) :: deliveries rs (put app r.pbInAppData r.message)

end RecordRead

/-- The calls of `_ksetlsTlsRead`, one after the other. -/
def readRecords {σ : Type} (W : World σ) (fuel : Nat) (socketDesc : Int) :
    List RecordRead → Kse σ → List (Option Int × Option Int × Bytes) × Kse σ
  | [], x => ([], x)
  | r :: rs, x =>
    let (sRv, psInAppDataLen, x) :=
      ksetlsTlsRead W fuel r.pbInAppData (some r.sInAppDataLen) socketDesc x
    let (replies, y) := readRecords W fuel socketDesc rs x
    ((sRv, psInAppDataLen, x.app) :: replies, y)

namespace RecordRead

theorem input_cons (r : RecordRead) (rs : List RecordRead) :
    input (r :: rs) = r.record ++ input rs := rfl

theorem input_ne_nil {rs : List RecordRead} (h : rs ≠ []) : input rs ≠ [] := by
  cases rs with
  | nil => exact absurd rfl h
  | cons r rs => exact List.append_ne_nil_of_left_ne_nil r.record_ne _

end RecordRead

/-- The records that lie in the input of a read, by induction on the records. -/
theorem readRecords_relocated (hfuel : 51 ≤ fuel) (hsock : socketDesc ≠ INVALID_SOCKET)
    {rs : List RecordRead} (hrs : rs ≠ []) {x : Kse (Frame δ)} (hx : Ready x) {env : δ}
    (hinput : ReadInput N socketDesc x (RecordRead.input rs) env)
    (hparses : RecordRead.Parses D socketDesc rs env) :
    ∃ y es, readRecords (frameWorld D N indeterminate) fuel socketDesc rs x =
        (RecordRead.deliveries rs x.app, y) ∧
      y.trace = x.trace ++ es ∧ requests es = RecordRead.presentations socketDesc rs ∧
      x.pending ++ received es = RecordRead.input rs ∧ consumed es = RecordRead.input rs ∧
      y.gusTxRxDataLength = 0 := by
  induction rs generalizing x env with
  | nil => exact absurd rfl hrs
  | cons r rs ih =>
    obtain ⟨hreply, hrest⟩ := hparses
    have hlen : (RecordRead.input (r :: rs)).length - (RecordRead.input rs).length =
        r.record.length := by
      rw [RecordRead.input_cons, List.length_append, Nat.add_sub_cancel]
    have hunused : (RecordRead.input rs).length ≤ (RecordRead.input (r :: rs)).length := by
      rw [RecordRead.input_cons, List.length_append]
      omega
    obtain ⟨z, hcall, hz⟩ := read_relocated indeterminate hfuel hx ⟨r.pbInAppData_ne, hsock⟩
      r.sInAppDataLen hinput (Prod.ext hreply rfl) hunused (by rw [hlen]; exact r.fits)
    obtain ⟨es, htrace, hrequests, hreceived, hconsumed⟩ := hz.trace
    rw [hlen, RecordRead.input_cons, List.take_left' rfl] at hconsumed
    have hpending : z.pending = RecordRead.input rs := by
      rw [hz.pending, hlen, RecordRead.input_cons, List.drop_left' rfl]
    by_cases hlast : rs = []
    · subst hlast
      refine ⟨z, es, ?_, htrace, hrequests, hreceived, ?_, hz.length⟩
      · simp only [readRecords, hcall, hz.app, RecordRead.deliveries]
      · rw [hconsumed, RecordRead.input_cons]
        exact (List.append_nil _).symm
    · have hnext : ReadInput N socketDesc z z.pending z.world.env := by
        apply ReadInput.pending
        rw [hz.length]
        exact Nat.ne_of_gt (List.length_pos_of_ne_nil (RecordRead.input_ne_nil hlast))
      rw [hpending, hz.env] at hnext
      obtain ⟨y, es', hrun, htrace', hrequests', hreceived', hconsumed', hempty⟩ :=
        ih hlast hz.ready hnext hrest
      -- nothing more is received: all of the input was pending
      rw [hpending, List.append_right_eq_self] at hreceived'
      refine ⟨y, es ++ es', ?_, ?_, ?_, ?_, ?_, hempty⟩
      · simp only [readRecords, hcall, hrun, hz.app, RecordRead.deliveries]
      · rw [htrace', htrace, List.append_assoc]
      · rw [requests_append, hrequests, hrequests']
        rfl
      · rw [received_append, hreceived', List.append_nil, hreceived]
      · rw [consumed_append, hconsumed, hconsumed', RecordRead.input_cons]

/-- **Relocation.**  A read whose input has up to 2944 bytes and whose response ends with a
    message of at most two bytes more than the device consumed delivers exactly the message,
    and the next read presents exactly the bytes that were not consumed.  So the records of one
    read of the socket, as many as they are, are presented once each and in order, and their
    messages are delivered. -/
theorem records_relocated (hfuel : 51 ≤ fuel) (hsock : socketDesc ≠ INVALID_SOCKET)
    {x : Kse (Frame δ)} (hx : Ready x) :
    (∀ (pbInAppData : Nat) (sInAppDataLen : Int) (l : List UInt8) (env env' : δ) (unused : Nat)
        (message : List UInt8), pbInAppData ≠ NULL_PTR → ReadInput N socketDesc x l env →
        D.exec env (parseRequest socketDesc l) = (parseReply unused message, env') →
        unused ≤ l.length → message.length ≤ l.length - unused + 2 →
        ∃ z, ksetlsTlsRead (frameWorld D N indeterminate) fuel pbInAppData (some sInAppDataLen)
            socketDesc x = (some (message.length : Int), some (message.length : Int), z) ∧
          Relocated socketDesc l unused message pbInAppData env' x z ∧
          (0 < unused → ∀ (pbInAppData' : Nat) (sInAppDataLen' : Int),
            pbInAppData' ≠ NULL_PTR → Parsed socketDesc (l.drop (l.length - unused)) z
              (ksetlsTlsRead (frameWorld D N indeterminate) fuel pbInAppData'
                (some sInAppDataLen') socketDesc z).2.2)) ∧
      ∀ (rs : List RecordRead) (env : δ), rs ≠ [] →
        ReadInput N socketDesc x (RecordRead.input rs) env →
        RecordRead.Parses D socketDesc rs env →
        ∃ y es, readRecords (frameWorld D N indeterminate) fuel socketDesc rs x =
            (RecordRead.deliveries rs x.app, y) ∧
          y.trace = x.trace ++ es ∧ requests es = RecordRead.presentations socketDesc rs ∧
          x.pending ++ received es = RecordRead.input rs ∧
          consumed es = RecordRead.input rs ∧ y.gusTxRxDataLength = 0 := by
  constructor
  · intro pbInAppData sInAppDataLen l env env' unused message hptr hinput hreply hunused hmessage
    obtain ⟨z, hcall, hz⟩ := read_relocated indeterminate hfuel hx ⟨hptr, hsock⟩ sInAppDataLen
      hinput hreply hunused hmessage
    refine ⟨z, hcall, hz, ?_⟩
    intro hpos pbInAppData' sInAppDataLen' hptr'
    have hlen : (l.drop (l.length - unused)).length = z.gusTxRxDataLength := by
      rw [List.length_drop, hz.length]
      omega
    rw [ksetlsTlsRead_parsed_iff (frameWorld D N indeterminate) fuel (by rwa [hz.length]) _ _ _
      hlen]
    have hmax := hz.ready.length
    simp only [MAX_IO_DATA_SIZE] at hmax
    exact ⟨⟨hz.ready.power, hptr', by simp, hsock⟩, by omega, hz.pending.symm⟩
  · intro rs env hrs hinput hparses
    exact readRecords_relocated indeterminate hfuel hsock hrs hx hinput hparses

/-- A device whose records are three bytes long; the last one is the message. -/
def lastByteRecords : Device Unit where
  exec _ request := (parseReply (request.length - 11) ((request.drop 10).take 1), ())
  fill _ := fun _ => 0
  behind _ := fun _ => 0

/-- Two such records in one read of the socket. -/
def recordPair : List RecordRead :=
  [⟨[1, 2, 3], [3], by decide, by decide, 8, by decide, 0⟩,
    ⟨[4, 5, 6], [6], by decide, by decide, 9, by decide, 0⟩]

theorem readInput_recordPair :
    ReadInput twoRecords 3 (poweredOn (fun _ => 0) (Frame.idle ())) [1, 2, 3, 4, 5, 6] () :=
  ReadInput.fresh (l := ⟨[1, 2, 3, 4, 5, 6], by decide⟩) rfl rfl (by decide) rfl

theorem records_relocated_pair :
    let W := frameWorld lastByteRecords twoRecords fun _ => 0
    let x := poweredOn (fun _ => 0) (Frame.idle ())
    (∃ z, ksetlsTlsRead W 51 8 (some 0) 3 x = (some 1, some 1, z) ∧
        Relocated 3 [1, 2, 3, 4, 5, 6] 3 [3] 8 () x z ∧
        Parsed 3 [4, 5, 6] z (ksetlsTlsRead W 51 9 (some 0) 3 z).2.2) ∧
      ∃ y es, readRecords W 51 3 recordPair x = (RecordRead.deliveries recordPair x.app, y) ∧
        y.trace = x.trace ++ es ∧ requests es = RecordRead.presentations 3 recordPair ∧
        x.pending ++ received es = [1, 2, 3, 4, 5, 6] ∧ consumed es = [1, 2, 3, 4, 5, 6] ∧
        y.gusTxRxDataLength = 0 := by
  intro W x
  obtain ⟨hread, hrun⟩ := @records_relocated Unit lastByteRecords twoRecords (fun _ => 0) 51 3
    (Nat.le_refl 51) (by decide) x ⟨rfl, ⟨0, rfl⟩, rfl, Nat.zero_le _⟩
  constructor
  · obtain ⟨z, hcall, hz, hnext⟩ := hread 8 0 [1, 2, 3, 4, 5, 6] () () 3 [3] (by decide)
      readInput_recordPair (by decide) (by decide) (by decide)
    exact ⟨z, hcall, hz, hnext (by decide) 9 0 (by decide)⟩
  · exact hrun recordPair () (by decide) readInput_recordPair
      ⟨by decide +kernel, by decide +kernel, trivial⟩

end MavlinkDim
