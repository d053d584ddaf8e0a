import MavlinkDim.DimRecv
import MavlinkDim.NewConnection

/-!
# Record boundaries

`gcs_read_message` of the server and `autopilot_read_message` of the client
return after a record that completes a message, or when there is nothing to
read, and are called again with new locals.  What is not yet a message stays in
the channel.  `record_boundaries` says that the messages they enqueue are those of
the bytes that the records hold together, wherever one record ends and the next
begins.
-/

namespace MavlinkDim

open ByteMemory

/-! ### Records of the device -/

/-- The record of an accepted response to a parse command, if it is not empty. -/
def Exchange.record (e : Exchange) : Option (List UInt8) :=
  if e.pbSendData 1 = 0x20 ∧ e.Accepted 6 ∧ 0 < e.field 4 then
    some (slice e.gabTxRxData 6 (e.field 4))
  else none

def records (es : List Event) : List (List UInt8) := (exchanges es).filterMap Exchange.record

/-- A record has at most `MAX_IO_DATA_SIZE` bytes, and a refusal is no positive status word. -/
def Exchange.RecordFits (e : Exchange) : Prop :=
  ¬e.PositiveStatus ∧ (e.pbSendData 1 = 0x20 → e.Accepted 6 → e.field 4 ≤ MAX_IO_DATA_SIZE)

instance (e : Exchange) : Decidable e.RecordFits := by
  unfold Exchange.RecordFits
  infer_instance

def RecordsFit (es : List Event) : Prop := ∀ e ∈ exchanges es, e.RecordFits

instance (es : List Event) : Decidable (RecordsFit es) := by
  unfold RecordsFit
  infer_instance

theorem recordsFit_append (es es' : List Event) :
    RecordsFit (es ++ es') ↔ RecordsFit es ∧ RecordsFit es' := by
  rw [RecordsFit, exchanges_append, List.forall_mem_append]
  rfl

theorem RecordsFit.of_mem {es : List Event} (h : RecordsFit es) {e : Exchange}
    (he : .exchange e ∈ es) : e.RecordFits := by
  apply h
  rw [exchanges, List.mem_filterMap]
  exact ⟨_, he, rfl⟩

theorem records_append (es es' : List Event) :
    records (es ++ es') = records es ++ records es' := by
  rw [records, exchanges_append, List.filterMap_append]
  rfl

theorem records_exchange (e : Exchange) (es : List Event) :
    records (.exchange e :: es) = e.record.toList ++ records es := by
  cases h : e.record <;> simp [records, exchanges, h]

theorem exchanges_of_not {es : List Event} (h : ∀ e, .exchange e ∉ es) : exchanges es = [] := by
  rw [exchanges, List.filterMap_eq_nil_iff]
  rintro (e | _ | _ | _) he
  · exact absurd he (h e)
  · rfl
  · rfl
  · rfl

theorem records_of_not {es : List Event} (h : ∀ e, .exchange e ∉ es) : records es = [] := by
  rw [records, exchanges_of_not h, List.filterMap_nil]

theorem Exchange.record_of_rejected {e : Exchange} (h : ¬e.Accepted 6) : e.record = none := by
  refine if_neg ?_
  rintro ⟨-, haccepted, -⟩
  exact h haccepted

theorem Exchange.record_of_other {e : Exchange} (h : e.pbSendData 1 ≠ 0x20) : e.record = none := by
  refine if_neg ?_
  rintro ⟨hcmd, -⟩
  exact h hcmd

/-- What a read leaves of its events: nothing and no positive code, or one record, whose length
    is the code and the size and whose bytes are at `pbData`. -/
def Delivers (es : List Event) (pbData : Nat) (sRv size : Option Int) (app : Bytes) : Prop :=
  (records es = [] ∧ ¬PositiveCode sRv) ∨
    ∃ record, records es = [record] ∧ record ≠ [] ∧ sRv = some (record.length : Int) ∧
      size = some (record.length : Int) ∧ slice app pbData record.length = record

variable {σ : Type} (W : World σ) (fuel : Nat)

theorem delivers_of_early {es : List Event} {pbData : Nat} {sRv size : Option Int} {app : Bytes}
    (hes : ∀ e, .exchange e ∉ es) (hcode : ¬PositiveCode sRv) :
    Delivers es pbData sRv size app := Or.inl ⟨records_of_not hes, hcode⟩

/-- A message that is copied to the application. -/
theorem delivers_of_accepted {e : Exchange} {pbData : Nat} {app : Bytes}
    (hcmd : e.pbSendData 1 = 0x20) (haccepted : e.Accepted 6) (hfits : e.RecordFits)
    (happ : slice app pbData (e.field 4) = slice e.gabTxRxData 6 (e.field 4)) :
    Delivers [.exchange e, .copied 6 (e.field 4)] pbData (some (int16 (e.field 4)))
      (some (int16 (e.field 4))) app := by
  have hlen : e.field 4 ≤ 2944 := hfits.2 hcmd haccepted
  have hword : int16 (e.field 4) = e.field 4 := int16_of_lt (by omega) (by omega)
  have hrecords : records [.exchange e, .copied 6 (e.field 4)] = e.record.toList := by
    rw [records_exchange, records_of_not (by simp), List.append_nil]
  rw [Delivers, hrecords, hword]
  rcases Nat.eq_zero_or_pos (e.field 4) with hzero | hpos
  · have hnone : e.record = none := if_neg (by omega)
    exact Or.inl ⟨by rw [hnone]; rfl, by simp [hzero]⟩
  · have hsome : e.record = some (slice e.gabTxRxData 6 (e.field 4)) :=
      if_pos ⟨hcmd, haccepted, hpos⟩
    refine Or.inr ⟨slice e.gabTxRxData 6 (e.field 4), by rw [hsome]; rfl, ?_, ?_⟩
    · intro hempty
      have hlength := congrArg List.length hempty
      rw [length_slice, List.length_nil] at hlength
      omega
    · rw [length_slice]
      exact ⟨rfl, rfl, happ⟩

theorem parseRecord_delivers (pbInAppData : Nat) (psInAppDataLen : Option Int)
    (socketDesc sInLen : Int) (x : Kse σ) :
    ∃ es, (parseRecord W fuel pbInAppData psInAppDataLen socketDesc sInLen x).2.2.trace =
        x.trace ++ es ∧
      (RecordsFit es → Delivers es pbInAppData
        (parseRecord W fuel pbInAppData psInAppDataLen socketDesc sInLen x).1
        (parseRecord W fuel pbInAppData psInAppDataLen socketDesc sInLen x).2.1
        (parseRecord W fuel pbInAppData psInAppDataLen socketDesc sInLen x).2.2.app) := by
  obtain ⟨e, w, y, hy, hof, hcase⟩ :=
    parseRecord_cases W fuel pbInAppData psInAppDataLen socketDesc sInLen x
  have htrace : y.trace = x.trace := by rw [hy, Kse.store_trace]
  have hcmd : e.pbSendData 1 = 0x20 := by
    rw [hof.pbSendData, hy, Kse.store_gabTxRxData, put_in _ (Nat.zero_le _) (by simp)]
    rfl
  rcases hcase with ⟨hrejected, sRv, z, hcall, hz, hcode⟩ |
    ⟨hrejected, -, returned, sRv, z, hset, hcall⟩ | ⟨haccepted, hcall⟩
  · refine ⟨[.exchange e], ?_, ?_⟩
    · rw [hcall, ← htrace]
      rcases hz with rfl | rfl <;> rfl
    · rw [hcall]
      intro hfits
      refine Or.inl ⟨?_, ?_⟩
      · rw [records_exchange, Exchange.record_of_rejected hrejected]
        rfl
      · rw [hcode]
        exact (hfits.of_mem (by simp)).1
  · obtain ⟨e', es, htrace', hes, hcmd', hcode⟩ :=
      setAlert_code W fuel socketDesc (y.exchanged e w)
    rw [hset] at htrace' hcode
    have hz : z.trace = x.trace ++ .exchange e :: .exchange e' :: es := by
      simpa [htrace] using htrace'
    refine ⟨.exchange e :: .exchange e' :: es, ?_, ?_⟩
    · rw [hcall]
      cases returned <;> exact hz
    · rw [hcall]
      intro hfits
      have hother : e'.pbSendData 1 ≠ 0x20 := by
        rw [hcmd']
        decide
      refine Or.inl ⟨?_, ?_⟩
      · rw [records_exchange, records_exchange, Exchange.record_of_rejected hrejected,
          Exchange.record_of_other hother, records_of_not hes]
        rfl
      · rw [hcode]
        exact (hfits.of_mem (by simp)).1
  · refine ⟨[.exchange e, .copied 6 (e.field 4)], ?_, ?_⟩
    · rw [hcall]
      simp [Kse.copyOut, htrace]
    · rw [hcall]
      intro hfits
      apply delivers_of_accepted hcmd haccepted (hfits.of_mem (by simp))
      rw [Kse.next_app]
      exact slice_blit_same _ _ _ _ _

/-- `_ksetlsTlsRead` delivers at most one record. -/
theorem ksetlsTlsRead_delivers (pbInAppData : Nat) (psInAppDataLen : Option Int)
    (socketDesc : Int) (x : Kse σ) :
    ∃ es, (ksetlsTlsRead W fuel pbInAppData psInAppDataLen socketDesc x).2.2.trace =
        x.trace ++ es ∧
      (RecordsFit es → Delivers es pbInAppData
        (ksetlsTlsRead W fuel pbInAppData psInAppDataLen socketDesc x).1
        (ksetlsTlsRead W fuel pbInAppData psInAppDataLen socketDesc x).2.1
        (ksetlsTlsRead W fuel pbInAppData psInAppDataLen socketDesc x).2.2.app) := by
  unfold ksetlsTlsRead
  split
  · exact ⟨[], by simp, fun _ => delivers_of_early (by simp) (by simp)⟩
  · split
    · exact ⟨[], by simp, fun _ => delivers_of_early (by simp) (by simp)⟩
    · rcases receiveRecord_cases W 8 socketDesc x with
        ⟨-, w, hrecv⟩ | ⟨-, l, w, -, hrecv⟩ | ⟨-, hrecv⟩
      · simp only [hrecv, if_true]
        exact ⟨[], by simp, fun _ => delivers_of_early (by simp) (by simp)⟩
      · simp only [hrecv, Bool.false_eq_true, if_false]
        obtain ⟨es, htrace, hdelivers⟩ := parseRecord_delivers W fuel pbInAppData psInAppDataLen
          socketDesc l.length { x with gabTxRxData := put x.gabTxRxData 8 l, world := w
                                       trace := x.trace ++ [.received l] }
        refine ⟨.received l :: es, by simp [htrace], ?_⟩
        intro hfits
        have hrecords : records (.received l :: es) = records es := rfl
        rw [Delivers, hrecords]
        exact hdelivers hfits
      · simp only [hrecv, Bool.false_eq_true, if_false]
        exact parseRecord_delivers W fuel pbInAppData psInAppDataLen socketDesc
          (int16 x.gusTxRxDataLength) { x with gabTxRxData := put x.gabTxRxData 8 x.pending }

/-- So does `recv`: its positive results are the lengths of records. -/
theorem recv_delivers (H : Host σ) (size : Option Int) (data : Nat) (x : Dim σ)
    (hfits : RecordsFit (recvEvents fuel H size data x)) :
    (records (recvEvents fuel H size data x) = [] ∧
        ∀ result, (x.recv H fuel size data).1 = .returned result → result ≤ 0) ∨
      ∃ record, records (recvEvents fuel H size data x) = [record] ∧ record ≠ [] ∧
        (x.recv H fuel size data).1 = .returned record.length ∧
        (x.recv H fuel size data).2.1 = some (record.length : Int) ∧
        slice (x.recv H fuel size data).2.2.kse.app data record.length = record := by
  by_cases h : x.Reads H
  · obtain ⟨houtcome, hsize, hkse⟩ := recv_reads fuel H size data h
    obtain ⟨es, htrace, hdelivers⟩ := ksetlsTlsRead_delivers H.toWorld fuel data size x.pollFd
      (x.polled H)
    have hevents : recvEvents fuel H size data x = es := by
      rw [recvEvents, hkse, htrace]
      exact List.drop_left
    rw [hevents] at hfits ⊢
    rw [houtcome, hsize, hkse]
    rcases hdelivers hfits with ⟨hnone, hcode⟩ | ⟨record, hrecord, hne, hcode, hlen, happ⟩
    · refine Or.inl ⟨hnone, ?_⟩
      intro result hresult
      by_contra hpos
      apply hcode
      refine ⟨result, ?_, by omega⟩
      revert hresult
      cases (ksetlsTlsRead H.toWorld fuel data size x.pollFd (x.polled H)).1 <;>
        simp [Outcome.ofCode]
    · refine Or.inr ⟨record, hrecord, hne, ?_, hlen, happ⟩
      rw [hcode]
      rfl
  · obtain ⟨result, houtcome, hle, htrace⟩ := recv_idle fuel H size data h
    have hevents : recvEvents fuel H size data x = [] := by
      rw [recvEvents, htrace, List.drop_length]
    refine Or.inl ⟨by rw [hevents]; rfl, ?_⟩
    intro result' hresult
    rw [houtcome, Outcome.returned.injEq] at hresult
    omega

/-! ### Turns that read -/

/-- What passes between the driver and the world in a turn of the loop that reads messages. -/
def Life.driverEvents (W : DimHost σ) (fuel recvBuffer : Nat) (recvSize : Int) (l : Life σ) :
    List Event :=
  if l.Connected then recvEvents fuel W.toHost (some recvSize) recvBuffer l.dim else []

/-- The bytes that the turn parses are those of its records. -/
theorem received_eq_records {W : DimHost σ} {fuel recvBuffer : Nat} {recvSize : Int} {l : Life σ}
    (hfits : RecordsFit (l.driverEvents W fuel recvBuffer recvSize)) :
    l.received W fuel recvBuffer recvSize =
      (records (l.driverEvents W fuel recvBuffer recvSize)).flatten := by
  rw [Life.driverEvents] at hfits ⊢
  rw [Life.received]
  by_cases hconnected : l.Connected
  · rw [if_pos hconnected] at hfits ⊢
    rw [if_pos hconnected, Life.recv]
    have hdelivers := recv_delivers fuel W.toHost (some recvSize) recvBuffer l.dim hfits
    rcases hrecv : l.dim.recv W.toHost fuel (some recvSize) recvBuffer with ⟨outcome, size, dim⟩
    rw [hrecv] at hdelivers
    rcases hdelivers with ⟨hnone, hcode⟩ | ⟨record, hrecord, hne, houtcome, hsize, happ⟩
    · rw [hnone, List.flatten_nil]
      cases outcome with
      | returned result =>
        have hle := hcode result rfl
        exact if_neg (by omega)
      | threw => rfl
      | running => rfl
    · have hpos : 0 < record.length := List.length_pos_of_ne_nil hne
      dsimp only at houtcome hsize happ
      rw [houtcome, hsize, hrecord, List.flatten_singleton]
      dsimp only
      rw [if_pos (by omega), Option.getD_some, Int.toNat_natCast]
      exact happ
  · rw [if_neg hconnected, if_neg hconnected]
    rfl

/-- The threads of a program in which a function that reads messages is called again and again,
    the events of the driver in these calls, and the messages that they enqueued. -/
structure Relayed (M : Mavlink) (S : Type) where
  threads : S
  events : List Event
  messages : List M.Message

variable {M : Mavlink}

/-- The parser on the bytes of all records, uncut, comes to the state of the channel and gives
    the messages that were enqueued. -/
def Relayed.Uncut {S : Type} (channel : S → M.Status) (start : M.Status) (x : Relayed M S) :
    Prop :=
  RecordsFit x.events →
    M.parse start (records x.events).flatten = (channel x.threads, x.messages)

theorem Relayed.Uncut.read {S : Type} {channel : S → M.Status} {start : M.Status}
    {x : Relayed M S} (h : x.Uncut channel start) {s : S} {es : List Event} {bytes : List UInt8}
    (hbytes : RecordsFit es → bytes = (records es).flatten)
    (hchannel : channel s = (M.parse (channel x.threads) bytes).1) :
    Relayed.Uncut channel start
      ⟨s, x.events ++ es, x.messages ++ (M.parse (channel x.threads) bytes).2⟩ := by
  intro hfits
  obtain ⟨hfitsBefore, hfitsRead⟩ := (recordsFit_append _ _).mp hfits
  have hbefore := h hfitsBefore
  have hread := hbytes hfitsRead
  dsimp only
  rw [records_append, List.flatten_append, Mavlink.parse_append, hbefore, ← hread, hchannel]

/-- A step without a read. -/
theorem Relayed.Uncut.other {S : Type} {channel : S → M.Status} {start : M.Status}
    {x : Relayed M S} (h : x.Uncut channel start) {s : S}
    (hchannel : channel s = channel x.threads) :
    Relayed.Uncut channel start ⟨s, x.events ++ [], x.messages ++ []⟩ := by
  rw [List.append_nil, List.append_nil]
  intro hfits
  have hbefore := h hfits
  rw [← hchannel] at hbefore
  exact hbefore

/-! ### The server -/

/-- A step of a server in which `gcs_read_message` is called again whenever it returns. -/
def ServerStep.readAgain (W : DimHost σ) (fuel : Nat) (L : ServerLocals) :
    ServerStep M → Server M σ → Option (Server M σ)
  | .gcsRead, s =>
    (s.gcsReadMessage W fuel L).map fun (result, s) =>
      if result = none then s else s.gcsReadCall L
  | step, s => step.run W fuel L s

def ServerStep.driverEvents (W : DimHost σ) (fuel : Nat) (L : ServerLocals) :
    ServerStep M → Server M σ → List Event
  | .gcsRead, s => s.life.driverEvents W fuel L.recvBuffer s.recvSize
  | _, _ => []

def ServerStep.relay (W : DimHost σ) (fuel : Nat) (L : ServerLocals) (step : ServerStep M)
    (x : Relayed M (Server M σ)) : Option (Relayed M (Server M σ)) :=
  (step.readAgain W fuel L x.threads).map fun s =>
    ⟨s, x.events ++ step.driverEvents W fuel L x.threads,
      x.messages ++ step.enqueued x.threads s⟩

theorem ServerStep.readAgain_other {W : DimHost σ} {fuel : Nat} {L : ServerLocals}
    {step : ServerStep M} (hother : step ≠ .gcsRead) (s : Server M σ) :
    step.readAgain W fuel L s = step.run W fuel L s := by
  cases step with
  | gcsRead => exact absurd rfl hother
  | gcsWrite | autopilotRead _ | autopilotWrite => rfl

theorem ServerStep.relay_uncut {W : DimHost σ} {fuel : Nat} {L : ServerLocals} {start : M.Status}
    {step : ServerStep M} {x y : Relayed M (Server M σ)} (h : step.relay W fuel L x = some y)
    (hx : x.Uncut Server.channel start) : y.Uncut Server.channel start := by
  obtain ⟨s, hstep, rfl⟩ := Option.map_eq_some_iff.mp h
  cases step with
  | gcsRead =>
    obtain ⟨⟨result, s₁⟩, hread, hs⟩ := Option.map_eq_some_iff.mp hstep
    obtain ⟨hchannel, hqueue⟩ := Server.gcsReadMessage_received hread
    have hcalled : s.channel = s₁.channel ∧ s.qToAutopilot = s₁.qToAutopilot := by
      rw [← hs]
      dsimp only
      split <;> exact ⟨rfl, rfl⟩
    have henqueued : ServerStep.enqueued .gcsRead x.threads s = (M.parse x.threads.channel
        (x.threads.life.received W fuel L.recvBuffer x.threads.recvSize)).2 := by
      rw [ServerStep.enqueued, hcalled.2, hqueue, List.drop_left]
    rw [henqueued]
    exact hx.read received_eq_records (hcalled.1.trans hchannel)
  | gcsWrite | autopilotRead _ | autopilotWrite =>
    rw [ServerStep.readAgain_other (by simp)] at hstep
    exact hx.other (ServerStep.other_keeps hstep (by simp)).1

/-! ### The client -/

/-- A step of a client in which `autopilot_read_message` is called again whenever it returns, and
    only it parses. -/
inductive ClientTurn where
  | autopilotRead
  | autopilotWrite
  | gcsWrite

/-- The thread calls `autopilot_read_message`. -/
def Client.autopilotReadCall (L : ClientLocals) (s : Client M σ) : Client M σ :=
  { s with readWritePc := .read, readCalls := s.readCalls + 1
           recvSize := L.recvSize s.readCalls }

def ClientTurn.run (W : ClientHost σ) (fuel : Nat) (L : ClientLocals) :
    ClientTurn → Client M σ → Option (Client M σ)
  | .autopilotRead, s =>
    (s.autopilotReadMessage W fuel L).map fun (result, s) =>
      if result = none then s else s.autopilotReadCall L
  | .autopilotWrite, s => (s.autopilotWriteMessage W fuel L).map Prod.snd
  | .gcsWrite, s => some s.gcsWrite

def ClientTurn.driverEvents (W : ClientHost σ) (fuel : Nat) (L : ClientLocals) :
    ClientTurn → Client M σ → List Event
  | .autopilotRead, s => s.life.driverEvents W.toDimHost fuel L.recvBuffer s.recvSize
  | _, _ => []

/-- The messages that `autopilot_read_message` enqueues. -/
def ClientTurn.enqueued : ClientTurn → Client M σ → Client M σ → List M.Message
  | .autopilotRead, s, s' => s'.qToGcs.drop s.qToGcs.length
  | _, _, _ => []

def ClientTurn.relay (W : ClientHost σ) (fuel : Nat) (L : ClientLocals) (turn : ClientTurn)
    (x : Relayed M (Client M σ)) : Option (Relayed M (Client M σ)) :=
  (turn.run W fuel L x.threads).map fun s =>
    ⟨s, x.events ++ turn.driverEvents W fuel L x.threads,
      x.messages ++ turn.enqueued x.threads s⟩

theorem ClientTurn.relay_uncut {W : ClientHost σ} {fuel : Nat} {L : ClientLocals}
    {start : M.Status} {turn : ClientTurn} {x y : Relayed M (Client M σ)}
    (h : turn.relay W fuel L x = some y) (hx : x.Uncut Client.channel start) :
    y.Uncut Client.channel start := by
  obtain ⟨s, hturn, rfl⟩ := Option.map_eq_some_iff.mp h
  cases turn with
  | autopilotRead =>
    obtain ⟨⟨result, s₁⟩, hread, hs⟩ := Option.map_eq_some_iff.mp hturn
    obtain ⟨life, channel, recvSize, messages, hreceive, rfl⟩ :=
      Client.autopilotReadMessage_cases hread
    obtain ⟨hchannel, hmessages, -⟩ := receive_received hreceive
    have hcalled : s.channel = channel ∧ s.qToGcs = x.threads.qToGcs ++ messages := by
      rw [← hs]
      dsimp only
      split <;> exact ⟨rfl, rfl⟩
    have henqueued : ClientTurn.enqueued .autopilotRead x.threads s = (M.parse x.threads.channel
        (x.threads.life.received W.toDimHost fuel L.recvBuffer x.threads.recvSize)).2 := by
      rw [ClientTurn.enqueued, hcalled.2, List.drop_left]
      exact hmessages
    rw [henqueued]
    exact hx.read received_eq_records (hcalled.1.trans hchannel)
  | autopilotWrite =>
    obtain ⟨⟨result, s₁⟩, hwrite, rfl⟩ := Option.map_eq_some_iff.mp hturn
    apply hx.other
    rcases Client.autopilotWriteMessage_cases hwrite with
      ⟨rfl, -⟩ | ⟨message, qToAutopilot, life, -, rfl, -⟩ <;> rfl
  | gcsWrite =>
    obtain rfl := Option.some.inj hturn
    apply hx.other
    rw [Client.gcsWrite]
    split <;> rfl

/-! ### Runs -/

theorem server_uncut (W : DimHost σ) (fuel : Nat) (L : ServerLocals) (s : Server M σ)
    (steps : List (ServerStep M)) :
    ∀ x ∈ Runs.states (ServerStep.relay W fuel L) ⟨s.gcsReadCall L, [], []⟩ steps,
      x.Uncut Server.channel s.channel := by
  apply Runs.states_induction
  · intro step x y hstep hx
    exact ServerStep.relay_uncut hstep hx
  · intro _
    rfl

theorem client_uncut (W : ClientHost σ) (fuel : Nat) (L : ClientLocals) (s : Client M σ)
    (turns : List ClientTurn) :
    ∀ x ∈ Runs.states (ClientTurn.relay W fuel L) ⟨s.autopilotReadCall L, [], []⟩ turns,
      x.Uncut Client.channel s.channel := by
  apply Runs.states_induction
  · intro turn x y hturn hx
    exact ClientTurn.relay_uncut hturn hx
  · intro _
    rfl

/-- **Record boundaries do not matter.**  Let `gcs_read_message` of a server be called again and
    again, between steps of the other threads, or `autopilot_read_message` of a client, which is
    then the only one that parses: in every run, however the device cuts what it decrypts into
    records of at most `MAX_IO_DATA_SIZE` bytes, and however many results without a record are in
    between, the messages enqueued are those that the parser gives for the uncut bytes. -/
theorem record_boundaries (W : DimHost σ) (W' : ClientHost σ) (fuel : Nat) (L : ServerLocals)
    (L' : ClientLocals) (s : Server M σ) (c : Client M σ) :
    (∀ steps, ∀ x ∈ Runs.states (ServerStep.relay W fuel L) ⟨s.gcsReadCall L, [], []⟩ steps,
        RecordsFit x.events →
          x.messages = (M.parse s.channel (records x.events).flatten).2) ∧
      ∀ turns, ∀ x ∈ Runs.states (ClientTurn.relay W' fuel L')
          ⟨c.autopilotReadCall L', [], []⟩ turns,
        RecordsFit x.events →
          x.messages = (M.parse c.channel (records x.events).flatten).2 := by
  constructor
  · intro steps x hx hfits
    have huncut := server_uncut W fuel L s steps x hx hfits
    exact (congrArg Prod.snd huncut).symm
  · intro turns x hx hfits
    have huncut := client_uncut W' fuel L' c turns x hx hfits
    exact (congrArg Prod.snd huncut).symm

/-- A first record that ends inside a frame, one without a byte, and one with the rest of the
    frame and a second frame; then nothing more. -/
def cutFrames (l : List UInt8) : List Report :=
  [dataReport (l.take 5), dataReport [], dataReport (l.drop 5 ++ l)]

/-- Both frames arrive on both sides. -/
theorem record_boundaries_two :
    let server : Life Script := ⟨accepted (cutFrames gcsHeartbeat) [[0x17], [0x17], [0x17]], []⟩
    let client : Life Script :=
      ⟨((opened (statusReport 0 0 :: statusReport 0 1 :: cutFrames autopilotHeartbeat)
        [[0x16], [0x17], [0x17], [0x17]]).connect scriptedHost 5).2.initPoll, []⟩
    let s : Server mavlink1 Script := Server.start zeroedLocals server
    let c : Client mavlink1 Script := Client.start healthyHost 5 client
    (∃ x ∈ Runs.states (ServerStep.relay emptyBus 5 zeroedLocals)
        ⟨s.gcsReadCall zeroedLocals, [], []⟩ (List.replicate 4 .gcsRead),
      records x.events = [gcsHeartbeat.take 5, gcsHeartbeat.drop 5 ++ gcsHeartbeat] ∧
        x.messages = (mavlink1.parse s.channel (records x.events).flatten).2 ∧
        x.messages.length = 2) ∧
    ∃ x ∈ Runs.states (ClientTurn.relay healthyHost 5 clientLocals)
        ⟨c.autopilotReadCall clientLocals, [], []⟩ (List.replicate 4 .autopilotRead),
      records x.events = [autopilotHeartbeat.take 5,
          autopilotHeartbeat.drop 5 ++ autopilotHeartbeat] ∧
        x.messages = (mavlink1.parse c.channel (records x.events).flatten).2 ∧
        x.messages.length = 2 := by
  intro server client s c
  obtain ⟨hserver, hclient⟩ :=
    record_boundaries emptyBus healthyHost 5 zeroedLocals clientLocals s c
  have hs : ∃ x ∈ Runs.states (ServerStep.relay emptyBus 5 zeroedLocals)
      ⟨s.gcsReadCall zeroedLocals, [], []⟩ (List.replicate 4 .gcsRead),
      RecordsFit x.events ∧ x.messages.length = 2 ∧
        records x.events = [gcsHeartbeat.take 5, gcsHeartbeat.drop 5 ++ gcsHeartbeat] := by
    decide +kernel
  have hc : ∃ x ∈ Runs.states (ClientTurn.relay healthyHost 5 clientLocals)
      ⟨c.autopilotReadCall clientLocals, [], []⟩ (List.replicate 4 .autopilotRead),
      RecordsFit x.events ∧ x.messages.length = 2 ∧ records x.events =
        [autopilotHeartbeat.take 5, autopilotHeartbeat.drop 5 ++ autopilotHeartbeat] := by
    decide +kernel
  obtain ⟨x, hx, hfits, hlen, hrecords⟩ := hs
  obtain ⟨y, hy, hfits', hlen', hrecords'⟩ := hc
  exact ⟨⟨x, hx, hrecords, hserver _ x hx hfits, hlen⟩,
    ⟨y, hy, hrecords', hclient _ y hy hfits', hlen'⟩⟩

end MavlinkDim
