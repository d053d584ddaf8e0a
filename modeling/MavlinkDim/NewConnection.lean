import MavlinkDim.ClientStreams
import MavlinkDim.ConnectionIsolation

/-!
# New connections

Nothing resets the channel that the bytes of the socket go through, so a new
connection starts with what the bytes before it left there: those of the earlier
connections, and on the client also the datagrams of the GCS.
`new_connections_iff` says in which runs every connection gets the messages of its
own bytes.
-/

namespace MavlinkDim

open Transducer

/-- From a connection that brought `bytes` its `messages` were enqueued.  These are the messages
    of its own bytes, and they will be, whatever it brings next. -/
def OwnMessages (M : Mavlink) (channel : M.Status) (bytes : List UInt8)
    (messages : List M.Message) : Prop :=
  ∀ next, messages ++ (M.parse channel next).2 = (M.parse M.idle (bytes ++ next)).2

/-- The channel goes on like an idle one. -/
def AsGoodAsIdle (M : Mavlink) (channel : M.Status) : Prop :=
  Equivalent M.parseChar channel M.idle

section OwnMessages

variable {M : Mavlink} {channel : M.Status} {bytes : List UInt8} {messages : List M.Message}

theorem ownMessages_nil_iff : OwnMessages M channel [] [] ↔ AsGoodAsIdle M channel := by
  simp only [OwnMessages, AsGoodAsIdle, Equivalent, List.nil_append, Mavlink.parse_eq_run]

/-- The connection brings more. -/
theorem OwnMessages.read (h : OwnMessages M channel bytes messages) (l : List UInt8) :
    OwnMessages M (M.parse channel l).1 (bytes ++ l) (messages ++ (M.parse channel l).2) := by
  intro next
  have hnext := h (l ++ next)
  rw [Mavlink.parse_append, ← List.append_assoc, ← List.append_assoc] at hnext
  exact hnext

/-- Another stream goes through the channel. -/
theorem OwnMessages.foreign_iff (h : OwnMessages M channel bytes messages) (channel' : M.Status) :
    OwnMessages M channel' bytes messages ↔ Equivalent M.parseChar channel' channel := by
  simp only [OwnMessages, Equivalent, ← Mavlink.parse_eq_run]
  apply forall_congr'
  intro next
  rw [← h next]
  exact List.append_right_inj _

end OwnMessages

/-! ### What the threads receive -/

variable {M : Mavlink} {σ : Type}

/-- The bytes of a turn of the loop that reads messages from the socket. -/
def Life.received (W : DimHost σ) (fuel recvBuffer : Nat) (recvSize : Int) (l : Life σ) :
    List UInt8 :=
  if l.Connected then
    match l.recv W fuel recvSize recvBuffer with
    | none => []
    | some (result, recvSize, life) =>
      if result > 0 then ByteMemory.slice life.dim.kse.app recvBuffer recvSize.toNat else []
  else []

/-- The descriptors that an object got, one for each connection that it tried to make. -/
def Life.descriptors (l : Life σ) : List Int := l.log.filterMap DimEvent.got

/-- The threads of a program, the bytes of its last connection that they parsed and the messages
    that they enqueued from them. -/
structure Reception (M : Mavlink) (S : Type) where
  threads : S
  bytes : List UInt8
  messages : List M.Message

/-- A step after which the program has the object `life'`, and which parsed and enqueued. -/
def Reception.next {S : Type} (x : Reception M S) (threads : S) (life life' : Life σ)
    (bytes : List UInt8) (messages : List M.Message) : Reception M S :=
  if life'.descriptors = life.descriptors then ⟨threads, x.bytes ++ bytes, x.messages ++ messages⟩
  else ⟨threads, [], []⟩

/-- The bytes that a step of a server parses. -/
def ServerStep.received (W : DimHost σ) (fuel : Nat) (L : ServerLocals) :
    ServerStep M → Server M σ → List UInt8
  | .gcsRead, s =>
    match s.gcsReadPc with
    | .accept => []
    | .read => s.life.received W fuel L.recvBuffer s.recvSize
  | _, _ => []

/-- The messages that `gcs_read_message` enqueues in a step of a server. -/
def ServerStep.enqueued : ServerStep M → Server M σ → Server M σ → List M.Message
  | .gcsRead, s, s' => s'.qToAutopilot.drop s.qToAutopilot.length
  | _, _, _ => []

/-- A step of a server, with what it receives. -/
def ServerStep.receive (W : DimHost σ) (fuel : Nat) (L : ServerLocals) (step : ServerStep M)
    (x : Reception M (Server M σ)) : Option (Reception M (Server M σ)) :=
  (step.run W fuel L x.threads).map fun s =>
    x.next s x.threads.life s.life (step.received W fuel L x.threads) (step.enqueued x.threads s)

/-- The bytes of the server that a step of a client parses. -/
def ClientStep.received (W : ClientHost σ) (fuel : Nat) (L : ClientLocals) :
    ClientStep → Client M σ → List UInt8
  | .readWrite, s =>
    match s.readWritePc with
    | .read => s.life.received W.toDimHost fuel L.recvBuffer s.recvSize
    | _ => []
  | _, _ => []

/-- The messages that `autopilot_read_message` enqueues in a step of a client. -/
def ClientStep.enqueued : ClientStep → Client M σ → Client M σ → List M.Message
  | .readWrite, s, s' => s'.qToGcs.drop s.qToGcs.length
  | _, _, _ => []

/-- A step of a client, with what it receives. -/
def ClientStep.receive (W : ClientHost σ) (fuel : Nat) (L : ClientLocals) (step : ClientStep)
    (x : Reception M (Client M σ)) : Option (Reception M (Client M σ)) :=
  (step.run W fuel L x.threads).map fun s =>
    x.next s x.threads.life s.life (step.received W fuel L x.threads) (step.enqueued x.threads s)

/-! ### The condition -/

/-- A step in which a session begins finds the channel as good as idle. -/
def ServerStep.FindsIdle (W : DimHost σ) (fuel : Nat) (L : ServerLocals) (step : ServerStep M)
    (s : Server M σ) : Prop :=
  ∀ s', step.run W fuel L s = some s' → s.gcsReadPc = .accept → s'.gcsReadPc = .read →
    AsGoodAsIdle M s.channel

/-- A step that makes a connection finds the channel as good as idle, and a datagram of the GCS
    that comes with a connection leaves it as good as it was. -/
def ClientStep.FindsIdle (W : ClientHost σ) (fuel : Nat) (L : ClientLocals) (s : Client M σ) :
    ClientStep → Prop
  | .readWrite => ∀ s', s.readWrite W fuel L = some s' → s'.life.Connected →
      s'.life.descriptors ≠ s.life.descriptors → AsGoodAsIdle M s.channel
  | .gcsRead bytes => s.life.Connected →
      Equivalent M.parseChar (M.parse s.channel bytes).1 s.channel
  | .gcsWrite => True

/-! ### Calls without a new descriptor -/

/-- The object has the connection that it had, or none. -/
structure NoneNew (l l' : Life σ) : Prop where
  descriptors : l'.descriptors = l.descriptors
  connected : l'.Connected → l.Connected

theorem NoneNew.refl (l : Life σ) : NoneNew l l := ⟨rfl, id⟩

theorem NoneNew.trans {l l' l'' : Life σ} (h : NoneNew l l') (h' : NoneNew l' l'') :
    NoneNew l l'' :=
  ⟨h'.descriptors.trans h.descriptors, fun hconnected => h.connected (h'.connected hconnected)⟩

theorem NoneNew.of_events {l l' : Life σ} {es : List DimEvent} (hlog : l'.log = l.log ++ es)
    (hes : ∀ e ∈ es, e.got = none) (hconnected : l'.Connected → l.Connected) : NoneNew l l' := by
  refine ⟨?_, hconnected⟩
  have hnone : es.filterMap DimEvent.got = [] := List.filterMap_eq_nil_iff.mpr hes
  rw [Life.descriptors, hlog, List.filterMap_append, hnone, List.append_nil]
  rfl

section

variable {W : DimHost σ} {fuel : Nat}

/-- The calls that get a descriptor. -/
def DimCall.Gets (c : DimCall) : Prop := c = .accept ∨ c = .connect

theorem events_got {c : DimCall} (hc : ¬c.Gets) (x : Dim σ) :
    ∀ e ∈ c.events W.toHost fuel x, e.got = none := by
  cases c with
  | accept => exact absurd (Or.inl rfl) hc
  | connect => exact absurd (Or.inr rfl) hc
  | send size data =>
    simp only [DimCall.events, Dim.sendEvents]
    split
    · simp
    · exact List.forall_mem_singleton.mpr rfl
  | recv size data =>
    simp only [DimCall.events, Dim.recvEvents]
    split
    · simp
    · exact List.forall_mem_singleton.mpr rfl
  | tlsCloseNotify => exact List.forall_mem_singleton.mpr rfl
  | tlsClose => exact List.forall_mem_singleton.mpr rfl
  | close =>
    simp only [DimCall.events, Dim.closeEvents, List.forall_mem_cons]
    exact ⟨rfl, rfl, by simp⟩
  | initPoll => simp [DimCall.events]

theorem run_connected {c : DimCall} (hc : ¬c.Gets) {x : Dim σ}
    (h : (c.run W.toHost fuel x).2.connectionStatus = .connected) :
    x.connectionStatus = .connected := by
  cases c with
  | accept => exact absurd (Or.inl rfl) hc
  | connect => exact absurd (Or.inr rfl) hc
  | send size data =>
    by_contra hdisconnected
    simp only [DimCall.run, Dim.send, if_pos hdisconnected] at h
    exact hdisconnected h
  | recv size data =>
    by_contra hdisconnected
    simp only [DimCall.run, Dim.recv, if_pos hdisconnected] at h
    exact hdisconnected h
  | tlsCloseNotify => exact h
  | tlsClose => exact h
  | close => cases h
  | initPoll => exact h

theorem NoneNew.returns {l l' : Life σ} {c : DimCall} {result : Int} (hc : ¬c.Gets)
    (h : l.returns W fuel c = some (result, l')) : NoneNew l l' := by
  obtain ⟨hrun, hlog⟩ := Life.returns_eq_some.mp h
  refine .of_events hlog (events_got hc l.dim) ?_
  intro hconnected
  have hkept := @run_connected σ W fuel c hc l.dim
  rw [hrun] at hkept
  exact hkept hconnected

theorem InSession.not_gets {c : DimCall} {l : Life σ} (h : InSession c l) : ¬c.Gets := by
  rintro (rfl | rfl)
  · simp [InSession] at h
  · simp [InSession] at h

theorem NoneNew.run {l l' : Life σ} (h : LifeRun W fuel InSession l l') : NoneNew l l' := by
  apply h.keeps (NoneNew l) _ _ (.refl l)
  · intro c l₁ l₂ result hc hreturns h₁
    exact h₁.trans (.returns hc.not_gets hreturns)
  · intro l₁ kse _ h₁
    exact h₁.trans ⟨rfl, id⟩

/-- A turn of the loop parses what it receives.  If it returns an error, that is nothing. -/
theorem receive_received {recvBuffer : Nat} {channel : M.Status} {recvSize : Int} {l : Life σ}
    {r : ReceiveTurn M σ} (h : l.receive M W fuel recvBuffer channel recvSize = some r) :
    r.channel = (M.parse channel (l.received W fuel recvBuffer recvSize)).1 ∧
      r.messages = (M.parse channel (l.received W fuel recvBuffer recvSize)).2 ∧
        ∀ code, r.result = some code → code ≤ 0 → r.channel = channel := by
  rw [Life.received]
  by_cases hconnected : l.Connected
  · rw [Life.receive, if_pos hconnected] at h
    rw [if_pos hconnected]
    cases hrecv : l.recv W fuel recvSize recvBuffer with
    | none =>
      rw [hrecv] at h
      cases h
    | some turn =>
      obtain ⟨result, recvSize', life⟩ := turn
      rw [hrecv] at h
      dsimp only at h ⊢
      split at h
      · rename_i hpos
        obtain rfl := Option.some.inj h
        rw [if_pos hpos]
        refine ⟨rfl, rfl, ?_⟩
        intro code hcode hle
        dsimp only at hcode
        split at hcode
        · cases hcode
        · obtain rfl := Option.some.inj hcode
          exact absurd hle (by decide)
      · rename_i hpos
        obtain rfl := Option.some.inj h
        rw [if_neg hpos]
        exact ⟨rfl, rfl, fun _ _ _ => rfl⟩
  · rw [receive_disconnected h hconnected, if_neg hconnected]
    exact ⟨rfl, rfl, fun _ _ _ => rfl⟩

end

/-! ### Steps of the server -/

namespace Server

variable {W : DimHost σ} {fuel : Nat} {L : ServerLocals} {s s' : Server M σ}

theorem endSession_noneNew (h : s.endSession W fuel = some s') :
    s'.channel = s.channel ∧ s'.qToAutopilot = s.qToAutopilot ∧ NoneNew s.life s'.life := by
  obtain ⟨-, result, result', life, hnotify, hclose⟩ := endSession_cases h
  have hlife : NoneNew s.life s'.life :=
    (NoneNew.returns (by simp [DimCall.Gets]) hnotify).trans
      (NoneNew.returns (by simp [DimCall.Gets]) hclose)
  have hs' := endSession_eq h
  refine ⟨?_, ?_, hlife⟩
  · rw [hs']
  · rw [hs']

theorem gcsReadResult_noneNew {result : Int} (h : s.gcsReadResult W fuel L result = some s') :
    s'.channel = s.channel ∧ s'.qToAutopilot = s.qToAutopilot ∧ NoneNew s.life s'.life := by
  have hcall : ∀ s : Server M σ, NoneNew s.life (s.gcsReadCall L).life := fun s => ⟨rfl, id⟩
  rw [gcsReadResult] at h
  split at h
  · split at h
    · obtain rfl := Option.some.inj h
      exact ⟨rfl, rfl, hcall s⟩
    · split at h
      · exact endSession_noneNew h
      · obtain rfl := Option.some.inj h
        exact ⟨rfl, rfl, .refl _⟩
  · split at h
    · dsimp only at h
      split at h
      · obtain ⟨s₁, hend, rfl⟩ := Option.map_eq_some_iff.mp h
        have hended := endSession_noneNew hend
        exact hended
      · obtain rfl := Option.some.inj h
        exact ⟨rfl, rfl, hcall _⟩
    · obtain rfl := Option.some.inj h
      exact ⟨rfl, rfl, hcall _⟩

/-- A turn of `gcs_read_message` parses what it receives. -/
theorem gcsReadMessage_received {result : Option Int}
    (h : s.gcsReadMessage W fuel L = some (result, s')) :
    let bytes := s.life.received W fuel L.recvBuffer s.recvSize
    s'.channel = (M.parse s.channel bytes).1 ∧
      s'.qToAutopilot = s.qToAutopilot ++ (M.parse s.channel bytes).2 := by
  intro bytes
  rw [gcsReadMessage] at h
  split at h
  · cases h
  · rename_i life channel recvSize messages hreceive
    obtain ⟨-, rfl⟩ := Prod.mk.inj (Option.some.inj h)
    obtain ⟨hchannel, hmessages, -⟩ := receive_received hreceive
    exact ⟨hchannel, congrArg (s.qToAutopilot ++ ·) hmessages⟩

/-- A step of the thread in a session does so on the connection that there is. -/
theorem gcsRead_received (hpc : s.gcsReadPc = .read) (h : s.gcsRead W fuel L = some s') :
    let bytes := s.life.received W fuel L.recvBuffer s.recvSize
    s'.channel = (M.parse s.channel bytes).1 ∧
      s'.qToAutopilot = s.qToAutopilot ++ (M.parse s.channel bytes).2 ∧
        NoneNew s.life s'.life := by
  intro bytes
  rw [gcsRead, hpc] at h
  dsimp only at h
  rcases hread : s.gcsReadMessage W fuel L with _ | ⟨result, s₁⟩
  · rw [hread] at h
    cases h
  · obtain ⟨hrun, -, -⟩ := gcsReadMessage_cases hread
    have hlife : NoneNew s.life s₁.life := .run (hrun.mono fun _ _ => Reads.inSession)
    have hs₁ := gcsReadMessage_received hread
    rw [hread] at h
    cases result with
    | none =>
      obtain rfl := Option.some.inj h
      exact ⟨hs₁.1, hs₁.2, hlife⟩
    | some code =>
      obtain ⟨hchannel, hqueue, hresult⟩ := gcsReadResult_noneNew h
      exact ⟨hchannel.trans hs₁.1, hqueue.trans hs₁.2, hlife.trans hresult⟩

/-- A session begins on a descriptor that is new, with the channel as it was. -/
theorem gcsRead_begins (hpc : s.gcsReadPc = .accept) (h : s.gcsRead W fuel L = some s') :
    s'.channel = s.channel ∧ s'.life.descriptors ≠ s.life.descriptors := by
  obtain ⟨result, life, haccept, hcase⟩ := gcsRead_accept_cases hpc h
  have hlog : life.descriptors =
      s.life.descriptors ++ [(W.accept s.life.dim.kse.world s.life.dim.serverFd).1] := by
    obtain ⟨-, hlog⟩ := Life.returns_eq_some.mp haccept
    rw [Life.descriptors, hlog, List.filterMap_append]
    congr 1
    simp only [DimCall.events, Dim.acceptEvents]
    repeat' split
    all_goals rfl
  have hdescriptors : s'.life.descriptors = life.descriptors := by
    rcases hcase with ⟨-, -, rfl⟩ | ⟨-, -, off, bytes, hlife⟩
    · rfl
    · rw [hlife]
      exact (NoneNew.returns (by simp [DimCall.Gets]) (Life.initPoll_returns life)).descriptors
  refine ⟨?_, ?_⟩
  · rw [gcsRead, hpc] at h
    dsimp only at h
    rw [haccept] at h
    dsimp only at h
    split at h
    · obtain rfl := Option.some.inj h
      rfl
    · obtain rfl := Option.some.inj h
      rfl
  · rw [hdescriptors, hlog]
    simp

end Server

/-! ### Steps of the client -/

namespace Client

variable {W : ClientHost σ} {fuel : Nat} {L : ClientLocals} {s s' : Client M σ}

/-- A new connection is made on a descriptor that is new, with the channel as it was. -/
theorem reconnect_begins (h : s.reconnect W fuel = some s') :
    s'.channel = s.channel ∧ s'.life.descriptors ≠ s.life.descriptors := by
  obtain ⟨result, result', life, stop, hclose, hconnect, rfl⟩ := reconnect_cases h
  refine ⟨rfl, ?_⟩
  have hlog : stop.descriptors =
      life.descriptors ++ [(W.socket life.dim.kse.world).1] := by
    obtain ⟨-, hlog⟩ := Life.returns_eq_some.mp hconnect
    rw [Life.descriptors, hlog, List.filterMap_append]
    congr 1
    simp only [DimCall.events, Dim.connectEvents]
    repeat' split
    all_goals rfl
  have hclosed := (NoneNew.returns (by simp [DimCall.Gets]) hclose).descriptors
  have hinit : stop.returns W.toDimHost fuel .initPoll =
      some (0, stop.initPoll W.toDimHost fuel) := Life.initPoll_returns stop
  have hbegun := (NoneNew.returns (by simp [DimCall.Gets]) hinit).descriptors
  have hdescriptors : (stop.initPoll W.toDimHost fuel).descriptors ≠ s.life.descriptors := by
    rw [hbegun, hlog, hclosed]
    simp
  exact hdescriptors

/-- A step of the thread goes on with the connection that there is, and parses what it receives,
    or it makes a new one. -/
theorem readWrite_received (h : s.readWrite W fuel L = some s') :
    let bytes := ClientStep.readWrite.received W fuel L s
    (s'.channel = (M.parse s.channel bytes).1 ∧
        s'.qToGcs = s.qToGcs ++ (M.parse s.channel bytes).2 ∧ NoneNew s.life s'.life) ∨
      (s'.channel = s.channel ∧ s'.life.descriptors ≠ s.life.descriptors) := by
  intro bytes
  cases hpc : s.readWritePc with
  | poll =>
    have hbytes : bytes = [] := by
      simp only [bytes, ClientStep.received, hpc]
    rw [hbytes]
    rcases poll_cases (readWrite_poll hpc h) with
      ⟨-, hreconnect⟩ | ⟨-, rfl⟩ | ⟨-, pc, -, readCalls, recvSize, rfl⟩
    · have hbegins := reconnect_begins hreconnect
      exact .inr hbegins
    · exact .inl ⟨rfl, (List.append_nil _).symm, rfl, id⟩
    · exact .inl ⟨rfl, (List.append_nil _).symm, rfl, id⟩
  | read =>
    have hbytes : bytes = s.life.received W.toDimHost fuel L.recvBuffer s.recvSize := by
      simp only [bytes, ClientStep.received, hpc]
    rw [hbytes]
    obtain ⟨result, s₁, hread, hcase⟩ := readWrite_read hpc h
    obtain ⟨life, channel, recvSize, messages, hreceive, rfl⟩ := autopilotReadMessage_cases hread
    obtain ⟨hchannel, hmessages, hnegative⟩ := receive_received hreceive
    have hlife : NoneNew s.life life :=
      .run ((receive_run hreceive).mono fun _ _ => Reads.inSession)
    rcases hcase with rfl | ⟨code, hneg, hresult, hreconnect⟩ | rfl
    · exact .inl ⟨hchannel, congrArg (s.qToGcs ++ ·) hmessages, hlife⟩
    · obtain ⟨hkept, hbegins⟩ := reconnect_begins hreconnect
      refine .inr ⟨hkept.trans (hnegative code hresult (Int.le_of_lt hneg)), ?_⟩
      rw [← hlife.descriptors]
      exact hbegins
    · exact .inl ⟨hchannel, congrArg (s.qToGcs ++ ·) hmessages, hlife⟩
  | write =>
    have hbytes : bytes = [] := by
      simp only [bytes, ClientStep.received, hpc]
    rw [hbytes]
    obtain ⟨result, s₁, hwrite, hcase⟩ := readWrite_write hpc h
    have hs₁ : s₁.channel = s.channel ∧ s₁.qToGcs = s.qToGcs ∧ NoneNew s.life s₁.life := by
      rcases autopilotWriteMessage_cases hwrite with
        ⟨rfl, -⟩ | ⟨message, qToAutopilot, life, -, rfl, hrun, -⟩
      · exact ⟨rfl, rfl, .refl _⟩
      · exact ⟨rfl, rfl, .run (hrun.mono fun _ _ => Writes.inSession)⟩
    obtain ⟨hchannel, hqueue, hlife⟩ := hs₁
    rcases hcase with ⟨-, hreconnect⟩ | ⟨-, rfl⟩
    · obtain ⟨hkept, hbegins⟩ := reconnect_begins hreconnect
      refine .inr ⟨hkept.trans hchannel, ?_⟩
      rw [← hlife.descriptors]
      exact hbegins
    · exact .inl ⟨hchannel, hqueue.trans (List.append_nil _).symm, hlife⟩

end Client

/-! ### Runs -/

section

variable {S : Type} {x : Reception M S} {threads : S} {life life' : Life σ} {bytes : List UInt8}
  {messages : List M.Message}

theorem Reception.next_same (h : life'.descriptors = life.descriptors) :
    x.next threads life life' bytes messages =
      ⟨threads, x.bytes ++ bytes, x.messages ++ messages⟩ := by
  rw [Reception.next, if_pos h]

theorem Reception.next_new (h : life'.descriptors ≠ life.descriptors) :
    x.next threads life life' bytes messages = ⟨threads, [], []⟩ := by
  rw [Reception.next, if_neg h]

end

/-- In a session of a server, the connection has got the messages of its own bytes. -/
def ServerClean (x : Reception M (Server M σ)) : Prop :=
  x.threads.gcsReadPc = .read → OwnMessages M x.threads.channel x.bytes x.messages

/-- So has the connection of a client, if it has one. -/
def ClientClean (x : Reception M (Client M σ)) : Prop :=
  x.threads.life.Connected → OwnMessages M x.threads.channel x.bytes x.messages

theorem ServerStep.receive_iff {W : DimHost σ} {fuel : Nat} {L : ServerLocals}
    {step : ServerStep M} {x y : Reception M (Server M σ)}
    (h : step.receive W fuel L x = some y) (hx : ServerClean x) :
    ServerClean y ↔ step.FindsIdle W fuel L x.threads := by
  obtain ⟨s, hstep, rfl⟩ := Option.map_eq_some_iff.mp h
  by_cases hother : step ≠ .gcsRead
  · obtain ⟨hrun, hpc⟩ := ServerStep.other_run hstep hother
    have hchannel := (ServerStep.other_keeps hstep hother).1
    have hnothing : step.received W fuel L x.threads = [] ∧ step.enqueued x.threads s = [] := by
      cases step with
      | gcsRead => exact absurd rfl hother
      | gcsWrite | autopilotRead _ | autopilotWrite => exact ⟨rfl, rfl⟩
    have hlife : NoneNew x.threads.life s.life := .run (hrun.mono fun _ _ => Writes.inSession)
    rw [Reception.next_same hlife.descriptors, hnothing.1, hnothing.2, List.append_nil,
      List.append_nil]
    refine iff_of_true ?_ ?_
    · intro hread
      have hown := hx (hpc.symm.trans hread)
      rw [← hchannel] at hown
      exact hown
    · intro s' hstep' haccept hread
      obtain rfl := Option.some.inj (hstep.symm.trans hstep')
      rw [hpc, haccept] at hread
      cases hread
  · obtain rfl := not_not.mp hother
    cases hpc : x.threads.gcsReadPc with
    | accept =>
      obtain ⟨hchannel, hbegins⟩ := Server.gcsRead_begins hpc hstep
      rw [Reception.next_new hbegins, ServerClean, ServerStep.FindsIdle]
      dsimp only
      rw [ownMessages_nil_iff, hchannel]
      constructor
      · intro hidle s' hstep' _ hread
        obtain rfl := Option.some.inj (hstep.symm.trans hstep')
        exact hidle hread
      · intro hidle hread
        exact hidle s hstep hpc hread
    | read =>
      obtain ⟨hchannel, hqueue, hlife⟩ := Server.gcsRead_received hpc hstep
      rw [Reception.next_same hlife.descriptors]
      refine iff_of_true ?_ ?_
      · intro _
        have hown := (hx hpc).read (x.threads.life.received W fuel L.recvBuffer x.threads.recvSize)
        rw [← hchannel] at hown
        simpa only [ServerStep.received, ServerStep.enqueued, hpc, hqueue, List.drop_left]
          using hown
      · intro s' _ haccept
        rw [hpc] at haccept
        cases haccept

theorem ClientStep.receive_iff {W : ClientHost σ} {fuel : Nat} {L : ClientLocals}
    {step : ClientStep} {x y : Reception M (Client M σ)}
    (h : step.receive W fuel L x = some y) (hx : ClientClean x) :
    ClientClean y ↔ step.FindsIdle W fuel L x.threads := by
  obtain ⟨s, hstep, rfl⟩ := Option.map_eq_some_iff.mp h
  cases step with
  | readWrite =>
    rcases Client.readWrite_received hstep with ⟨hchannel, hqueue, hlife⟩ | ⟨hchannel, hbegins⟩
    · rw [Reception.next_same hlife.descriptors]
      refine iff_of_true ?_ ?_
      · intro hconnected
        have hown := (hx (hlife.connected hconnected)).read
          (ClientStep.readWrite.received W fuel L x.threads)
        rw [← hchannel] at hown
        simpa only [ClientStep.enqueued, hqueue, List.drop_left] using hown
      · intro s' hstep' _ hnew
        obtain rfl := Option.some.inj (hstep.symm.trans hstep')
        exact absurd hlife.descriptors hnew
    · rw [Reception.next_new hbegins, ClientClean]
      dsimp only
      rw [ownMessages_nil_iff, hchannel]
      constructor
      · intro hidle s' hstep' hconnected _
        obtain rfl := Option.some.inj (hstep.symm.trans hstep')
        exact hidle hconnected
      · intro hidle hconnected
        exact hidle s hstep hconnected hbegins
  | gcsRead bytes =>
    obtain rfl := Option.some.inj hstep
    rw [Reception.next_same (by rfl)]
    simp only [ClientClean, ClientStep.received, ClientStep.enqueued, ClientStep.FindsIdle,
      List.append_nil]
    apply forall_congr'
    intro hconnected
    exact (hx hconnected).foreign_iff _
  | gcsWrite =>
    obtain rfl := Option.some.inj hstep
    have hlife : x.threads.gcsWrite.life = x.threads.life := by
      rw [Client.gcsWrite]
      split <;> rfl
    have hchannel : x.threads.gcsWrite.channel = x.threads.channel := by
      rw [Client.gcsWrite]
      split <;> rfl
    rw [Reception.next_same (by rw [hlife])]
    simp only [ClientClean, ClientStep.received, ClientStep.enqueued, ClientStep.FindsIdle,
      List.append_nil, hlife, hchannel, iff_true]
    exact hx

/-- **When a new connection gets its own messages.**  In every run of the threads of a server,
    and of those of a client, every connection has, and will have whatever it brings, the
    messages that the parser gives for its bytes on an idle channel, exactly if every session or
    connection that begins finds the channel as good as idle, and every datagram of the GCS that
    a client parses while it has a connection leaves it as good as it was. -/
theorem new_connections_iff (W : DimHost σ) (W' : ClientHost σ) (fuel : Nat) (L : ServerLocals)
    (L' : ClientLocals) (life : Life σ) :
    (∀ steps, (∀ x ∈ Runs.states (ServerStep.receive (M := M) W fuel L)
          ⟨Server.start L life, [], []⟩ steps, ServerClean x) ↔
        Runs.Along (ServerStep.receive (M := M) W fuel L)
          (fun step x => step.FindsIdle W fuel L x.threads) ⟨Server.start L life, [], []⟩ steps) ∧
      ∀ steps, (∀ x ∈ Runs.states (ClientStep.receive (M := M) W' fuel L')
          ⟨Client.start W' fuel life, [], []⟩ steps, ClientClean x) ↔
        Runs.Along (ClientStep.receive (M := M) W' fuel L')
          (fun step x => step.FindsIdle W' fuel L' x.threads)
          ⟨Client.start W' fuel life, [], []⟩ steps := by
  constructor
  · intro steps
    apply Runs.forall_states_iff (I := fun _ => True)
    · intro _ _ _ _ _
      trivial
    · intro step x y h _ hx
      exact ServerStep.receive_iff h hx
    · trivial
    · intro hread
      cases hread
  · intro steps
    apply Runs.forall_states_iff (I := fun _ => True)
    · intro _ _ _ _ _
      trivial
    · intro step x y h _ hx
      exact ClientStep.receive_iff h hx
    · trivial
    · intro _ next
      rfl

/-- The device accepts a record that has these bytes. -/
def dataReport (l : List UInt8) : Report :=
  Report.ofList ([REP_ONE_BLOCK, 0x06, 0, UInt8.ofNat (6 + l.length), 0, 0, 0, 0, 0,
    UInt8.ofNat l.length] ++ l)

/-- A frame is cut off after two bytes, when a read fails; on the next connection comes a
    heartbeat of the GCS. -/
def cutServer : Life Script :=
  ⟨opened [statusReport 0 0, statusReport 0 1, dataReport [0xFE, 9], statusReport 0x90 0,
    statusReport 0 0, statusReport 0 1, dataReport gcsHeartbeat]
    [[0x16], [0x17], [0x17], [0x16], [0x17]], []⟩

/-- The same on a client, with a heartbeat of the autopilot. -/
def cutClient : Life Script :=
  ⟨((opened [statusReport 0 0, statusReport 0 1, dataReport [0xFE, 9], statusReport 0x90 0,
    statusReport 0 0, statusReport 0 0, statusReport 0 1, dataReport autopilotHeartbeat]
    [[0x16], [0x17], [0x17], [0x16], [0x17]]).connect scriptedHost 5).2, []⟩

/-- The heartbeat is lost on both. -/
theorem new_connections_cut :
    (∃ x ∈ Runs.states (ServerStep.receive emptyBus 5 zeroedLocals)
        (⟨Server.start (M := mavlink1) zeroedLocals cutServer, [], []⟩ : Reception mavlink1 _)
        (List.replicate 5 .gcsRead),
      x.threads.gcsReadPc = .read ∧ x.bytes = gcsHeartbeat ∧
        x.messages ≠ (mavlink1.parse mavlink1.idle x.bytes).2) ∧
    ∃ x ∈ Runs.states (ClientStep.receive healthyHost 5 clientLocals)
        (⟨Client.start (M := mavlink1) healthyHost 5 cutClient, [], []⟩ : Reception mavlink1 _)
        (List.replicate 5 .readWrite),
      x.threads.life.Connected ∧ x.bytes = autopilotHeartbeat ∧
        x.messages ≠ (mavlink1.parse mavlink1.idle x.bytes).2 := by
  decide +kernel

end MavlinkDim
