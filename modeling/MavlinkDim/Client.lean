import MavlinkDim.LifeRuns
import MavlinkDim.Runs

/-!
# The client

The threads of `MAVLinkTlsClient` between the GCS and the server.  One of them,
`start_autopilot_read_write_thread`, makes all calls of the socket.
`reconnects_iff` says in which turns of its inner loop a client without a
connection tries to get one.
-/

namespace MavlinkDim

open ByteMemory

/-- `poll`, made by the client itself, also says whether `revents` has `POLLNVAL`, `POLLERR` or
    `POLLHUP`. -/
structure ClientHost (σ : Type) extends DimHost σ where
  pollErrors : σ → (fd : Int) → Bool

/-- The local arrays of the threads in the memory of the program, and what `recv_size` holds when
    `autopilot_read_message` is called for the n-th time. -/
structure ClientLocals where
  recvBuffer : Nat
  recvSize : Nat → Int
  sendBuffer : Nat

/-- Where `start_autopilot_read_write_thread` is: at its `poll`, in `autopilot_read_message` or
    in `autopilot_write_message`. -/
inductive ReadWritePc where
  | poll
  | read
  | write
deriving DecidableEq, Repr

/-- A turn of the inner loop, from its `poll` to its end. -/
structure Iteration (σ : Type) where
  start : Life σ
  stop : Life σ

/-- The threads of a client.  `channel` is `MAVLINK_COMM_0`, which the bytes of the GCS and those
    of the autopilot go through; `sent` is what the GCS got.  `begun` is the object at the
    beginning of the turn that runs, `iterations` are the turns that ended; no thread reads
    them. -/
structure Client (M : Mavlink) (σ : Type) where
  life : Life σ
  channel : M.Status
  qToAutopilot : List M.Message
  qToGcs : List M.Message
  sent : List M.Message
  readWritePc : ReadWritePc
  readCalls : Nat
  recvSize : Int
  begun : Life σ
  iterations : List (Iteration σ)

variable {M : Mavlink} {σ : Type} (W : ClientHost σ) (fuel : Nat) (L : ClientLocals)

namespace Client

/-- The inner loop turns. -/
def endIteration (s : Client M σ) : Client M σ :=
  { s with readWritePc := .poll, begun := s.life
           iterations := s.iterations ++ [⟨s.begun, s.life⟩] }

/-- `dim->init_poll()` of the outer loop, and into the inner one. -/
def begin_ (s : Client M σ) : Client M σ :=
  { s with readWritePc := .poll, life := s.life.initPoll W.toDimHost fuel
           begun := s.life.initPoll W.toDimHost fuel }

/-- `dim->close()`, `dim->connect()` and `break`. -/
def reconnect (s : Client M σ) : Option (Client M σ) :=
  match s.life.returns W.toDimHost fuel .close with
  | none => none
  | some (_, life) =>
    match life.returns W.toDimHost fuel .connect with
    | none => none
    | some (_, life) => some ({ s with life }.endIteration.begin_ W fuel)

/-- `poll` and the tests of `revents`. -/
def poll (s : Client M σ) : Option (Client M σ) :=
  let (result, pollin, world) := W.poll s.life.dim.kse.world s.life.dim.pollFd
  let errors := W.pollErrors s.life.dim.kse.world s.life.dim.pollFd
  let s := { s with life := s.life.setKse { s.life.dim.kse with world } }
  if result > 0 then
    if errors then s.reconnect W fuel
    else if pollin.val then
      some { s with readWritePc := .read, readCalls := s.readCalls + 1
                    recvSize := L.recvSize s.readCalls }
    else some { s with readWritePc := .write }
  else some s.endIteration

/-- One turn of the loop of `autopilot_read_message`, with its result if it returns. -/
def autopilotReadMessage (s : Client M σ) : Option (Option Int × Client M σ) :=
  match s.life.receive M W.toDimHost fuel L.recvBuffer s.channel s.recvSize with
  | none => none
  | some ⟨result, life, channel, recvSize, messages⟩ =>
    some (result, { s with life, channel, recvSize, qToGcs := s.qToGcs ++ messages })

/-- The inner loop with a result of `autopilot_read_message`. -/
def readResult (result : Int) (s : Client M σ) : Option (Client M σ) :=
  if result < 0 then
    -- a fatal alert is printed, and the loop goes on
    if result = -0x7780 then some { s with readWritePc := .write } else s.reconnect W fuel
  else some { s with readWritePc := .write }

/-- `autopilot_write_message`, with its result. -/
def autopilotWriteMessage (s : Client M σ) : Option (Int × Client M σ) :=
  match s.qToAutopilot with
  | [] => some (0, s)
  | message :: qToAutopilot =>
    let bytes := M.msgToSendBuffer message
    let life := s.life.store L.sendBuffer bytes
    if life.Connected then
      match life.returns W.toDimHost fuel (.send bytes.length L.sendBuffer) with
      | none => none
      | some (result, life) =>
        some (if result < 0 then result else 0, { s with life, qToAutopilot })
    else some (0, { s with life, qToAutopilot })

/-- A step of `start_autopilot_read_write_thread`. -/
def readWrite (s : Client M σ) : Option (Client M σ) :=
  match s.readWritePc with
  | .poll => s.poll W fuel L
  | .read =>
    match s.autopilotReadMessage W fuel L with
    | none => none
    | some (none, s) => some s
    | some (some result, s) => s.readResult W fuel result
  | .write =>
    match s.autopilotWriteMessage W fuel L with
    | none => none
    | some (result, s) => if result < 0 then s.reconnect W fuel else some s.endIteration

/-- `gcs_read_message` with a datagram. -/
def gcsRead (bytes : List UInt8) (s : Client M σ) : Client M σ :=
  let (channel, messages) := M.parse s.channel bytes
  { s with channel, qToAutopilot := s.qToAutopilot ++ messages }

/-- `gcs_write_message` -/
def gcsWrite (s : Client M σ) : Client M σ :=
  match s.qToGcs with
  | [] => s
  | message :: qToGcs => { s with qToGcs, sent := s.sent ++ [message] }

end Client

/-- A step of one of the threads. -/
inductive ClientStep where
  | readWrite
  | gcsRead (bytes : List UInt8)
  | gcsWrite

def ClientStep.run : ClientStep → Client M σ → Option (Client M σ)
  | .readWrite, s => s.readWrite W fuel L
  | .gcsRead bytes, s => some (s.gcsRead bytes)
  | .gcsWrite, s => some s.gcsWrite

/-- A client whose threads start on a socket object. -/
def Client.start (life : Life σ) : Client M σ :=
  Client.begin_ W fuel ⟨life, M.idle, [], [], [], .poll, 0, 0, life, []⟩

/-! ### Turns of the inner loop -/

/-- `dim->connect()` is called in the turn; it makes a socket first. -/
def Iteration.Reconnects (it : Iteration σ) : Prop :=
  ∃ fd, .socket fd ∈ it.stop.log.drop it.start.log.length

/-- The `poll` that a turn begins with finds `POLLNVAL`, `POLLERR` or `POLLHUP`. -/
def PollErrors (W : ClientHost σ) (l : Life σ) : Prop :=
  (W.poll l.dim.kse.world l.dim.pollFd).1 > 0 ∧
    W.pollErrors l.dim.kse.world l.dim.pollFd = true

variable {W fuel L}

theorem connect_log {l l' : Life σ} {result : Int}
    (h : l.returns W.toDimHost fuel .connect = some (result, l')) :
    ∃ fd es, l'.log = l.log ++ .socket fd :: es := by
  obtain ⟨-, hlog⟩ := Life.returns_eq_some.mp h
  rw [hlog, DimCall.events, Dim.connectEvents]
  dsimp only
  repeat' split
  · exact ⟨_, [], rfl⟩
  · exact ⟨_, [], rfl⟩
  · exact ⟨_, _, rfl⟩
  · exact ⟨_, _, rfl⟩

namespace Client

variable {s s' : Client M σ}

/-! ### Steps -/

/-- The object after the `poll` of the inner loop. -/
def polled (W : ClientHost σ) (l : Life σ) : Life σ :=
  l.setKse { l.dim.kse with world := (W.poll l.dim.kse.world l.dim.pollFd).2.2 }

theorem reconnect_cases (h : s.reconnect W fuel = some s') :
    ∃ result result' life stop, s.life.returns W.toDimHost fuel .close = some (result, life) ∧
      life.returns W.toDimHost fuel .connect = some (result', stop) ∧
        s' = ({ s with life := stop }.endIteration).begin_ W fuel := by
  rw [reconnect] at h
  split at h
  · cases h
  · rename_i result life hclose
    split at h
    · cases h
    · rename_i result' stop hconnect
      obtain rfl := Option.some.inj h
      exact ⟨result, result', life, stop, hclose, hconnect, rfl⟩

/-- The `poll` ends in a reconnection, ends the turn, or goes on with it. -/
theorem poll_cases (h : s.poll W fuel L = some s') :
    (PollErrors W s.life ∧ { s with life := polled W s.life }.reconnect W fuel = some s') ∨
      (¬PollErrors W s.life ∧ s' = { s with life := polled W s.life }.endIteration) ∨
      (¬PollErrors W s.life ∧ ∃ pc ≠ ReadWritePc.poll, ∃ readCalls recvSize,
        s' = { s with readWritePc := pc, life := polled W s.life, readCalls, recvSize }) := by
  rcases hpoll : W.poll s.life.dim.kse.world s.life.dim.pollFd with ⟨result, pollin, world⟩
  have herrors : PollErrors W s.life ↔
      result > 0 ∧ W.pollErrors s.life.dim.kse.world s.life.dim.pollFd = true := by
    rw [PollErrors, hpoll]
  have hpolled : polled W s.life = s.life.setKse { s.life.dim.kse with world } := by
    rw [polled, hpoll]
  simp only [poll, hpoll] at h
  rw [herrors, hpolled]
  split at h
  · rename_i hready
    split at h
    · rename_i herror
      exact .inl ⟨⟨hready, herror⟩, h⟩
    · rename_i hnone
      have hnoError : ¬(result > 0 ∧
          W.pollErrors s.life.dim.kse.world s.life.dim.pollFd = true) := by
        rintro ⟨-, herror⟩
        exact hnone herror
      refine .inr (.inr ⟨hnoError, ?_⟩)
      split at h
      · obtain rfl := Option.some.inj h
        exact ⟨.read, by simp, _, _, rfl⟩
      · obtain rfl := Option.some.inj h
        exact ⟨.write, by simp, _, _, rfl⟩
  · rename_i hnotReady
    obtain rfl := Option.some.inj h
    refine .inr (.inl ⟨?_, rfl⟩)
    rintro ⟨hready, -⟩
    exact hnotReady hready

theorem autopilotReadMessage_cases {result : Option Int}
    (h : s.autopilotReadMessage W fuel L = some (result, s')) :
    ∃ life channel recvSize messages,
      s.life.receive M W.toDimHost fuel L.recvBuffer s.channel s.recvSize =
          some ⟨result, life, channel, recvSize, messages⟩ ∧
        s' = { s with life, channel, recvSize, qToGcs := s.qToGcs ++ messages } := by
  rw [autopilotReadMessage] at h
  split at h
  · cases h
  · rename_i hreceive
    obtain ⟨rfl, rfl⟩ := Prod.mk.inj (Option.some.inj h)
    exact ⟨_, _, _, _, hreceive, rfl⟩

theorem readResult_cases {result : Int} (h : s.readResult W fuel result = some s') :
    (result < 0 ∧ s.reconnect W fuel = some s') ∨ s' = { s with readWritePc := .write } := by
  rw [readResult] at h
  split at h
  · rename_i hnegative
    split at h
    · exact .inr (Option.some.inj h).symm
    · exact .inl ⟨hnegative, h⟩
  · exact .inr (Option.some.inj h).symm

/-- With a message in the queue it takes one out.  Without a connection that is all it does,
    but for its array. -/
theorem autopilotWriteMessage_cases {result : Int}
    (h : s.autopilotWriteMessage W fuel L = some (result, s')) :
    (s' = s ∧ result = 0) ∨ ∃ message qToAutopilot life,
      s.qToAutopilot = message :: qToAutopilot ∧ s' = { s with life, qToAutopilot } ∧
        LifeRun W.toDimHost fuel Writes s.life life ∧
          (¬s.life.Connected → result = 0 ∧ ¬life.Connected ∧ life.log = s.life.log) := by
  rw [autopilotWriteMessage] at h
  split at h
  · obtain ⟨rfl, rfl⟩ := Prod.mk.inj (Option.some.inj h)
    exact .inl ⟨rfl, rfl⟩
  · rename_i message qToAutopilot hqueue
    have hstored : LifeRun W.toDimHost fuel Writes s.life
        (s.life.store L.sendBuffer (M.msgToSendBuffer message)) := LifeRun.store .refl _ _
    dsimp only at h
    split at h
    · rename_i hconnected
      split at h
      · cases h
      · rename_i life hsend
        obtain ⟨-, rfl⟩ := Prod.mk.inj (Option.some.inj h)
        refine .inr ⟨message, qToAutopilot, life, hqueue, rfl, ?_, fun hdisconnected => ?_⟩
        · exact hstored.trans (LifeRun.call ⟨hconnected, _, _, rfl⟩ hsend)
        · exact absurd hconnected hdisconnected
    · rename_i hdisconnected
      obtain ⟨rfl, rfl⟩ := Prod.mk.inj (Option.some.inj h)
      exact .inr ⟨message, qToAutopilot, _, hqueue, rfl, hstored,
        fun _ => ⟨rfl, hdisconnected, rfl⟩⟩

theorem readWrite_poll (hpc : s.readWritePc = .poll) (h : s.readWrite W fuel L = some s') :
    s.poll W fuel L = some s' := by
  rw [readWrite, hpc] at h
  exact h

theorem readWrite_read (hpc : s.readWritePc = .read) (h : s.readWrite W fuel L = some s') :
    ∃ result s₁, s.autopilotReadMessage W fuel L = some (result, s₁) ∧
      (s' = s₁ ∨ (∃ code < 0, result = some code ∧ s₁.reconnect W fuel = some s') ∨
        s' = { s₁ with readWritePc := .write }) := by
  simp only [readWrite, hpc] at h
  split at h
  · cases h
  · rename_i s₁ hread
    exact ⟨none, s₁, hread, .inl (Option.some.inj h).symm⟩
  · rename_i code s₁ hread
    refine ⟨some code, s₁, hread, .inr ?_⟩
    rcases readResult_cases h with ⟨hnegative, hreconnect⟩ | hwrite
    · exact .inl ⟨code, hnegative, rfl, hreconnect⟩
    · exact .inr hwrite

theorem readWrite_write (hpc : s.readWritePc = .write) (h : s.readWrite W fuel L = some s') :
    ∃ result s₁, s.autopilotWriteMessage W fuel L = some (result, s₁) ∧
      (result < 0 ∧ s₁.reconnect W fuel = some s' ∨ ¬result < 0 ∧ s' = s₁.endIteration) := by
  simp only [readWrite, hpc] at h
  split at h
  · cases h
  · rename_i result s₁ hwrite
    refine ⟨result, s₁, hwrite, ?_⟩
    split at h
    · rename_i hnegative
      exact .inl ⟨hnegative, h⟩
    · rename_i hnegative
      exact .inr ⟨hnegative, (Option.some.inj h).symm⟩

/-! ### The turn that runs -/

/-- A turn that began without a connection has done nothing with the object after its `poll`,
    which found no error. -/
structure Turn (W : ClientHost σ) (s : Client M σ) : Prop where
  atPoll : s.readWritePc = .poll → s.life = s.begun
  behind : s.readWritePc ≠ .poll → ¬s.begun.Connected →
    ¬PollErrors W s.begun ∧ ¬s.life.Connected ∧ s.life.log = s.begun.log
  ended : ∀ it ∈ s.iterations, ¬it.start.Connected → (it.Reconnects ↔ PollErrors W it.start)

/-- The turn that ends in `dim->connect()` made a socket. -/
theorem reconnect_log {l l' l'' : Life σ} {result result' : Int}
    (hclose : l.returns W.toDimHost fuel .close = some (result, l'))
    (hconnect : l'.returns W.toDimHost fuel .connect = some (result', l'')) :
    ∃ fd, .socket fd ∈ l''.log.drop l.log.length := by
  obtain ⟨-, hlog⟩ := Life.returns_eq_some.mp hclose
  obtain ⟨fd, es, hlog'⟩ := connect_log hconnect
  refine ⟨fd, ?_⟩
  rw [hlog', hlog, List.append_assoc, List.drop_left]
  simp

theorem not_reconnects {start stop : Life σ} (hlog : stop.log = start.log) :
    ¬(⟨start, stop⟩ : Iteration σ).Reconnects := by
  rintro ⟨fd, hmem⟩
  simp [hlog] at hmem

/-- The end of a turn adds it to those that ended. -/
theorem Turn.end_ (hs : s.Turn W) (stop : Life σ) (hpc : s'.readWritePc = .poll)
    (hlife : s'.life = s'.begun) (hiterations : s'.iterations = s.iterations ++ [⟨s.begun, stop⟩])
    (hstop : ¬s.begun.Connected →
      ((⟨s.begun, stop⟩ : Iteration σ).Reconnects ↔ PollErrors W s.begun)) : s'.Turn W := by
  refine ⟨?_, ?_, ?_⟩
  · intro _
    exact hlife
  · intro hbehind
    exact absurd hpc hbehind
  · rw [hiterations]
    intro it hit
    rcases List.mem_append.mp hit with hit | hit
    · exact hs.ended it hit
    · obtain rfl := List.mem_singleton.mp hit
      exact hstop

/-- An object with a connection behind the `poll` had it when the turn began. -/
theorem Turn.connected (hs : s.Turn W) (hpc : s.readWritePc ≠ .poll) (h : s.life.Connected) :
    s.begun.Connected := by
  by_contra hdisconnected
  exact (hs.behind hpc hdisconnected).2.1 h

/-- The turn goes on.  Without a connection it has to leave the object alone. -/
theorem Turn.go (hs : s.Turn W) (hpc : s.readWritePc ≠ .poll) (hpc' : s'.readWritePc ≠ .poll)
    (hbegun : s'.begun = s.begun) (hiterations : s'.iterations = s.iterations)
    (hlife : ¬s.life.Connected → ¬s'.life.Connected ∧ s'.life.log = s.life.log) : s'.Turn W := by
  refine ⟨?_, ?_, ?_⟩
  · intro hpoll
    exact absurd hpoll hpc'
  · intro _ hdisconnected
    rw [hbegun] at hdisconnected ⊢
    obtain ⟨hnone, hdisconnected', hlog⟩ := hs.behind hpc hdisconnected
    obtain ⟨hnext, hlog'⟩ := hlife hdisconnected'
    exact ⟨hnone, hnext, hlog'.trans hlog⟩
  · rw [hiterations]
    exact hs.ended

/-- The turn ends behind its `poll`. -/
theorem Turn.endIteration (hs : s.Turn W) (hpc : s.readWritePc ≠ .poll) :
    s.endIteration.Turn W := by
  refine hs.end_ s.life rfl rfl rfl ?_
  intro hdisconnected
  obtain ⟨hnone, -, hlog⟩ := hs.behind hpc hdisconnected
  exact iff_of_false (not_reconnects hlog) hnone

theorem reconnect_turn (hs : s.Turn W) (hconnected : s.begun.Connected)
    (h : s.reconnect W fuel = some s') : s'.Turn W := by
  obtain ⟨result, result', life, stop, -, -, rfl⟩ := reconnect_cases h
  apply hs.end_ stop rfl rfl rfl
  intro hdisconnected
  exact absurd hconnected hdisconnected

theorem poll_turn (hs : s.Turn W) (hpc : s.readWritePc = .poll)
    (h : s.poll W fuel L = some s') : s'.Turn W := by
  have hlife := hs.atPoll hpc
  rcases poll_cases h with ⟨herror, hreconnect⟩ | ⟨hnone, rfl⟩ | ⟨hnone, pc, hne, _, _, rfl⟩
  · rw [hlife] at herror
    obtain ⟨result, result', life, stop, hclose, hconnect, rfl⟩ := reconnect_cases hreconnect
    apply hs.end_ stop rfl rfl rfl
    intro _
    have hsocket := reconnect_log hclose hconnect
    rw [← hlife] at herror ⊢
    exact iff_of_true hsocket herror
  · rw [hlife] at hnone
    apply hs.end_ _ rfl rfl rfl
    intro _
    rw [← hlife] at hnone ⊢
    exact iff_of_false (not_reconnects rfl) hnone
  · refine ⟨?_, ?_, hs.ended⟩
    · intro hpoll
      exact absurd hpoll hne
    · intro _ hdisconnected
      rw [← hlife] at hdisconnected ⊢
      exact ⟨hnone, hdisconnected, rfl⟩

theorem read_turn (hs : s.Turn W) (hpc : s.readWritePc = .read)
    (h : s.readWrite W fuel L = some s') : s'.Turn W := by
  have hne : s.readWritePc ≠ .poll := by simp [hpc]
  obtain ⟨result, s₁, hread, hcase⟩ := readWrite_read hpc h
  obtain ⟨life, channel, recvSize, messages, hreceive, rfl⟩ := autopilotReadMessage_cases hread
  have hs₁ : Turn W { s with life, channel, recvSize, qToGcs := s.qToGcs ++ messages } := by
    refine hs.go hne hne rfl rfl ?_
    intro hdisconnected
    have hturn := receive_disconnected hreceive hdisconnected
    obtain ⟨-, rfl, -⟩ := ReceiveTurn.mk.inj hturn
    exact ⟨hdisconnected, rfl⟩
  rcases hcase with rfl | ⟨code, hnegative, rfl, hreconnect⟩ | rfl
  · exact hs₁
  · -- a negative result is one of a `recv`, which was made with a connection
    have hconnected := ((receive_negative_iff hreceive hnegative).mp rfl).1
    exact reconnect_turn hs₁ (hs.connected hne hconnected) hreconnect
  · refine hs₁.go hne (by simp) rfl rfl ?_
    intro hdisconnected
    exact ⟨hdisconnected, rfl⟩

theorem write_turn (hs : s.Turn W) (hpc : s.readWritePc = .write)
    (h : s.readWrite W fuel L = some s') : s'.Turn W := by
  have hne : s.readWritePc ≠ .poll := by simp [hpc]
  obtain ⟨result, s₁, hwrite, hcase⟩ := readWrite_write hpc h
  rcases autopilotWriteMessage_cases hwrite with
    ⟨rfl, rfl⟩ | ⟨message, qToAutopilot, life, -, rfl, -, hdisconnected⟩
  · rcases hcase with ⟨hnegative, -⟩ | ⟨-, rfl⟩
    · simp at hnegative
    · exact hs.endIteration hne
  · have hs₁ : Turn W { s with life, qToAutopilot } := by
      refine hs.go hne hne rfl rfl ?_
      intro hnot
      exact (hdisconnected hnot).2
    rcases hcase with ⟨hnegative, hreconnect⟩ | ⟨-, rfl⟩
    · have hconnected : s.life.Connected := by
        by_contra hnot
        rw [(hdisconnected hnot).1] at hnegative
        simp at hnegative
      exact reconnect_turn hs₁ (hs.connected hne hconnected) hreconnect
    · exact hs₁.endIteration hne

theorem step_turn (step : ClientStep) (s s' : Client M σ)
    (h : step.run W fuel L s = some s') (hs : s.Turn W) : s'.Turn W := by
  cases step with
  | readWrite =>
    cases hpc : s.readWritePc with
    | poll => exact poll_turn hs hpc (readWrite_poll hpc h)
    | read => exact read_turn hs hpc h
    | write => exact write_turn hs hpc h
  | gcsRead bytes =>
    obtain rfl := Option.some.inj h
    exact ⟨hs.atPoll, hs.behind, hs.ended⟩
  | gcsWrite =>
    obtain rfl := Option.some.inj h
    rw [gcsWrite]
    split <;> exact ⟨hs.atPoll, hs.behind, hs.ended⟩

theorem start_turn (life : Life σ) : (Client.start (M := M) W fuel life).Turn W := by
  refine ⟨?_, ?_, ?_⟩
  · intro _
    rfl
  · intro hpc
    exact absurd rfl hpc
  · simp [Client.start, begin_]

end Client

/-- **When a client without a connection tries to get one.**  In every run of the threads, all
    turns of the inner loop that begin without a connection call `dim->connect()` exactly when
    the `poll` of each of them finds an error. -/
theorem reconnects_iff (life : Life σ) (steps : List ClientStep) :
    (∀ s ∈ Runs.states (ClientStep.run W fuel L) (Client.start (M := M) W fuel life) steps,
        ∀ it ∈ s.iterations, ¬it.start.Connected → it.Reconnects) ↔
      ∀ s ∈ Runs.states (ClientStep.run W fuel L) (Client.start (M := M) W fuel life) steps,
        ∀ it ∈ s.iterations, ¬it.start.Connected → PollErrors W it.start := by
  have hturn : ∀ s ∈ Runs.states (ClientStep.run W fuel L)
      (Client.start (M := M) W fuel life) steps, s.Turn W :=
    Runs.states_induction Client.step_turn (Client.start_turn life) steps
  apply forall₂_congr
  intro s hs
  apply forall₂_congr
  intro it hit
  apply forall_congr'
  intro hdisconnected
  exact (hturn s hs).ended it hit hdisconnected

/-- A poll that never reports an error. -/
def healthyHost : ClientHost Script where
  toDimHost := emptyBus
  pollErrors _ _ := false

/-- A socket whose `dim->connect()` failed in the handshake.  The TCP connection stands, and the
    server sends something on it. -/
def refused : Dim Script :=
  ((opened [statusReport 0 0, statusReport 0x88 0x80] [[0x15]]).connect scriptedHost 1).2

def clientLocals : ClientLocals := ⟨1000, fun _ => 0, 10000⟩

/-- A heartbeat of the GCS comes, and `start_autopilot_read_write_thread` makes one turn. -/
def refusedTurn : List (Client mavlink1 Script) :=
  Runs.states (ClientStep.run healthyHost 1 clientLocals)
    (Client.start healthyHost 1 ⟨refused, []⟩)
    [.gcsRead (Mavlink1.frame ⟨0, 255, 1, 0, [0, 0, 0, 0, 6, 8, 192, 4, 3]⟩), .readWrite,
      .readWrite, .readWrite]

/-- The client reads nothing, takes the message off the queue, sends nothing and does not
    connect. -/
theorem reconnects_not :
    ∃ s ∈ refusedTurn, s.qToAutopilot = [] ∧ s.life.log = [] ∧
      ∃ it ∈ s.iterations, ¬it.start.Connected ∧ ¬it.stop.Connected ∧ ¬it.Reconnects := by
  have hlast : refusedTurn.getLast?.map (fun s => (s.qToAutopilot.length, s.life.log,
      s.iterations.map fun it => (decide it.start.Connected, decide it.stop.Connected,
        it.stop.log.drop it.start.log.length))) = some (0, [], [(false, false, [])]) := by
    decide +kernel
  obtain ⟨s, hs, hturn⟩ := Option.map_eq_some_iff.mp hlast
  simp only [Prod.mk.injEq, List.map_eq_singleton_iff] at hturn
  obtain ⟨hqueue, hlog, it, hiterations, hstart, hstop, hevents⟩ := hturn
  refine ⟨s, List.mem_of_getLast? hs, List.eq_nil_of_length_eq_zero hqueue, hlog, it, ?_,
    of_decide_eq_false hstart, of_decide_eq_false hstop, ?_⟩
  · simp [hiterations]
  · simp [Iteration.Reconnects, hevents]

end MavlinkDim
