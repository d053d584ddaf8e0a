import MavlinkDim.DimLock
import MavlinkDim.Runs
import MavlinkDim.Server

/-!
# From the port to the GCS

The thread that reads the port puts messages into `q_to_gcs`, another one takes
them out and sends them, and a third one receives.  `DimSocket::send` returns 0
without a write when the last `recv` failed.  `relay_lossless_iff` says when no
message gets lost between the queue and `_ksetlsTlsWrite`.
-/

namespace MavlinkDim

/-- The three threads, while the object is connected and no write fails.  `inFlight` is what the
    writer took out of the queue and has not handed to `_ksetlsTlsWrite`.  No thread reads
    `received`, `dequeued` and `handed`: the results of `port->read_message`, the messages taken
    out of the queue, and those handed over. -/
structure Relay (M : Mavlink) where
  threads : Threads
  serial : SerialReader
  qToGcs : List M.Message
  inFlight : Option M.Message
  received : List (Option M.Message)
  dequeued : List M.Message
  handed : List M.Message

/-- A step of one thread. -/
inductive RelayStep (M : Mavlink) where
  | autopilotRead (r : Option M.Message)
  | gcsWrite
  | gcsRead (ok : Bool)

variable {M : Mavlink} (contents : Nat → ByteMemory.Bytes)

namespace Relay

/-- A turn of `autopilot_read_message`. -/
def autopilotRead (r : Option M.Message) (s : Relay M) : Relay M :=
  let (serial, action) := s.serial.next M contents r
  { s with serial, qToGcs := s.qToGcs ++ action.enqueued.toList, received := s.received ++ [r] }

/-- A step of `gcs_write_message`: at its queue, or in `dim->send`. -/
def gcsWrite (s : Relay M) : Relay M :=
  match s.inFlight with
  | none =>
    if s.threads.send = .testConnected then
      match s.qToGcs with
      | [] => s
      | message :: qToGcs =>
        { s with qToGcs, inFlight := some message, dequeued := s.dequeued ++ [message] }
    else { s with threads := s.threads.next .send }
  | some message =>
    let threads := s.threads.next .send
    match threads.send with
    | .writing => { s with threads, inFlight := none, handed := s.handed ++ [message] }
    -- `send` returns 0 and has not written
    | .testConnected => { s with threads, inFlight := none }
    | _ => { s with threads }

/-- A step of `dim->recv`. -/
def gcsRead (ok : Bool) (s : Relay M) : Relay M :=
  { s with threads := s.threads.next (.recv ok) }

/-- The threads as they find each other when the object is connected. -/
def start (serial : SerialReader) (qToGcs : List M.Message) : Relay M :=
  ⟨.start, serial, qToGcs, none, [], [], []⟩

end Relay

def RelayStep.run : RelayStep M → Relay M → Option (Relay M)
  | .autopilotRead r, s => some (s.autopilotRead contents r)
  | .gcsWrite, s => some s.gcsWrite
  | .gcsRead ok, s => some (s.gcsRead ok)

/-- The messages handed over are those taken out of the queue, but for the one in flight; and
    those taken out, with those still in it, are what was in it at first and the messages of the
    port that are neither dropped nor `ENCAPSULATED_DATA`. -/
structure Relay.Lossless (qToGcs : List M.Message) (s : Relay M) : Prop where
  handed : s.dequeued = s.handed ++ s.inFlight.toList
  dequeued : s.dequeued ++ s.qToGcs =
    qToGcs ++ (s.received.filterMap id).filter (fun m => M.Forwarded m)

/-- The writer, with a message, does not find `_tls_read_error == -1`. -/
def RelayStep.SeesNoError : RelayStep M → Relay M → Prop
  | .gcsWrite, s => s.inFlight ≠ none →
      s.threads.send = .testError ∨ s.threads.send = .testErrorAgain →
      s.threads.tlsReadError = false
  | _, _ => True

/-! ### Steps -/

namespace Relay

variable {contents} {qToGcs : List M.Message} {s s' : Relay M}

/-- What holds in any case: the queue is a queue, and the writer has a message only before its
    write. -/
structure Queued (qToGcs : List M.Message) (s : Relay M) : Prop where
  dequeued : s.dequeued ++ s.qToGcs =
    qToGcs ++ (s.received.filterMap id).filter (fun m => M.Forwarded m)
  inFlight : s.inFlight ≠ none → s.threads.send ∈
    [SendPc.testConnected, .testError, .testRead, .testErrorAgain, .setWrite]

theorem Queued.autopilotRead (h : s.Queued qToGcs) (r : Option M.Message) :
    (s.autopilotRead contents r).Queued qToGcs := by
  refine ⟨?_, h.inFlight⟩
  simp only [Relay.autopilotRead, List.filterMap_append, List.filter_append]
  rw [← List.append_assoc, h.dequeued, SerialReader.next_action,
    SerialReader.autopilotReadMessage_enqueued, List.append_assoc]
  cases r with
  | none => rfl
  | some message =>
    by_cases hforwarded : M.Forwarded message <;> simp [Option.filter_some, hforwarded]

theorem Queued.gcsRead (h : s.Queued qToGcs) (ok : Bool) : (s.gcsRead ok).Queued qToGcs := by
  refine ⟨h.dequeued, ?_⟩
  have hsend : (s.threads.next (.recv ok)).send = s.threads.send := by
    simp only [Threads.next]
    split <;> rfl
  intro hmessage
  have hpc := h.inFlight hmessage
  rw [← hsend] at hpc
  exact hpc

/-- Without a message the writer takes one, or makes a step that no message depends on. -/
theorem gcsWrite_none (h : s.inFlight = none) :
    s.gcsWrite.handed = s.handed ∧
      s.gcsWrite.dequeued = s.dequeued ++ s.gcsWrite.inFlight.toList ∧
        s.gcsWrite.dequeued ++ s.gcsWrite.qToGcs = s.dequeued ++ s.qToGcs ∧
          s.gcsWrite.received = s.received ∧
            (s.gcsWrite.inFlight ≠ none → s.gcsWrite.threads.send = .testConnected) := by
  rw [gcsWrite, h]
  by_cases hidle : s.threads.send = .testConnected
  · simp only [if_pos hidle]
    cases hqueue : s.qToGcs with
    | nil => simp [h, hqueue]
    | cons message rest => simp [hidle]
  · simp [if_neg hidle]

/-- With a message it goes on to its write, or loses the message at a test of the error. -/
theorem gcsWrite_some (hs : s.Queued qToGcs) {message : M.Message}
    (h : s.inFlight = some message) :
    s.gcsWrite.dequeued = s.dequeued ∧ s.gcsWrite.qToGcs = s.qToGcs ∧
      s.gcsWrite.received = s.received ∧
        (RelayStep.SeesNoError .gcsWrite s ∧
            s.gcsWrite.handed ++ s.gcsWrite.inFlight.toList = s.handed ++ [message] ∨
          ¬RelayStep.SeesNoError .gcsWrite s ∧ s.gcsWrite.handed = s.handed ∧
            s.gcsWrite.inFlight = none) ∧
          (s.gcsWrite.inFlight ≠ none → s.gcsWrite.threads.send ∈
            [SendPc.testConnected, .testError, .testRead, .testErrorAgain, .setWrite]) := by
  obtain ⟨⟨recv, send, onRead, onWrite, tlsReadError⟩, serial, queue, inFlight, received, dequeued,
    handed⟩ := s
  simp only at h
  subst h
  have hpc := hs.inFlight (by simp)
  cases send with
  | testConnected | setWrite => simp [gcsWrite, Threads.next, RelayStep.SeesNoError]
  | testError | testErrorAgain =>
    cases tlsReadError <;> simp [gcsWrite, Threads.next, RelayStep.SeesNoError]
  | testRead => cases onRead <;> simp [gcsWrite, Threads.next, RelayStep.SeesNoError]
  | writing | clearWrite | setError | clearWriteAgain => simp at hpc

theorem Queued.gcsWrite (h : s.Queued qToGcs) : s.gcsWrite.Queued qToGcs := by
  cases hmessage : s.inFlight with
  | none =>
    obtain ⟨-, -, hqueue, hreceived, hpc⟩ := gcsWrite_none hmessage
    refine ⟨?_, fun hnext => by simp [hpc hnext]⟩
    rw [hqueue, hreceived]
    exact h.dequeued
  | some message =>
    obtain ⟨hdequeued, hqueue, hreceived, -, hpc⟩ := gcsWrite_some h hmessage
    refine ⟨?_, hpc⟩
    rw [hdequeued, hqueue, hreceived]
    exact h.dequeued

theorem gcsWrite_lossless_iff (hs : s.Queued qToGcs) (hlossless : s.Lossless qToGcs) :
    s.gcsWrite.Lossless qToGcs ↔ RelayStep.SeesNoError .gcsWrite s := by
  have hdequeued' := hs.gcsWrite.dequeued
  cases hmessage : s.inFlight with
  | none =>
    obtain ⟨hhanded, hdequeued, -⟩ := gcsWrite_none hmessage
    have hnone := hlossless.handed
    rw [hmessage] at hnone
    refine iff_of_true ⟨?_, hdequeued'⟩ ?_
    · rw [hdequeued, hhanded, hnone]
      simp
    · intro hsome
      exact absurd hmessage hsome
  | some message =>
    obtain ⟨hdequeued, -, -, hcase, -⟩ := gcsWrite_some hs hmessage
    have hsome := hlossless.handed
    rw [hmessage] at hsome
    rcases hcase with ⟨hsees, hhanded⟩ | ⟨hnot, hhanded, hnone⟩
    · refine iff_of_true ⟨?_, hdequeued'⟩ hsees
      rw [hdequeued, hhanded, hsome]
      rfl
    · refine iff_of_false ?_ hnot
      intro hnext
      have hlost := hnext.handed
      rw [hdequeued, hhanded, hnone, hsome] at hlost
      simp at hlost

variable (contents) in
theorem step_queued (step : RelayStep M) (s s' : Relay M) (h : step.run contents s = some s')
    (hs : s.Queued qToGcs) : s'.Queued qToGcs := by
  cases step with
  | autopilotRead r =>
    obtain rfl := Option.some.inj h
    exact hs.autopilotRead r
  | gcsWrite =>
    obtain rfl := Option.some.inj h
    exact hs.gcsWrite
  | gcsRead ok =>
    obtain rfl := Option.some.inj h
    exact hs.gcsRead ok

end Relay

/-- **When the relay loses nothing.**  In every run of the three threads, with any results of
    `recv`, the messages handed to `_ksetlsTlsWrite` are those taken out of the queue, in order
    and each once, exactly when no call of `send` finds that a `recv` has failed. -/
theorem relay_lossless_iff (serial : SerialReader) (qToGcs : List M.Message)
    (steps : List (RelayStep M)) :
    (∀ s ∈ Runs.states (RelayStep.run contents) (Relay.start serial qToGcs) steps,
        s.Lossless qToGcs) ↔
      Runs.Along (RelayStep.run contents) RelayStep.SeesNoError (Relay.start serial qToGcs)
        steps := by
  apply Runs.forall_states_iff (Relay.step_queued contents)
  · intro step s s' h hs hlossless
    cases step with
    | autopilotRead r =>
      obtain rfl := Option.some.inj h
      exact iff_of_true ⟨hlossless.handed, (hs.autopilotRead r).dequeued⟩ trivial
    | gcsWrite =>
      obtain rfl := Option.some.inj h
      exact Relay.gcsWrite_lossless_iff hs hlossless
    | gcsRead ok =>
      obtain rfl := Option.some.inj h
      exact iff_of_true ⟨hlossless.handed, hlossless.dequeued⟩ trivial
  · exact ⟨by simp [Relay.start], by simp [Relay.start]⟩
  · exact ⟨by simp [Relay.start], by simp [Relay.start]⟩

/-- A read that fails while the object stays connected, as one does that gets a close notify:
    the heartbeat that comes next is taken out of the queue and not written. -/
theorem relay_loses :
    let read (ok : Bool) : RelayStep mavlink1 := .gcsRead ok
    let steps := .autopilotRead (some heartbeat) :: List.replicate 6 (read true) ++ [read false] ++
      List.replicate 3 .gcsWrite
    ∃ s ∈ Runs.states (RelayStep.run fun _ _ => 0) (Relay.start ⟨0, fun _ => 0⟩ []) steps,
      s.dequeued = [heartbeat] ∧ s.inFlight = none ∧ s.handed = [] ∧ ¬s.Lossless [] := by
  intro read steps
  refine ⟨_, List.mem_of_getLast? rfl, rfl, rfl, rfl, ?_⟩
  intro hlossless
  exact absurd hlossless.handed (by decide +kernel)

/-! ### The relay of a server -/

variable {σ : Type} {W : DimHost σ} {fuel : Nat} {L : ServerLocals}

/-- A server between two of its steps as a relay. -/
def Server.relay (s : Server M σ) (received : List (Option M.Message))
    (dequeued handed : List M.Message) : Relay M :=
  ⟨s.life.dim.threads .testConnected .testConnected, s.serial, s.qToGcs, none, received, dequeued,
    handed⟩

@[simp] theorem Life.setKse_threads (l : Life σ) (kse : Kse σ) (recv : RecvPc) (send : SendPc) :
    (l.setKse kse).dim.threads recv send = l.dim.threads recv send := rfl

theorem Life.store_store (l : Life σ) (off : Nat) (bytes : List UInt8) (off' : Nat)
    (bytes' : List UInt8) : ∃ kse, (l.store off bytes).store off' bytes' = l.setKse kse := ⟨_, rfl⟩

theorem decrypt_setKse {block : EncryptedBlock} {l l' : Life σ}
    (h : Server.decrypt W fuel L block l = some l') : ∃ kse, l' = l.setKse kse := by
  rw [Server.decrypt] at h
  split at h
  · cases h
  · rename_i code kse hcall
    obtain rfl := Option.some.inj h
    exact ⟨kse, by simp only [Life.store, Life.setKse_setKse]⟩

/-- So is a turn of `autopilot_read_message`. -/
theorem autopilotRead_relay {s s' : Server M σ} {r : Option M.Message}
    (h : s.autopilotRead W fuel L r = some s') (received : List (Option M.Message))
    (dequeued handed : List M.Message) :
    (s.relay received dequeued handed).autopilotRead L.encryptedTextContents r =
      s'.relay (received ++ [r]) dequeued handed := by
  rcases hnext : s.serial.next M L.encryptedTextContents r with ⟨serial, action⟩
  simp only [Server.autopilotRead, hnext] at h
  simp only [Relay.autopilotRead, Server.relay, hnext]
  cases action with
  | enqueue message =>
    obtain rfl := Option.some.inj h
    rfl
  | decrypt block =>
    obtain ⟨life, hdecrypt, rfl⟩ := Option.map_eq_some_iff.mp h
    obtain ⟨kse, rfl⟩ := decrypt_setKse hdecrypt
    simp [SerialAction.enqueued]
  | none | store =>
    obtain rfl := Option.some.inj h
    simp [SerialAction.enqueued]

/-- A call of the writer that finds the error. -/
theorem gcsWrite_iterate_error (serial : SerialReader) (message : M.Message)
    (queue : List M.Message) (received : List (Option M.Message))
    (dequeued handed : List M.Message) (onRead onWrite : Bool) :
    Relay.gcsWrite^[3] ⟨⟨.testConnected, .testConnected, onRead, onWrite, true⟩, serial,
        message :: queue, none, received, dequeued, handed⟩ =
      ⟨⟨.testConnected, .testConnected, onRead, onWrite, true⟩, serial, queue, none, received,
        dequeued ++ [message], handed⟩ := by
  simp [Relay.gcsWrite, Threads.next]

/-- A call that does not, and does not have to wait. -/
theorem gcsWrite_iterate_write (serial : SerialReader) (message : M.Message)
    (queue : List M.Message) (received : List (Option M.Message))
    (dequeued handed : List M.Message) (onWrite : Bool) :
    Relay.gcsWrite^[10] ⟨⟨.testConnected, .testConnected, false, onWrite, false⟩, serial,
        message :: queue, none, received, dequeued, handed⟩ =
      ⟨⟨.testConnected, .testConnected, false, false, false⟩, serial, queue, none, received,
        dequeued ++ [message], handed ++ [message]⟩ := by
  simp [Relay.gcsWrite, Threads.next]

/-- A `gcs_write_message` of a connected server is a run of the relay's writer.  It hands its
    message over exactly when `_tls_read_error` is not -1. -/
theorem gcsWrite_relay {s s' : Server M σ} (h : s.gcsWrite W fuel L = some s')
    (hconnected : s.life.Connected) (received : List (Option M.Message))
    (dequeued handed : List M.Message) :
    ∃ n, Relay.gcsWrite^[n] (s.relay received dequeued handed) =
      s'.relay received (dequeued ++ s.qToGcs.take 1)
        (if s.life.dim.tlsReadError = -1 then handed else handed ++ s.qToGcs.take 1) := by
  cases hqueue : s.qToGcs with
  | nil =>
    rw [Server.gcsWrite, hqueue] at h
    obtain rfl := Option.some.inj h
    exact ⟨0, by simp⟩
  | cons message queue =>
    simp only [Server.gcsWrite, hqueue] at h
    obtain ⟨kse₀, hstored⟩ := s.life.store_store L.sendBuffer (List.replicate BUFFER_LENGTH 0)
      L.sendBuffer (M.msgToSendBuffer message)
    have hconnected₀ : (s.life.setKse kse₀).Connected := hconnected
    rw [hstored, if_pos hconnected₀] at h
    split at h
    · cases h
    · rename_i result life hsend
      obtain rfl := Option.some.inj h
      obtain ⟨hrun, -⟩ := Life.returns_eq_some.mp hsend
      have hstatus : s.life.dim.connectionStatus = .connected := hconnected
      simp only [DimCall.run, Dim.send, Life.setKse, hstatus] at hrun
      by_cases hfailed : s.life.dim.tlsReadError = -1
      · simp only [hfailed, ne_eq, not_true_eq_false, if_false, if_true, Prod.mk.injEq] at hrun
        refine ⟨3, ?_⟩
        simp only [Server.relay, ← hrun.2, Dim.threads, hqueue, hfailed, decide_true, if_true]
        exact gcsWrite_iterate_error ..
      · cases hread : s.life.dim.onRead with
        | true => simp [hfailed, hread] at hrun
        | false =>
          simp only [hfailed, hread, ne_eq, not_true_eq_false, if_false, Bool.false_eq_true] at hrun
          split at hrun
          · simp at hrun
          · simp only [Prod.mk.injEq] at hrun
            refine ⟨10, ?_⟩
            simp only [Server.relay, ← hrun.2, Dim.threads, hqueue, hfailed, hread, decide_false,
              if_false]
            exact gcsWrite_iterate_write ..

end MavlinkDim
