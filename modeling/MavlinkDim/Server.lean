import MavlinkDim.LifeRuns
import MavlinkDim.SerialReader

/-!
# The server

The four threads of `MAVLinkTlsServer` between the serial port and the GCS.  A
step is a turn of one of their loops; a call of the socket or of the KSE runs to
its end in it.  The thread that reads from the GCS is also the one that accepts
and ends sessions.
-/

namespace MavlinkDim

open ByteMemory

/-- The local arrays of the threads in the memory of the program, and what the locals that
    nothing initializes hold when a function is called for the n-th time. -/
structure ServerLocals where
  recvBuffer : Nat
  recvSize : Nat → Int
  sendBuffer : Nat
  encryptedText : Nat
  encryptedTextContents : Nat → Bytes
  plainText : Nat
  abIv : Nat
  abAuth : Nat
  abTag : Nat

def BUFFER_LENGTH : Nat := 8192

/-- Where `start_gcs_read_thread` is: at its `dim->accept()`, or in `gcs_read_message`. -/
inductive GcsReadPc where
  | accept
  | read
deriving DecidableEq, Repr

/-- The threads of a server.  `channel` is `MAVLINK_COMM_0`, which the socket's bytes go
    through; `written` is what the port got. -/
structure Server (M : Mavlink) (σ : Type) where
  life : Life σ
  channel : M.Status
  qToGcs : List M.Message
  qToAutopilot : List M.Message
  written : List M.Message
  serial : SerialReader
  gcsReadPc : GcsReadPc
  gcsReadCalls : Nat
  recvSize : Int
  noDataCount : Nat

variable {M : Mavlink} {σ : Type} (W : DimHost σ) (fuel : Nat) (L : ServerLocals)

namespace Server

/-! ### The thread that reads from the GCS -/

/-- The thread calls `gcs_read_message`. -/
def gcsReadCall (s : Server M σ) : Server M σ :=
  { s with gcsReadPc := .read, gcsReadCalls := s.gcsReadCalls + 1
           recvSize := L.recvSize s.gcsReadCalls
           life := s.life.store L.recvBuffer (List.replicate BUFFER_LENGTH 0) }

/-- One turn of the loop of `gcs_read_message`, with its result if it returns. -/
def gcsReadMessage (s : Server M σ) : Option (Option Int × Server M σ) :=
  match s.life.receive M W fuel L.recvBuffer s.channel s.recvSize with
  | none => none
  | some ⟨result, life, channel, recvSize, messages⟩ =>
    some (result,
      { s with life, channel, recvSize, qToAutopilot := s.qToAutopilot ++ messages })

/-- `dim->tls_close_notify()` and `dim->close()`, and out of the inner loop. -/
def endSession (s : Server M σ) : Option (Server M σ) :=
  match s.life.returns W fuel .tlsCloseNotify with
  | none => none
  | some (_, life) =>
    match life.returns W fuel .close with
    | none => none
    | some (_, life) => some { s with life, gcsReadPc := .accept }

/-- The inner loop of `start_gcs_read_thread` with a result of `gcs_read_message`. -/
def gcsReadResult (result : Int) (s : Server M σ) : Option (Server M σ) :=
  if result < 0 then
    if result = -0x7880 then some (s.gcsReadCall L)
    else if result = -0x7780 then s.endSession W fuel
    -- the error is printed and the session left as it is
    else some { s with gcsReadPc := .accept }
  else if result = 0 then
    let s := { s with noDataCount := s.noDataCount + 1 }
    if s.noDataCount > 5000 then
      (s.endSession W fuel).map fun s => { s with noDataCount := 0 }
    else some (s.gcsReadCall L)
  else some ({ s with noDataCount := 0 }.gcsReadCall L)

/-- A turn of `start_gcs_read_thread`. -/
def gcsRead (s : Server M σ) : Option (Server M σ) :=
  match s.gcsReadPc with
  | .accept =>
    match s.life.returns W fuel .accept with
    | none => none
    | some (result, life) =>
      if result < 0 then some { s with life }
      else some ({ s with life := life.initPoll W fuel }.gcsReadCall L)
  | .read =>
    match s.gcsReadMessage W fuel L with
    | none => none
    | some (none, s) => some s
    | some (some result, s) => s.gcsReadResult W fuel L result

/-! ### The other threads -/

/-- `gcs_write_message` -/
def gcsWrite (s : Server M σ) : Option (Server M σ) :=
  match s.qToGcs with
  | [] => some s
  | message :: qToGcs =>
    let bytes := M.msgToSendBuffer message
    let life :=
      (s.life.store L.sendBuffer (List.replicate BUFFER_LENGTH 0)).store L.sendBuffer bytes
    if life.Connected then
      match life.returns W fuel (.send bytes.length L.sendBuffer) with
      | none => none
      | some (_, life) => some { s with life, qToGcs }
    else some { s with life, qToGcs }

/-- `_kcmvpAriaGcm` on the local arrays. -/
def decrypt (block : EncryptedBlock) (l : Life σ) : Option (Life σ) :=
  let l := (((l.store L.encryptedText block.encryptedText).store L.abIv block.abIv).store
    L.abAuth block.abAuth).store L.abTag block.abTag
  let l := l.store L.plainText (List.replicate 256 0)
  match (Command.ariaGcm L.plainText L.encryptedText 256 KCMVP_ARIA128_KEY 0 L.abIv 16 L.abAuth
    128 L.abTag 16 DECRYPT).run W.toWorld fuel l.dim.kse with
  | (none, _) => none
  | (some _, kse) => some (l.setKse kse)

/-- A turn of `autopilot_read_message` with what the port gives. -/
def autopilotRead (r : Option M.Message) (s : Server M σ) : Option (Server M σ) :=
  let (serial, action) := s.serial.next M L.encryptedTextContents r
  let s := { s with serial }
  match action with
  | .enqueue message => some { s with qToGcs := s.qToGcs ++ [message] }
  | .decrypt block => (decrypt W fuel L block s.life).map fun life => { s with life }
  | _ => some s

/-- `autopilot_write_message` -/
def autopilotWrite (s : Server M σ) : Server M σ :=
  match s.qToAutopilot with
  | [] => s
  | message :: qToAutopilot => { s with qToAutopilot, written := s.written ++ [message] }

end Server

/-- A step of one of the threads. -/
inductive ServerStep (M : Mavlink) where
  | gcsRead
  | gcsWrite
  | autopilotRead (r : Option M.Message)
  | autopilotWrite

def ServerStep.run : ServerStep M → Server M σ → Option (Server M σ)
  | .gcsRead, s => s.gcsRead W fuel L
  | .gcsWrite, s => s.gcsWrite W fuel L
  | .autopilotRead r, s => s.autopilotRead W fuel L r
  | .autopilotWrite, s => some s.autopilotWrite

/-- A server whose threads start on a socket object. -/
def Server.start (life : Life σ) : Server M σ :=
  ⟨life, M.idle, [], [], [], .start L.encryptedTextContents, .accept, 0, 0, 0⟩

/-! ### What a step does with the socket -/

namespace Server

variable {W fuel L} {s s' : Server M σ}

/-- The read of this turn gives an error that the loop has no branch for. -/
def ReadFails (W : DimHost σ) (fuel : Nat) (L : ServerLocals) (s : Server M σ) : Prop :=
  s.life.Connected ∧ ∃ result recvSize life,
    s.life.recv W fuel s.recvSize L.recvBuffer = some (result, recvSize, life) ∧
      result < 0 ∧ result ≠ -0x7880 ∧ result ≠ -0x7780

theorem gcsReadCall_run (allowed : DimCall → Life σ → Prop) (s : Server M σ) :
    LifeRun W fuel allowed s.life (s.gcsReadCall L).life :=
  LifeRun.store .refl _ _

theorem gcsReadMessage_cases {result : Option Int}
    (h : s.gcsReadMessage W fuel L = some (result, s')) :
    LifeRun W fuel Reads s.life s'.life ∧ s'.gcsReadPc = s.gcsReadPc ∧
      (s.ReadFails W fuel L ↔
        ∃ code, result = some code ∧ code < 0 ∧ code ≠ -0x7880 ∧ code ≠ -0x7780) := by
  rw [gcsReadMessage] at h
  split at h
  · cases h
  · rename_i life channel recvSize messages hreceive
    simp only [Option.some.injEq, Prod.mk.injEq] at h
    obtain ⟨rfl, rfl⟩ := h
    refine ⟨receive_run hreceive, rfl, ?_⟩
    constructor
    · rintro ⟨hconnected, code, recvSize', life', hrecv, hneg, hcode⟩
      exact ⟨code, (receive_negative_iff hreceive hneg).mpr ⟨hconnected, _, _, hrecv⟩, hneg, hcode⟩
    · rintro ⟨code, hresult, hneg, hcode⟩
      obtain ⟨hconnected, recvSize', life', hrecv⟩ :=
        (receive_negative_iff hreceive hneg).mp hresult
      exact ⟨hconnected, code, recvSize', life', hrecv, hneg, hcode⟩

theorem endSession_cases (h : s.endSession W fuel = some s') :
    s'.gcsReadPc = .accept ∧ ∃ result result' life,
      s.life.returns W fuel .tlsCloseNotify = some (result, life) ∧
        life.returns W fuel .close = some (result', s'.life) := by
  rw [endSession] at h
  split at h
  · cases h
  · rename_i result life hnotify
    split at h
    · cases h
    · rename_i result' life' hclose
      obtain rfl := Option.some.inj h
      exact ⟨rfl, result, result', life, hnotify, hclose⟩

theorem endSession_eq (h : s.endSession W fuel = some s') :
    s' = { s with life := s'.life, gcsReadPc := .accept } := by
  rw [endSession] at h
  split at h
  · cases h
  · split at h
    · cases h
    · obtain rfl := Option.some.inj h
      rfl

/-- With a result of `gcs_read_message` the session goes on, is left without a close, or is
    closed. -/
theorem gcsReadResult_cases {result : Int} (h : s.gcsReadResult W fuel L result = some s') :
    (¬(result < 0 ∧ result ≠ -0x7880 ∧ result ≠ -0x7780) ∧ s'.gcsReadPc = .read ∧
        LifeRun W fuel Reads s.life s'.life) ∨
      ((result < 0 ∧ result ≠ -0x7880 ∧ result ≠ -0x7780) ∧ s'.gcsReadPc = .accept ∧
        s'.life = s.life) ∨
      (¬(result < 0 ∧ result ≠ -0x7880 ∧ result ≠ -0x7780) ∧ s'.gcsReadPc = .accept ∧
        ∃ code code' life, s.life.returns W fuel .tlsCloseNotify = some (code, life) ∧
          life.returns W fuel .close = some (code', s'.life)) := by
  rw [gcsReadResult] at h
  by_cases hneg : result < 0
  · rw [if_pos hneg] at h
    by_cases hnotify : result = -0x7880
    · rw [if_pos hnotify] at h
      obtain rfl := Option.some.inj h
      refine .inl ⟨?_, rfl, gcsReadCall_run _ _⟩
      rintro ⟨-, hother, -⟩
      exact hother hnotify
    · rw [if_neg hnotify] at h
      by_cases halert : result = -0x7780
      · rw [if_pos halert] at h
        refine .inr (.inr ⟨?_, endSession_cases h⟩)
        rintro ⟨-, -, hother⟩
        exact hother halert
      · rw [if_neg halert] at h
        obtain rfl := Option.some.inj h
        exact .inr (.inl ⟨⟨hneg, hnotify, halert⟩, rfl, rfl⟩)
  · have hsound : ¬(result < 0 ∧ result ≠ -0x7880 ∧ result ≠ -0x7780) := by
      rintro ⟨hneg', -⟩
      exact hneg hneg'
    rw [if_neg hneg] at h
    by_cases hzero : result = 0
    · rw [if_pos hzero] at h
      dsimp only at h
      split at h
      · obtain ⟨s₁, hend, rfl⟩ := Option.map_eq_some_iff.mp h
        have hended := endSession_cases hend
        exact .inr (.inr ⟨hsound, hended⟩)
      · obtain rfl := Option.some.inj h
        exact .inl ⟨hsound, rfl, gcsReadCall_run _ _⟩
    · rw [if_neg hzero] at h
      obtain rfl := Option.some.inj h
      exact .inl ⟨hsound, rfl, gcsReadCall_run _ _⟩

/-- So does a turn of `start_gcs_read_thread` in a session. -/
theorem gcsRead_read_cases (hpc : s.gcsReadPc = .read) (h : s.gcsRead W fuel L = some s') :
    ∃ life, LifeRun W fuel Reads s.life life ∧
      (¬s.ReadFails W fuel L ∧ s'.gcsReadPc = .read ∧ LifeRun W fuel Reads life s'.life ∨
        s.ReadFails W fuel L ∧ s'.gcsReadPc = .accept ∧ s'.life = life ∨
        ¬s.ReadFails W fuel L ∧ s'.gcsReadPc = .accept ∧ ∃ result result' life',
          life.returns W fuel .tlsCloseNotify = some (result, life') ∧
            life'.returns W fuel .close = some (result', s'.life)) := by
  rw [gcsRead, hpc] at h
  dsimp only at h
  rcases hread : s.gcsReadMessage W fuel L with _ | ⟨result, s₁⟩
  · rw [hread] at h
    cases h
  · obtain ⟨hrun, hpc₁, hfails⟩ := gcsReadMessage_cases hread
    refine ⟨s₁.life, hrun, ?_⟩
    rw [hread] at h
    cases result with
    | none =>
      obtain rfl := Option.some.inj h
      refine Or.inl ⟨?_, hpc₁.trans hpc, .refl⟩
      simpa using hfails
    | some code =>
      simp only [Option.some.injEq, exists_eq_left'] at hfails
      rw [hfails]
      exact gcsReadResult_cases h

theorem gcsRead_accept_cases (hpc : s.gcsReadPc = .accept) (h : s.gcsRead W fuel L = some s') :
    ∃ result life, s.life.returns W fuel .accept = some (result, life) ∧
      (result < 0 ∧ s'.gcsReadPc = .accept ∧ s'.life = life ∨
        0 ≤ result ∧ s'.gcsReadPc = .read ∧ ∃ off bytes,
          s'.life = (life.initPoll W fuel).store off bytes) := by
  rw [gcsRead, hpc] at h
  dsimp only at h
  rcases haccept : s.life.returns W fuel .accept with _ | ⟨result, life⟩
  · rw [haccept] at h
    cases h
  · refine ⟨result, life, rfl, ?_⟩
    rw [haccept] at h
    dsimp only at h
    by_cases hneg : result < 0
    · rw [if_pos hneg] at h
      obtain rfl := Option.some.inj h
      exact Or.inl ⟨hneg, rfl, rfl⟩
    · rw [if_neg hneg] at h
      obtain rfl := Option.some.inj h
      exact Or.inr ⟨not_lt.mp hneg, rfl, _, _, rfl⟩

theorem gcsWrite_cases (h : s.gcsWrite W fuel L = some s') :
    LifeRun W fuel Writes s.life s'.life ∧ s'.gcsReadPc = s.gcsReadPc := by
  rw [gcsWrite] at h
  cases hqueue : s.qToGcs with
  | nil =>
    rw [hqueue] at h
    obtain rfl := Option.some.inj h
    exact ⟨.refl, rfl⟩
  | cons message qToGcs =>
    rw [hqueue] at h
    dsimp only at h
    set life := (s.life.store L.sendBuffer (List.replicate BUFFER_LENGTH 0)).store L.sendBuffer
      (M.msgToSendBuffer message)
    have hstored : LifeRun W fuel Writes s.life life := .store (.store .refl _ _) _ _
    by_cases hconnected : life.Connected
    · rw [if_pos hconnected] at h
      split at h
      · cases h
      · rename_i result life' hsend
        obtain rfl := Option.some.inj h
        exact ⟨hstored.trans (LifeRun.call ⟨hconnected, _, _, rfl⟩ hsend), rfl⟩
    · rw [if_neg hconnected] at h
      obtain rfl := Option.some.inj h
      exact ⟨hstored, rfl⟩

theorem decrypt_run {block : EncryptedBlock} {l l' : Life σ}
    (h : decrypt W fuel L block l = some l') (allowed : DimCall → Life σ → Prop) :
    LifeRun W fuel allowed l l' := by
  rw [decrypt] at h
  split at h
  · cases h
  · rename_i code kse hcall
    obtain rfl := Option.some.inj h
    exact .command (.store (.store (.store (.store (.store .refl _ _) _ _) _ _) _ _) _ _) _ hcall

theorem autopilotRead_cases {r : Option M.Message} (h : s.autopilotRead W fuel L r = some s')
    (allowed : DimCall → Life σ → Prop) :
    LifeRun W fuel allowed s.life s'.life ∧ s'.gcsReadPc = s.gcsReadPc := by
  rw [autopilotRead] at h
  dsimp only at h
  split at h
  · obtain rfl := Option.some.inj h
    exact ⟨.refl, rfl⟩
  · rw [Option.map_eq_some_iff] at h
    obtain ⟨life, hdecrypt, rfl⟩ := h
    exact ⟨decrypt_run hdecrypt allowed, rfl⟩
  · obtain rfl := Option.some.inj h
    exact ⟨.refl, rfl⟩

theorem autopilotWrite_eq (s : Server M σ) :
    s.autopilotWrite.life = s.life ∧ s.autopilotWrite.gcsReadPc = s.gcsReadPc := by
  rw [autopilotWrite]
  split <;> exact ⟨rfl, rfl⟩

end Server

/-- The steps of the other threads. -/
theorem ServerStep.other_run {W : DimHost σ} {fuel : Nat} {L : ServerLocals} {step : ServerStep M}
    {s s' : Server M σ} (h : step.run W fuel L s = some s') (hother : step ≠ .gcsRead) :
    LifeRun W fuel Writes s.life s'.life ∧ s'.gcsReadPc = s.gcsReadPc := by
  cases step with
  | gcsRead => exact absurd rfl hother
  | gcsWrite => exact Server.gcsWrite_cases h
  | autopilotRead r => exact Server.autopilotRead_cases h Writes
  | autopilotWrite =>
    obtain rfl := Option.some.inj h
    rw [(Server.autopilotWrite_eq s).1]
    exact ⟨.refl, (Server.autopilotWrite_eq s).2⟩

/-- They leave the channel and the counter alone. -/
theorem ServerStep.other_keeps {W : DimHost σ} {fuel : Nat} {L : ServerLocals}
    {step : ServerStep M} {s s' : Server M σ} (h : step.run W fuel L s = some s')
    (hother : step ≠ .gcsRead) :
    s'.channel = s.channel ∧ s'.noDataCount = s.noDataCount := by
  cases step with
  | gcsRead => exact absurd rfl hother
  | gcsWrite =>
    simp only [ServerStep.run, Server.gcsWrite] at h
    split at h
    · obtain rfl := Option.some.inj h
      exact ⟨rfl, rfl⟩
    · split at h
      · split at h
        · cases h
        · obtain rfl := Option.some.inj h
          exact ⟨rfl, rfl⟩
      · obtain rfl := Option.some.inj h
        exact ⟨rfl, rfl⟩
  | autopilotRead r =>
    simp only [ServerStep.run, Server.autopilotRead] at h
    split at h
    · obtain rfl := Option.some.inj h
      exact ⟨rfl, rfl⟩
    · obtain ⟨life, -, rfl⟩ := Option.map_eq_some_iff.mp h
      exact ⟨rfl, rfl⟩
    · obtain rfl := Option.some.inj h
      exact ⟨rfl, rfl⟩
  | autopilotWrite =>
    obtain rfl := Option.some.inj h
    rw [Server.autopilotWrite]
    split <;> exact ⟨rfl, rfl⟩

end MavlinkDim
