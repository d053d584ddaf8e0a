import MavlinkDim.Runs
import MavlinkDim.TlsRun

/-!
# The DIM socket

`DimSocket` with the members that `DimServer` and `DimClient` add, over the
driver and the socket calls of the host.  One call runs to its end here, with no
other thread in between; the flags `on_read` and `on_write` are written as the
source writes them.
-/

namespace MavlinkDim

inductive SocketStatus where
  | connected
  | disconnected
deriving DecidableEq, Repr

/-- The socket calls that `DimSocket` makes itself.  `poll` gives its result and whether
    `POLLIN` is set in `revents`; it reports nothing for a negative descriptor. -/
structure Posix (σ : Type) where
  accept : σ → (serverFd : Int) → Int × σ
  socket : σ → Int × σ
  connect : σ → (fd : Int) → Int × σ
  close : σ → (fd : Int) → Int × σ
  poll : σ → (fd : Int) → Int × { pollin : Bool // pollin = true → 0 ≤ fd } × σ

structure Host (σ : Type) extends World σ, Posix σ

/-- How a call ends: it returns, it throws, or it is still running when the fuel is spent. -/
inductive Outcome where
  | returned (result : Int)
  | threw
  | running
deriving DecidableEq, Repr

/-- The outcome of a call that returns the code of the driver. -/
def Outcome.ofCode : Option Int → Outcome
  | some result => .returned result
  | none => .running

/-- The members of `DimSocket`, `pollFd` for `fds[0].fd`, and the driver.  `handshaken` records
    the code of the last handshake on `fd`; no function reads it. -/
structure Dim (σ : Type) where
  fd : Int
  serverFd : Int
  handshakeType : UInt8
  connectionStatus : SocketStatus
  onRead : Bool
  onWrite : Bool
  tlsReadError : Int
  tlsWriteError : Int
  pollFd : Int
  handshaken : Option Int
  kse : Kse σ

variable {σ : Type} (W : Host σ) (fuel : Nat)

namespace Dim

/-- `DimServer::accept` -/
def accept (x : Dim σ) : Outcome × Dim σ :=
  let (fd, world) := W.accept x.kse.world x.serverFd
  let x := { x with connectionStatus := .disconnected, fd, handshaken := none
                    kse := { x.kse with world } }
  if fd < 0 then (.returned fd, x)
  else
    let (result, kse) := ksetlsOpen W.toWorld fuel fd KSETLS_MODE_TLS KSETLS_SERVER 1 0 0
      SESSION x.kse
    let x := { x with kse }
    if result = none then (.running, x)
    else if result ≠ some KSE_SUCCESS then (.returned (-1), x)
    else
      let (result, kse) := ksetlsTlsServerHandshake W.toWorld fuel fd x.kse
      let x := { x with kse, handshaken := result }
      match result with
      | none => (.running, x)
      | some result =>
        -- a code that is not `KSE_SUCCESS` is printed, and the call goes on
        (.returned result,
          { x with connectionStatus := .connected, tlsReadError := 0, tlsWriteError := 0 })

def handshake (x : Dim σ) : Option Int × Dim σ :=
  let (result, kse) := ksetlsTlsClientHandshake W.toWorld fuel x.fd x.handshakeType x.kse
  let x := { x with kse, handshaken := result }
  if result = some KSE_SUCCESS then (some 0, { x with handshakeType := KSETLS_ABBR_HANDSHAKE })
  else (result, x)

/-- `DimClient::connect` -/
def connect (x : Dim σ) : Outcome × Dim σ :=
  let (fd, world) := W.socket x.kse.world
  let x := { x with fd, handshaken := none, kse := { x.kse with world } }
  if fd = -1 then (.threw, x)
  else
    let (result, world) := W.connect x.kse.world fd
    let x := { x with kse := { x.kse with world } }
    if result ≠ 0 then (.returned result, x)
    else
      let (result, kse) := ksetlsOpen W.toWorld fuel fd KSETLS_MODE_TLS KSETLS_CLIENT 1 0 0
        SESSION x.kse
      let x := { x with kse }
      if result ≠ some KSE_SUCCESS then (.ofCode result, x)
      else
        match handshake W fuel x with
        | (none, x) => (.running, x)
        | (some result, x) =>
          if result < 0 then (.returned result, x)
          else
            (.returned result,
              { x with connectionStatus := .connected, tlsReadError := 0, tlsWriteError := 0 })

/-- `DimSocket::send`.  With `on_read` set and no other thread, `while (on_read) {}` does not
    end. -/
def send (size data : Nat) (x : Dim σ) : Outcome × Dim σ :=
  if x.connectionStatus ≠ .connected then (.returned (-1), x)
  else if x.tlsReadError = -1 then (.returned 0, x)
  else if x.onRead then (.running, x)
  else if x.tlsReadError = -1 then (.returned 0, x)
  else
    let x := { x with onWrite := true }
    let (result, kse) := ksetlsTlsWrite W.toWorld fuel x.fd data (int16 size) x.kse
    let x := { x with kse }
    match result with
    | none => (.running, x)
    | some result =>
      let x := { x with onWrite := false }
      let x := { x with tlsWriteError := if result < 0 then -1 else 0 }
      (.returned result, { x with onWrite := false })

/-- `DimSocket::recv`.  The second component is `*size`. -/
def recv (size : Option Int) (data : Nat) (x : Dim σ) : Outcome × Option Int × Dim σ :=
  if x.connectionStatus ≠ .connected then (.returned (-1), size, x)
  else
    let x := { x with onRead := true }
    let (result, pollin, world) := W.poll x.kse.world x.pollFd
    let x := { x with kse := { x.kse with world } }
    if result > 0 ∧ x.onWrite = false then
      if pollin.val then
        let (result, size, kse) := ksetlsTlsRead W.toWorld fuel data size x.pollFd x.kse
        let x := { x with kse }
        match result with
        | none => (.running, size, x)
        | some result =>
          let x := { x with tlsReadError := if result < 0 then -1 else 0 }
          (.returned result, size, { x with onRead := false })
      else (.returned 0, size, { x with onRead := false })
    else (.returned 0, size, { x with onRead := false })

def tlsCloseNotify (x : Dim σ) : Outcome × Dim σ :=
  let (result, kse) := ksetlsTlsCloseNotify W.toWorld fuel x.fd x.kse
  (.ofCode result, { x with kse })

def tlsClose (x : Dim σ) : Outcome × Dim σ :=
  let (result, kse) := ksetlsClose W.toWorld fuel x.fd x.kse
  (.ofCode result, { x with kse })

def close (x : Dim σ) : Outcome × Dim σ :=
  let (_, world) := W.close x.kse.world x.fd
  tlsClose W fuel { x with connectionStatus := .disconnected, kse := { x.kse with world } }

def initPoll (x : Dim σ) : Dim σ := { x with pollFd := x.fd }

end Dim

/-! ### Runs -/

inductive DimCall where
  | accept
  | connect
  | send (size data : Nat)
  | recv (size : Option Int) (data : Nat)
  | tlsCloseNotify
  | tlsClose
  | close
  | initPoll

def DimCall.run : DimCall → Dim σ → Outcome × Dim σ
  | .accept, x => x.accept W fuel
  | .connect, x => x.connect W fuel
  | .send size data, x => x.send W fuel size data
  | .recv size data, x =>
    let (outcome, _, y) := x.recv W fuel size data
    (outcome, y)
  | .tlsCloseNotify, x => x.tlsCloseNotify W fuel
  | .tlsClose, x => x.tlsClose W fuel
  | .close, x => x.close W fuel
  | .initPoll, x => (.returned 0, x.initPoll)

/-- The states after the calls of a list, up to the first call that does not end. -/
def history : Dim σ → List DimCall → List (Dim σ)
  | _, [] => []
  | x, call :: calls =>
    let (outcome, y) := call.run W fuel x
    if outcome = .running then [] else y :: history y calls

theorem mem_history_cons {call : DimCall} {x : Dim σ} (hend : (call.run W fuel x).1 ≠ .running)
    (calls : List DimCall) (y : Dim σ) :
    y ∈ history W fuel x (call :: calls) ↔
      y = (call.run W fuel x).2 ∨ y ∈ history W fuel (call.run W fuel x).2 calls := by
  simp [history, hend]

/-- The state after a call that ends. -/
def DimCall.next (call : DimCall) (x : Dim σ) : Option (Dim σ) :=
  if (call.run W fuel x).1 = .running then none else some (call.run W fuel x).2

theorem DimCall.next_eq_some {call : DimCall} {x y : Dim σ} :
    call.next W fuel x = some y ↔
      (call.run W fuel x).1 ≠ .running ∧ (call.run W fuel x).2 = y := by
  rw [DimCall.next]
  split <;> simp_all

theorem history_eq_states (x : Dim σ) (calls : List DimCall) :
    history W fuel x calls = Runs.states (DimCall.next W fuel) x calls := by
  induction calls generalizing x with
  | nil => rfl
  | cons call calls ih =>
    by_cases hend : (call.run W fuel x).1 = .running
    · have hnone : call.next W fuel x = none := if_pos hend
      rw [Runs.states_cons_none hnone]
      exact if_pos hend
    · have hnext : call.next W fuel x = some (call.run W fuel x).2 := if_neg hend
      rw [Runs.states_cons_some hnext, ← ih]
      exact if_neg hend

/-- What every call keeps, every state of a run has. -/
theorem history_induction {P : Dim σ → Prop}
    (hstep : ∀ call x, P x → (DimCall.run W fuel call x).1 ≠ .running →
      P (DimCall.run W fuel call x).2)
    {x : Dim σ} (hx : P x) (calls : List DimCall) : ∀ y ∈ history W fuel x calls, P y := by
  rw [history_eq_states]
  apply Runs.states_induction _ hx
  intro call y z hnext hy
  obtain ⟨hend, rfl⟩ := (DimCall.next_eq_some W fuel).mp hnext
  exact hstep call y hy hend

/-! ### A scripted host -/

/-- Socket calls that succeed, with descriptor 5, and a poll that reports what is left of the
    script's input. -/
def scriptedHost : Host Script where
  toWorld := scriptedWorld
  accept s _ := (5, s)
  socket s := (5, s)
  connect s _ := (0, s)
  close s _ := (0, s)
  poll s fd := (if s.input = [] then 0 else 1, ⟨decide (s.input ≠ [] ∧ 0 ≤ fd), by simp⟩, s)

def statusReport (hi lo : UInt8) : Report := Report.ofList [REP_ONE_BLOCK, 0x06, 0, 2, hi, lo]

/-- A socket after `open`, with the reports its device will send and what its peer will. -/
def opened (reports : List Report) (input : List (List UInt8)) : Dim Script :=
  ⟨0, 4, KSETLS_FULL_HANDSHAKE, .disconnected, false, false, 0, 0, 0, none,
    poweredOn (fun _ => 0) ⟨reports, input, []⟩⟩

/-- A server that has accepted a client; `reports` and `input` are still to come. -/
def accepted (reports : List Report) (input : List (List UInt8)) : Dim Script :=
  ((opened (statusReport 0 0 :: statusReport 0 1 :: reports) ([0x16] :: input)).accept
    scriptedHost 5).2.initPoll

end MavlinkDim
