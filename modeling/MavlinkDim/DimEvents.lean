import MavlinkDim.DimConnection
import MavlinkDim.PendingRegion

/-!
# What a socket does to the outside

The calls of `DimSocket` as the events they are made of: the descriptors it gets
and closes, and its calls of kseTLS with the pending region before and after
each.  The regions of the events fit together (`events_chain`), so no change of
the region happens outside them.
-/

namespace MavlinkDim

structure Region where
  offset : Nat
  length : Nat
deriving DecidableEq, Repr

/-- The functions of kseTLS that a socket calls. -/
inductive TlsFunction where
  | tlsOpen
  | tlsHandshake
  | tlsRead
  | tlsWrite
  | tlsCloseNotify
  | tlsClose
deriving DecidableEq, Repr

/-- `accept`, `socket` and `close` are the system calls, with the descriptor that `_fd` gets or
    that is closed. -/
inductive DimEvent where
  | accept (fd : Int)
  | socket (fd : Int)
  | close (fd : Int)
  | kse (f : TlsFunction) (fd : Int) (code : Option Int) (before after : Region)
deriving DecidableEq, Repr

variable {σ : Type} (W : Host σ) (fuel : Nat)

def Kse.pendingRegion (x : Kse σ) : Region := ⟨x.gusTxRxDataOffset, x.gusTxRxDataLength⟩

/-- The call of `f` in the state `x` that ended with `r`. -/
def Kse.event (x : Kse σ) (f : TlsFunction) (fd : Int) (r : Option Int × Kse σ) : DimEvent :=
  .kse f fd r.1 x.pendingRegion r.2.pendingRegion

namespace Dim

def acceptEvents (x : Dim σ) : List DimEvent :=
  let (fd, world) := W.accept x.kse.world x.serverFd
  let kse := { x.kse with world }
  if fd < 0 then [.accept fd]
  else
    let opened := ksetlsOpen W.toWorld fuel fd KSETLS_MODE_TLS KSETLS_SERVER 1 0 0 SESSION kse
    if opened.1 ≠ some KSE_SUCCESS then [.accept fd, kse.event .tlsOpen fd opened]
    else
      [.accept fd, kse.event .tlsOpen fd opened,
        opened.2.event .tlsHandshake fd (ksetlsTlsServerHandshake W.toWorld fuel fd opened.2)]

def connectEvents (x : Dim σ) : List DimEvent :=
  let (fd, world) := W.socket x.kse.world
  if fd = -1 then [.socket fd]
  else
    let (result, world) := W.connect world fd
    let kse := { x.kse with world }
    if result ≠ 0 then [.socket fd]
    else
      let opened := ksetlsOpen W.toWorld fuel fd KSETLS_MODE_TLS KSETLS_CLIENT 1 0 0 SESSION kse
      if opened.1 ≠ some KSE_SUCCESS then [.socket fd, kse.event .tlsOpen fd opened]
      else
        [.socket fd, kse.event .tlsOpen fd opened,
          opened.2.event .tlsHandshake fd
            (ksetlsTlsClientHandshake W.toWorld fuel fd x.handshakeType opened.2)]

def sendEvents (size data : Nat) (x : Dim σ) : List DimEvent :=
  if x.connectionStatus ≠ .connected ∨ x.tlsReadError = -1 ∨ x.onRead = true then []
  else
    [x.kse.event .tlsWrite x.fd (ksetlsTlsWrite W.toWorld fuel x.fd data (int16 size) x.kse)]

def recvEvents (size : Option Int) (data : Nat) (x : Dim σ) : List DimEvent :=
  let (result, pollin, world) := W.poll x.kse.world x.pollFd
  let kse := { x.kse with world }
  if x.connectionStatus ≠ .connected ∨ ¬(result > 0 ∧ x.onWrite = false) ∨ pollin.val = false then
    []
  else
    let (code, _, kse') := ksetlsTlsRead W.toWorld fuel data size x.pollFd kse
    [kse.event .tlsRead x.pollFd (code, kse')]

def closeEvents (x : Dim σ) : List DimEvent :=
  let (_, world) := W.close x.kse.world x.fd
  let kse := { x.kse with world }
  [.close x.fd, kse.event .tlsClose x.fd (ksetlsClose W.toWorld fuel x.fd kse)]

end Dim

def DimCall.events : DimCall → Dim σ → List DimEvent
  | .accept, x => x.acceptEvents W fuel
  | .connect, x => x.connectEvents W fuel
  | .send size data, x => x.sendEvents W fuel size data
  | .recv size data, x => x.recvEvents W fuel size data
  | .tlsCloseNotify, x =>
    [x.kse.event .tlsCloseNotify x.fd (ksetlsTlsCloseNotify W.toWorld fuel x.fd x.kse)]
  | .tlsClose, x => [x.kse.event .tlsClose x.fd (ksetlsClose W.toWorld fuel x.fd x.kse)]
  | .close, x => x.closeEvents W fuel
  | .initPoll, _ => []

/-! ### The regions of the events -/

/-- The events take the region from `r` to `r'`. -/
def Chain : Region → List DimEvent → Region → Prop
  | r, [], r' => r = r'
  | r, .kse _ _ _ before after :: es, r' => before = r ∧ Chain after es r'
  | r, _ :: es, r' => Chain r es r'

@[simp] theorem chain_event (x : Kse σ) (f : TlsFunction) (fd : Int) (r : Option Int × Kse σ)
    (es : List DimEvent) (r' : Region) :
    Chain x.pendingRegion (x.event f fd r :: es) r' ↔ Chain r.2.pendingRegion es r' := by
  simp [Kse.event, Chain]

theorem accept_chain (x : Dim σ) :
    Chain x.kse.pendingRegion (x.acceptEvents W fuel) (x.accept W fuel).2.kse.pendingRegion := by
  rcases haccept : W.accept x.kse.world x.serverFd with ⟨fd, world⟩
  rcases hopen : ksetlsOpen W.toWorld fuel fd KSETLS_MODE_TLS KSETLS_SERVER 1 0 0 SESSION
    { x.kse with world } with ⟨result, kse⟩
  rcases hhandshake : ksetlsTlsServerHandshake W.toWorld fuel fd kse with ⟨code, kse'⟩
  simp only [Dim.acceptEvents, Dim.accept, haccept, hopen, hhandshake]
  by_cases hfd : fd < 0
  · simp only [if_pos hfd]
    rfl
  · by_cases hok : result = some KSE_SUCCESS
    · have hrunning : result ≠ none := by simp [hok]
      simp only [if_neg hfd, if_neg hrunning, if_neg (not_not.mpr hok)]
      cases code <;> exact ⟨rfl, rfl, rfl⟩
    · simp only [if_neg hfd, if_pos hok]
      by_cases hrunning : result = none
      · simp only [if_pos hrunning]
        exact ⟨rfl, rfl⟩
      · simp only [if_neg hrunning]
        exact ⟨rfl, rfl⟩

theorem handshake_kse (x : Dim σ) :
    (x.handshake W fuel).2.kse =
      (ksetlsTlsClientHandshake W.toWorld fuel x.fd x.handshakeType x.kse).2 := by
  simp only [Dim.handshake]
  split <;> rfl

theorem connect_chain (x : Dim σ) :
    Chain x.kse.pendingRegion (x.connectEvents W fuel) (x.connect W fuel).2.kse.pendingRegion := by
  rcases hsocket : W.socket x.kse.world with ⟨fd, world⟩
  rcases hconnect : W.connect world fd with ⟨connected, world'⟩
  rcases hopen : ksetlsOpen W.toWorld fuel fd KSETLS_MODE_TLS KSETLS_CLIENT 1 0 0 SESSION
    { x.kse with world := world' } with ⟨result, kse⟩
  rcases hcall : Dim.handshake W fuel { x with fd, handshaken := none, kse } with ⟨code, y⟩
  have hkse := handshake_kse W fuel { x with fd, handshaken := none, kse }
  rw [hcall] at hkse
  simp only [Dim.connectEvents, Dim.connect, hsocket, hconnect, hopen, hcall]
  by_cases hfd : fd = -1
  · simp only [if_pos hfd]
    rfl
  · by_cases hfailed : connected ≠ 0
    · simp only [if_neg hfd, if_pos hfailed]
      rfl
    · by_cases hfail : result ≠ some KSE_SUCCESS
      · simp only [if_neg hfd, if_neg hfailed, if_pos hfail]
        exact ⟨rfl, rfl⟩
      · simp only [if_neg hfd, if_neg hfailed, if_neg hfail]
        refine ⟨rfl, rfl, ?_⟩
        rw [← hkse]
        cases code with
        | none => rfl
        | some result =>
          dsimp only
          split <;> rfl

theorem send_chain (size data : Nat) (x : Dim σ) :
    Chain x.kse.pendingRegion (x.sendEvents W fuel size data)
      (x.send W fuel size data).2.kse.pendingRegion := by
  rcases hwrite : ksetlsTlsWrite W.toWorld fuel x.fd data (int16 size) x.kse with ⟨result, kse⟩
  simp only [Dim.sendEvents, Dim.send, hwrite]
  by_cases hstatus : x.connectionStatus = .connected
  · by_cases herror : x.tlsReadError = -1
    · simp only [herror, true_or, or_true, if_true, hstatus, ne_eq, not_true_eq_false, if_false]
      rfl
    · cases hread : x.onRead with
      | true => simp [hstatus, herror, Chain]
      | false =>
        simp only [hstatus, herror, ne_eq, not_true_eq_false, or_self, if_false,
          Bool.false_eq_true, chain_event]
        cases result <;> rfl
  · simp [hstatus, Chain]

theorem recv_chain (size : Option Int) (data : Nat) (x : Dim σ) :
    Chain x.kse.pendingRegion (x.recvEvents W fuel size data)
      (x.recv W fuel size data).2.2.kse.pendingRegion := by
  rcases hpoll : W.poll x.kse.world x.pollFd with ⟨result, pollin, world⟩
  rcases hread : ksetlsTlsRead W.toWorld fuel data size x.pollFd { x.kse with world } with
    ⟨code, size', kse⟩
  simp only [Dim.recvEvents, Dim.recv, hpoll, hread]
  by_cases hstatus : x.connectionStatus = .connected
  · by_cases hready : result > 0 ∧ x.onWrite = false
    · cases hpollin : pollin.val with
      | true =>
        simp only [hstatus, hready, ne_eq, not_true_eq_false, and_self, or_self,
          Bool.true_eq_false, if_false, if_true]
        cases code <;> exact ⟨rfl, rfl⟩
      | false =>
        simp only [hstatus, hready, ne_eq, not_true_eq_false, and_self, or_true, if_true,
          if_false, Bool.false_eq_true]
        rfl
    · simp only [hstatus, hready, ne_eq, not_true_eq_false, not_false_eq_true, true_or, or_true,
        if_true, if_false]
      rfl
  · simp [hstatus, Chain]

/-- The events of a call take the pending region from where the call found it to where it
    leaves it. -/
theorem DimCall.events_chain (call : DimCall) (x : Dim σ) :
    Chain x.kse.pendingRegion (call.events W fuel x) (call.run W fuel x).2.kse.pendingRegion := by
  cases call with
  | accept => exact accept_chain W fuel x
  | connect => exact connect_chain W fuel x
  | send size data => exact send_chain W fuel size data x
  | recv size data => exact recv_chain W fuel size data x
  | tlsCloseNotify => exact ⟨rfl, rfl⟩
  | tlsClose => exact ⟨rfl, rfl⟩
  | close => exact ⟨rfl, rfl⟩
  | initPoll => rfl

/-! ### The descriptors of the events -/

/-- The events take `_fd` from `fd` to `fd'`, and a `close` closes what it is. -/
def FdChain : Int → List DimEvent → Int → Prop
  | fd, [], fd' => fd = fd'
  | _, .accept fd :: es, fd' => FdChain fd es fd'
  | _, .socket fd :: es, fd' => FdChain fd es fd'
  | fd, .close closed :: es, fd' => closed = fd ∧ FdChain fd es fd'
  | fd, .kse .. :: es, fd' => FdChain fd es fd'

theorem FdChain.append {fd fd' fd'' : Int} {es es' : List DimEvent} (h : FdChain fd es fd')
    (h' : FdChain fd' es' fd'') : FdChain fd (es ++ es') fd'' := by
  induction es generalizing fd with
  | nil =>
    rw [show fd = fd' from h]
    exact h'
  | cons e es ih =>
    cases e with
    | accept fd₀ => exact ih h
    | socket fd₀ => exact ih h
    | close fd₀ => exact ⟨h.1, ih h.2⟩
    | kse f fd₀ code before after => exact ih h

theorem accept_fdChain (x : Dim σ) :
    FdChain x.fd (x.acceptEvents W fuel) (x.accept W fuel).2.fd := by
  rcases haccept : W.accept x.kse.world x.serverFd with ⟨fd, world⟩
  rcases hopen : ksetlsOpen W.toWorld fuel fd KSETLS_MODE_TLS KSETLS_SERVER 1 0 0 SESSION
    { x.kse with world } with ⟨result, kse⟩
  rcases hhandshake : ksetlsTlsServerHandshake W.toWorld fuel fd kse with ⟨code, kse'⟩
  simp only [Dim.acceptEvents, Dim.accept, haccept, hopen, hhandshake]
  repeat' split
  all_goals rfl

theorem handshake_fd (x : Dim σ) : (x.handshake W fuel).2.fd = x.fd := by
  simp only [Dim.handshake]
  split <;> rfl

theorem connect_fdChain (x : Dim σ) :
    FdChain x.fd (x.connectEvents W fuel) (x.connect W fuel).2.fd := by
  rcases hsocket : W.socket x.kse.world with ⟨fd, world⟩
  rcases hconnect : W.connect world fd with ⟨connected, world'⟩
  rcases hopen : ksetlsOpen W.toWorld fuel fd KSETLS_MODE_TLS KSETLS_CLIENT 1 0 0 SESSION
    { x.kse with world := world' } with ⟨result, kse⟩
  rcases hcall : Dim.handshake W fuel { x with fd, handshaken := none, kse } with ⟨code, y⟩
  have hfd := handshake_fd W fuel { x with fd, handshaken := none, kse }
  rw [hcall] at hfd
  simp only [Dim.connectEvents, Dim.connect, hsocket, hconnect, hopen, hcall]
  by_cases hsocketed : fd = -1
  · simp only [if_pos hsocketed]
    rfl
  · by_cases hfailed : connected ≠ 0
    · simp only [if_neg hsocketed, if_pos hfailed]
      rfl
    · by_cases hfail : result ≠ some KSE_SUCCESS
      · simp only [if_neg hsocketed, if_neg hfailed, if_pos hfail]
        rfl
      · simp only [if_neg hsocketed, if_neg hfailed, if_neg hfail]
        cases code with
        | none => exact hfd.symm
        | some result =>
          dsimp only
          split <;> exact hfd.symm

theorem DimCall.events_fdChain (call : DimCall) (x : Dim σ) :
    FdChain x.fd (call.events W fuel x) (call.run W fuel x).2.fd := by
  cases call with
  | accept => exact accept_fdChain W fuel x
  | connect => exact connect_fdChain W fuel x
  | send size data =>
    simp only [DimCall.events, DimCall.run, Dim.sendEvents, Dim.send]
    repeat' split
    all_goals rfl
  | recv size data =>
    simp only [DimCall.events, DimCall.run, Dim.recvEvents, Dim.recv]
    repeat' split
    all_goals rfl
  | tlsCloseNotify => rfl
  | tlsClose => rfl
  | close => exact ⟨rfl, rfl⟩
  | initPoll => rfl

end MavlinkDim
