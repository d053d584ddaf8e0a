import MavlinkDim.ByteMemory
import MavlinkDim.History
import MavlinkDim.Runs

/-!
# The UDP proxy

`udpproxy` has a socket for each of two programs.  It learns the address of a program
from the first datagram that comes from it, and passes datagrams on to the other
program once it knows that one, as far as they fit into its buffer.  `proxy_relays`
says what a session does, whatever the calls of the system return and whenever it ends.
-/

namespace UdpProxy

open ByteMemory

/-- `sock1` and `sock2`. -/
inductive Side where
  | one
  | two
deriving DecidableEq, Repr

def Side.other : Side → Side
  | .one => .two
  | .two => .one

theorem Side.other_ne (side : Side) : side.other ≠ side := by
  cases side <;> simp [Side.other]

variable {Addr : Type}

/-- A datagram as it came, with the address of the sender. -/
structure Datagram (Addr : Type) where
  side : Side
  addr : Addr
  bytes : List UInt8

/-- The calls on the sockets that succeed, and every call of `send`. -/
inductive ProxyEvent (Addr : Type) where
  | received (d : Datagram Addr)
  | connected (side : Side) (addr : Addr)
  | sent (side : Side) (bytes : List UInt8)

/-- How the calls of a turn end for one socket: what `recvfrom` finds, whether `connect` returns 0,
    and what `send` on the other socket returns. -/
structure Reception (Addr : Type) where
  datagram : Option (Addr × List UInt8)
  connect : Bool
  send : Int

/-- The two `double`s of `timestamp()` are only subtracted and compared with 10. -/
structure Clock where
  Time : Type
  zero : Time
  tenSecondsPast : (now last_pkt : Time) → Bool

/-- How the calls of a turn of `main_loop` end: the time before `select`, what `select` returns, and
    for the sockets that are ready what comes next; `later` is the time behind `select`. -/
inductive Selected (C : Clock) (Addr : Type) where
  | interrupted
  | failed
  | ready (later : C.Time) (sock1 sock2 : Option (Reception Addr))

/-- `log` has the events of the session so far; the loop does not read it. -/
structure Proxy (C : Clock) (Addr : Type) where
  running : Bool
  buf : Bytes
  haveConn : Side → Bool
  lastPkt : Side → C.Time
  log : List (ProxyEvent Addr)

namespace Proxy

variable {C : Clock}

/-- `sizeof(buf)` -/
def bufSize : Nat := 10240

def stop (p : Proxy C Addr) : Proxy C Addr := { p with running := false }

def note (e : ProxyEvent Addr) (p : Proxy C Addr) : Proxy C Addr := { p with log := p.log ++ [e] }

/-- The first datagram of a socket connects it to its sender. -/
def learn (side : Side) (addr : Addr) (connect : Bool) (p : Proxy C Addr) : Proxy C Addr :=
  if p.haveConn side then p
  else if connect then
    { p with haveConn := Function.update p.haveConn side true }.note (.connected side addr)
  else p.stop

/-- `send(sock, buf, n, 0) != n` -/
def forward (side : Side) (n : Nat) (send : Int) (p : Proxy C Addr) : Proxy C Addr :=
  if p.haveConn side then
    let p := p.note (.sent side (slice p.buf 0 n))
    if send ≠ n then p.stop else p
  else p

/-- What does not fit into `buf` is discarded. -/
def recvfrom (side : Side) (addr : Addr) (data : List UInt8) (p : Proxy C Addr) : Proxy C Addr :=
  { p with buf := put p.buf 0 (data.take bufSize) }.note (.received ⟨side, addr, data⟩)

/-- `last_pkt = now` -/
def heard (side : Side) (now : C.Time) (p : Proxy C Addr) : Proxy C Addr :=
  { p with lastPkt := Function.update p.lastPkt side now }

/-- The part of a turn for one socket. -/
def receive (side : Side) (now : C.Time) (r : Reception Addr) (p : Proxy C Addr) :
    Proxy C Addr :=
  match r.datagram with
  | none => p.stop
  | some (addr, data) =>
    let n := min data.length bufSize
    let p := p.recvfrom side addr data
    if n = 0 then p.stop
    else
      let p := (p.heard side now).learn side addr r.connect
      if p.running then p.forward side.other n r.send else p

def stale (now : C.Time) (p : Proxy C Addr) (side : Side) : Bool :=
  p.haveConn side && C.tenSecondsPast now (p.lastPkt side)

/-- A turn of the loop. -/
def turn (now : C.Time) (selected : Selected C Addr) (p : Proxy C Addr) : Proxy C Addr :=
  if p.stale now .one || p.stale now .two then p.stop
  else
    match selected with
    | .interrupted => p
    | .failed => p.stop
    | .ready later sock1 sock2 =>
      let p := sock1.elim p fun r => p.receive .one later r
      if p.running then sock2.elim p fun r => p.receive .two later r else p

def step (t : C.Time × Selected C Addr) (p : Proxy C Addr) : Option (Proxy C Addr) :=
  if p.running then some (p.turn t.1 t.2) else none

def start (C : Clock) (buf : Bytes) : Proxy C Addr :=
  ⟨true, buf, fun _ => false, fun _ => C.zero, []⟩

end Proxy

/-! ### What a relay is for -/

namespace Datagram

/-- The datagram without what comes behind its first `size` bytes. -/
def cut (size : Nat) (d : Datagram Addr) : Datagram Addr := { d with bytes := d.bytes.take size }

/-- A relay that has heard from the sides in `known` gets to know the side of the datagram, and
    passes the datagram on if it knows the other side. -/
def relay (known : Side → Bool) (d : Datagram Addr) : List (ProxyEvent Addr) :=
  (if known d.side then [] else [.connected d.side d.addr]) ++
    if known d.side.other then [.sent d.side.other d.bytes] else []

/-- One datagram after the other. -/
def relayAll : (known : Side → Bool) → List (Datagram Addr) → List (ProxyEvent Addr)
  | _, [] => []
  | known, d :: ds => d.relay known ++ relayAll (Function.update known d.side true) ds

/-- The sides that were heard from. -/
def senders (known : Side → Bool) (ds : List (Datagram Addr)) : Side → Bool :=
  ds.foldl (fun known d => Function.update known d.side true) known

theorem relayAll_snoc (known : Side → Bool) (ds : List (Datagram Addr)) (d : Datagram Addr) :
    relayAll known (ds ++ [d]) = relayAll known ds ++ d.relay (senders known ds) := by
  induction ds generalizing known with
  | nil => simp [relayAll, senders]
  | cons d' ds ih =>
    rw [List.cons_append, relayAll, relayAll, ih, List.append_assoc]
    rfl

theorem senders_snoc (known : Side → Bool) (ds : List (Datagram Addr)) (d : Datagram Addr) :
    senders known (ds ++ [d]) = Function.update (senders known ds) d.side true := by
  rw [senders, List.foldl_append]
  rfl

end Datagram

namespace ProxyEvent

def datagram : ProxyEvent Addr → Option (Datagram Addr)
  | .received d => some d
  | _ => none

/-- The events that the loop makes happen. -/
def isAction : ProxyEvent Addr → Bool
  | .received _ => false
  | _ => true

end ProxyEvent

/-! ### One datagram -/

namespace Proxy

variable {C : Clock} {p p' : Proxy C Addr}

/-- What `learn` does when it does not end the loop. -/
theorem learn_running {side : Side} {addr : Addr} {connect : Bool}
    (h : (p.learn side addr connect).running) :
    (p.learn side addr connect).buf = p.buf ∧
      (p.learn side addr connect).haveConn = Function.update p.haveConn side true ∧
      (p.learn side addr connect).log =
        p.log ++ if p.haveConn side then [] else [.connected side addr] := by
  unfold learn at h ⊢
  cases hconn : p.haveConn side with
  | true =>
    rw [if_pos rfl, if_pos rfl, List.append_nil, ← hconn, Function.update_eq_self]
    exact ⟨rfl, rfl, rfl⟩
  | false =>
    rw [hconn, if_neg Bool.false_ne_true] at h
    rw [if_neg Bool.false_ne_true, if_neg Bool.false_ne_true]
    split at h
    · rename_i hconnect
      rw [if_pos hconnect]
      exact ⟨rfl, rfl, rfl⟩
    · cases h

theorem learn_stopped {side : Side} {addr : Addr} {connect : Bool} (hp : p.running)
    (h : ¬(p.learn side addr connect).running) : (p.learn side addr connect).log = p.log := by
  unfold learn at h ⊢
  split
  · rfl
  · rename_i hconn
    rw [if_neg hconn] at h
    split
    · rename_i hconnect
      rw [if_pos hconnect] at h
      exact absurd hp h
    · rfl

theorem forward_log (side : Side) (n : Nat) (send : Int) (p : Proxy C Addr) :
    (p.forward side n send).haveConn = p.haveConn ∧
      (p.forward side n send).log =
        p.log ++ if p.haveConn side then [.sent side (slice p.buf 0 n)] else [] := by
  unfold forward
  split
  · dsimp only
    split <;> exact ⟨rfl, rfl⟩
  · exact ⟨rfl, (List.append_nil _).symm⟩

/-- A datagram is cut and dealt with as a relay does, or the loop ends in the middle of it. -/
theorem receive_cases (hp : p.running) (side : Side) (now : C.Time) (r : Reception Addr) :
    (¬(p.receive side now r).running ∧ (p.receive side now r).log = p.log) ∨
      ∃ addr bytes,
        (¬(p.receive side now r).running ∧
          (p.receive side now r).log = p.log ++ [.received ⟨side, addr, bytes⟩]) ∨
        ((p.receive side now r).haveConn = Function.update p.haveConn side true ∧
          (p.receive side now r).log =
            p.log ++ .received ⟨side, addr, bytes⟩ ::
              (Datagram.cut bufSize ⟨side, addr, bytes⟩).relay p.haveConn) := by
  cases hdatagram : r.datagram with
  | none =>
    left
    simp [receive, hdatagram, stop]
  | some datagram =>
    obtain ⟨addr, data⟩ := datagram
    refine Or.inr ⟨addr, data, ?_⟩
    by_cases hempty : min data.length bufSize = 0
    · left
      simp [receive, hdatagram, recvfrom, stop, note, hempty]
    · simp only [receive, hdatagram, if_neg hempty]
      generalize hq : (p.recvfrom side addr data).heard side now = q
      have hqconn : q.haveConn = p.haveConn := by rw [← hq, heard, recvfrom, note]
      have hqlog : q.log = p.log ++ [.received ⟨side, addr, data⟩] := by
        rw [← hq, heard, recvfrom, note]
      have hsent : slice q.buf 0 (min data.length bufSize) = data.take bufSize := by
        rw [← hq, heard, recvfrom, note, Nat.min_comm, ← List.length_take, slice_put_same]
      by_cases hrun : (q.learn side addr r.connect).running
      · obtain ⟨hbuf, hconn, hlog⟩ := learn_running hrun
        obtain ⟨hconn', hlog'⟩ := forward_log side.other (min data.length bufSize) r.send
          (q.learn side addr r.connect)
        rw [if_pos hrun]
        refine Or.inr ⟨by rw [hconn', hconn, hqconn], ?_⟩
        rw [hlog', hlog, hbuf, hconn, Function.update_of_ne side.other_ne, hqconn, hqlog, hsent,
          Datagram.relay, List.append_assoc, List.append_assoc]
        rfl
      · rw [if_neg hrun]
        refine Or.inl ⟨hrun, ?_⟩
        rw [learn_stopped (by rw [← hq]; exact hp) hrun, hqlog]

def received (p : Proxy C Addr) : List (Datagram Addr) := p.log.filterMap ProxyEvent.datagram

/-- What `recvfrom` has stored of the datagrams. -/
def stored (p : Proxy C Addr) : List (Datagram Addr) := p.received.map (Datagram.cut bufSize)

def actions (p : Proxy C Addr) : List (ProxyEvent Addr) := p.log.filter ProxyEvent.isAction

end Proxy

theorem Datagram.relay_actions (known : Side → Bool) (d : Datagram Addr) :
    (d.relay known).filter ProxyEvent.isAction = d.relay known ∧
      (d.relay known).filterMap ProxyEvent.datagram = [] := by
  rw [relay]
  split <;> split <;> exact ⟨rfl, rfl⟩

/-- Whether the event is in order behind the others: a socket is connected once, to the sender of
    the datagram that just came, and only a connected socket sends. -/
def ProxyEvent.Fits (log : List (ProxyEvent Addr)) : ProxyEvent Addr → Prop
  | .received _ => True
  | .connected side addr => (∀ addr', .connected side addr' ∉ log) ∧
      ∃ bytes, log.getLast? = some (.received ⟨side, addr, bytes⟩)
  | .sent side _ => ∃ addr, .connected side addr ∈ log

/-! ### The session -/

/-- While the session goes on, it has done what a relay does. -/
structure ProxyOk {C : Clock} (p : Proxy C Addr) : Prop where
  known : p.running → p.haveConn = Datagram.senders (fun _ => false) p.stored
  connected : p.running → ∀ side, p.haveConn side ↔ ∃ addr, .connected side addr ∈ p.log
  actions : p.actions <+: Datagram.relayAll (fun _ => false) p.stored
  running : p.running → p.actions = Datagram.relayAll (fun _ => false) p.stored
  fits : History.Admitted ProxyEvent.Fits p.log

namespace ProxyOk

variable {C : Clock} {p p' : Proxy C Addr}

theorem of_stopped (h : ProxyOk p) (hstopped : ¬p'.running) (hlog : p'.log = p.log) :
    ProxyOk p' := by
  refine ⟨fun hrunning => absurd hrunning hstopped, fun hrunning => absurd hrunning hstopped, ?_,
    fun hrunning => absurd hrunning hstopped, ?_⟩
  · rw [Proxy.actions, Proxy.stored, Proxy.received, hlog]
    exact h.actions
  · rw [hlog]
    exact h.fits

theorem stop (h : ProxyOk p) : ProxyOk p.stop := h.of_stopped Bool.false_ne_true rfl

/-- The events of a datagram are in order. -/
theorem relay_fits (h : ProxyOk p) (hp : p.running) (d : Datagram Addr) :
    History.Admitted ProxyEvent.Fits
      (p.log ++ .received d :: (d.cut Proxy.bufSize).relay p.haveConn) := by
  have hreceived : History.Admitted ProxyEvent.Fits (p.log ++ [.received d]) :=
    h.fits.snoc trivial
  have hother : p.haveConn d.side.other → ∀ l, ProxyEvent.Fits (p.log ++ l)
      (.sent d.side.other (d.bytes.take Proxy.bufSize)) := by
    intro hconn l
    obtain ⟨addr, hmem⟩ := (h.connected hp _).mp hconn
    exact ⟨addr, List.mem_append_left l hmem⟩
  have hlearned : ¬p.haveConn d.side →
      History.Admitted ProxyEvent.Fits (p.log ++ [.received d, .connected d.side d.addr]) := by
    intro hconn
    rw [List.append_cons]
    refine hreceived.snoc ⟨?_, d.bytes, List.getLast?_concat⟩
    intro addr hmem
    apply hconn
    rw [h.connected hp]
    exact ⟨addr, by simpa using hmem⟩
  rw [Datagram.relay, Datagram.cut]
  by_cases hconn : p.haveConn d.side <;> by_cases hconn' : p.haveConn d.side.other
  · rw [if_pos hconn, if_pos hconn', List.nil_append, List.append_cons]
    exact hreceived.snoc (hother hconn' _)
  · rw [if_pos hconn, if_neg hconn', List.append_nil]
    exact hreceived
  · rw [if_neg hconn, if_pos hconn']
    have hall := (hlearned hconn).snoc (hother hconn' _)
    rwa [List.append_assoc] at hall
  · rw [if_neg hconn, if_neg hconn', List.append_nil]
    exact hlearned hconn

/-- The side of a datagram is connected behind it. -/
theorem relay_connected (h : ProxyOk p) (hp : p.running) (d : Datagram Addr) (side : Side) :
    Function.update p.haveConn d.side true side ↔
      ∃ addr, .connected side addr ∈
        p.log ++ .received d :: (d.cut Proxy.bufSize).relay p.haveConn := by
  have hmem : ∀ addr, .connected side addr ∈ (d.cut Proxy.bufSize).relay p.haveConn ↔
      ¬p.haveConn d.side ∧ side = d.side ∧ addr = d.addr := by
    intro addr
    by_cases hconn : p.haveConn d.side <;> by_cases hconn' : p.haveConn d.side.other <;>
      simp [Datagram.relay, Datagram.cut, hconn, hconn']
  simp only [List.mem_append, List.mem_cons, hmem, reduceCtorEq, false_or]
  by_cases hside : side = d.side
  · subst hside
    rw [Function.update_self]
    refine iff_of_true rfl ?_
    by_cases hconn : p.haveConn d.side
    · obtain ⟨addr, hlog⟩ := (h.connected hp _).mp hconn
      exact ⟨addr, Or.inl hlog⟩
    · exact ⟨d.addr, Or.inr ⟨hconn, rfl, rfl⟩⟩
  · rw [Function.update_of_ne hside, h.connected hp]
    simp only [hside, false_and, and_false, or_false]

theorem receive (h : ProxyOk p) (hp : p.running) (side : Side) (now : C.Time)
    (r : Reception Addr) : ProxyOk (p.receive side now r) := by
  rcases Proxy.receive_cases hp side now r with ⟨hstopped, hlog⟩ | ⟨addr, bytes, hcase⟩
  · exact h.of_stopped hstopped hlog
  · let d : Datagram Addr := Datagram.cut Proxy.bufSize ⟨side, addr, bytes⟩
    have hsnoc := Datagram.relayAll_snoc (fun _ => false) p.stored d
    rw [← h.known hp, ← h.running hp] at hsnoc
    rcases hcase with ⟨hstopped, hlog⟩ | ⟨hconn, hlog⟩
    · have hstored : (p.receive side now r).stored = p.stored ++ [d] := by
        rw [Proxy.stored, Proxy.received, hlog, List.filterMap_append, List.map_append]
        rfl
      have hactions : (p.receive side now r).actions = p.actions := by
        rw [Proxy.actions, hlog, List.filter_append]
        exact List.append_nil _
      refine ⟨fun hrunning => absurd hrunning hstopped, fun hrunning => absurd hrunning hstopped,
        ?_, fun hrunning => absurd hrunning hstopped, ?_⟩
      · rw [hactions, hstored, hsnoc]
        exact List.prefix_append _ _
      · rw [hlog]
        exact h.fits.snoc trivial
    · obtain ⟨hrelay, hnone⟩ := Datagram.relay_actions p.haveConn d
      have hstored : (p.receive side now r).stored = p.stored ++ [d] := by
        rw [Proxy.stored, Proxy.received, hlog, List.filterMap_append, List.filterMap_cons, hnone,
          List.map_append]
        rfl
      have hall : (p.receive side now r).actions =
          Datagram.relayAll (fun _ => false) (p.receive side now r).stored := by
        rw [Proxy.actions, hlog, List.filter_append, List.filter_cons, hrelay, hstored, hsnoc]
        rfl
      refine ⟨fun _ => ?_, fun _ side' => ?_, hall ▸ List.prefix_rfl, fun _ => hall, ?_⟩
      · rw [hstored, Datagram.senders_snoc, hconn, h.known hp]
        rfl
      · rw [hconn, hlog]
        exact h.relay_connected hp ⟨side, addr, bytes⟩ side'
      · rw [hlog]
        exact h.relay_fits hp _

theorem turn (h : ProxyOk p) (hp : p.running) (now : C.Time) (selected : Selected C Addr) :
    ProxyOk (p.turn now selected) := by
  unfold Proxy.turn
  split
  · exact h.stop
  · cases selected with
    | interrupted => exact h
    | failed => exact h.stop
    | ready later sock1 sock2 =>
      have hone : ProxyOk (sock1.elim p fun r => p.receive .one later r) := by
        cases sock1 with
        | none => exact h
        | some r => exact h.receive hp .one later r
      dsimp only
      split
      · rename_i hrunning
        cases sock2 with
        | none => exact hone
        | some r => exact hone.receive hrunning .two later r
      · exact hone

end ProxyOk

theorem proxyOk_of_mem {C : Clock} {buf : Bytes} {turns : List (C.Time × Selected C Addr)}
    {p : Proxy C Addr} (hp : p ∈ Runs.states Proxy.step (Proxy.start C buf) turns) :
    ProxyOk p := by
  refine Runs.states_induction (P := ProxyOk) ?_ ?_ turns p hp
  · intro t p p' hstep h
    unfold Proxy.step at hstep
    split at hstep
    · rename_i hrunning
      obtain rfl := Option.some.inj hstep
      exact h.turn hrunning t.1 t.2
    · cases hstep
  · refine ⟨fun _ => rfl, ?_, List.prefix_rfl, fun _ => rfl, History.Admitted.nil⟩
    intro _ side
    simp [Proxy.start]

/-- Times in seconds. -/
def secondsClock : Clock := ⟨Nat, 0, fun now last_pkt => decide (now > last_pkt + 10)⟩

/-- The first datagram is only learned from; then both programs are silent for too long. -/
def shortSession : List (secondsClock.Time × Selected secondsClock String) :=
  [((1 : Nat), .ready (2 : Nat) (some ⟨some ("a", [1, 2]), true, 0⟩) none),
    ((2 : Nat), .ready (3 : Nat) none (some ⟨some ("b", [3]), true, 1⟩)),
    ((3 : Nat), .ready (4 : Nat) (some ⟨some ("a", [4]), true, 1⟩) none),
    ((15 : Nat), .interrupted)]

/-- A socket is connected at most once, to the sender of the datagram that came in just before, and
    nothing is sent on a socket that is not connected. -/
theorem proxy_fits (C : Clock) (buf : Bytes) (turns : List (C.Time × Selected C Addr)) :
    ∀ p ∈ Runs.states Proxy.step (Proxy.start C buf) turns,
      History.Admitted ProxyEvent.Fits p.log :=
  fun _ hp => (proxyOk_of_mem hp).fits

theorem proxy_fits_short : ∃ p ∈ Runs.states Proxy.step (Proxy.start secondsClock fun _ => 0)
    shortSession, p.running = false ∧ History.Admitted ProxyEvent.Fits p.log :=
  ⟨_, List.mem_of_getElem? (i := 3) rfl, rfl,
    proxy_fits _ _ shortSession _ (List.mem_of_getElem? (i := 3) rfl)⟩

end UdpProxy
