import MavlinkDim.History
import MavlinkDim.Runs
import MavlinkDim.ServerSessions

/-!
# The inactivity timeout

`start_gcs_read_thread` counts the results of `gcs_read_message` that bring no
data, and closes the session when there are more than 5000.  Its counter lives
longer than a session, and a session that ends with an error leaves it as it is.
`timeouts_per_session_iff` says which runs close a session for its own inactivity.
-/

namespace MavlinkDim

open ByteMemory History

/-- What happens in the loops of `start_gcs_read_thread`: a session begins, `gcs_read_message`
    returns, and a session is closed because nothing came. -/
inductive ReadEvent where
  | session
  | result (code : Int)
  | timeout
deriving DecidableEq, Repr

/-- The session begins or has data. -/
def ReadEvent.active : ReadEvent → Option Unit
  | .session => some ()
  | .result code => if code > 0 then some () else none
  | .timeout => none

/-- A session is closed for want of data only after more than 5000 results of 0 in it, since it
    began or had data. -/
def OwnInactivity (log : List ReadEvent) (e : ReadEvent) : Prop :=
  e = .timeout → ∃ es, Since ReadEvent.active log () es ∧ 5000 < es.count (.result 0)

/-- The results of 0 that count: those of the session, since it began or had data, and those of
    earlier sessions. -/
structure NoData where
  own : Nat
  carried : Nat

def NoData.next (n : NoData) : ReadEvent → NoData
  | .session => ⟨0, n.own + n.carried⟩
  | .result code =>
    if code = 0 then { n with own := n.own + 1 } else if code > 0 then ⟨0, 0⟩ else n
  | .timeout => ⟨0, 0⟩

def noData (log : List ReadEvent) : NoData := log.foldl NoData.next ⟨0, 0⟩

/-- No result of an earlier session counts when a session is closed for want of data. -/
def NothingCarried (log : List ReadEvent) (e : ReadEvent) : Prop :=
  e = .timeout → (noData log).carried = 0

/-! ### Events of a run -/

variable {M : Mavlink} {σ : Type}

/-- What happens in a step from `s` to `s'`. -/
def ServerStep.readEvents (W : DimHost σ) (fuel : Nat) (L : ServerLocals) (s s' : Server M σ) :
    ServerStep M → List ReadEvent
  | .gcsRead =>
    match s.gcsReadPc with
    | .accept => if s'.gcsReadPc = .read then [.session] else []
    | .read =>
      match s.gcsReadMessage W fuel L with
      | some (some code, _) =>
        if code = 0 ∧ s'.gcsReadPc = .accept then [.result code, .timeout] else [.result code]
      | _ => []
  | _ => []

/-- A step of a server, with what happens in it. -/
def ServerStep.record (W : DimHost σ) (fuel : Nat) (L : ServerLocals) (step : ServerStep M)
    (x : Server M σ × List ReadEvent) : Option (Server M σ × List ReadEvent) :=
  (step.run W fuel L x.1).map fun s => (s, x.2 ++ step.readEvents W fuel L x.1 s)

/-! ### The counter -/

theorem noData_snoc (log : List ReadEvent) (e : ReadEvent) :
    noData (log ++ [e]) = (noData log).next e := by
  rw [noData, List.foldl_append]
  rfl

/-- In a session, the results of 0 since it began or had data. -/
def Idle (log : List ReadEvent) : Prop :=
  ∃ es, Since ReadEvent.active log () es ∧ es.count (.result 0) = (noData log).own

theorem Idle.session (log : List ReadEvent) : Idle (log ++ [.session]) := by
  refine ⟨[], .start rfl, ?_⟩
  rw [noData_snoc]
  rfl

theorem Idle.result {log : List ReadEvent} (h : Idle log) (code : Int) :
    Idle (log ++ [.result code]) := by
  obtain ⟨es, hsince, hcount⟩ := h
  rw [Idle, noData_snoc]
  by_cases hpos : code > 0
  · refine ⟨[], .start (by simp [ReadEvent.active, hpos]), ?_⟩
    have hne : code ≠ 0 := ne_of_gt hpos
    simp [NoData.next, hne, hpos]
  · refine ⟨es ++ [.result code], hsince.snoc (by simp [ReadEvent.active, hpos]), ?_⟩
    rw [List.count_append, hcount]
    by_cases hzero : code = 0
    · simp [NoData.next, hzero]
    · simp [NoData.next, hzero, hpos]

namespace Server

variable {W : DimHost σ} {fuel : Nat} {L : ServerLocals} {s s' : Server M σ}

theorem gcsReadMessage_noDataCount {result : Option Int}
    (h : s.gcsReadMessage W fuel L = some (result, s')) : s'.noDataCount = s.noDataCount := by
  rw [gcsReadMessage] at h
  split at h
  · cases h
  · obtain ⟨-, rfl⟩ := Prod.mk.inj (Option.some.inj h)
    rfl

/-- What the inner loop does with the counter. -/
theorem gcsReadResult_noDataCount {result : Int} (h : s.gcsReadResult W fuel L result = some s') :
    (result < 0 ∧ s'.noDataCount = s.noDataCount) ∨
      (result = 0 ∧ s.noDataCount + 1 ≤ 5000 ∧ s'.noDataCount = s.noDataCount + 1 ∧
        s'.gcsReadPc = .read) ∨
      (result = 0 ∧ 5000 < s.noDataCount + 1 ∧ s'.noDataCount = 0 ∧ s'.gcsReadPc = .accept) ∨
      (0 < result ∧ s'.noDataCount = 0 ∧ s'.gcsReadPc = .read) := by
  rw [gcsReadResult] at h
  split at h
  · rename_i hneg
    refine .inl ⟨hneg, ?_⟩
    split at h
    · obtain rfl := Option.some.inj h
      rfl
    · split at h
      · rw [endSession_eq h]
      · obtain rfl := Option.some.inj h
        rfl
  · rename_i hneg
    split at h
    · rename_i hzero
      dsimp only at h
      split at h
      · rename_i hmore
        obtain ⟨s₁, hend, rfl⟩ := Option.map_eq_some_iff.mp h
        exact .inr (.inr (.inl ⟨hzero, hmore, rfl, (endSession_cases hend).1⟩))
      · rename_i hless
        obtain rfl := Option.some.inj h
        exact .inr (.inl ⟨hzero, Nat.le_of_not_lt hless, rfl, rfl⟩)
    · rename_i hzero
      obtain rfl := Option.some.inj h
      exact .inr (.inr (.inr ⟨by omega, rfl, rfl⟩))

end Server

/-! ### Runs -/

/-- The counter of the thread holds the results of 0 that count, and the sessions that are closed
    for their own inactivity are those to which nothing is carried. -/
structure Counted (x : Server M σ × List ReadEvent) : Prop where
  noDataCount : x.1.noDataCount = (noData x.2).own + (noData x.2).carried
  le : x.1.noDataCount ≤ 5000
  idle : x.1.gcsReadPc = .read → Idle x.2
  own_iff : Admitted OwnInactivity x.2 ↔ Admitted NothingCarried x.2

/-- An event that is no timeout is in order. -/
theorem admitted_iff_snoc {log : List ReadEvent} {e : ReadEvent} (he : e ≠ .timeout)
    (h : Admitted OwnInactivity log ↔ Admitted NothingCarried log) :
    Admitted OwnInactivity (log ++ [e]) ↔ Admitted NothingCarried (log ++ [e]) := by
  have hown : OwnInactivity log e := fun htimeout => absurd htimeout he
  have hcarried : NothingCarried log e := fun htimeout => absurd htimeout he
  rw [admitted_snoc_iff, admitted_snoc_iff, h]
  exact and_congr_right fun _ => iff_of_true hown hcarried

/-- The session is closed for its own inactivity exactly if nothing is carried to it. -/
theorem ownInactivity_timeout_iff {log : List ReadEvent} (hidle : Idle log)
    (hcount : (noData log).own + (noData log).carried = 5001) :
    OwnInactivity log .timeout ↔ NothingCarried log .timeout := by
  obtain ⟨es, hsince, hzeros⟩ := hidle
  simp only [OwnInactivity, NothingCarried, true_implies]
  constructor
  · rintro ⟨es', hsince', hmore⟩
    obtain ⟨-, rfl⟩ := hsince.unique hsince'
    omega
  · intro hnone
    exact ⟨es, hsince, by omega⟩

variable {W : DimHost σ} {fuel : Nat} {L : ServerLocals}

theorem Counted.session {x : Server M σ × List ReadEvent} (h : Counted x) {s : Server M σ}
    (hcount : s.noDataCount = x.1.noDataCount) : Counted (s, x.2 ++ [.session]) := by
  refine ⟨?_, hcount ▸ h.le, fun _ => .session _, admitted_iff_snoc (by simp) h.own_iff⟩
  rw [noData_snoc, hcount, h.noDataCount]
  exact (Nat.zero_add _).symm

/-- A result that leaves the session open, or ends it with an error. -/
theorem Counted.result {x : Server M σ × List ReadEvent} (h : Counted x)
    (hpc : x.1.gcsReadPc = .read) {s : Server M σ} {code : Int}
    (hcount : s.noDataCount =
      ((noData x.2).next (.result code)).own + ((noData x.2).next (.result code)).carried)
    (hle : s.noDataCount ≤ 5000) : Counted (s, x.2 ++ [.result code]) := by
  refine ⟨?_, hle, fun _ => (h.idle hpc).result code, admitted_iff_snoc (by simp) h.own_iff⟩
  rw [noData_snoc]
  exact hcount

/-- The result of 0 that closes the session. -/
theorem Counted.timeout {x : Server M σ × List ReadEvent} (h : Counted x)
    (hpc : x.1.gcsReadPc = .read) (hlast : x.1.noDataCount = 5000) {s : Server M σ}
    (hcount : s.noDataCount = 0) (hpc' : s.gcsReadPc = .accept) :
    Counted (s, x.2 ++ [.result 0, .timeout]) := by
  have hresult : noData (x.2 ++ [.result 0]) =
      ⟨(noData x.2).own + 1, (noData x.2).carried⟩ := noData_snoc x.2 (.result 0)
  have hiff := ownInactivity_timeout_iff ((h.idle hpc).result 0) (by
    rw [hresult]
    have := h.noDataCount
    dsimp only
    omega)
  refine ⟨?_, ?_, ?_, ?_⟩
  · rw [List.append_cons, noData_snoc, hcount]
    rfl
  · rw [hcount]
    exact Nat.zero_le _
  · intro hread
    rw [hpc'] at hread
    cases hread
  · have hlog : Admitted OwnInactivity (x.2 ++ [.result 0]) ↔
        Admitted NothingCarried (x.2 ++ [.result 0]) := admitted_iff_snoc (by simp) h.own_iff
    rw [List.append_cons]
    exact admitted_snoc_iff.trans ((and_congr hlog hiff).trans admitted_snoc_iff.symm)

/-- A step in which nothing happens. -/
theorem Counted.nothing {x : Server M σ × List ReadEvent} (h : Counted x) {s : Server M σ}
    (hcount : s.noDataCount = x.1.noDataCount)
    (hpc : s.gcsReadPc = .read → x.1.gcsReadPc = .read) : Counted (s, x.2 ++ []) := by
  rw [List.append_nil]
  exact ⟨hcount.trans h.noDataCount, hcount ▸ h.le, fun hread => h.idle (hpc hread), h.own_iff⟩

/-- A turn of the outer loop. -/
theorem record_counted_accept {x : Server M σ × List ReadEvent} (hx : Counted x)
    (hpc : x.1.gcsReadPc = .accept) {s : Server M σ}
    (hstep : ServerStep.gcsRead.run W fuel L x.1 = some s) :
    Counted (s, x.2 ++ ServerStep.gcsRead.readEvents W fuel L x.1 s) := by
  obtain ⟨result, life, haccept, hcase⟩ := Server.gcsRead_accept_cases hpc hstep
  have hcount : s.noDataCount = x.1.noDataCount := by
    simp only [ServerStep.run, Server.gcsRead, hpc, haccept] at hstep
    split at hstep
    · obtain rfl := Option.some.inj hstep
      rfl
    · obtain rfl := Option.some.inj hstep
      rfl
  simp only [ServerStep.readEvents, hpc]
  split
  · exact hx.session hcount
  · rename_i hnot
    exact hx.nothing hcount fun hread => absurd hread hnot

/-- A turn of the inner loop: the result closes the session, or is one more that counts, or one
    that resets the counter. -/
theorem record_counted_read {x : Server M σ × List ReadEvent} (hx : Counted x)
    (hpc : x.1.gcsReadPc = .read) {s : Server M σ}
    (hstep : ServerStep.gcsRead.run W fuel L x.1 = some s) :
    Counted (s, x.2 ++ ServerStep.gcsRead.readEvents W fuel L x.1 s) := by
  simp only [ServerStep.run, Server.gcsRead, hpc] at hstep
  simp only [ServerStep.readEvents, hpc]
  rcases hread : x.1.gcsReadMessage W fuel L with _ | ⟨result, s₁⟩
  · rw [hread] at hstep
    cases hstep
  · rw [hread] at hstep
    have hcount := Server.gcsReadMessage_noDataCount hread
    cases result with
    | none =>
      obtain rfl := Option.some.inj hstep
      exact hx.nothing hcount fun _ => hpc
    | some code =>
      have hle := hx.le
      have hsum := hx.noDataCount
      rcases Server.gcsReadResult_noDataCount hstep with ⟨hneg, hcount'⟩ |
        ⟨rfl, hless, hcount', hpc'⟩ | ⟨rfl, hmore, hcount', hpc'⟩ | ⟨hpos, hcount', hpc'⟩
      · have hzero : code ≠ 0 := ne_of_lt hneg
        have hpos : ¬code > 0 := not_lt_of_gt hneg
        simp only [hzero, false_and, if_false]
        refine hx.result hpc ?_ (by omega)
        simp only [NoData.next, if_neg hzero, if_neg hpos]
        omega
      · simp only [hpc', reduceCtorEq, and_false, if_false]
        refine hx.result hpc ?_ (by omega)
        simp only [NoData.next, if_true]
        omega
      · simp only [hpc', and_self, if_true]
        exact hx.timeout hpc (by omega) hcount' hpc'
      · have hzero : code ≠ 0 := ne_of_gt hpos
        simp only [hzero, false_and, if_false]
        refine hx.result hpc ?_ (by omega)
        simp only [NoData.next, if_neg hzero, if_pos hpos]
        omega

theorem record_counted (step : ServerStep M) (x y : Server M σ × List ReadEvent)
    (h : step.record W fuel L x = some y) (hx : Counted x) : Counted y := by
  obtain ⟨s, hstep, rfl⟩ := Option.map_eq_some_iff.mp h
  by_cases hother : step ≠ .gcsRead
  · have hnothing : step.readEvents W fuel L x.1 s = [] := by
      cases step with
      | gcsRead => exact absurd rfl hother
      | gcsWrite | autopilotRead _ | autopilotWrite => rfl
    rw [hnothing]
    apply hx.nothing (ServerStep.other_keeps hstep hother).2
    intro hread
    exact (ServerStep.other_run hstep hother).2.symm.trans hread
  · obtain rfl := not_not.mp hother
    cases hpc : x.1.gcsReadPc with
    | accept => exact record_counted_accept hx hpc hstep
    | read => exact record_counted_read hx hpc hstep

/-- **When the timeout is the session's own.**  In every run of the threads, every session that
    is closed for want of data has had more than 5000 results of 0 since it began or had data,
    exactly if no result of an earlier session counts when one is closed. -/
theorem timeouts_per_session_iff (life : Life σ) (steps : List (ServerStep M)) :
    (∀ x ∈ Runs.states (ServerStep.record W fuel L) (Server.start L life, []) steps,
        Admitted OwnInactivity x.2) ↔
      ∀ x ∈ Runs.states (ServerStep.record W fuel L) (Server.start L life, []) steps,
        Admitted NothingCarried x.2 := by
  have hcounted : ∀ x ∈ Runs.states (ServerStep.record (M := M) W fuel L)
      (Server.start L life, []) steps, Counted x := by
    apply Runs.states_induction record_counted
    refine ⟨rfl, Nat.zero_le _, ?_, iff_of_true .nil .nil⟩
    intro hread
    cases hread
  apply forall₂_congr
  intro x hx
  exact (hcounted x hx).own_iff

/-! ### A session that is closed for others -/

/-- The thread after a turn in which the poll of `recv` reports nothing. -/
def Server.idleTurn (W : DimHost σ) (L : ServerLocals) (s : Server M σ) : Server M σ :=
  { s with
    noDataCount := s.noDataCount + 1
    life := ⟨{ s.life.dim with onRead := false, kse := { s.life.dim.kse with
      world := (W.poll s.life.dim.kse.world s.life.dim.pollFd).2.2 } }, s.life.log⟩
  }.gcsReadCall L

theorem record_idle {s : Server M σ} (hpc : s.gcsReadPc = .read) (hconnected : s.life.Connected)
    (hpoll : (W.poll s.life.dim.kse.world s.life.dim.pollFd).1 ≤ 0)
    (hless : s.noDataCount < 5000) (log : List ReadEvent) :
    ServerStep.gcsRead.record W fuel L (s, log) = some (s.idleTurn W L, log ++ [.result 0]) := by
  have hnot : ¬((W.poll s.life.dim.kse.world s.life.dim.pollFd).1 > 0 ∧
      s.life.dim.onWrite = false) := by
    rintro ⟨hpos, -⟩
    exact absurd hpos (not_lt.mpr hpoll)
  have hstatus : ¬s.life.dim.connectionStatus ≠ .connected := not_not.mpr hconnected
  have hdim : s.life.dim.recv W.toHost fuel (some s.recvSize) L.recvBuffer =
      (.returned 0, some s.recvSize, { s.life.dim with onRead := false, kse :=
        { s.life.dim.kse with
          world := (W.poll s.life.dim.kse.world s.life.dim.pollFd).2.2 } }) := by
    simp only [Dim.recv, if_neg hstatus]
    rw [if_neg hnot]
  have hevents : s.life.dim.recvEvents W.toHost fuel (some s.recvSize) L.recvBuffer = [] := by
    simp only [Dim.recvEvents]
    rw [if_pos (Or.inr (Or.inl hnot))]
  have hread : s.gcsReadMessage W fuel L = some (some 0, { s with life :=
      ⟨{ s.life.dim with onRead := false, kse := { s.life.dim.kse with
        world := (W.poll s.life.dim.kse.world s.life.dim.pollFd).2.2 } }, s.life.log⟩ }) := by
    simp only [Server.gcsReadMessage, Life.receive, if_pos hconnected, Life.recv, hdim, hevents,
      lt_irrefl, if_false, Option.getD_some, List.append_nil]
  have hcount : ¬s.noDataCount + 1 > 5000 := not_lt.mpr hless
  have hturn : s.gcsRead W fuel L = some (s.idleTurn W L) := by
    simp only [Server.gcsRead, hpc, hread, Server.gcsReadResult, lt_irrefl, if_false, if_true,
      hcount]
    rfl
  have hopen : (s.idleTurn W L).gcsReadPc ≠ .accept := by
    simp [Server.idleTurn, Server.gcsReadCall]
  simp only [ServerStep.record, ServerStep.run, hturn, Option.map_some, ServerStep.readEvents, hpc,
    hread, hopen, and_false, if_false]

/-- A world with a clock.  The device opens each channel, takes part in the handshake and rejects
    the first record. -/
def slowWorld : World (Nat × Nat) where
  bulkOut s _ := (⟨0, REPORT_SIZE⟩, s)
  bulkIn s := (⟨0, REPORT_SIZE⟩,
    if s.2 % 3 = 0 then statusReport 0 0 else if s.2 % 3 = 1 then statusReport 0 1
      else statusReport 0x90 0, (s.1, s.2 + 1))
  behind _ := fun _ => 0
  getsockopt s _ := (0, 0, s)
  read s _ count := (some ⟨[0x16].take count, List.length_take_le _ _⟩, s)
  write s _ _ count := (some ⟨count, Nat.le_refl _⟩, s)
  indeterminate _ := 0

/-- The clock counts the polls; the socket is ready when it says 5000. -/
def slowHost : DimHost (Nat × Nat) where
  toWorld := slowWorld
  accept s _ := (5, s)
  socket s := (5, s)
  connect s _ := (0, s)
  close s _ := (0, s)
  poll s fd := (if s.1 = 5000 then 1 else 0, ⟨decide (s.1 = 5000 ∧ 0 ≤ fd), by simp⟩,
    (s.1 + 1, s.2))
  bind s _ := (0, s)
  listen s _ := (0, s)
  libusbInit s := (0, s)
  libusbExit s := s
  libusbGetDeviceList s := (.devices 1 [], s)
  libusbFreeDeviceList s _ := s
  libusbGetDeviceDescriptor s _ := (-1, ⟨0, 0⟩, s)
  libusbOpen s _ := (⟨(-1, none), by decide⟩, s)
  libusbClose s _ := s
  libusbKernelDriverActive s _ _ := (0, s)
  libusbDetachKernelDriver s _ _ := (0, s)
  libusbClaimInterface s _ _ := (0, s)
  libusbReleaseInterface s _ _ := (0, s)

def slowStart : Server mavlink1 (Nat × Nat) :=
  Server.start zeroedLocals ⟨⟨0, 4, KSETLS_FULL_HANDSHAKE, .disconnected, false, false, 0, 0, 0,
    none, poweredOn (fun _ => 0) (0, 0)⟩, []⟩

/-- The thread after a turn that returns. -/
def slowTurn (s : Server mavlink1 (Nat × Nat)) : Server mavlink1 (Nat × Nat) :=
  (s.gcsRead slowHost 5 zeroedLocals).getD s

/-- In the first session, after `n` results of 0. -/
def slowSession (n : Nat) : Server mavlink1 (Nat × Nat) :=
  let s := slowTurn slowStart
  { s with
    gcsReadPc := .read
    gcsReadCalls := n + 1
    recvSize := 0
    noDataCount := n
    life := ⟨{ s.life.dim with onRead := false, kse := { s.life.dim.kse with
      world := (n, 2)
      app := put s.life.dim.kse.app 1000 (List.replicate BUFFER_LENGTH 0) } }, s.life.log⟩ }

theorem slowSession_idleTurn (n : Nat) :
    (slowSession n).idleTurn slowHost zeroedLocals = slowSession (n + 1) := by
  simp only [slowSession, Server.idleTurn, Server.gcsReadCall, Life.store, Life.setKse, slowHost,
    zeroedLocals, put_put_self]

theorem slowTurn_idleTurn :
    (slowTurn slowStart).idleTurn slowHost zeroedLocals = slowSession 1 := by
  have hworld : (slowTurn slowStart).life.dim.kse.world = (0, 2) := by decide +kernel
  have hcount : (slowTurn slowStart).noDataCount = 0 := by decide +kernel
  have hcalls : (slowTurn slowStart).gcsReadCalls = 1 := by decide +kernel
  have hpc : (slowTurn slowStart).gcsReadPc = .read := by decide +kernel
  simp only [slowSession, Server.idleTurn, Server.gcsReadCall, Life.store, Life.setKse, slowHost,
    zeroedLocals, hworld, hcount, hcalls]

theorem record_slowTurn {s : Server mavlink1 (Nat × Nat)} {es : List ReadEvent}
    (h : (s.gcsRead slowHost 5 zeroedLocals).isSome = true ∧
      ServerStep.gcsRead.readEvents slowHost 5 zeroedLocals s (slowTurn s) = es)
    (log : List ReadEvent) :
    ServerStep.gcsRead.record slowHost 5 zeroedLocals (s, log) = some (slowTurn s, log ++ es) := by
  obtain ⟨hsome, hes⟩ := h
  obtain ⟨s', hs'⟩ := Option.isSome_iff_exists.mp hsome
  have hturn : slowTurn s = s' := by
    rw [slowTurn, hs', Option.getD_some]
  simp only [ServerStep.record, ServerStep.run, hs', Option.map_some, ← hes, hturn]

theorem slowSession_record {n : Nat} (hlt : n < 5000) (log : List ReadEvent) :
    ServerStep.gcsRead.record slowHost 5 zeroedLocals (slowSession n, log) =
      some (slowSession (n + 1), log ++ [.result 0]) := by
  have hconnected : (slowSession n).life.dim.connectionStatus = .connected := by
    have hstart : (slowTurn slowStart).life.dim.connectionStatus = .connected := by
      decide +kernel
    exact hstart
  have hpoll : (slowHost.poll (slowSession n).life.dim.kse.world
      (slowSession n).life.dim.pollFd).1 ≤ 0 := by
    have hne : n ≠ 5000 := by omega
    simp [slowSession, slowHost, hne]
  rw [record_idle rfl hconnected hpoll hlt log, slowSession_idleTurn]

/-- The second session of the thread is closed after one result of 0: the 5000 of the first one,
    which ended with an error, count. -/
theorem timeouts_carried :
    ∃ x ∈ Runs.states (ServerStep.record slowHost 5 zeroedLocals) (slowStart, [])
        (List.replicate 5004 .gcsRead),
      (∃ pre, x.2 = pre ++ [.session, .result 0, .timeout]) ∧ ¬Admitted OwnInactivity x.2 := by
  set log : Nat → List ReadEvent := fun n => .session :: List.replicate n (.result 0) with hlog
  set first := slowTurn (slowSession 5000) with hfirst
  set second := slowTurn first with hsecond
  have hbegin : ServerStep.gcsRead.record slowHost 5 zeroedLocals (slowStart, []) =
      some (slowTurn slowStart, [.session]) := record_slowTurn (by decide +kernel) []
  have hidle : ServerStep.gcsRead.record slowHost 5 zeroedLocals (slowTurn slowStart, [.session]) =
      some (slowSession 1, log 1) := by
    rw [record_idle (by decide +kernel) (by decide +kernel) (by decide +kernel)
      (by decide +kernel) _, slowTurn_idleTurn]
    rfl
  have hnext : ∀ k < 4999, ServerStep.gcsRead.record slowHost 5 zeroedLocals
      (slowSession (k + 1), log (k + 1)) = some (slowSession (k + 2), log (k + 2)) := by
    intro k hk
    rw [slowSession_record (by omega)]
    simp [hlog, List.replicate_succ']
  -- the error, the next session and its end
  have herror : ServerStep.gcsRead.record slowHost 5 zeroedLocals (slowSession 5000, log 5000) =
      some (first, log 5000 ++ [.result (-0x7000)]) := record_slowTurn (by decide +kernel) _
  have haccept : ∀ l, ServerStep.gcsRead.record slowHost 5 zeroedLocals (first, l) =
      some (second, l ++ [.session]) := record_slowTurn (by decide +kernel)
  have htimeout : ∀ l, ServerStep.gcsRead.record slowHost 5 zeroedLocals (second, l) =
      some (slowTurn second, l ++ [.result 0, .timeout]) := record_slowTurn (by decide +kernel)
  refine ⟨(slowTurn second, log 5000 ++ [.result (-0x7000)] ++ [.session] ++
    [.result 0, .timeout]), ?_, ⟨log 5000 ++ [.result (-0x7000)], by simp⟩, ?_⟩
  · have hsteps : List.replicate 5004 (.gcsRead : ServerStep mavlink1) =
        .gcsRead :: .gcsRead :: (List.replicate 4999 .gcsRead ++ List.replicate 3 .gcsRead) := by
      rw [← List.replicate_add, ← List.replicate_succ, ← List.replicate_succ]
    rw [hsteps, Runs.states_cons_some hbegin, Runs.states_cons_some hidle]
    apply List.mem_cons_of_mem
    apply List.mem_cons_of_mem
    apply Runs.mem_states_replicate (f := fun k => (slowSession (k + 1), log (k + 1))) 4999 hnext
    rw [List.replicate_succ, Runs.states_cons_some herror, List.replicate_succ,
      Runs.states_cons_some (haccept _), List.replicate_succ,
      Runs.states_cons_some (htimeout _)]
    simp
  · intro hadmitted
    have hown := hadmitted (log 5000 ++ [.result (-0x7000)] ++ [.session] ++ [.result 0]) .timeout
      [] (by simp)
    obtain ⟨es, hsince, hmore⟩ := hown rfl
    have hlast : Since ReadEvent.active
        (log 5000 ++ [.result (-0x7000)] ++ [.session] ++ [.result 0]) ()
        ([] ++ [.result 0]) := by
      apply Since.snoc
      · apply Since.start
        rfl
      · rfl
    obtain ⟨-, rfl⟩ := hsince.unique hlast
    simp at hmore

end MavlinkDim
