import MavlinkDim.DimRecv

/-!
# `on_read` and `on_write`

One thread calls `recv` in a loop, another `send`, on the same connected socket.
The mutex calls in both are commented out, so the two flags are all that keeps
`_ksetlsTlsRead` and `_ksetlsTlsWrite` apart.  A step of a thread reads or
writes at most one of the members they share.  `recv_send_exclusive` says which
step the flags have to be spared, `window_overlaps` that nothing less will do.
-/

namespace MavlinkDim

/-! ### The two threads -/

inductive RecvPc where
  | testConnected
  | setRead
  | poll
  | testWrite
  | testPollin
  | reading
  | setError
  | clearRead
deriving DecidableEq, Repr

inductive SendPc where
  | testConnected
  | testError
  | testRead
  | testErrorAgain
  | setWrite
  | writing
  | clearWrite
  | setError
  | clearWriteAgain
deriving DecidableEq, Repr

/-- The two program counters, the flags, and `_tls_read_error == -1`. -/
structure Threads where
  recv : RecvPc
  send : SendPc
  onRead : Bool
  onWrite : Bool
  tlsReadError : Bool
deriving DecidableEq, Repr

/-- A step of one thread.  `ok` is what comes from outside: a poll with a result, `POLLIN` in
    it, a read that does not fail. -/
inductive ThreadStep where
  | recv (ok : Bool)
  | send
deriving DecidableEq, Repr

namespace Threads

def next (s : Threads) : ThreadStep → Threads
  | .recv ok =>
    match s.recv with
    | .testConnected => { s with recv := .setRead }
    | .setRead => { s with onRead := true, recv := .poll }
    | .poll => { s with recv := if ok then .testWrite else .clearRead }
    | .testWrite => { s with recv := if s.onWrite then .clearRead else .testPollin }
    | .testPollin => { s with recv := if ok then .reading else .clearRead }
    | .reading => { s with recv := .setError }
    | .setError => { s with tlsReadError := !ok, recv := .clearRead }
    | .clearRead => { s with onRead := false, recv := .testConnected }
  | .send =>
    match s.send with
    | .testConnected => { s with send := .testError }
    | .testError => { s with send := if s.tlsReadError then .testConnected else .testRead }
    | .testRead => { s with send := if s.onRead then .testRead else .testErrorAgain }
    | .testErrorAgain =>
      { s with send := if s.tlsReadError then .testConnected else .setWrite }
    | .setWrite => { s with onWrite := true, send := .writing }
    | .writing => { s with send := .clearWrite }
    | .clearWrite => { s with onWrite := false, send := .setError }
    | .setError => { s with send := .clearWriteAgain }
    | .clearWriteAgain => { s with onWrite := false, send := .testConnected }

def run (s : Threads) (steps : List ThreadStep) : Threads := steps.foldl next s

def start : Threads := ⟨.testConnected, .testConnected, false, false, false⟩

/-- The threads are not in `_ksetlsTlsRead` and in `_ksetlsTlsWrite` at the same time. -/
def Exclusive (s : Threads) : Prop := ¬(s.recv = .reading ∧ s.send = .writing)

instance (s : Threads) : Decidable s.Exclusive := by unfold Exclusive; infer_instance

/-- `send` has seen `on_read` clear and will set `on_write` whatever happens now. -/
def InWindow (s : Threads) : Prop :=
  s.send = .setWrite ∨ s.send = .testErrorAgain ∧ s.tlsReadError = false

instance (s : Threads) : Decidable s.InWindow := by unfold InWindow; infer_instance

/-- `recv` does not test `on_write` inside the window of `send`. -/
def Guarded (s : Threads) (step : ThreadStep) : Prop :=
  step ≠ .send → s.recv = .testWrite → ¬s.InWindow

instance (s : Threads) (step : ThreadStep) : Decidable (s.Guarded step) := by
  unfold Guarded; infer_instance

/-- Every step of a run is guarded. -/
def GuardedRun (s : Threads) : List ThreadStep → Prop
  | [] => True
  | step :: steps => s.Guarded step ∧ GuardedRun (s.next step) steps

instance decidableGuardedRun : (s : Threads) → (steps : List ThreadStep) →
    Decidable (s.GuardedRun steps)
  | _, [] => .isTrue trivial
  | s, step :: steps => @instDecidableAnd _ _ _ (decidableGuardedRun (s.next step) steps)

/-! ### The invariant -/

/-- The flags say where the threads are. -/
structure Flags (s : Threads) : Prop where
  onRead : s.onRead = true ↔ s.recv ≠ .testConnected ∧ s.recv ≠ .setRead
  onWrite : s.onWrite = true ↔ s.send = .writing ∨ s.send = .clearWrite

/-- Past its test of `on_write`, the reader keeps the writer from getting to its store. -/
structure Inv (s : Threads) : Prop extends Flags s where
  past : s.recv = .testPollin ∨ s.recv = .reading → ¬s.InWindow ∧ s.onWrite = false

theorem flags_start : start.Flags := ⟨by decide, by decide⟩

theorem inv_start : start.Inv := ⟨flags_start, by decide⟩

theorem Inv.exclusive {s : Threads} (h : s.Inv) : s.Exclusive := by
  rintro ⟨hreading, hwriting⟩
  have := (h.past (Or.inr hreading)).2
  rw [h.onWrite.mpr (Or.inl hwriting)] at this
  cases this

/-- Each flag is written by one thread only. -/
theorem Flags.next {s : Threads} (h : s.Flags) (step : ThreadStep) : (s.next step).Flags := by
  obtain ⟨recv, send, onRead, onWrite, tlsReadError⟩ := s
  obtain ⟨hread, hwrite⟩ := h
  cases step with
  | recv ok =>
    refine ⟨?_, by cases recv <;> exact hwrite⟩
    cases recv <;> cases ok <;> cases onWrite <;> simp_all [Threads.next]
  | send =>
    refine ⟨by cases send <;> exact hread, ?_⟩
    cases send <;> cases tlsReadError <;> cases onRead <;> simp_all [Threads.next]

theorem Inv.next {s : Threads} (h : s.Inv) {step : ThreadStep} (hguard : s.Guarded step) :
    (s.next step).Inv := by
  refine ⟨h.toFlags.next step, ?_⟩
  obtain ⟨recv, send, onRead, onWrite, tlsReadError⟩ := s
  obtain ⟨⟨hread, -⟩, hpast⟩ := h
  simp only at hread hpast
  cases step with
  | recv ok =>
    cases recv with
    | testWrite =>
      -- the guard is used here and nowhere else
      have hwindow := hguard (by simp) rfl
      cases onWrite with
      | false =>
        intro _
        exact ⟨hwindow, rfl⟩
      | true => simp [Threads.next]
    | testPollin =>
      cases ok with
      | true =>
        intro _
        exact hpast (Or.inl rfl)
      | false => simp [Threads.next]
    | poll => cases ok <;> simp [Threads.next]
    | testConnected | setRead | reading | setError | clearRead => simp [Threads.next]
  | send =>
    cases send with
    | testRead =>
      cases onRead with
      | true => exact hpast
      | false =>
        -- `on_read` is clear, so the reader is not past its test
        intro hrecv
        have hstart : false = true := by
          apply hread.mpr
          constructor
          · intro h
            simp [Threads.next, h] at hrecv
          · intro h
            simp [Threads.next, h] at hrecv
        cases hstart
    | testError =>
      intro hrecv
      cases tlsReadError <;> exact ⟨by simp [Threads.next, InWindow], (hpast hrecv).2⟩
    | testErrorAgain =>
      intro hrecv
      cases tlsReadError with
      | true => exact ⟨by simp [Threads.next, InWindow], (hpast hrecv).2⟩
      | false => exact absurd (Or.inr ⟨rfl, rfl⟩) (hpast hrecv).1
    | setWrite =>
      intro hrecv
      exact absurd (Or.inl rfl) (hpast hrecv).1
    | testConnected | writing | setError =>
      intro hrecv
      exact ⟨by simp [Threads.next, InWindow], (hpast hrecv).2⟩
    | clearWrite | clearWriteAgain =>
      intro _
      exact ⟨by simp [Threads.next, InWindow], rfl⟩

/-! ### Runs -/

theorem Flags.run {s : Threads} (h : s.Flags) (steps : List ThreadStep) :
    (s.run steps).Flags := by
  induction steps generalizing s with
  | nil => exact h
  | cons step steps ih => exact ih (h.next step)

theorem Inv.run {s : Threads} (h : s.Inv) {steps : List ThreadStep} (hguard : s.GuardedRun steps) :
    (s.run steps).Inv := by
  induction steps generalizing s with
  | nil => exact h
  | cons step steps ih => exact ih (h.next hguard.1) hguard.2

theorem GuardedRun.take {s : Threads} {steps : List ThreadStep} (h : s.GuardedRun steps)
    (k : Nat) : s.GuardedRun (steps.take k) := by
  induction steps generalizing s k with
  | nil => simpa using h
  | cons step steps ih =>
    cases k with
    | zero => trivial
    | succ k => exact ⟨h.1, ih h.2 k⟩

/-- **When the two calls keep apart.**  In every interleaving in which `recv` does not test
    `on_write` between the last test of `send` and its store, no state reached has one thread
    in `_ksetlsTlsRead` and the other in `_ksetlsTlsWrite`. -/
theorem recv_send_exclusive {steps : List ThreadStep} (hguard : start.GuardedRun steps) (k : Nat) :
    (start.run (steps.take k)).Exclusive :=
  (inv_start.run (GuardedRun.take hguard k)).exclusive

/-- A read while `send` waits, then the write. -/
theorem recv_send_exclusive_waiting :
    let reader := List.replicate 6 (ThreadStep.recv true)
    let steps := [.recv true, .recv true] ++ List.replicate 5 .send ++ reader ++
      List.replicate 3 .send
    start.run steps = ⟨.testConnected, .writing, false, true, false⟩ ∧
      ∀ k, (start.run (steps.take k)).Exclusive := by
  intro reader steps
  exact ⟨by decide, fun k => recv_send_exclusive (by decide) k⟩

/-- `send` sees `on_read` clear, `recv` sees `on_write` clear, and both go in. -/
theorem recv_send_overlap :
    let steps := List.replicate 4 ThreadStep.send ++ List.replicate 5 (.recv true) ++ [.send]
    (start.run steps).recv = .reading ∧ (start.run steps).send = .writing ∧
      ¬(start.run steps).Exclusive := by
  decide

/-- Nothing less will do: from every state of every run in which `recv` is about to test
    `on_write` inside the window, at most four steps put both threads in. -/
theorem window_overlaps (steps : List ThreadStep) (hrecv : (start.run steps).recv = .testWrite)
    (hwindow : (start.run steps).InWindow) :
    ∃ more, ¬((start.run steps).run (.recv true :: more)).Exclusive := by
  have hflags := flags_start.run steps
  generalize start.run steps = s at hrecv hwindow hflags
  obtain ⟨recv, send, onRead, onWrite, tlsReadError⟩ := s
  simp only at hrecv
  subst hrecv
  rcases hwindow with hsend | ⟨hsend, herror⟩
  · simp only at hsend
    subst hsend
    obtain rfl : onWrite = false := by simpa using hflags.onWrite
    exact ⟨[.recv true, .send], by simp [run, Threads.next, Exclusive]⟩
  · simp only at hsend herror
    subst hsend herror
    obtain rfl : onWrite = false := by simpa using hflags.onWrite
    exact ⟨[.recv true, .send, .send], by simp [run, Threads.next, Exclusive]⟩

end Threads

/-! ### The threads run `recv` and `send` -/

variable {σ : Type} (H : Host σ) (fuel : Nat)

/-- The members that the threads share. -/
def Dim.threads (x : Dim σ) (recv : RecvPc) (send : SendPc) : Threads :=
  ⟨recv, send, x.onRead, x.onWrite, x.tlsReadError = -1⟩

/-- A call of `recv` that ends is a run of its thread, through `reading` exactly when it calls
    `_ksetlsTlsRead`. -/
theorem recv_threads (size : Option Int) (data : Nat) {x : Dim σ}
    (hconnected : x.connectionStatus = .connected)
    (hend : (x.recv H fuel size data).1 ≠ .running) (send : SendPc) :
    ∃ oks : List Bool,
      (x.threads .testConnected send).run (oks.map .recv) =
        (x.recv H fuel size data).2.2.threads .testConnected send ∧
      ((∃ k, ((x.threads .testConnected send).run ((oks.take k).map .recv)).recv = .reading) ↔
        x.Reads H) := by
  by_cases hpoll : (H.poll x.kse.world x.pollFd).1 > 0
  · cases hwrite : x.onWrite with
    | true =>
      refine ⟨[true, true, true, true, true], ?_, ?_⟩
      · simp [Dim.recv, hconnected, hwrite, Dim.threads, Threads.run, Threads.next]
      · constructor
        · rintro ⟨k, hk⟩
          rcases k with _ | _ | _ | _ | _ | k <;>
            simp [Dim.threads, Threads.run, Threads.next, hwrite] at hk
        · intro h
          simp [h.2.2.1] at hwrite
    | false =>
      cases hpollin : (H.poll x.kse.world x.pollFd).2.1.val with
      | true =>
        have hreads : x.Reads H := ⟨hconnected, hpoll, hwrite, hpollin⟩
        rcases hread : ksetlsTlsRead H.toWorld fuel data size x.pollFd (x.polled H) with
          ⟨_ | result, size', kse⟩
        · rw [(recv_reads fuel H size data hreads).1, hread] at hend
          exact absurd rfl hend
        · rw [Dim.polled] at hread
          refine ⟨[true, true, true, true, true, true, !decide (result < 0), true], ?_, ?_⟩
          · by_cases hfail : result < 0 <;>
              simp [Dim.recv, hconnected, hwrite, hpoll, hpollin, hread, hfail, Dim.threads,
                Threads.run, Threads.next]
          · refine iff_of_true ⟨5, ?_⟩ hreads
            simp [Dim.threads, Threads.run, Threads.next, hwrite]
      | false =>
        refine ⟨[true, true, true, true, false, true], ?_, ?_⟩
        · simp [Dim.recv, hconnected, hwrite, hpoll, hpollin, Dim.threads, Threads.run,
            Threads.next]
        · constructor
          · rintro ⟨k, hk⟩
            rcases k with _ | _ | _ | _ | _ | _ | k <;>
              simp [Dim.threads, Threads.run, Threads.next, hwrite] at hk
          · intro h
            simp [h.2.2.2] at hpollin
  · refine ⟨[true, true, false, true], ?_, ?_⟩
    · simp [Dim.recv, hconnected, hpoll, Dim.threads, Threads.run, Threads.next]
    · constructor
      · rintro ⟨k, hk⟩
        rcases k with _ | _ | _ | _ | k <;> simp [Dim.threads, Threads.run, Threads.next] at hk
      · intro h
        exact absurd h.2.1 hpoll

/-- A call of `send` that ends is a run of its thread, through `writing` exactly when it calls
    `_ksetlsTlsWrite`. -/
theorem send_threads (size data : Nat) {x : Dim σ} (hconnected : x.connectionStatus = .connected)
    (hend : (x.send H fuel size data).1 ≠ .running) (recv : RecvPc) :
    ∃ n, (x.threads recv .testConnected).run (List.replicate n .send) =
        (x.send H fuel size data).2.threads recv .testConnected ∧
      ((∃ k ≤ n, ((x.threads recv .testConnected).run (List.replicate k .send)).send = .writing) ↔
        x.tlsReadError ≠ -1) := by
  by_cases herror : x.tlsReadError = -1
  · refine ⟨2, ?_, ?_⟩
    · simp [Dim.send, hconnected, herror, Dim.threads, Threads.run, Threads.next]
    · apply iff_of_false _ (not_not.mpr herror)
      rintro ⟨k, hk, hwriting⟩
      obtain rfl | rfl | rfl : k = 0 ∨ k = 1 ∨ k = 2 := by omega
      all_goals
        simp [herror, Dim.threads, Threads.run, Threads.next, List.replicate] at hwriting
  · cases hread : x.onRead with
    | true => simp [Dim.send, hconnected, herror, hread] at hend
    | false =>
      rcases hwrite : ksetlsTlsWrite H.toWorld fuel x.fd data (int16 size) x.kse with
        ⟨_ | result, kse⟩
      · simp [Dim.send, hconnected, herror, hread, hwrite] at hend
      · refine ⟨9, ?_, ?_⟩
        · simp [Dim.send, hconnected, herror, hread, hwrite, Dim.threads, Threads.run,
            Threads.next, List.replicate]
        · refine iff_of_true ⟨5, by decide, ?_⟩ herror
          simp [Dim.threads, Threads.run, Threads.next, List.replicate, herror, hread]

end MavlinkDim
