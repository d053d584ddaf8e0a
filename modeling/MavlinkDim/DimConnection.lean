import MavlinkDim.Dim

/-!
# Connected and authenticated

`_connection_status` opens `send` and `recv`.  `DimServer::accept` sets it after
a handshake of any code, `DimClient::connect` after one whose code is not
negative, and a `connect` that fails leaves it as it was, with a new `_fd`.
`connected_iff_sound` turns this into a condition on each call of a run.
-/

namespace MavlinkDim

variable {σ : Type} (W : Host σ) (fuel : Nat)

/-- A connected socket has a handshake on its `_fd`, and the last one succeeded. -/
def Dim.Authenticated (x : Dim σ) : Prop :=
  x.connectionStatus = .connected → x.handshaken = some KSE_SUCCESS

/-- How the handshake of a call ends. -/
inductive HandshakeEnd where
  | notReached
  | code (result : Int)
  | running
deriving DecidableEq

def HandshakeEnd.ofCode : Option Int → HandshakeEnd
  | some result => .code result
  | none => .running

/-- The handshake of `DimServer::accept`: the accepted socket, `_ksetlsOpen` on it, and the
    handshake, each only if the one before succeeded. -/
def acceptHandshake (x : Dim σ) : HandshakeEnd :=
  let (fd, world) := W.accept x.kse.world x.serverFd
  if fd < 0 then .notReached
  else
    let (result, kse) := ksetlsOpen W.toWorld fuel fd KSETLS_MODE_TLS KSETLS_SERVER 1 0 0
      SESSION { x.kse with world }
    if result = none then .running
    else if result ≠ some KSE_SUCCESS then .notReached
    else .ofCode (ksetlsTlsServerHandshake W.toWorld fuel fd kse).1

def connectHandshake (x : Dim σ) : HandshakeEnd :=
  let (fd, world) := W.socket x.kse.world
  if fd = -1 then .notReached
  else
    let (result, world) := W.connect world fd
    if result ≠ 0 then .notReached
    else
      let (result, kse) := ksetlsOpen W.toWorld fuel fd KSETLS_MODE_TLS KSETLS_CLIENT 1 0 0
        SESSION { x.kse with world }
      if result = none then .running
      else if result ≠ some KSE_SUCCESS then .notReached
      else .ofCode (ksetlsTlsClientHandshake W.toWorld fuel fd x.handshakeType kse).1

/-- A call that does not end with a connection its handshake does not vouch for: an accept whose
    handshake succeeds, if it comes to it, and a connect whose handshake succeeds, or that fails
    while nothing is connected. -/
def Sound : DimCall → Dim σ → Prop
  | .accept, x =>
    match acceptHandshake W fuel x with
    | .code result => result = KSE_SUCCESS
    | _ => True
  | .connect, x =>
    match connectHandshake W fuel x with
    | .notReached => x.connectionStatus = .disconnected
    | .code result => result = KSE_SUCCESS ∨ result < 0 ∧ x.connectionStatus = .disconnected
    | .running => True
  | _, _ => True

instance (call : DimCall) (x : Dim σ) : Decidable (Sound W fuel call x) := by
  unfold Sound
  split
  · split <;> infer_instance
  · split <;> infer_instance
  · infer_instance

/-- Every call of a run that ends is sound in the state it is made in. -/
def SoundRun : Dim σ → List DimCall → Prop
  | _, [] => True
  | x, call :: calls =>
    (call.run W fuel x).1 ≠ .running →
      Sound W fuel call x ∧ SoundRun (call.run W fuel x).2 calls

instance decidableSoundRun : (x : Dim σ) → (calls : List DimCall) →
    Decidable (SoundRun W fuel x calls)
  | _, [] => .isTrue trivial
  | x, call :: calls =>
    have := decidableSoundRun (call.run W fuel x).2 calls
    inferInstanceAs (Decidable ((call.run W fuel x).1 ≠ .running →
      Sound W fuel call x ∧ SoundRun W fuel (call.run W fuel x).2 calls))

/-! ### One call -/

/-- What `accept` leaves behind is what its handshake ended with. -/
theorem accept_cases (x : Dim σ) :
    match acceptHandshake W fuel x with
    | .notReached => (x.accept W fuel).2.connectionStatus = .disconnected
    | .code result => (x.accept W fuel).2.connectionStatus = .connected ∧
        (x.accept W fuel).2.handshaken = some result
    | .running => (x.accept W fuel).1 = .running := by
  rcases haccept : W.accept x.kse.world x.serverFd with ⟨fd, world⟩
  rcases hopen : ksetlsOpen W.toWorld fuel fd KSETLS_MODE_TLS KSETLS_SERVER 1 0 0 SESSION
    { x.kse with world } with ⟨result, kse⟩
  rcases hhandshake : ksetlsTlsServerHandshake W.toWorld fuel fd kse with ⟨code, kse'⟩
  simp only [acceptHandshake, Dim.accept, haccept, hopen, hhandshake]
  by_cases hfd : fd < 0
  · simp only [if_pos hfd]
  · by_cases hrunning : result = none
    · simp only [if_neg hfd, if_pos hrunning]
    · by_cases hfail : result ≠ some KSE_SUCCESS
      · simp only [if_neg hfd, if_neg hrunning, if_pos hfail]
      · simp only [if_neg hfd, if_neg hrunning, if_neg hfail]
        cases code with
        | none => rfl
        | some result => exact ⟨rfl, rfl⟩

theorem handshake_eq (x : Dim σ) :
    ((x.handshake W fuel).1 =
        (ksetlsTlsClientHandshake W.toWorld fuel x.fd x.handshakeType x.kse).1) ∧
      (x.handshake W fuel).2.handshaken = (x.handshake W fuel).1 ∧
      (x.handshake W fuel).2.connectionStatus = x.connectionStatus := by
  rcases hcall : ksetlsTlsClientHandshake W.toWorld fuel x.fd x.handshakeType x.kse with
    ⟨result, kse⟩
  simp only [Dim.handshake, hcall]
  by_cases hok : result = some KSE_SUCCESS
  · rw [if_pos hok]
    exact ⟨hok.symm, hok, rfl⟩
  · simp only [if_neg hok, and_self]

/-- What `connect` leaves behind.  Without a code that is at least 0 the status is the one it
    found. -/
theorem connect_cases (x : Dim σ) :
    match connectHandshake W fuel x with
    | .notReached => (x.connect W fuel).2.connectionStatus = x.connectionStatus ∧
        (x.connect W fuel).2.handshaken = none
    | .code result => (x.connect W fuel).2.connectionStatus =
        (if result < 0 then x.connectionStatus else .connected) ∧
        (x.connect W fuel).2.handshaken = some result
    | .running => (x.connect W fuel).1 = .running := by
  rcases hsocket : W.socket x.kse.world with ⟨fd, world⟩
  rcases hconnect : W.connect world fd with ⟨connected, world'⟩
  rcases hopen : ksetlsOpen W.toWorld fuel fd KSETLS_MODE_TLS KSETLS_CLIENT 1 0 0 SESSION
    { x.kse with world := world' } with ⟨result, kse⟩
  rcases hcall : Dim.handshake W fuel { x with fd, handshaken := none, kse } with ⟨code, y⟩
  have hhandshake := handshake_eq W fuel { x with fd, handshaken := none, kse }
  rw [hcall] at hhandshake
  simp only [connectHandshake, Dim.connect, hsocket, hconnect, hopen, hcall, ← hhandshake.1]
  by_cases hfd : fd = -1
  · simp only [if_pos hfd, and_self]
  · by_cases hfailed : connected ≠ 0
    · simp only [if_neg hfd, if_pos hfailed, and_self]
    · by_cases hrunning : result = none
      · simp [hfd, hfailed, hrunning, Outcome.ofCode]
      · by_cases hfail : result ≠ some KSE_SUCCESS
        · simp only [if_neg hfd, if_neg hfailed, if_neg hrunning, if_pos hfail, and_self]
        · simp only [if_neg hfd, if_neg hfailed, if_neg hrunning, if_neg hfail]
          cases code with
          | none => rfl
          | some result =>
            by_cases hneg : result < 0
            · simp only [HandshakeEnd.ofCode, if_pos hneg]
              exact ⟨hhandshake.2.2, hhandshake.2.1⟩
            · simp only [HandshakeEnd.ofCode, if_neg hneg]
              exact ⟨trivial, hhandshake.2.1⟩

/-- No other call connects, and none but these two makes a handshake. -/
theorem run_authenticated {call : DimCall} (haccept : call ≠ .accept) (hconnect : call ≠ .connect)
    {x : Dim σ} (hx : x.Authenticated) : (call.run W fuel x).2.Authenticated := by
  cases call with
  | accept => exact absurd rfl haccept
  | connect => exact absurd rfl hconnect
  | send size data =>
    simp only [DimCall.run, Dim.send]
    repeat' split
    all_goals exact hx
  | recv size data =>
    simp only [DimCall.run, Dim.recv]
    repeat' split
    all_goals exact hx
  | tlsCloseNotify => exact hx
  | tlsClose => exact hx
  | close => exact fun h => nomatch h
  | initPoll => exact hx

theorem Dim.authenticated_of_disconnected {x : Dim σ} (h : x.connectionStatus = .disconnected) :
    x.Authenticated := by
  intro hconnected
  rw [h] at hconnected
  cases hconnected

theorem Dim.authenticated_iff_disconnected {x : Dim σ} (h : x.handshaken ≠ some KSE_SUCCESS) :
    x.Authenticated ↔ x.connectionStatus = .disconnected := by
  constructor
  · intro hauth
    cases hstatus : x.connectionStatus with
    | connected => exact absurd (hauth hstatus) h
    | disconnected => rfl
  · exact Dim.authenticated_of_disconnected

/-- A call that ends leaves an authenticated connection exactly when it is sound. -/
theorem authenticated_iff_sound (call : DimCall) {x : Dim σ} (hx : x.Authenticated)
    (hend : (call.run W fuel x).1 ≠ .running) :
    (call.run W fuel x).2.Authenticated ↔ Sound W fuel call x := by
  cases call with
  | accept =>
    have hcases := accept_cases W fuel x
    cases hhandshake : acceptHandshake W fuel x with
    | notReached =>
      simp only [hhandshake, Sound] at hcases ⊢
      exact iff_of_true (Dim.authenticated_of_disconnected hcases) trivial
    | code result =>
      simp only [hhandshake, Sound] at hcases ⊢
      constructor
      · intro hauth
        exact Option.some.inj (hcases.2.symm.trans (hauth hcases.1))
      · rintro rfl _
        exact hcases.2
    | running =>
      simp only [hhandshake] at hcases
      exact absurd hcases hend
  | connect =>
    have hcases := connect_cases W fuel x
    cases hhandshake : connectHandshake W fuel x with
    | notReached =>
      simp only [hhandshake, Sound] at hcases ⊢
      rw [← hcases.1]
      exact Dim.authenticated_iff_disconnected (by simp [DimCall.run, hcases.2])
    | code result =>
      simp only [hhandshake, Sound] at hcases ⊢
      by_cases hok : result = KSE_SUCCESS
      · exact iff_of_true (fun _ => by rw [← hok]; exact hcases.2) (Or.inl hok)
      · have hcode : (DimCall.run W fuel .connect x).2.handshaken ≠ some KSE_SUCCESS := by
          simpa [DimCall.run, hcases.2] using hok
        rw [Dim.authenticated_iff_disconnected hcode, DimCall.run, hcases.1]
        rw [KSE_SUCCESS] at hok
        by_cases hneg : result < 0 <;> simp [hok, hneg]
    | running =>
      simp only [hhandshake] at hcases
      exact absurd hcases hend
  | send | recv | tlsCloseNotify | tlsClose | close | initPoll =>
    exact iff_of_true (run_authenticated W fuel (by simp) (by simp) hx) trivial

/-! ### Runs -/

theorem soundRun_iff_along (x : Dim σ) (calls : List DimCall) :
    SoundRun W fuel x calls ↔ Runs.Along (DimCall.next W fuel) (Sound W fuel) x calls := by
  induction calls generalizing x with
  | nil => rfl
  | cons call calls ih =>
    by_cases hend : (call.run W fuel x).1 = .running
    · have hnone : call.next W fuel x = none := if_pos hend
      exact iff_of_true (fun hreturned => absurd hend hreturned) (Runs.along_cons_none hnone calls)
    · have hnext : call.next W fuel x = some (call.run W fuel x).2 := if_neg hend
      rw [Runs.along_cons_some hnext, ← ih]
      exact ⟨fun h => h hend, fun h _ => h⟩

theorem history_authenticated_iff {x : Dim σ} (hx : x.Authenticated) (calls : List DimCall) :
    (∀ y ∈ history W fuel x calls, y.Authenticated) ↔ SoundRun W fuel x calls := by
  rw [history_eq_states, soundRun_iff_along]
  apply Runs.forall_states_iff (I := fun _ => True) (fun _ _ _ _ _ => trivial) _ trivial hx
  intro call y z hnext _ hy
  obtain ⟨hend, rfl⟩ := (DimCall.next_eq_some W fuel).mp hnext
  exact authenticated_iff_sound W fuel call hy hend

/-- **When connected means authenticated.**  In a run that starts disconnected, every state
    after a call is authenticated exactly when every call of the run is sound. -/
theorem connected_iff_sound {x : Dim σ} (hx : x.connectionStatus = .disconnected)
    (calls : List DimCall) :
    (∀ y ∈ history W fuel x calls, y.Authenticated) ↔ SoundRun W fuel x calls :=
  history_authenticated_iff W fuel (Dim.authenticated_of_disconnected hx) calls

/-- An accept whose handshake the device reports as done, and a close. -/
theorem connected_iff_sound_accept :
    let x := opened [statusReport 0 0, statusReport 0 1, statusReport 0 0] [[0x16]]
    (x.accept scriptedHost 1).2.connectionStatus = .connected ∧
      ∀ y ∈ history scriptedHost 1 x [.accept, .close], y.Authenticated := by
  intro x
  refine ⟨by decide +kernel, ?_⟩
  exact (connected_iff_sound scriptedHost 1 rfl [.accept, .close]).mpr (by decide +kernel)

/-- A server whose handshake fails with a fatal alert and a client whose handshake fails with
    an internal error of the device are both connected. -/
theorem connected_unauthenticated :
    let x := opened [statusReport 0 0, statusReport 0x88 0x80] [[0x16]]
    let y := opened [statusReport 0 0, statusReport 0x60 0x01] []
    (x.accept scriptedHost 1).1 = .returned (-0x7780) ∧
      (x.accept scriptedHost 1).2.connectionStatus = .connected ∧
      ¬(x.accept scriptedHost 1).2.Authenticated ∧
      (y.connect scriptedHost 1).1 = .returned 0x6001 ∧
      (y.connect scriptedHost 1).2.connectionStatus = .connected ∧
      ¬(y.connect scriptedHost 1).2.Authenticated := by
  refine ⟨by decide +kernel, by decide +kernel, ?_, by decide +kernel, by decide +kernel, ?_⟩
  · intro h
    exact absurd (h (by decide +kernel)) (by decide +kernel)
  · intro h
    exact absurd (h (by decide +kernel)) (by decide +kernel)

end MavlinkDim
