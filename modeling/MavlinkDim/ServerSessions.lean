import MavlinkDim.Ledger
import MavlinkDim.Runs
import MavlinkDim.Server

/-!
# Sessions of the server

A session holds a descriptor and a kseTLS channel.  It may end in an error of
`accept`, in an error of a read, with a fatal alert or by a timeout, and the
branch of each cleans up on its own.  `sessions_cleaned_up_iff` says which ends
give back what the session got.
-/

namespace MavlinkDim

open Ledger

namespace DimEvent

/-- What an event does to the descriptors. -/
def descriptor : DimEvent → Option (Entry Int)
  | .accept fd => if 0 ≤ fd then some (.acquired fd) else none
  | .socket fd => if 0 ≤ fd then some (.acquired fd) else none
  | .close fd => some (.released fd)
  | .kse .. => none

/-- What an event does to the channels of kseTLS, which go by their descriptors. -/
def channel : DimEvent → Option (Entry Int)
  | .kse .tlsOpen fd code _ _ => if code = some KSE_SUCCESS then some (.acquired fd) else none
  | .kse .tlsClose fd _ _ _ => some (.released fd)
  | _ => none

/-- An event that neither gets nor gives back anything. -/
def Neutral (e : DimEvent) : Prop := e.descriptor = none ∧ e.channel = none

end DimEvent

/-- The descriptors and the channels that are got and not given back. -/
structure Holds (es : List DimEvent) (fds channels : List Int) : Prop where
  descriptors : Balance (es.filterMap DimEvent.descriptor) fds
  channels : Balance (es.filterMap DimEvent.channel) channels

/-- At every moment there is at most one of each. -/
def AtMostOne (es : List DimEvent) : Prop :=
  ∀ es', es' <+: es → ∃ fds channels, Holds es' fds channels ∧ fds.length ≤ 1 ∧
    channels.length ≤ 1

section

variable {es : List DimEvent} {fds channels : List Int}

theorem Holds.nil : Holds [] [] [] := ⟨.nil, .nil⟩

theorem Holds.neutral (h : Holds es fds channels) {ns : List DimEvent}
    (hneutral : ∀ e ∈ ns, e.Neutral) : Holds (es ++ ns) fds channels := by
  have hdescriptor : ns.filterMap DimEvent.descriptor = [] :=
    List.filterMap_eq_nil_iff.mpr fun e he => (hneutral e he).1
  have hchannel : ns.filterMap DimEvent.channel = [] :=
    List.filterMap_eq_nil_iff.mpr fun e he => (hneutral e he).2
  refine ⟨?_, ?_⟩
  · rw [List.filterMap_append, hdescriptor, List.append_nil]
    exact h.descriptors
  · rw [List.filterMap_append, hchannel, List.append_nil]
    exact h.channels

theorem Holds.accept (h : Holds es fds channels) {fd : Int} (hfd : 0 ≤ fd) :
    Holds (es ++ [.accept fd]) (fd :: fds) channels := by
  refine ⟨?_, ?_⟩
  · simpa [List.filterMap_cons, DimEvent.descriptor, hfd] using h.descriptors.acquire fd
  · simpa [List.filterMap_cons, DimEvent.channel] using h.channels

theorem Holds.tlsOpen (h : Holds es fds channels) (fd : Int) (before after : Region) :
    Holds (es ++ [.kse .tlsOpen fd (some KSE_SUCCESS) before after]) fds (fd :: channels) := by
  refine ⟨?_, ?_⟩
  · simpa [List.filterMap_cons, DimEvent.descriptor] using h.descriptors
  · simpa [List.filterMap_cons, DimEvent.channel] using h.channels.acquire fd

theorem Holds.close {fd : Int} (h : Holds es (fd :: fds) channels) :
    Holds (es ++ [.close fd]) fds channels := by
  refine ⟨?_, ?_⟩
  · simpa [List.filterMap_cons, DimEvent.descriptor] using h.descriptors.release
  · simpa [List.filterMap_cons, DimEvent.channel] using h.channels

theorem Holds.tlsClose {fd : Int} (h : Holds es fds (fd :: channels)) (code : Option Int)
    (before after : Region) :
    Holds (es ++ [.kse .tlsClose fd code before after]) fds channels := by
  refine ⟨?_, ?_⟩
  · simpa [List.filterMap_cons, DimEvent.descriptor] using h.descriptors
  · simpa [List.filterMap_cons, DimEvent.channel] using h.channels.release

theorem Holds.eq_nil (h : Holds es fds channels) (hnil : Holds es [] []) :
    fds = [] ∧ channels = [] :=
  ⟨(h.descriptors.unique hnil.descriptors).eq_nil, (h.channels.unique hnil.channels).eq_nil⟩

theorem AtMostOne.nil : AtMostOne [] := by
  intro es' hprefix
  rw [List.prefix_nil.mp hprefix]
  exact ⟨[], [], .nil, by simp, by simp⟩

theorem AtMostOne.snoc (h : AtMostOne es) {e : DimEvent} (hholds : Holds (es ++ [e]) fds channels)
    (hfds : fds.length ≤ 1) (hchannels : channels.length ≤ 1) : AtMostOne (es ++ [e]) := by
  intro es' hprefix
  rcases List.prefix_concat_iff.mp hprefix with rfl | hprefix
  · exact ⟨fds, channels, hholds, hfds, hchannels⟩
  · exact h es' hprefix

theorem AtMostOne.neutral (h : AtMostOne es) {ns : List DimEvent}
    (hneutral : ∀ e ∈ ns, e.Neutral) : AtMostOne (es ++ ns) := by
  induction ns generalizing es with
  | nil => simpa using h
  | cons e ns ih =>
    obtain ⟨he, hns⟩ := List.forall_mem_cons.mp hneutral
    obtain ⟨fds, channels, hholds, hfds, hchannels⟩ := h es (List.prefix_refl es)
    have hsnoc := h.snoc (hholds.neutral (by simpa using he)) hfds hchannels
    simpa using ih hsnoc hns

end

/-! ### The calls of a session -/

variable {M : Mavlink} {σ : Type} {W : DimHost σ} {fuel : Nat} {L : ServerLocals}

/-- The calls that leave the session alone. -/
def InSession (c : DimCall) (_ : Life σ) : Prop :=
  (∃ size data, c = .send size data) ∨ (∃ size data, c = .recv size data) ∨
    c = .tlsCloseNotify ∨ c = .initPoll

theorem Kse.event_neutral (x : Kse σ) {f : TlsFunction} (hopen : f ≠ .tlsOpen)
    (hclose : f ≠ .tlsClose) (fd : Int) (r : Option Int × Kse σ) : (x.event f fd r).Neutral := by
  refine ⟨rfl, ?_⟩
  cases f with
  | tlsOpen => exact absurd rfl hopen
  | tlsClose => exact absurd rfl hclose
  | tlsHandshake | tlsRead | tlsWrite | tlsCloseNotify => rfl

variable (W fuel) in
theorem inSession_neutral {c : DimCall} {l : Life σ} (h : InSession c l) :
    ∀ e ∈ c.events W.toHost fuel l.dim, e.Neutral := by
  intro e he
  rcases h with ⟨size, data, rfl⟩ | ⟨size, data, rfl⟩ | rfl | rfl
  · simp only [DimCall.events, Dim.sendEvents] at he
    split at he
    · simp at he
    · obtain rfl := List.mem_singleton.mp he
      exact Kse.event_neutral _ (by decide) (by decide) _ _
  · simp only [DimCall.events, Dim.recvEvents] at he
    split at he
    · simp at he
    · obtain rfl := List.mem_singleton.mp he
      exact Kse.event_neutral _ (by decide) (by decide) _ _
  · obtain rfl := List.mem_singleton.mp he
    exact Kse.event_neutral _ (by decide) (by decide) _ _
  · simp [DimCall.events] at he

theorem run_fd {c : DimCall} (haccept : c ≠ .accept) (hconnect : c ≠ .connect) (x : Dim σ) :
    (c.run W.toHost fuel x).2.fd = x.fd := by
  cases c with
  | accept => exact absurd rfl haccept
  | connect => exact absurd rfl hconnect
  | send size data =>
    simp only [DimCall.run, Dim.send]
    repeat' split
    all_goals rfl
  | recv size data =>
    simp only [DimCall.run, Dim.recv]
    repeat' split
    all_goals rfl
  | tlsCloseNotify | tlsClose | close | initPoll => rfl

variable (W fuel) in
theorem inSession_fd {c : DimCall} {l : Life σ} (h : InSession c l) :
    (c.run W.toHost fuel l.dim).2.fd = l.dim.fd := by
  apply run_fd
  · rintro rfl
    simp [InSession] at h
  · rintro rfl
    simp [InSession] at h

/-- What the calls of a session leave of the ledger: everything. -/
structure SameSession (l l' : Life σ) : Prop where
  holds : ∀ fds channels, Holds l.log fds channels → Holds l'.log fds channels
  atMostOne : AtMostOne l.log → AtMostOne l'.log
  fd : l'.dim.fd = l.dim.fd

theorem LifeRun.sameSession {l l' : Life σ} (hrun : LifeRun W fuel InSession l l') :
    SameSession l l' := by
  apply hrun.keeps (SameSession l)
  · intro c l₁ l₂ result hcall hreturns h
    obtain ⟨hdim, hlog⟩ := Life.returns_eq_some.mp hreturns
    have hneutral := inSession_neutral W fuel hcall
    refine ⟨?_, ?_, ?_⟩
    · intro fds channels hholds
      rw [hlog]
      exact (h.holds fds channels hholds).neutral hneutral
    · intro hone
      rw [hlog]
      exact (h.atMostOne hone).neutral hneutral
    · have hfd := inSession_fd W fuel hcall
      rw [hdim] at hfd
      exact hfd.trans h.fd
  · intro l₁ kse _ h
    exact ⟨h.holds, h.atMostOne, h.fd⟩
  · exact ⟨fun _ _ h => h, id, rfl⟩

/-! ### The calls that begin and end a session -/

/-- `dim->accept()` gets a descriptor and fails with it, in `_ksetlsOpen` or in the
    handshake. -/
def AcceptFails (W : DimHost σ) (fuel : Nat) (x : Dim σ) : Prop :=
  let (fd, world) := W.accept x.kse.world x.serverFd
  let (code, kse) := ksetlsOpen W.toWorld fuel fd KSETLS_MODE_TLS KSETLS_SERVER 1 0 0 SESSION
    { x.kse with world }
  0 ≤ fd ∧ (code ≠ some KSE_SUCCESS ∨
    ∃ code' ∈ (ksetlsTlsServerHandshake W.toWorld fuel fd kse).1, code' < 0)

/-- The events of an `accept` that returns: it gets no descriptor, or one without a channel, or
    both. -/
theorem acceptEvents_cases {x y : Dim σ} {result : Int}
    (h : x.accept W.toHost fuel = (.returned result, y)) :
    (¬AcceptFails W fuel x ∧ result < 0 ∧
        ∃ fd, fd < 0 ∧ x.acceptEvents W.toHost fuel = [.accept fd]) ∨
      (AcceptFails W fuel x ∧ result < 0 ∧ 0 ≤ y.fd ∧
        ∃ e, e.Neutral ∧ x.acceptEvents W.toHost fuel = [.accept y.fd, e]) ∨
      ((AcceptFails W fuel x ↔ result < 0) ∧ 0 ≤ y.fd ∧
        ∃ before after e, e.Neutral ∧ x.acceptEvents W.toHost fuel =
          [.accept y.fd, .kse .tlsOpen y.fd (some KSE_SUCCESS) before after, e]) := by
  rcases haccept : W.accept x.kse.world x.serverFd with ⟨fd, world⟩
  rcases hopen : ksetlsOpen W.toWorld fuel fd KSETLS_MODE_TLS KSETLS_SERVER 1 0 0 SESSION
    { x.kse with world } with ⟨code, kse⟩
  rcases hhandshake : ksetlsTlsServerHandshake W.toWorld fuel fd kse with ⟨code', kse'⟩
  simp only [Dim.accept, haccept, hopen, hhandshake] at h
  simp only [Dim.acceptEvents, AcceptFails, haccept, hopen, hhandshake]
  by_cases hfd : fd < 0
  · rw [if_pos hfd] at h
    simp only [Prod.mk.injEq, Outcome.returned.injEq] at h
    obtain ⟨rfl, -⟩ := h
    refine Or.inl ⟨?_, hfd, fd, hfd, if_pos hfd⟩
    rintro ⟨hgot, -⟩
    omega
  · rw [if_neg hfd] at h
    simp only [if_neg hfd]
    by_cases hok : code = some KSE_SUCCESS
    · subst hok
      simp only [reduceCtorEq, if_false, ne_eq, not_true_eq_false] at h
      cases code' with
      | none => simp at h
      | some code' =>
        simp only [Prod.mk.injEq, Outcome.returned.injEq] at h
        obtain ⟨rfl, rfl⟩ := h
        refine Or.inr (Or.inr ⟨?_, not_lt.mp hfd, x.kse.pendingRegion, kse.pendingRegion,
          kse.event .tlsHandshake fd (some code', kse'), ?_, ?_⟩)
        · simpa using fun _ => not_lt.mp hfd
        · exact Kse.event_neutral _ (by decide) (by decide) _ _
        · exact if_neg (not_not.mpr rfl)
    · by_cases hnone : code = none
      · rw [if_pos hnone] at h
        simp at h
      · rw [if_neg hnone, if_pos hok] at h
        simp only [Prod.mk.injEq, Outcome.returned.injEq] at h
        obtain ⟨rfl, rfl⟩ := h
        refine Or.inr (Or.inl ⟨⟨not_lt.mp hfd, Or.inl hok⟩, by decide, not_lt.mp hfd, _, ?_,
          if_pos hok⟩)
        exact ⟨rfl, if_neg hok⟩

/-- What an `accept` adds to the ledger. -/
theorem accept_holds {l l' : Life σ} {result : Int} {fds channels : List Int}
    (h : l.returns W fuel .accept = some (result, l')) (hholds : Holds l.log fds channels) :
    (¬AcceptFails W fuel l.dim ∧ result < 0 ∧ Holds l'.log fds channels) ∨
      (AcceptFails W fuel l.dim ∧ result < 0 ∧
        ∃ channels', Holds l'.log (l'.dim.fd :: fds) channels') ∨
      (¬AcceptFails W fuel l.dim ∧ 0 ≤ result ∧
        Holds l'.log (l'.dim.fd :: fds) (l'.dim.fd :: channels)) := by
  obtain ⟨hdim, hlog⟩ := Life.returns_eq_some.mp h
  rw [hlog]
  rcases acceptEvents_cases hdim with ⟨hsound, hneg, fd, hfd, hevents⟩ |
    ⟨hfails, hneg, hfd, e, he, hevents⟩ | ⟨hfails, hfd, before, after, e, he, hevents⟩
  · refine Or.inl ⟨hsound, hneg, ?_⟩
    rw [DimCall.events, hevents]
    apply hholds.neutral
    simp [DimEvent.Neutral, DimEvent.descriptor, DimEvent.channel, hfd]
  · refine Or.inr (Or.inl ⟨hfails, hneg, channels, ?_⟩)
    rw [DimCall.events, hevents, List.append_cons]
    exact (hholds.accept hfd).neutral (by simpa using he)
  · have hopened : Holds (l.log ++ [.accept l'.dim.fd,
        .kse .tlsOpen l'.dim.fd (some KSE_SUCCESS) before after, e])
        (l'.dim.fd :: fds) (l'.dim.fd :: channels) := by
      have hthree := ((hholds.accept hfd).tlsOpen l'.dim.fd before after).neutral
        (List.forall_mem_singleton.mpr he)
      simpa using hthree
    rw [DimCall.events, hevents]
    by_cases hneg : result < 0
    · exact Or.inr (Or.inl ⟨hfails.mpr hneg, hneg, _, hopened⟩)
    · exact Or.inr (Or.inr ⟨fun h => hneg (hfails.mp h), not_lt.mp hneg, hopened⟩)

theorem accept_atMostOne {l l' : Life σ} {result : Int}
    (h : l.returns W fuel .accept = some (result, l')) (hholds : Holds l.log [] [])
    (hone : AtMostOne l.log) : AtMostOne l'.log := by
  obtain ⟨hdim, hlog⟩ := Life.returns_eq_some.mp h
  rw [hlog]
  rcases acceptEvents_cases hdim with ⟨hsound, hneg, fd, hfd, hevents⟩ |
    ⟨hfails, hneg, hfd, e, he, hevents⟩ | ⟨hfails, hfd, before, after, e, he, hevents⟩
  · rw [DimCall.events, hevents]
    apply hone.neutral
    simp [DimEvent.Neutral, DimEvent.descriptor, DimEvent.channel, hfd]
  · rw [DimCall.events, hevents, List.append_cons]
    have hgot := hone.snoc (hholds.accept hfd) (by simp) (by simp)
    exact hgot.neutral (List.forall_mem_singleton.mpr he)
  · rw [DimCall.events, hevents, List.append_cons, List.append_cons]
    have hgot := hone.snoc (hholds.accept hfd) (by simp) (by simp)
    have hopened := hgot.snoc ((hholds.accept hfd).tlsOpen l'.dim.fd before after) (by simp)
      (by simp)
    exact hopened.neutral (List.forall_mem_singleton.mpr he)

/-- `dim->close()` gives back the descriptor and the channel of the session. -/
theorem close_holds {l l' : Life σ} {result : Int} {fds channels : List Int}
    (h : l.returns W fuel .close = some (result, l'))
    (hholds : Holds l.log (l.dim.fd :: fds) (l.dim.fd :: channels)) :
    Holds l'.log fds channels := by
  obtain ⟨-, hlog⟩ := Life.returns_eq_some.mp h
  rw [hlog, DimCall.events, Dim.closeEvents, List.append_cons]
  exact hholds.close.tlsClose _ _ _

theorem close_atMostOne {l l' : Life σ} {result : Int}
    (h : l.returns W fuel .close = some (result, l'))
    (hholds : Holds l.log [l.dim.fd] [l.dim.fd]) (hone : AtMostOne l.log) :
    AtMostOne l'.log := by
  obtain ⟨-, hlog⟩ := Life.returns_eq_some.mp h
  rw [hlog, DimCall.events, Dim.closeEvents, List.append_cons]
  have hclosed := hone.snoc hholds.close (by simp) (by simp)
  exact hclosed.snoc (hholds.close.tlsClose _ _ _) (by simp) (by simp)

/-! ### The threads -/

namespace Server

variable {s s' : Server M σ} {fds channels : List Int}

/-- What is held besides the session. -/
def HoldsBesides (s : Server M σ) (fds channels : List Int) : Prop :=
  match s.gcsReadPc with
  | .accept => Holds s.life.log fds channels
  | .read => Holds s.life.log (s.life.dim.fd :: fds) (s.life.dim.fd :: channels)

/-- Nothing is held when `::accept` is called, and at no moment more than one descriptor and
    one channel. -/
structure CleanedUp (s : Server M σ) : Prop where
  accept : s.gcsReadPc = .accept → Holds s.life.log [] []
  atMostOne : AtMostOne s.life.log

theorem HoldsBesides.sameSession (h : s.HoldsBesides fds channels)
    (hlife : SameSession s.life s'.life) (hpc : s'.gcsReadPc = s.gcsReadPc) :
    s'.HoldsBesides fds channels := by
  unfold HoldsBesides at h ⊢
  rw [hpc, hlife.fd]
  cases hread : s.gcsReadPc with
  | accept =>
    rw [hread] at h
    exact hlife.holds _ _ h
  | read =>
    rw [hread] at h
    exact hlife.holds _ _ h

theorem CleanedUp.holdsBesides (hclean : s.CleanedUp) (h : s.HoldsBesides fds channels) :
    s.HoldsBesides [] [] := by
  unfold HoldsBesides at h ⊢
  cases hread : s.gcsReadPc with
  | accept => exact hclean.accept hread
  | read =>
    rw [hread] at h
    obtain ⟨fds', channels', hholds, hfds, hchannels⟩ :=
      hclean.atMostOne s.life.log (List.prefix_refl _)
    have hlength := (h.descriptors.unique hholds.descriptors).length_eq
    have hlength' := (h.channels.unique hholds.channels).length_eq
    rw [List.length_cons] at hlength hlength'
    obtain rfl : fds = [] := List.eq_nil_of_length_eq_zero (by omega)
    obtain rfl : channels = [] := List.eq_nil_of_length_eq_zero (by omega)
    exact h

end Server

/-- A step that does not end a session without giving back what it got. -/
def ServerStep.CleansUp (W : DimHost σ) (fuel : Nat) (L : ServerLocals) :
    ServerStep M → Server M σ → Prop
  | .gcsRead, s =>
    match s.gcsReadPc with
    | .accept => ¬AcceptFails W fuel s.life.dim
    | .read => ¬s.ReadFails W fuel L
  | _, _ => True

theorem Reads.inSession {c : DimCall} {l : Life σ} (h : Reads c l) : InSession c l :=
  Or.inr (Or.inl h.2)

theorem Writes.inSession {c : DimCall} {l : Life σ} (h : Writes c l) : InSession c l :=
  Or.inl h.2

theorem sameSession_reads {l l' : Life σ} (h : LifeRun W fuel Reads l l') : SameSession l l' :=
  (h.mono fun _ _ => Reads.inSession).sameSession

theorem sameSession_writes {l l' : Life σ} (h : LifeRun W fuel Writes l l') : SameSession l l' :=
  (h.mono fun _ _ => Writes.inSession).sameSession

theorem sameSession_call {c : DimCall} {l l' : Life σ} {result : Int} (hc : InSession c l)
    (h : l.returns W fuel c = some (result, l')) : SameSession l l' :=
  (LifeRun.call hc h).sameSession

theorem SameSession.trans {l l' l'' : Life σ} (h : SameSession l l') (h' : SameSession l' l'') :
    SameSession l l'' := by
  refine ⟨?_, ?_, h'.fd.trans h.fd⟩
  · intro fds channels hholds
    exact h'.holds fds channels (h.holds fds channels hholds)
  · intro hone
    exact h'.atMostOne (h.atMostOne hone)

theorem other_sameSession {step : ServerStep M} {s s' : Server M σ}
    (h : step.run W fuel L s = some s') (hother : step ≠ .gcsRead) :
    SameSession s.life s'.life ∧ s'.gcsReadPc = s.gcsReadPc := by
  obtain ⟨hrun, hpc⟩ := ServerStep.other_run h hother
  exact ⟨sameSession_writes hrun, hpc⟩

theorem ServerStep.cleansUp_of_other {step : ServerStep M} (hother : step ≠ .gcsRead)
    (s : Server M σ) : step.CleansUp W fuel L s := by
  cases step with
  | gcsRead => exact absurd rfl hother
  | gcsWrite | autopilotRead r | autopilotWrite => trivial

variable (W fuel) in
/-- After `init_poll` and the writes to the buffer. -/
theorem sameSession_begin (l : Life σ) (off : Nat) (bytes : List UInt8) :
    SameSession l ((l.initPoll W fuel).store off bytes) :=
  (LifeRun.store (LifeRun.call (Or.inr (Or.inr (Or.inr rfl))) (Life.initPoll_returns l)) off
    bytes).sameSession

/-- A step keeps what is held besides the session, or adds what the session held. -/
def StepHolds (W : DimHost σ) (fuel : Nat) (L : ServerLocals) (step : ServerStep M)
    (s s' : Server M σ) (fds channels : List Int) : Prop :=
  step.CleansUp W fuel L s ∧ s'.HoldsBesides fds channels ∨
    ¬step.CleansUp W fuel L s ∧ s'.gcsReadPc = .accept ∧
      ∃ fd channels', s'.HoldsBesides (fd :: fds) channels'

theorem accept_stepHolds {s s' : Server M σ} {fds channels : List Int}
    (hpc : s.gcsReadPc = .accept) (h : s.gcsRead W fuel L = some s')
    (hs : s.HoldsBesides fds channels) : StepHolds W fuel L .gcsRead s s' fds channels := by
  simp only [Server.HoldsBesides, hpc] at hs
  simp only [StepHolds, ServerStep.CleansUp, hpc]
  obtain ⟨result, life, haccept, hcase⟩ := Server.gcsRead_accept_cases hpc h
  rcases accept_holds haccept hs with ⟨hsound, hneg, hholds⟩ |
    ⟨hfails, hneg, channels', hholds⟩ | ⟨hsound, hnonneg, hholds⟩
  · rcases hcase with ⟨-, hpc', hlife⟩ | ⟨hnonneg, -⟩
    · refine Or.inl ⟨hsound, ?_⟩
      simpa only [Server.HoldsBesides, hpc', hlife] using hholds
    · exact absurd hneg (not_lt.mpr hnonneg)
  · rcases hcase with ⟨-, hpc', hlife⟩ | ⟨hnonneg, -⟩
    · refine Or.inr ⟨not_not.mpr hfails, hpc', life.dim.fd, channels', ?_⟩
      simpa only [Server.HoldsBesides, hpc', hlife] using hholds
    · exact absurd hneg (not_lt.mpr hnonneg)
  · rcases hcase with ⟨hneg, -⟩ | ⟨-, hpc', off, bytes, hlife⟩
    · exact absurd hneg (not_lt.mpr hnonneg)
    · have hbegin := sameSession_begin W fuel life off bytes
      refine Or.inl ⟨hsound, ?_⟩
      simp only [Server.HoldsBesides, hpc', hlife, hbegin.fd]
      exact hbegin.holds _ _ hholds

theorem read_stepHolds {s s' : Server M σ} {fds channels : List Int}
    (hpc : s.gcsReadPc = .read) (h : s.gcsRead W fuel L = some s')
    (hs : s.HoldsBesides fds channels) : StepHolds W fuel L .gcsRead s s' fds channels := by
  simp only [Server.HoldsBesides, hpc] at hs
  simp only [StepHolds, ServerStep.CleansUp, hpc]
  obtain ⟨life, hread, hcase⟩ := Server.gcsRead_read_cases hpc h
  have hlife := sameSession_reads hread
  rcases hcase with ⟨hsound, hpc', hrun⟩ | ⟨hfails, hpc', heq⟩ |
    ⟨hsound, hpc', result, result', life', hnotify, hclose⟩
  · have hsame := hlife.trans (sameSession_reads hrun)
    refine Or.inl ⟨hsound, ?_⟩
    simp only [Server.HoldsBesides, hpc', hsame.fd]
    exact hsame.holds _ _ hs
  · refine Or.inr ⟨not_not.mpr hfails, hpc', s.life.dim.fd, s.life.dim.fd :: channels, ?_⟩
    simp only [Server.HoldsBesides, hpc', heq]
    exact hlife.holds _ _ hs
  · have hsame := hlife.trans (sameSession_call (Or.inr (Or.inr (Or.inl rfl))) hnotify)
    have hholds := hsame.holds _ _ hs
    rw [← hsame.fd] at hholds
    refine Or.inl ⟨hsound, ?_⟩
    simp only [Server.HoldsBesides, hpc']
    exact close_holds hclose hholds

theorem step_holds {step : ServerStep M} {s s' : Server M σ} {fds channels : List Int}
    (h : step.run W fuel L s = some s') (hs : s.HoldsBesides fds channels) :
    StepHolds W fuel L step s s' fds channels := by
  by_cases hother : step ≠ .gcsRead
  · obtain ⟨hlife, hpc⟩ := other_sameSession h hother
    exact Or.inl ⟨step.cleansUp_of_other hother s, hs.sameSession hlife hpc⟩
  · obtain rfl := not_not.mp hother
    cases hpc : s.gcsReadPc with
    | accept => exact accept_stepHolds hpc h hs
    | read => exact read_stepHolds hpc h hs

theorem step_atMostOne {step : ServerStep M} {s s' : Server M σ}
    (h : step.run W fuel L s = some s') (hclean : step.CleansUp W fuel L s)
    (hs : s.HoldsBesides [] []) (hone : AtMostOne s.life.log) : AtMostOne s'.life.log := by
  by_cases hother : step ≠ .gcsRead
  · exact (other_sameSession h hother).1.atMostOne hone
  · rw [not_not] at hother
    subst hother
    cases hpc : s.gcsReadPc with
    | accept =>
      simp only [Server.HoldsBesides, hpc] at hs
      obtain ⟨result, life, haccept, hcase⟩ := Server.gcsRead_accept_cases hpc h
      have haccepted := accept_atMostOne haccept hs hone
      rcases hcase with ⟨-, -, hlife⟩ | ⟨-, -, off, bytes, hlife⟩
      · rwa [hlife]
      · rw [hlife]
        exact (sameSession_begin W fuel life off bytes).atMostOne haccepted
    | read =>
      simp only [ServerStep.CleansUp, hpc] at hclean
      obtain ⟨life, hread, hcase⟩ := Server.gcsRead_read_cases hpc h
      have hlife := sameSession_reads hread
      simp only [Server.HoldsBesides, hpc] at hs
      rcases hcase with ⟨-, -, hrun⟩ | ⟨hfails, -⟩ |
        ⟨-, -, result, result', life', hnotify, hclose⟩
      · exact (hlife.trans (sameSession_reads hrun)).atMostOne hone
      · exact absurd hfails hclean
      · have hsame := hlife.trans (sameSession_call (Or.inr (Or.inr (Or.inl rfl))) hnotify)
        have hholds := hsame.holds _ _ hs
        rw [← hsame.fd] at hholds
        exact close_atMostOne hclose hholds (hsame.atMostOne hone)

/-- **Which sessions are cleaned up.**  In every run of the threads, nothing is held whenever
    `::accept` is called, and never more than one descriptor and one channel, exactly when no
    `dim->accept()` fails with a descriptor and no read gives an error other than a close notify
    or a fatal alert. -/
theorem sessions_cleaned_up_iff (dim : Dim σ) (steps : List (ServerStep M)) :
    (∀ s ∈ Runs.states (ServerStep.run W fuel L) (Server.start L ⟨dim, []⟩) steps, s.CleanedUp) ↔
      Runs.Along (ServerStep.run W fuel L) (fun step s => step.CleansUp W fuel L s)
        (Server.start L ⟨dim, []⟩) steps := by
  apply Runs.forall_states_iff (I := fun s => ∃ fds channels, s.HoldsBesides fds channels)
  · rintro step s s' h ⟨fds, channels, hs⟩
    rcases step_holds h hs with ⟨-, hs'⟩ | ⟨-, -, fd, channels', hs'⟩
    · exact ⟨fds, channels, hs'⟩
    · exact ⟨fd :: fds, channels', hs'⟩
  · rintro step s s' h ⟨fds, channels, hs⟩ hclean
    have hnone := hclean.holdsBesides hs
    rcases step_holds h hnone with ⟨hcleans, hs'⟩ | ⟨hleaves, hpc', fd, channels', hs'⟩
    · refine iff_of_true ⟨?_, step_atMostOne h hcleans hnone hclean.atMostOne⟩ hcleans
      intro hpc'
      simpa only [Server.HoldsBesides, hpc'] using hs'
    · refine iff_of_false ?_ hleaves
      intro hclean'
      simp only [Server.HoldsBesides, hpc'] at hs'
      exact absurd (hs'.eq_nil (hclean'.accept hpc')).1 (by simp)
  · exact ⟨[], [], .nil⟩
  · exact ⟨fun _ => .nil, .nil⟩

/-- Arrays one behind the other, and locals that hold zeros. -/
def zeroedLocals : ServerLocals :=
  ⟨1000, fun _ => 0, 10000, 19000, fun _ _ => 0, 20000, 20300, 20400, 20600⟩

/-- A client whose handshake fails: its descriptor and its channel are still open when the thread
    accepts again. -/
theorem sessions_cleaned_up_not :
    let dim := opened [statusReport 0 0, statusReport 0x88 0x80] [[0x16]]
    ∃ s ∈ Runs.states (ServerStep.run emptyBus 1 zeroedLocals)
        (Server.start (M := mavlink1) zeroedLocals ⟨dim, []⟩) [.gcsRead],
      s.gcsReadPc = .accept ∧ s.life.log.filterMap DimEvent.descriptor = [.acquired 5] ∧
        s.life.log.filterMap DimEvent.channel = [.acquired 5] ∧ ¬s.CleanedUp := by
  intro dim
  have hledger : (ServerStep.run emptyBus 1 zeroedLocals .gcsRead
      (Server.start (M := mavlink1) zeroedLocals ⟨dim, []⟩)).map (fun s => (s.gcsReadPc,
        s.life.log.filterMap DimEvent.descriptor, s.life.log.filterMap DimEvent.channel)) =
      some (.accept, [.acquired 5], [.acquired 5]) := by
    decide +kernel
  obtain ⟨s, hstep, hs⟩ := Option.map_eq_some_iff.mp hledger
  simp only [Prod.mk.injEq] at hs
  obtain ⟨hpc, hdescriptor, hchannel⟩ := hs
  refine ⟨s, ?_, hpc, hdescriptor, hchannel, ?_⟩
  · rw [Runs.states_cons_some hstep]
    exact List.mem_cons_self
  · intro hclean
    have hcount := (hclean.accept hpc).descriptors 5
    rw [hdescriptor] at hcount
    exact absurd hcount (by decide)

end MavlinkDim
