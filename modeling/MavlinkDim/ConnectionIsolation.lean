import MavlinkDim.Client
import MavlinkDim.History
import MavlinkDim.ServerSessions

/-!
# Input stays on its connection

The pending region belongs to the driver, not to a connection, and `recv` reads
from the descriptor of the poll set, not from `_fd`.  Every path on which the two
programs get a new descriptor opens a channel on it, which empties the region,
and calls `init_poll`.  So no connection sees what another left
(`pending_input_isolated`).
-/

namespace MavlinkDim

open History

namespace DimEvent

/-- The descriptor that `_fd` gets. -/
def got : DimEvent → Option Int
  | .accept fd => some fd
  | .socket fd => some fd
  | _ => none

/-- The descriptor of a `_ksetlsOpen` that succeeds. -/
def opened : DimEvent → Option Int
  | .kse .tlsOpen fd code _ _ => if code = some KSE_SUCCESS then some fd else none
  | _ => none

/-- The region that a handshake or a read on `fd` leaves, if it is another one than before. -/
def takes (fd : Int) : DimEvent → Option Region
  | .kse .tlsHandshake fd' _ before after => if fd' = fd ∧ before ≠ after then some after else none
  | .kse .tlsRead fd' _ before after => if fd' = fd ∧ before ≠ after then some after else none
  | _ => none

/-- A call of kseTLS. -/
def IsKse : DimEvent → Prop
  | .kse .. => True
  | _ => False

/-- The region is the same before and after. -/
def Keeps : DimEvent → Prop
  | .kse _ _ _ before after => before = after
  | _ => True

end DimEvent

/-- `fd` is the descriptor of the last `accept` or `socket`, a channel was opened on it, and `es`
    are the events behind that: calls of kseTLS. -/
def OpenedOn (log : List DimEvent) (fd : Int) (es : List DimEvent) : Prop :=
  ∃ pre e, log = pre ++ e :: es ∧ e.opened = some fd ∧ Last DimEvent.got pre fd ∧
    ∀ e' ∈ es, e'.IsKse

/-- A handshake or a read on `fd` set the region to `r`, on this connection and after its
    `_ksetlsOpen`, and no event behind it changed it. -/
def SetOn (log : List DimEvent) (fd : Int) (r : Region) : Prop :=
  ∃ es es', OpenedOn log fd es ∧ Since (DimEvent.takes fd) es r es' ∧ ∀ e ∈ es', e.Keeps

/-- Pending input that a handshake or a read presents comes from this connection, and a read is
    on the descriptor of the last `accept` or `socket`. -/
def Isolated (log : List DimEvent) : DimEvent → Prop
  | .kse .tlsHandshake fd _ before _ => 0 < before.length → SetOn log fd before
  | .kse .tlsRead fd _ before _ =>
    (0 < before.length → SetOn log fd before) ∧ Last DimEvent.got log fd
  | _ => True

/-! ### Channels -/

/-- A channel is open on `fd`, and the region is `r`. -/
def ChannelOn (log : List DimEvent) (fd : Int) (r : Region) : Prop :=
  ∃ es, OpenedOn log fd es ∧ (0 < r.length →
    ∃ es', Since (DimEvent.takes fd) es r es' ∧ ∀ e ∈ es', e.Keeps)

section

variable {log : List DimEvent} {fd : Int} {r r' : Region}

theorem ChannelOn.setOn (h : ChannelOn log fd r) (hpending : 0 < r.length) : SetOn log fd r := by
  obtain ⟨es, hopened, hset⟩ := h
  obtain ⟨es', hsince, hkeeps⟩ := hset hpending
  exact ⟨es, es', hopened, hsince, hkeeps⟩

theorem OpenedOn.snoc {es : List DimEvent} (h : OpenedOn log fd es) {e : DimEvent}
    (he : e.IsKse) : OpenedOn (log ++ [e]) fd (es ++ [e]) := by
  obtain ⟨pre, e₀, rfl, hopened, hlast, hkse⟩ := h
  refine ⟨pre, e₀, by simp, hopened, hlast, ?_⟩
  rw [List.forall_mem_append]
  exact ⟨hkse, List.forall_mem_singleton.mpr he⟩

theorem DimEvent.IsKse.got {e : DimEvent} (h : e.IsKse) : e.got = none := by
  cases e with
  | kse f fd code before after => rfl
  | accept _ | socket _ | close _ => cases h

theorem OpenedOn.last {es : List DimEvent} (h : OpenedOn log fd es) :
    Last DimEvent.got log fd := by
  obtain ⟨pre, e, rfl, hopened, ⟨es', pre', e', rfl, hgot, hnone⟩, hbehind⟩ := h
  refine ⟨es' ++ e :: es, pre', e', by simp, hgot, ?_⟩
  rw [List.forall_mem_append, List.forall_mem_cons]
  refine ⟨hnone, ?_, fun e' he' => (hbehind e' he').got⟩
  cases e with
  | kse f fd' code before after => rfl
  | accept _ | socket _ | close _ => simp [DimEvent.opened] at hopened

theorem ChannelOn.last (h : ChannelOn log fd r) : Last DimEvent.got log fd := by
  obtain ⟨es, hopened, -⟩ := h
  exact hopened.last

theorem ChannelOn.open_ (h : Last DimEvent.got log fd) (before after : Region)
    (hempty : after.length = 0) :
    ChannelOn (log ++ [.kse .tlsOpen fd (some KSE_SUCCESS) before after]) fd after := by
  refine ⟨[], ⟨log, _, rfl, by simp [DimEvent.opened], h, by simp⟩, ?_⟩
  intro hpending
  omega

/-- A handshake or a read on the descriptor. -/
theorem ChannelOn.take (h : ChannelOn log fd r) {f : TlsFunction}
    (hf : f = .tlsHandshake ∨ f = .tlsRead) (code : Option Int) :
    ChannelOn (log ++ [.kse f fd code r r']) fd r' := by
  obtain ⟨es, hopened, hset⟩ := h
  refine ⟨_, hopened.snoc trivial, ?_⟩
  intro hpending
  by_cases hsame : r = r'
  · subst hsame
    obtain ⟨es', hsince, hkeeps⟩ := hset hpending
    refine ⟨_, hsince.snoc ?_, ?_⟩
    · rcases hf with rfl | rfl <;> simp [DimEvent.takes]
    · rw [List.forall_mem_append]
      exact ⟨hkeeps, List.forall_mem_singleton.mpr rfl⟩
  · refine ⟨[], .start ?_, by simp⟩
    rcases hf with rfl | rfl <;> simp [DimEvent.takes, hsame]

/-- A call that leaves the region, or empties it. -/
theorem ChannelOn.keep (h : ChannelOn log fd r) {f : TlsFunction} (hf : f ≠ .tlsHandshake)
    (hf' : f ≠ .tlsRead) (fd' : Int) (code : Option Int) (hkept : r' = r ∨ r'.length = 0) :
    ChannelOn (log ++ [.kse f fd' code r r']) fd r' := by
  obtain ⟨es, hopened, hset⟩ := h
  refine ⟨_, hopened.snoc trivial, ?_⟩
  intro hpending
  rcases hkept with rfl | hempty
  · obtain ⟨es', hsince, hkeeps⟩ := hset hpending
    refine ⟨_, hsince.snoc ?_, ?_⟩
    · cases f with
      | tlsHandshake => exact absurd rfl hf
      | tlsRead => exact absurd rfl hf'
      | tlsOpen | tlsWrite | tlsCloseNotify | tlsClose => rfl
    · rw [List.forall_mem_append]
      exact ⟨hkeeps, List.forall_mem_singleton.mpr rfl⟩
  · omega

end

/-! ### The calls -/

variable {σ : Type} {W : DimHost σ} {fuel : Nat}

/-- The log is isolated, and a connected object has its channel. -/
structure Sealed (l : Life σ) : Prop where
  isolated : Admitted Isolated l.log
  channel : l.Connected → ChannelOn l.log l.dim.fd l.dim.kse.pendingRegion

/-- Without a connection there is no channel to speak of. -/
theorem Sealed.of_disconnected {l : Life σ} (h : Admitted Isolated l.log)
    (hdisconnected : ¬l.Connected) : Sealed l := by
  refine ⟨h, ?_⟩
  intro hconnected
  exact absurd hconnected hdisconnected

/-- The calls that the programs make: `recv` with the poll set on `_fd`, and `connect` on an
    object without a connection. -/
def Aligned (c : DimCall) (l : Life σ) : Prop :=
  (∀ size data, c = .recv size data → l.Connected → l.dim.pollFd = l.dim.fd) ∧
    (c = .connect → ¬l.Connected)

theorem RegionKept.pendingRegion {x y : Kse σ} (h : RegionKept x y) :
    y.pendingRegion = x.pendingRegion ∨ y.pendingRegion.length = 0 := by
  rcases h with ⟨hoffset, hlength⟩ | hempty
  · exact Or.inl (by rw [Kse.pendingRegion, Kse.pendingRegion, hoffset, hlength])
  · exact Or.inr hempty

/-- A channel is opened on a new descriptor, and the handshake made: the region is empty when it
    starts. -/
theorem handshake_sealed {log : List DimEvent} {fd : Int} (hisolated : Admitted Isolated log)
    (hlast : Last DimEvent.got log fd) (x kse : Kse σ) (hempty : kse.pendingRegion.length = 0)
    (r : Option Int × Kse σ) :
    Admitted Isolated
        (log ++ [x.event .tlsOpen fd (some KSE_SUCCESS, kse), kse.event .tlsHandshake fd r]) ∧
      ChannelOn
        (log ++ [x.event .tlsOpen fd (some KSE_SUCCESS, kse), kse.event .tlsHandshake fd r]) fd
        r.2.pendingRegion := by
  have hopen : Isolated log (x.event .tlsOpen fd (some KSE_SUCCESS, kse)) := trivial
  rw [List.append_cons]
  refine ⟨(hisolated.snoc hopen).snoc ?_, ?_⟩
  · intro hpending
    omega
  · exact (ChannelOn.open_ hlast _ _ hempty).take (Or.inl rfl) r.1

theorem Sealed.accept {l : Life σ} (h : Sealed l) : Sealed (l.call W fuel .accept).2 := by
  rcases haccept : W.accept l.dim.kse.world l.dim.serverFd with ⟨fd, world⟩
  rcases hopen : ksetlsOpen W.toWorld fuel fd KSETLS_MODE_TLS KSETLS_SERVER 1 0 0 SESSION
    { l.dim.kse with world } with ⟨result, kse⟩
  rcases hhandshake : ksetlsTlsServerHandshake W.toWorld fuel fd kse with ⟨code, kse'⟩
  have hgot : Admitted Isolated (l.log ++ [.accept fd]) := h.isolated.snoc trivial
  have hlast : Last DimEvent.got (l.log ++ [.accept fd]) fd := .start rfl
  simp only [Life.call_eq, DimCall.run, DimCall.events, Dim.accept, Dim.acceptEvents, haccept,
    hopen, hhandshake]
  by_cases hfd : fd < 0
  · simp only [if_pos hfd]
    exact .of_disconnected hgot (by simp [Life.Connected])
  · simp only [if_neg hfd]
    by_cases hok : result = some KSE_SUCCESS
    · subst hok
      have hempty : kse.pendingRegion.length = 0 := by
        have hregion := (ksetlsOpen_region W.toWorld fuel fd KSETLS_MODE_TLS KSETLS_SERVER 1 0 0
          SESSION { l.dim.kse with world }).2
        rw [hopen] at hregion
        exact hregion rfl
      obtain ⟨hisolated, hchannel⟩ :=
        handshake_sealed hgot hlast { l.dim.kse with world } kse hempty (code, kse')
      rw [← List.append_cons] at hisolated hchannel
      simp only [reduceCtorEq, if_false, ne_eq, not_true_eq_false]
      cases code with
      | none => exact .of_disconnected hisolated (by simp [Life.Connected])
      | some code => exact ⟨hisolated, fun _ => hchannel⟩
    · have hopened : Admitted Isolated (l.log ++ [.accept fd,
          ({ l.dim.kse with world } : Kse σ).event .tlsOpen fd (result, kse)]) := by
        rw [List.append_cons]
        exact hgot.snoc trivial
      simp only [if_pos hok]
      split <;> exact .of_disconnected hopened (by simp [Life.Connected])

theorem Sealed.connect {l : Life σ} (h : Sealed l) (hdisconnected : ¬l.Connected) :
    Sealed (l.call W fuel .connect).2 := by
  rcases hsocket : W.socket l.dim.kse.world with ⟨fd, world⟩
  rcases hconnect : W.connect world fd with ⟨connected, world'⟩
  rcases hopen : ksetlsOpen W.toWorld fuel fd KSETLS_MODE_TLS KSETLS_CLIENT 1 0 0 SESSION
    { l.dim.kse with world := world' } with ⟨result, kse⟩
  rcases hhandshake : ksetlsTlsClientHandshake W.toWorld fuel fd l.dim.handshakeType kse with
    ⟨code, kse'⟩
  have hgot : Admitted Isolated (l.log ++ [.socket fd]) := h.isolated.snoc trivial
  have hlast : Last DimEvent.got (l.log ++ [.socket fd]) fd := .start rfl
  simp only [Life.call_eq, DimCall.run, DimCall.events, Dim.connect, Dim.connectEvents, hsocket,
    hconnect, hopen, Dim.handshake, hhandshake]
  by_cases hfd : fd = -1
  · simp only [if_pos hfd]
    exact .of_disconnected hgot hdisconnected
  · simp only [if_neg hfd]
    by_cases hfailed : connected ≠ 0
    · simp only [if_pos hfailed]
      exact .of_disconnected hgot hdisconnected
    · simp only [if_neg hfailed]
      by_cases hok : result = some KSE_SUCCESS
      · subst hok
        have hempty : kse.pendingRegion.length = 0 := by
          have hregion := (ksetlsOpen_region W.toWorld fuel fd KSETLS_MODE_TLS KSETLS_CLIENT 1 0
            0 SESSION { l.dim.kse with world := world' }).2
          rw [hopen] at hregion
          exact hregion rfl
        obtain ⟨hisolated, hchannel⟩ := handshake_sealed hgot hlast
          { l.dim.kse with world := world' } kse hempty (code, kse')
        rw [← List.append_cons] at hisolated hchannel
        simp only [if_false, ne_eq, not_true_eq_false]
        by_cases hcode : code = some KSE_SUCCESS
        · subst hcode
          exact ⟨hisolated, fun _ => hchannel⟩
        · simp only [if_neg hcode]
          cases code with
          | none => exact .of_disconnected hisolated hdisconnected
          | some code =>
            dsimp only
            split
            · exact .of_disconnected hisolated hdisconnected
            · exact ⟨hisolated, fun _ => hchannel⟩
      · have hopened : Admitted Isolated (l.log ++ [.socket fd,
            ({ l.dim.kse with world := world' } : Kse σ).event .tlsOpen fd (result, kse)]) := by
          rw [List.append_cons]
          exact hgot.snoc trivial
        simp only [if_pos hok]
        exact .of_disconnected hopened hdisconnected

/-- A call of kseTLS that is neither a handshake nor a read. -/
theorem Sealed.keep {l : Life σ} (h : Sealed l) {f : TlsFunction} (hf : f ≠ .tlsHandshake)
    (hf' : f ≠ .tlsRead) (fd : Int) {r : Option Int × Kse σ} (hkept : RegionKept l.dim.kse r.2)
    {dim : Dim σ} (hdim : dim.kse = r.2) (hfd : dim.fd = l.dim.fd)
    (hstatus : dim.connectionStatus = .connected → l.Connected) :
    Sealed ⟨dim, l.log ++ [l.dim.kse.event f fd r]⟩ := by
  refine ⟨h.isolated.snoc ?_, fun hconnected => ?_⟩
  · cases f with
    | tlsHandshake => exact absurd rfl hf
    | tlsRead => exact absurd rfl hf'
    | tlsOpen | tlsWrite | tlsCloseNotify | tlsClose => trivial
  · dsimp only
    rw [hfd, hdim]
    exact (h.channel (hstatus hconnected)).keep hf hf' fd r.1 hkept.pendingRegion

/-- The object is as before, but for what the channel does not depend on. -/
theorem Sealed.same {l : Life σ} (h : Sealed l) {dim : Dim σ} (hfd : dim.fd = l.dim.fd)
    (hregion : dim.kse.pendingRegion = l.dim.kse.pendingRegion)
    (hstatus : dim.connectionStatus = .connected → l.Connected) : Sealed ⟨dim, l.log⟩ := by
  refine ⟨h.isolated, ?_⟩
  intro hconnected
  dsimp only
  rw [hfd, hregion]
  exact h.channel (hstatus hconnected)

theorem Sealed.send {l : Life σ} (h : Sealed l) (size data : Nat) :
    Sealed (l.call W fuel (.send size data)).2 := by
  rcases hwrite : ksetlsTlsWrite W.toWorld fuel l.dim.fd data (int16 size) l.dim.kse with
    ⟨result, kse⟩
  have hregion := ksetlsTlsWrite_region W.toWorld fuel l.dim.fd data (int16 size) l.dim.kse
  rw [hwrite] at hregion
  have hkeep : ∀ dim : Dim σ, dim.kse = kse → dim.fd = l.dim.fd →
      dim.connectionStatus = l.dim.connectionStatus →
      Sealed ⟨dim, l.log ++ [l.dim.kse.event .tlsWrite l.dim.fd (result, kse)]⟩ := by
    intro dim hdim hfd hstatus
    refine h.keep (by decide) (by decide) l.dim.fd hregion hdim hfd ?_
    intro hconnected
    exact hstatus.symm.trans hconnected
  simp only [Life.call_eq, DimCall.run, DimCall.events, Dim.send, Dim.sendEvents, hwrite]
  by_cases hstatus : l.dim.connectionStatus = .connected
  · by_cases herror : l.dim.tlsReadError = -1
    · simp only [hstatus, herror, ne_eq, not_true_eq_false, if_false, if_true, true_or, or_true,
        List.append_nil]
      exact h
    · cases hread : l.dim.onRead with
      | true =>
        simp only [hstatus, herror, ne_eq, not_true_eq_false, if_false, if_true, or_true,
          List.append_nil]
        exact h
      | false =>
        simp only [hstatus, herror, ne_eq, not_true_eq_false, if_false, or_self,
          Bool.false_eq_true]
        cases result with
        | none => exact hkeep _ rfl rfl hstatus.symm
        | some result => exact hkeep _ rfl rfl hstatus.symm
  · simp only [hstatus, ne_eq, not_false_eq_true, if_true, true_or, List.append_nil]
    exact h

theorem Sealed.recv {l : Life σ} (h : Sealed l) (size : Option Int) (data : Nat)
    (hpoll : l.Connected → l.dim.pollFd = l.dim.fd) :
    Sealed (l.call W fuel (.recv size data)).2 := by
  rcases hpolled : W.poll l.dim.kse.world l.dim.pollFd with ⟨result, pollin, world⟩
  rcases hread : ksetlsTlsRead W.toWorld fuel data size l.dim.pollFd { l.dim.kse with world } with
    ⟨code, size', kse⟩
  simp only [Life.call_eq, DimCall.run, DimCall.events, Dim.recv, Dim.recvEvents, hpolled, hread]
  by_cases hstatus : l.dim.connectionStatus = .connected
  · have hidle : ∀ dim : Dim σ, dim.fd = l.dim.fd →
        dim.kse.pendingRegion = l.dim.kse.pendingRegion → Sealed ⟨dim, l.log⟩ :=
      fun dim hfd hregion => h.same hfd hregion fun _ => hstatus
    by_cases hready : result > 0 ∧ l.dim.onWrite = false
    · cases hpollin : pollin.val with
      | true =>
        have hchannel := h.channel hstatus
        have hfd := hpoll hstatus
        have hisolated : Isolated l.log (({ l.dim.kse with world } : Kse σ).event .tlsRead
            l.dim.pollFd (code, kse)) := by
          rw [hfd]
          exact ⟨fun hpending => hchannel.setOn hpending, hchannel.last⟩
        have htaken : ChannelOn (l.log ++ [({ l.dim.kse with world } : Kse σ).event .tlsRead
            l.dim.pollFd (code, kse)]) l.dim.fd kse.pendingRegion := by
          rw [hfd]
          exact hchannel.take (Or.inr rfl) code
        simp only [hstatus, hready, ne_eq, not_true_eq_false, and_self, or_self,
          Bool.true_eq_false, if_false, if_true]
        cases code with
        | none => exact ⟨h.isolated.snoc hisolated, fun _ => htaken⟩
        | some code => exact ⟨h.isolated.snoc hisolated, fun _ => htaken⟩
      | false =>
        simp only [hstatus, hready, ne_eq, not_true_eq_false, and_self, or_true, if_true,
          if_false, Bool.false_eq_true, List.append_nil]
        exact hidle _ rfl rfl
    · simp only [hstatus, hready, ne_eq, not_true_eq_false, not_false_eq_true, true_or, or_true,
        if_true, if_false, List.append_nil]
      exact hidle _ rfl rfl
  · simp only [hstatus, ne_eq, not_false_eq_true, if_true, true_or, List.append_nil]
    exact h

theorem Sealed.close {l : Life σ} (h : Sealed l) : Sealed (l.call W fuel .close).2 := by
  simp only [Life.call_eq, DimCall.run, DimCall.events, Dim.close, Dim.closeEvents]
  rw [List.append_cons]
  have hclosed : Admitted Isolated (l.log ++ [.close l.dim.fd]) := h.isolated.snoc trivial
  exact .of_disconnected (hclosed.snoc trivial) (by simp [Life.Connected, Dim.tlsClose])

/-- Every call that the programs make keeps input on its connection. -/
theorem Sealed.call {l : Life σ} (h : Sealed l) {c : DimCall} (hc : Aligned c l) :
    Sealed (l.call W fuel c).2 := by
  cases c with
  | accept => exact h.accept
  | connect => exact h.connect (hc.2 rfl)
  | send size data => exact h.send size data
  | recv size data => exact h.recv size data (hc.1 size data rfl)
  | tlsCloseNotify =>
    have hregion := ksetlsTlsCloseNotify_region W.toWorld fuel l.dim.fd l.dim.kse
    exact h.keep (by decide) (by decide) l.dim.fd hregion rfl rfl id
  | tlsClose =>
    have hregion := ksetlsClose_region W.toWorld fuel l.dim.fd l.dim.kse
    exact h.keep (by decide) (by decide) l.dim.fd hregion rfl rfl id
  | close => exact h.close
  | initPoll =>
    simp only [Life.call_eq, DimCall.run, DimCall.events, List.append_nil]
    exact h.same rfl rfl id

/-! ### The programs -/

theorem Sealed.setKse {l : Life σ} (h : Sealed l) {kse : Kse σ}
    (hregion : SameRegion l.dim.kse kse) : Sealed (l.setKse kse) := by
  have hkept : kse.pendingRegion = l.dim.kse.pendingRegion := by
    rw [Kse.pendingRegion, Kse.pendingRegion, hregion.gusTxRxDataOffset, hregion.gusTxRxDataLength]
  exact h.same rfl hkept id

theorem Sealed.returns {l l' : Life σ} (h : Sealed l) {c : DimCall} (hc : Aligned c l)
    {result : Int} (hreturns : l.returns W fuel c = some (result, l')) : Sealed l' := by
  have hcall : Sealed (l.call W fuel c).2 := h.call hc
  rwa [Life.call_of_returns hreturns] at hcall

/-- The poll set is on `_fd`, too. -/
structure Polled (l : Life σ) : Prop extends Sealed l where
  pollFd : l.dim.pollFd = l.dim.fd

variable (W fuel) in
theorem inSession_pollFd {c : DimCall} {l : Life σ} (h : InSession c l)
    (hpoll : l.dim.pollFd = l.dim.fd) :
    (c.run W.toHost fuel l.dim).2.pollFd = (c.run W.toHost fuel l.dim).2.fd := by
  rcases h with ⟨size, data, rfl⟩ | ⟨size, data, rfl⟩ | rfl | rfl
  · simp only [DimCall.run, Dim.send]
    repeat' split
    all_goals exact hpoll
  · simp only [DimCall.run, Dim.recv]
    repeat' split
    all_goals exact hpoll
  · exact hpoll
  · rfl

theorem Polled.inSession {l l' : Life σ} (h : Polled l) (hrun : LifeRun W fuel InSession l l') :
    Polled l' := by
  apply hrun.keeps Polled _ _ h
  · intro c l₁ l₂ result hc hreturns h₁
    refine ⟨h₁.toSealed.returns ⟨?_, ?_⟩ hreturns, ?_⟩
    · intro _ _ _ _
      exact h₁.pollFd
    · rintro rfl
      simp [InSession] at hc
    · have hpollFd := inSession_pollFd W fuel hc h₁.pollFd
      rwa [(Life.returns_eq_some.mp hreturns).1] at hpollFd
  · intro l₁ kse hregion h₁
    exact ⟨h₁.toSealed.setKse hregion, h₁.pollFd⟩

/-- Other threads do not read, so the poll set does not matter to them. -/
theorem Sealed.writes {l l' : Life σ} (h : Sealed l) (hrun : LifeRun W fuel Writes l l') :
    Sealed l' := by
  apply hrun.keeps Sealed _ _ h
  · intro c l₁ l₂ result hc hreturns h₁
    obtain ⟨-, size, data, rfl⟩ := hc
    exact h₁.returns ⟨by simp, by simp⟩ hreturns
  · intro l₁ kse hregion h₁
    exact h₁.setKse hregion

theorem Sealed.initPoll {l : Life σ} (h : Sealed l) : Polled (l.initPoll W fuel) :=
  ⟨h.returns ⟨by simp, by simp⟩ (Life.initPoll_returns l), rfl⟩

theorem Polled.store {l : Life σ} (h : Polled l) (off : Nat) (bytes : List UInt8) :
    Polled (l.store off bytes) :=
  ⟨h.toSealed.setKse ⟨rfl, rfl⟩, h.pollFd⟩

/-- A constructor leaves an isolated log. -/
theorem construct_sealed (kind : Life.Kind) (o : PowerOnOutputs) (handshakeType : UInt8)
    (pollFd : Int) (kse : Kse σ) :
    Sealed ((Life.start handshakeType pollFd kse).construct W fuel kind o).2 := by
  have rule : Life.ConstructRule W fuel (fun l => Sealed l ∧ ¬l.Connected) Sealed := by
    refine ⟨?_, ?_, ?_, ?_⟩
    · rintro l dim hfd hstatus ⟨hsealed, hdisconnected⟩
      have hdisconnected' : ¬(⟨dim, l.log⟩ : Life σ).Connected := by
        rw [Life.Connected, hstatus]
        exact hdisconnected
      exact ⟨.of_disconnected hsealed.isolated hdisconnected', hdisconnected'⟩
    · rintro l ⟨hsealed, hdisconnected⟩
      exact hsealed.connect hdisconnected
    · intro l hsealed
      exact hsealed.close
    · rintro l ⟨hsealed, -⟩
      exact hsealed
  have hstart : ¬(Life.start handshakeType pollFd kse).Connected := by
    simp [Life.start, Life.Connected]
  exact Life.construct_keeps rule kind o
    ⟨.of_disconnected .nil hstart, hstart⟩

/-- What holds between the steps of a server: in a session the poll set is on `_fd`. -/
structure Server.Sealed {M : Mavlink} (s : Server M σ) : Prop where
  life : MavlinkDim.Sealed s.life
  polled : s.gcsReadPc = .read → s.life.dim.pollFd = s.life.dim.fd

theorem server_sealed {M : Mavlink} {L : ServerLocals} (step : ServerStep M) (s s' : Server M σ)
    (h : step.run W fuel L s = some s') (hs : s.Sealed) : s'.Sealed := by
  by_cases hother : step ≠ .gcsRead
  · obtain ⟨hrun, hpc⟩ := ServerStep.other_run h hother
    refine ⟨hs.life.writes hrun, ?_⟩
    intro hread
    have hpolled : Polled s.life := ⟨hs.life, hs.polled (hpc ▸ hread)⟩
    exact (hpolled.inSession (hrun.mono fun _ _ => Writes.inSession)).pollFd
  · rw [not_not] at hother
    subst hother
    cases hpc : s.gcsReadPc with
    | accept =>
      obtain ⟨result, life, haccept, hcase⟩ := Server.gcsRead_accept_cases hpc h
      have hlife : MavlinkDim.Sealed life := hs.life.returns ⟨by simp, by simp⟩ haccept
      rcases hcase with ⟨-, hpc', heq⟩ | ⟨-, -, off, bytes, heq⟩
      · refine ⟨heq ▸ hlife, ?_⟩
        intro hread
        rw [hpc'] at hread
        cases hread
      · have hpolled : Polled s'.life := by
          rw [heq]
          exact hlife.initPoll.store off bytes
        exact ⟨hpolled.toSealed, fun _ => hpolled.pollFd⟩
    | read =>
      obtain ⟨life, hread, hcase⟩ := Server.gcsRead_read_cases hpc h
      have hpolled : Polled s.life := ⟨hs.life, hs.polled hpc⟩
      have hlife := hpolled.inSession (hread.mono fun _ _ => Reads.inSession)
      rcases hcase with ⟨-, -, hrun⟩ | ⟨-, hpc', heq⟩ |
        ⟨-, hpc', result, result', life', hnotify, hclose⟩
      · have hpolled' := hlife.inSession (hrun.mono fun _ _ => Reads.inSession)
        exact ⟨hpolled'.toSealed, fun _ => hpolled'.pollFd⟩
      · refine ⟨heq ▸ hlife.toSealed, ?_⟩
        intro hread
        rw [hpc'] at hread
        cases hread
      · have hnotified := hlife.toSealed.returns ⟨by simp, by simp⟩ hnotify
        refine ⟨hnotified.returns ⟨by simp, by simp⟩ hclose, ?_⟩
        intro hread
        rw [hpc'] at hread
        cases hread

namespace Client

variable {M : Mavlink} {C : ClientHost σ} {L : ClientLocals} {s s' : Client M σ}

theorem reconnect_polled (hs : Sealed s.life) (h : s.reconnect C fuel = some s') :
    Polled s'.life := by
  obtain ⟨result, result', life, stop, hclose, hconnect, rfl⟩ := reconnect_cases h
  have hclosed : Sealed life := hs.returns ⟨by simp, by simp⟩ hclose
  have hdisconnected : ¬life.Connected := by
    have hrun := (Life.returns_eq_some.mp hclose).1
    simp only [DimCall.run, Dim.close, Dim.tlsClose, Prod.mk.injEq] at hrun
    rw [Life.Connected, ← hrun.2]
    simp
  have hconnected : Sealed stop := hclosed.returns ⟨by simp, fun _ => hdisconnected⟩ hconnect
  exact hconnected.initPoll

theorem poll_polled (hs : Polled s.life) (h : s.poll C fuel L = some s') : Polled s'.life := by
  have hpolled : Polled (polled C s.life) := ⟨hs.toSealed.setKse ⟨rfl, rfl⟩, hs.pollFd⟩
  rcases poll_cases h with ⟨-, hreconnect⟩ | ⟨-, rfl⟩ | ⟨-, _, -, _, _, rfl⟩
  · exact reconnect_polled hpolled.toSealed hreconnect
  · exact hpolled
  · exact hpolled

theorem read_polled (hs : Polled s.life) (hpc : s.readWritePc = .read)
    (h : s.readWrite C fuel L = some s') : Polled s'.life := by
  obtain ⟨result, s₁, hread, hcase⟩ := readWrite_read hpc h
  obtain ⟨life, channel, recvSize, messages, hreceive, rfl⟩ := autopilotReadMessage_cases hread
  have hpolled : Polled life :=
    hs.inSession ((receive_run hreceive).mono fun _ _ => Reads.inSession)
  rcases hcase with rfl | ⟨code, -, -, hreconnect⟩ | rfl
  · exact hpolled
  · exact reconnect_polled hpolled.toSealed hreconnect
  · exact hpolled

theorem write_polled (hs : Polled s.life) (hpc : s.readWritePc = .write)
    (h : s.readWrite C fuel L = some s') : Polled s'.life := by
  obtain ⟨result, s₁, hwrite, hcase⟩ := readWrite_write hpc h
  have hpolled : Polled s₁.life := by
    rcases autopilotWriteMessage_cases hwrite with
      ⟨rfl, -⟩ | ⟨message, qToAutopilot, life, -, rfl, hrun, -⟩
    · exact hs
    · exact hs.inSession (hrun.mono fun _ _ => Writes.inSession)
  rcases hcase with ⟨-, hreconnect⟩ | ⟨-, rfl⟩
  · exact reconnect_polled hpolled.toSealed hreconnect
  · exact hpolled

theorem step_polled (step : ClientStep) (s s' : Client M σ) (h : step.run C fuel L s = some s')
    (hs : Polled s.life) : Polled s'.life := by
  cases step with
  | readWrite =>
    cases hpc : s.readWritePc with
    | poll => exact poll_polled hs (readWrite_poll hpc h)
    | read => exact read_polled hs hpc h
    | write => exact write_polled hs hpc h
  | gcsRead bytes =>
    obtain rfl := Option.some.inj h
    exact hs
  | gcsWrite =>
    obtain rfl := Option.some.inj h
    rw [gcsWrite]
    split <;> exact hs

end Client

/-- **No input crosses connections.**  In every run of a server and of a client, from the
    constructor on, a handshake or a read that finds pending input finds what a handshake or a
    read of the same connection left behind its `_ksetlsOpen`, and every read is on the
    descriptor of the last `accept` or `connect`. -/
theorem pending_input_isolated (M : Mavlink) (C : ClientHost σ) (o : PowerOnOutputs)
    (handshakeType : UInt8) (pollFd : Int) (kse : Kse σ) :
    (∀ (L : ServerLocals) (steps : List (ServerStep M)),
      ∀ s ∈ Runs.states (ServerStep.run C.toDimHost fuel L)
          (Server.start L ((Life.start handshakeType pollFd kse).construct C.toDimHost fuel .server
            o).2) steps,
        Admitted Isolated s.life.log) ∧
      ∀ (L : ClientLocals) (steps : List ClientStep),
        ∀ s ∈ Runs.states (ClientStep.run C fuel L)
            (Client.start (M := M) C fuel ((Life.start handshakeType pollFd kse).construct
              C.toDimHost fuel .client o).2) steps,
          Admitted Isolated s.life.log := by
  constructor
  · intro L steps s hs
    have hstart : (Server.start (M := M) L ((Life.start handshakeType pollFd kse).construct
        C.toDimHost fuel .server o).2).Sealed :=
      ⟨construct_sealed .server o handshakeType pollFd kse, fun hread => by cases hread⟩
    exact (Runs.states_induction server_sealed hstart steps s hs).life.isolated
  · intro L steps s hs
    have hstart : Polled (Client.start (M := M) C fuel ((Life.start handshakeType pollFd
        kse).construct C.toDimHost fuel .client o).2).life :=
      (construct_sealed .client o handshakeType pollFd kse).initPoll
    exact (Runs.states_induction (P := fun s => Polled s.life) Client.step_polled hstart steps s
      hs).isolated

end MavlinkDim
