import MavlinkDim.DimEvents
import MavlinkDim.PowerRuns

/-!
# The life of a socket object

A `DimServer` or `DimClient` from its constructor on.  `DimSocket::close` closes
whatever `_fd` holds: the 0 it starts with, a descriptor that is closed already,
or the result of a call that failed.  `closes_held_iff` says in which lives it
closes only what the object got and has not closed.
-/

namespace MavlinkDim

/-- The system calls of `DimServer::bind_` and `DimServer::listen`. -/
structure DimHost (σ : Type) extends Host σ, UsbHost σ where
  bind : σ → (fd : Int) → Int × σ
  listen : σ → (fd : Int) → Int × σ

/-- An object, and the events of its life so far. -/
structure Life (σ : Type) where
  dim : Dim σ
  log : List DimEvent

variable {σ : Type} (W : DimHost σ) (fuel : Nat)

namespace Life

def call (c : DimCall) (l : Life σ) : Outcome × Life σ :=
  let (outcome, dim) := c.run W.toHost fuel l.dim
  (outcome, ⟨dim, l.log ++ c.events W.toHost fuel l.dim⟩)

def setKse (l : Life σ) (kse : Kse σ) : Life σ := { l with dim := { l.dim with kse } }

/-- `close()`, and then `outcome`. -/
def closeThen (outcome : Outcome) (l : Life σ) : Outcome × Life σ :=
  let (closed, l) := l.call W fuel .close
  if closed = .running then (.running, l) else (outcome, l)

/-- `KSE POWER ON` of both `open`s: any failure powers off and throws.  `o` are the addresses
    in `kse_power`. -/
def powerOn (o : PowerOnOutputs) (l : Life σ) : Outcome × Life σ :=
  let (result, x) := ksePowerOn W.toUsbHost fuel o ⟨l.dim.kse, []⟩
  let l := l.setKse x.kse
  if result = none then (.running, l)
  else if result = some KSE_SUCCESS then
    (.returned 0, { l with dim := { l.dim with handshakeType := KSETLS_FULL_HANDSHAKE } })
  else
    let (result, x) := ksePowerOff W.toUsbHost fuel ⟨l.dim.kse, []⟩
    (if result = none then .running else .threw, l.setKse x.kse)

/-- `DimServer::bind_` -/
def bind_ (l : Life σ) : Outcome × Life σ :=
  let (serverFd, world) := W.socket l.dim.kse.world
  let l := { l with dim := { l.dim with serverFd, kse := { l.dim.kse with world } } }
  if serverFd = -1 then (.threw, l)
  else
    let (result, world) := W.bind l.dim.kse.world serverFd
    let l := l.setKse { l.dim.kse with world }
    if result = 0 then (.returned result, l) else l.closeThen W fuel .threw

/-- `DimServer::open` -/
def openServer (o : PowerOnOutputs) (l : Life σ) : Outcome × Life σ :=
  match l.powerOn W fuel o with
  | (.returned _, l) =>
    match l.bind_ W fuel with
    | (.returned result, l) =>
      if result = -1 then l.closeThen W fuel .threw
      else
        let (result, world) := W.listen l.dim.kse.world l.dim.serverFd
        let l := l.setKse { l.dim.kse with world }
        if result = -1 then l.closeThen W fuel .threw else (.returned 0, l)
    | r => r
  | r => r

/-- `DimClient::open` -/
def openClient (o : PowerOnOutputs) (l : Life σ) : Outcome × Life σ :=
  match l.powerOn W fuel o with
  | (.returned _, l) =>
    match l.call W fuel .connect with
    | (.returned result, l) =>
      if result = -1 then l.closeThen W fuel (.returned 0) else (.returned 0, l)
    | r => r
  | r => r

/-- The two classes. -/
inductive Kind where
  | server
  | client
deriving DecidableEq, Repr

/-- The constructor: `open`, and `close()` if it throws. -/
def construct (kind : Kind) (o : PowerOnOutputs) (l : Life σ) : Outcome × Life σ :=
  let opened := match kind with
    | .server => l.openServer W fuel o
    | .client => l.openClient W fuel o
  match opened with
  | (.threw, l) => l.call W fuel .close
  | r => r

/-- An object whose constructor starts: the members with an initializer, and what the others
    hold. -/
def start (handshakeType : UInt8) (pollFd : Int) (kse : Kse σ) : Life σ :=
  ⟨⟨0, 0, handshakeType, .disconnected, false, false, 0, 0, pollFd, none, kse⟩, []⟩

/-- The calls on an object, each with the driver as it is when the call is made.  The destructor
    is a `close`. -/
def run : List (Kse σ × DimCall) → Life σ → Life σ
  | [], l => l
  | (kse, c) :: calls, l =>
    let (outcome, l) := (l.setKse kse).call W fuel c
    if outcome = .running then l else run calls l

/-- The constructor and the calls after it. -/
def live (kind : Kind) (o : PowerOnOutputs) (l : Life σ) (calls : List (Kse σ × DimCall)) :
    Life σ :=
  let (outcome, l) := l.construct W fuel kind o
  if outcome = .running then l else run W fuel calls l

end Life

/-! ### Descriptors -/

/-- Every descriptor that is closed is held: it came from `accept` or `socket` and was not
    closed since.  The listening socket of a server is not among them; no `close` is for it. -/
def ClosesHeld : List Int → List DimEvent → Prop
  | _, [] => True
  | held, .accept fd :: es => ClosesHeld (if 0 ≤ fd then fd :: held else held) es
  | held, .socket fd :: es => ClosesHeld (if 0 ≤ fd then fd :: held else held) es
  | held, .close fd :: es => fd ∈ held ∧ ClosesHeld (held.filter (· ≠ fd)) es
  | held, .kse .. :: es => ClosesHeld held es

instance decidableClosesHeld : (held : List Int) → (es : List DimEvent) →
    Decidable (ClosesHeld held es)
  | _, [] => .isTrue trivial
  | _, .accept _ :: es => decidableClosesHeld _ es
  | _, .socket _ :: es => decidableClosesHeld _ es
  | _, .close _ :: es => @instDecidableAnd _ _ _ (decidableClosesHeld _ es)
  | _, .kse .. :: es => decidableClosesHeld _ es

/-- Every `close` has an `accept` or a `socket` before it that gave a descriptor, with no other
    `accept`, `socket` or `close` in between.  `fresh` says so of the events before. -/
def ClosesFollow : Bool → List DimEvent → Prop
  | _, [] => True
  | _, .accept fd :: es => ClosesFollow (decide (0 ≤ fd)) es
  | _, .socket fd :: es => ClosesFollow (decide (0 ≤ fd)) es
  | fresh, .close _ :: es => fresh = true ∧ ClosesFollow false es
  | fresh, .kse .. :: es => ClosesFollow fresh es

/-- `_fd` is held exactly while it is fresh. -/
theorem closesHeld_iff {fd fd' : Int} {held : List Int} {fresh : Bool} {es : List DimEvent}
    (hchain : FdChain fd es fd') (hfresh : fresh = true ↔ fd ∈ held)
    (hheld : ∀ fd ∈ held, 0 ≤ fd) : ClosesHeld held es ↔ ClosesFollow fresh es := by
  have hgot : ∀ (fd : Int) (held : List Int), (∀ fd ∈ held, 0 ≤ fd) →
      (decide (0 ≤ fd) = true ↔ fd ∈ if 0 ≤ fd then fd :: held else held) ∧
      ∀ fd' ∈ (if 0 ≤ fd then fd :: held else held), 0 ≤ fd' := by
    intro fd held hheld
    by_cases hnonneg : 0 ≤ fd
    · simpa [hnonneg] using hheld
    · have hnot : fd ∉ held := by
        intro hmem
        exact hnonneg (hheld fd hmem)
      simpa [hnonneg, hnot] using hheld
  induction es generalizing fd held fresh with
  | nil => exact iff_of_true trivial trivial
  | cons e es ih =>
    cases e with
    | accept fd₀ => exact ih hchain (hgot fd₀ held hheld).1 (hgot fd₀ held hheld).2
    | socket fd₀ => exact ih hchain (hgot fd₀ held hheld).1 (hgot fd₀ held hheld).2
    | close fd₀ =>
      obtain ⟨rfl, hchain⟩ := hchain
      apply and_congr hfresh.symm
      apply ih hchain
      · simp
      · intro fd hmem
        exact hheld fd (List.mem_of_mem_filter hmem)
    | kse f fd₀ code before after => exact ih hchain hfresh hheld

/-! ### What a constructor keeps -/

namespace Life

/-- `Q` holds until the constructor connects or closes, `P` from then on. -/
structure ConstructRule (Q P : Life σ → Prop) : Prop where
  dim : ∀ (l : Life σ) (dim : Dim σ), dim.fd = l.dim.fd →
    dim.connectionStatus = l.dim.connectionStatus → Q l → Q { l with dim }
  connect : ∀ l, Q l → P (l.call W fuel .connect).2
  close : ∀ l, P l → P (l.call W fuel .close).2
  started : ∀ l, Q l → P l

variable {W fuel} {Q P : Life σ → Prop} {l : Life σ}

theorem closeThen_keeps (rule : ConstructRule W fuel Q P) (outcome : Outcome) (h : P l) :
    P (l.closeThen W fuel outcome).2 := by
  have hclosed := rule.close l h
  simp only [closeThen]
  split <;> exact hclosed

theorem powerOn_keeps (rule : ConstructRule W fuel Q P) (o : PowerOnOutputs) (h : Q l) :
    Q (l.powerOn W fuel o).2 := by
  simp only [powerOn]
  repeat' split
  all_goals exact rule.dim l _ rfl rfl h

theorem bind_keeps (rule : ConstructRule W fuel Q P) (h : Q l) :
    P (l.bind_ W fuel).2 ∧ ∀ result, (l.bind_ W fuel).1 = .returned result →
      Q (l.bind_ W fuel).2 := by
  simp only [bind_]
  split
  · exact ⟨rule.started _ (rule.dim l _ rfl rfl h), fun _ hthrew => absurd hthrew (by simp)⟩
  · split
    · exact ⟨rule.started _ (rule.dim l _ rfl rfl h), fun _ _ => rule.dim l _ rfl rfl h⟩
    · refine ⟨closeThen_keeps rule .threw (rule.started _ (rule.dim l _ rfl rfl h)), ?_⟩
      intro result hthrew
      simp only [closeThen] at hthrew
      split at hthrew <;> simp at hthrew

theorem openServer_keeps (rule : ConstructRule W fuel Q P) (o : PowerOnOutputs) (h : Q l) :
    P (l.openServer W fuel o).2 := by
  have hpower := powerOn_keeps rule o h
  unfold openServer
  split
  · rename_i l' hcall
    rw [hcall] at hpower
    obtain ⟨hbind, hbound⟩ := bind_keeps rule hpower
    split
    · rename_i result l'' hcall'
      rw [hcall'] at hbind hbound
      split
      · exact closeThen_keeps rule .threw hbind
      · have hbound := hbound result rfl
        dsimp only
        split
        · exact closeThen_keeps rule .threw (rule.started _ (rule.dim l'' _ rfl rfl hbound))
        · exact rule.started _ (rule.dim l'' _ rfl rfl hbound)
    · exact hbind
  · exact rule.started _ hpower

theorem openClient_keeps (rule : ConstructRule W fuel Q P) (o : PowerOnOutputs) (h : Q l) :
    P (l.openClient W fuel o).2 := by
  have hpower := powerOn_keeps rule o h
  unfold openClient
  split
  · rename_i l' hcall
    rw [hcall] at hpower
    have hconnect := rule.connect _ hpower
    split
    · rename_i hcall'
      rw [hcall'] at hconnect
      split
      · exact closeThen_keeps rule _ hconnect
      · exact hconnect
    · exact hconnect
  · exact rule.started _ hpower

theorem construct_keeps (rule : ConstructRule W fuel Q P) (kind : Kind) (o : PowerOnOutputs)
    (h : Q l) : P (l.construct W fuel kind o).2 := by
  unfold construct
  cases kind with
  | server =>
    have hopen := openServer_keeps rule o h
    dsimp only
    split
    · rename_i hcall
      rw [hcall] at hopen
      exact rule.close _ hopen
    · exact hopen
  | client =>
    have hopen := openClient_keeps rule o h
    dsimp only
    split
    · rename_i hcall
      rw [hcall] at hopen
      exact rule.close _ hopen
    · exact hopen

/-! ### The log of a life -/

/-- The log accounts for `_fd`. -/
def Follows (l : Life σ) : Prop := FdChain 0 l.log l.dim.fd

variable (W fuel)

theorem call_follows (c : DimCall) {l : Life σ} (h : l.Follows) :
    (l.call W fuel c).2.Follows :=
  FdChain.append h (c.events_fdChain W.toHost fuel l.dim)

theorem follows_rule : ConstructRule W fuel Follows Follows where
  dim := by
    intro l dim hfd _ h
    have hfollows : FdChain 0 l.log dim.fd := by
      rw [hfd]
      exact h
    exact hfollows
  connect _ h := call_follows W fuel .connect h
  close _ h := call_follows W fuel .close h
  started _ h := h

theorem run_follows (calls : List (Kse σ × DimCall)) {l : Life σ} (h : l.Follows) :
    (run W fuel calls l).Follows := by
  induction calls generalizing l with
  | nil => exact h
  | cons c calls ih =>
    have hcall := call_follows W fuel c.2 (l := l.setKse c.1) h
    simp only [run]
    split
    · exact hcall
    · exact ih hcall

theorem live_follows (kind : Kind) (o : PowerOnOutputs) (calls : List (Kse σ × DimCall))
    {l : Life σ} (h : l.Follows) : (l.live W fuel kind o calls).Follows := by
  have hconstruct := construct_keeps (follows_rule W fuel) kind o h
  simp only [live]
  split
  · exact hconstruct
  · exact run_follows W fuel calls hconstruct

end Life

/-- **What `close` closes.**  In every life of an object, from a constructor that may fail at any
    point to the destructor, every descriptor closed is one that the object holds exactly when
    every `close` follows a successful `accept` or `socket`, with none of the three in between. -/
theorem closes_held_iff (kind : Life.Kind) (o : PowerOnOutputs) (handshakeType : UInt8)
    (pollFd : Int) (kse : Kse σ) (calls : List (Kse σ × DimCall)) :
    ClosesHeld [] ((Life.start handshakeType pollFd kse).live W fuel kind o calls).log ↔
      ClosesFollow false
        ((Life.start handshakeType pollFd kse).live W fuel kind o calls).log := by
  have hstart : (Life.start handshakeType pollFd kse).Follows := rfl
  exact closesHeld_iff (Life.live_follows W fuel kind o calls hstart) (by simp) (by simp)

/-- Scripted system calls, and a USB without the DIM. -/
def emptyBus : DimHost Script where
  toHost := scriptedHost
  toLibusb := { (dimOnBus 0).toLibusb with libusbGetDeviceList := fun s => (.devices 1 [], s) }
  bind s _ := (0, s)
  listen s _ := (0, s)

/-- Without the device the constructor of a client closes descriptor 0, which it never got.  A
    server that closes its connection closes it again in its destructor. -/
theorem closes_unheld :
    let kse := (UsbKse.initial (fun _ => 0) (⟨[], [], []⟩ : Script)).kse
    let client := (Life.start 0 0 kse).live emptyBus 1 .client ⟨0, 0, 0, 0, 0, 0, 0, 0, 0⟩ []
    let server := Life.run emptyBus 1 [(kse, .accept), (kse, .close), (kse, .close)]
      ⟨opened [] [], []⟩
    client.log.head? = some (.close 0) ∧ ¬ClosesHeld [] client.log ∧
      server.log.filter (fun e => e = .accept 5 ∨ e = .close 5) =
        [.accept 5, .close 5, .close 5] ∧ ¬ClosesHeld [] server.log := by
  decide +kernel

end MavlinkDim
