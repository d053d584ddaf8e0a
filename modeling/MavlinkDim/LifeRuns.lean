import MavlinkDim.CommandFrame
import MavlinkDim.DimLife
import MavlinkDim.Mavlink

/-!
# A socket object inside a program

What the threads of the two programs do with the object they share: calls that
return, writes to arrays of the program, and commands of the KSE that are not
kseTLS.  A step of a thread is a run of these.  The loop that reads messages from
the socket is the same in both.
-/

namespace MavlinkDim

open ByteMemory

variable {σ : Type} (W : DimHost σ) (fuel : Nat)

namespace Life

/-- A call that returns. -/
def returns (c : DimCall) (l : Life σ) : Option (Int × Life σ) :=
  match l.call W fuel c with
  | (.returned result, l) => some (result, l)
  | _ => none

/-- A `dim->recv` that returns, with `*size` after it. -/
def recv (size : Int) (data : Nat) (l : Life σ) : Option (Int × Int × Life σ) :=
  match l.dim.recv W.toHost fuel (some size) data with
  | (.returned result, size', dim) =>
    some (result, size'.getD size,
      ⟨dim, l.log ++ l.dim.recvEvents W.toHost fuel (some size) data⟩)
  | _ => none

/-- The object after a call that cannot fail. -/
def initPoll (l : Life σ) : Life σ := (l.call W fuel .initPoll).2

/-- Bytes written to an array of the program. -/
def store (off : Nat) (bytes : List UInt8) (l : Life σ) : Life σ :=
  l.setKse { l.dim.kse with app := put l.dim.kse.app off bytes }

/-- `is_connected()` -/
def Connected (l : Life σ) : Prop := l.dim.connectionStatus = .connected

instance (l : Life σ) : Decidable l.Connected := by unfold Connected; infer_instance

@[simp] theorem setKse_setKse (l : Life σ) (kse kse' : Kse σ) :
    (l.setKse kse).setKse kse' = l.setKse kse' := rfl

variable {W fuel}

theorem call_eq (c : DimCall) (l : Life σ) :
    l.call W fuel c = ((c.run W.toHost fuel l.dim).1,
      ⟨(c.run W.toHost fuel l.dim).2, l.log ++ c.events W.toHost fuel l.dim⟩) := rfl

theorem returns_eq_some {c : DimCall} {l l' : Life σ} {result : Int} :
    l.returns W fuel c = some (result, l') ↔
      c.run W.toHost fuel l.dim = (.returned result, l'.dim) ∧
        l'.log = l.log ++ c.events W.toHost fuel l.dim := by
  obtain ⟨dim', log'⟩ := l'
  rw [returns, call_eq]
  rcases hrun : c.run W.toHost fuel l.dim with ⟨outcome, dim⟩
  cases outcome <;> simp [eq_comm, and_assoc]

theorem call_of_returns {c : DimCall} {l l' : Life σ} {result : Int}
    (h : l.returns W fuel c = some (result, l')) : (l.call W fuel c).2 = l' := by
  obtain ⟨hrun, hlog⟩ := returns_eq_some.mp h
  rw [call_eq, hrun, ← hlog]

theorem recv_returns {size size' : Int} {data : Nat} {l l' : Life σ} {result : Int}
    (h : l.recv W fuel size data = some (result, size', l')) :
    l.returns W fuel (.recv (some size) data) = some (result, l') := by
  rw [recv] at h
  rcases hrecv : l.dim.recv W.toHost fuel (some size) data with ⟨outcome, size'', dim⟩
  rw [hrecv] at h
  cases outcome with
  | returned result' =>
    simp only [Option.some.injEq, Prod.mk.injEq] at h
    obtain ⟨rfl, -, rfl⟩ := h
    rw [returns_eq_some]
    exact ⟨by simp only [DimCall.run, hrecv], rfl⟩
  | threw => simp at h
  | running => simp at h

theorem initPoll_returns (l : Life σ) :
    l.returns W fuel .initPoll = some (0, l.initPoll W fuel) := rfl

end Life

/-! ### Runs -/

/-- One thing that a program does with the object.  `allowed` are the calls it makes. -/
inductive LifeStep (allowed : DimCall → Life σ → Prop) : Life σ → Life σ → Prop where
  | call {c : DimCall} {l l' : Life σ} {result : Int} :
      allowed c l → l.returns W fuel c = some (result, l') → LifeStep allowed l l'
  | setKse (l : Life σ) {kse : Kse σ} :
      SameRegion l.dim.kse kse → LifeStep allowed l (l.setKse kse)

abbrev LifeRun (allowed : DimCall → Life σ → Prop) : Life σ → Life σ → Prop :=
  Relation.ReflTransGen (LifeStep W fuel allowed)

variable {W fuel} {allowed : DimCall → Life σ → Prop}

/-- What the calls and the writes keep, a run keeps. -/
theorem LifeRun.keeps (P : Life σ → Prop)
    (hcall : ∀ c l l' result, allowed c l → l.returns W fuel c = some (result, l') → P l → P l')
    (hset : ∀ (l : Life σ) kse, SameRegion l.dim.kse kse → P l → P (l.setKse kse))
    {l l' : Life σ} (hrun : LifeRun W fuel allowed l l') (h : P l) : P l' := by
  induction hrun with
  | refl => exact h
  | tail _ hstep ih =>
    cases hstep with
    | call hallowed hreturns => exact hcall _ _ _ _ hallowed hreturns ih
    | setKse _ hregion => exact hset _ _ hregion ih

theorem LifeRun.mono {allowed' : DimCall → Life σ → Prop}
    (hallowed : ∀ c l, allowed c l → allowed' c l) {l l' : Life σ}
    (hrun : LifeRun W fuel allowed l l') : LifeRun W fuel allowed' l l' := by
  refine Relation.ReflTransGen.mono ?_ _ _ hrun
  intro l l' hstep
  cases hstep with
  | call hc hreturns => exact .call (hallowed _ _ hc) hreturns
  | setKse _ hregion => exact .setKse _ hregion

theorem LifeRun.call {c : DimCall} {l l' : Life σ} {result : Int} (hallowed : allowed c l)
    (h : l.returns W fuel c = some (result, l')) : LifeRun W fuel allowed l l' :=
  .single (.call hallowed h)

theorem LifeRun.store {l l' : Life σ} (hrun : LifeRun W fuel allowed l l') (off : Nat)
    (bytes : List UInt8) : LifeRun W fuel allowed l (l'.store off bytes) :=
  .tail hrun (.setKse _ ⟨rfl, rfl⟩)

/-- A command leaves the region alone. -/
theorem LifeRun.command {l l' : Life σ} (hrun : LifeRun W fuel allowed l l') (c : Command)
    {code : Option Int} {kse : Kse σ} (h : c.run W.toWorld fuel l'.dim.kse = (code, kse)) :
    LifeRun W fuel allowed l (l'.setKse kse) := by
  have hcommanded := (c.run_run W.toWorld fuel l'.dim.kse).commanded
  rw [h] at hcommanded
  exact .tail hrun (.setKse _
    ⟨hcommanded.gusTxRxDataOffset, hcommanded.gusTxRxDataLength⟩)

/-! ### Messages from the socket -/

/-- What a turn of the loop of `gcs_read_message` of the server, or of `autopilot_read_message`
    of the client, leaves.  It has a `result` if the function returns. -/
structure ReceiveTurn (M : Mavlink) (σ : Type) where
  result : Option Int
  life : Life σ
  channel : M.Status
  recvSize : Int
  messages : List M.Message

/-- One turn of that loop: `while (!received && dim->is_connected())`. -/
def Life.receive (M : Mavlink) (W : DimHost σ) (fuel recvBuffer : Nat) (channel : M.Status)
    (recvSize : Int) (l : Life σ) : Option (ReceiveTurn M σ) :=
  if l.Connected then
    match l.recv W fuel recvSize recvBuffer with
    | none => none
    | some (result, recvSize, life) =>
      if result > 0 then
        let (channel, messages) :=
          M.parse channel (slice life.dim.kse.app recvBuffer recvSize.toNat)
        some ⟨if messages = [] then none else some 1, life, channel, recvSize, messages⟩
      else some ⟨some result, life, channel, recvSize, []⟩
  else some ⟨some 1, l, channel, recvSize, []⟩

/-- The calls of such a loop. -/
def Reads (c : DimCall) (l : Life σ) : Prop := l.Connected ∧ ∃ size data, c = .recv size data

/-- The calls of `gcs_write_message` of the server and `autopilot_write_message` of the
    client. -/
def Writes (c : DimCall) (l : Life σ) : Prop := l.Connected ∧ ∃ size data, c = .send size data

variable {M : Mavlink} {recvBuffer : Nat} {channel : M.Status} {recvSize : Int} {l : Life σ}
  {r : ReceiveTurn M σ}

theorem receive_disconnected (h : l.receive M W fuel recvBuffer channel recvSize = some r)
    (hdisconnected : ¬l.Connected) : r = ⟨some 1, l, channel, recvSize, []⟩ := by
  rw [Life.receive, if_neg hdisconnected] at h
  exact (Option.some.inj h).symm

/-- A turn is at most one `recv`. -/
theorem receive_run (h : l.receive M W fuel recvBuffer channel recvSize = some r) :
    LifeRun W fuel Reads l r.life := by
  by_cases hconnected : l.Connected
  · rw [Life.receive, if_pos hconnected] at h
    split at h
    · cases h
    · rename_i result recvSize' life hrecv
      have hrun : LifeRun W fuel Reads l life :=
        .call ⟨hconnected, _, _, rfl⟩ (Life.recv_returns hrecv)
      split at h
      · obtain rfl := Option.some.inj h
        exact hrun
      · obtain rfl := Option.some.inj h
        exact hrun
  · rw [receive_disconnected h hconnected]

/-- It parses some bytes. -/
theorem receive_parses (h : l.receive M W fuel recvBuffer channel recvSize = some r) :
    ∃ bytes, r.channel = (M.parse channel bytes).1 ∧ r.messages = (M.parse channel bytes).2 := by
  by_cases hconnected : l.Connected
  · rw [Life.receive, if_pos hconnected] at h
    split at h
    · cases h
    · rename_i result recvSize' life hrecv
      split at h
      · obtain rfl := Option.some.inj h
        exact ⟨slice life.dim.kse.app recvBuffer recvSize'.toNat, rfl, rfl⟩
      · obtain rfl := Option.some.inj h
        exact ⟨[], rfl, rfl⟩
  · rw [receive_disconnected h hconnected]
    exact ⟨[], rfl, rfl⟩

/-- The negative results are those of `recv`. -/
theorem receive_negative_iff (h : l.receive M W fuel recvBuffer channel recvSize = some r)
    {code : Int} (hneg : code < 0) :
    r.result = some code ↔ l.Connected ∧ ∃ recvSize' life,
      l.recv W fuel recvSize recvBuffer = some (code, recvSize', life) := by
  by_cases hconnected : l.Connected
  · rw [Life.receive, if_pos hconnected] at h
    split at h
    · cases h
    · rename_i result recvSize' life hrecv
      rw [hrecv]
      split at h
      · rename_i hpos
        obtain rfl := Option.some.inj h
        apply iff_of_false
        · dsimp only
          split
          · simp
          · intro hcode
            obtain rfl := Option.some.inj hcode
            omega
        · rintro ⟨-, _, _, hcode⟩
          simp only [Option.some.injEq, Prod.mk.injEq] at hcode
          omega
      · obtain rfl := Option.some.inj h
        simp [hconnected]
  · rw [receive_disconnected h hconnected]
    apply iff_of_false
    · intro hcode
      obtain rfl := Option.some.inj hcode
      omega
    · rintro ⟨hconnected', -⟩
      exact hconnected hconnected'

end MavlinkDim
