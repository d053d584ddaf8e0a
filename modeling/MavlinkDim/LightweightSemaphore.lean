import MavlinkDim.Runs
import Mathlib.Data.Int.Basic
import Mathlib.Tactic.TypeStar

/-!
# The semaphore of the queue

`LightweightSemaphore` counts the elements that the consumer may take.  It goes to the
semaphore of the system, `m_sema`, only when the consumer has to wait: its count is -1
then, and the next signal posts.  One thread signals and one waits.
-/

namespace Moodycamel

structure LightweightSemaphore where
  m_count : Int
  m_sema : Nat
deriving DecidableEq, Repr

/-- Where the producer is in `signal`. -/
inductive Signaler where
  | idle
  | post
  | failed
deriving DecidableEq, Repr

/-- Where the consumer is in `tryWait` or `wait`. -/
inductive Waiter where
  | idle
  | tryWait
  | wait (timeout_usecs : Int)
  | take
  | spin (timeout_usecs : Int) (spin : Nat)
  | register (timeout_usecs : Int)
  | block
  | restore
  | retry
  | tryTake
  | returned (result : Bool)
deriving DecidableEq, Repr

/-- A semaphore with its two threads.  `signals` and `grants` count the signals and the waits that
    returned true.  No thread reads these. -/
structure Sema where
  sema : LightweightSemaphore
  signaler : Signaler
  waiter : Waiter
  signals : Nat
  grants : Nat
deriving DecidableEq, Repr

namespace Sema

/-- `signal()`. -/
def signal (s : Sema) : Option Sema :=
  match s.signaler with
  | .idle =>
    let oldCount := s.sema.m_count
    let signaler := if oldCount < -1 then .failed else if oldCount < 0 then .post else .idle
    some { s with sema := { s.sema with m_count := oldCount + 1 }
                  signaler, signals := s.signals + 1 }
  | _ => none

/-- `m_sema.signal(1)`. -/
def post (s : Sema) : Option Sema :=
  match s.signaler with
  | .post => some { s with sema := { s.sema with m_sema := s.sema.m_sema + 1 }, signaler := .idle }
  | _ => none

/-- The wait returns true. -/
def grant (s : Sema) (sema : LightweightSemaphore) : Sema :=
  { s with sema, waiter := .returned true, grants := s.grants + 1 }

/-- The next step of `tryWait` or `wait`.  `acquired` is for a wait at `m_sema`, which ends by a
    post or without one. -/
def waitStep (acquired : Bool) (s : Sema) : Option Sema :=
  let oldCount := s.sema.m_count
  let decremented : LightweightSemaphore := { s.sema with m_count := oldCount - 1 }
  match s.waiter with
  | .idle | .returned _ => none
  | .tryWait =>
    some { s with waiter := if oldCount > 0 then .take else .returned false }
  | .wait timeout_usecs =>
    some { s with waiter := if oldCount > 0 then .take else .spin timeout_usecs 1024 }
  | .take => some (s.grant decremented)
  | .spin timeout_usecs spin =>
    match spin with
    | 0 => some { s with waiter := .register timeout_usecs }
    | spin + 1 =>
      some { s with waiter := if oldCount > 0 then .take else .spin timeout_usecs spin }
  | .register timeout_usecs =>
    if oldCount > 0 then some (s.grant decremented)
    else some { s with sema := decremented
                       waiter := if timeout_usecs = 0 then .restore else .block }
  | .block =>
    if acquired then
      if s.sema.m_sema = 0 then none
      else some (s.grant { s.sema with m_sema := s.sema.m_sema - 1 })
    else some { s with waiter := .restore }
  | .restore =>
    some { s with sema := { s.sema with m_count := oldCount + 1 }
                  waiter := if oldCount < 0 then .returned false else .retry }
  | .retry =>
    some { s with sema := decremented, waiter := if oldCount > 0 then .tryTake else .restore }
  | .tryTake =>
    if s.sema.m_sema = 0 then some { s with waiter := .restore }
    else some (s.grant { s.sema with m_sema := s.sema.m_sema - 1 })

/-- A call of a wait. -/
def call (waiter : Waiter) (s : Sema) : Option Sema :=
  match s.waiter with
  | .idle | .returned _ => some { s with waiter }
  | _ => none

def start : Sema := ⟨⟨0, 0⟩, .idle, .idle, 0, 0⟩

end Sema

inductive SemaStep where
  | signal
  | post
  | tryWait
  | wait (timeout_usecs : Int)
  | waiter (acquired : Bool)
deriving DecidableEq, Repr

def SemaStep.run : SemaStep → Sema → Option Sema
  | .signal => Sema.signal
  | .post => Sema.post
  | .tryWait => Sema.call .tryWait
  | .wait timeout_usecs => Sema.call (.wait timeout_usecs)
  | .waiter acquired => Sema.waitStep acquired

/-! ### The invariant -/

/-- The posts that `m_sema` has or will have without another signal. -/
def Sema.posts (s : Sema) : Nat := s.sema.m_sema + if s.signaler = .post then 1 else 0

/-- What holds of the semaphore, with `available` signals that no wait has used, where the waiter
    is. -/
def WaiterOk (m_count available : Int) (posts : Nat) : Waiter → Prop
  | .idle | .tryWait | .wait _ | .spin _ _ | .register _ | .returned _ =>
    m_count = available ∧ 0 ≤ available ∧ posts = 0
  | .take => m_count = available ∧ 0 < available ∧ posts = 0
  | .block | .restore =>
    m_count = available - 1 ∧ (available = 0 ∧ posts = 0 ∨ 0 < available ∧ posts = 1)
  | .retry => m_count = available ∧ 0 < available ∧ posts = 1
  | .tryTake => m_count = available - 1 ∧ 0 < available ∧ posts = 1

/-- The waiter has not used more signals than there were. -/
structure SemaOk (s : Sema) : Prop where
  waiter : WaiterOk s.sema.m_count (s.signals - s.grants) s.posts s.waiter
  signaler : s.signaler ≠ .failed

variable {s s' : Sema}

theorem Sema.posts_of_idle (h : s.signaler = .idle) : s.posts = s.sema.m_sema := by
  simp [Sema.posts, h]

theorem Sema.posts_of_post (h : s.signaler = .post) : s.posts = s.sema.m_sema + 1 := by
  simp [Sema.posts, h]

/-- The count is -1 if the waiter waits and there is no signal for it, and the signal that comes
    then is the one that posts. -/
theorem WaiterOk.signal {m_count available : Int} {posts : Nat} {waiter : Waiter}
    (h : WaiterOk m_count available posts waiter) : -1 ≤ m_count ∧
      WaiterOk (m_count + 1) (available + 1) (posts + if m_count < 0 then 1 else 0) waiter := by
  by_cases hneg : m_count < 0
  · rw [if_pos hneg]
    cases waiter <;> simp only [WaiterOk] at h ⊢ <;> omega
  · rw [if_neg hneg]
    cases waiter <;> simp only [WaiterOk] at h ⊢ <;> omega

theorem Sema.signal_counts (hstep : s.signal = some s') :
    s'.signals = s.signals + 1 ∧ s'.grants = s.grants ∧ s'.waiter = s.waiter := by
  cases hpc : s.signaler with
  | idle =>
    simp only [Sema.signal, hpc, Option.some.injEq] at hstep
    subst hstep
    exact ⟨rfl, rfl, rfl⟩
  | post | failed =>
    rw [Sema.signal, hpc] at hstep
    cases hstep

theorem Sema.post_counts (hstep : s.post = some s') :
    s'.signals = s.signals ∧ s'.grants = s.grants ∧ s'.waiter = s.waiter := by
  cases hpc : s.signaler with
  | post =>
    simp only [Sema.post, hpc, Option.some.injEq] at hstep
    subst hstep
    exact ⟨rfl, rfl, rfl⟩
  | idle | failed =>
    rw [Sema.post, hpc] at hstep
    cases hstep

theorem Sema.post_idle (hstep : s.post = some s') : s'.signaler = .idle := by
  cases hpc : s.signaler with
  | post =>
    simp only [Sema.post, hpc, Option.some.injEq] at hstep
    subst hstep
    rfl
  | idle | failed =>
    rw [Sema.post, hpc] at hstep
    cases hstep

theorem SemaOk.signal (h : SemaOk s) (hstep : s.signal = some s') : SemaOk s' := by
  obtain ⟨hwaiter, -⟩ := h
  cases hpc : s.signaler with
  | post | failed =>
    rw [Sema.signal, hpc] at hstep
    cases hstep
  | idle =>
    rw [Sema.posts_of_idle hpc] at hwaiter
    obtain ⟨hge, hwaiter⟩ := hwaiter.signal
    simp only [Sema.signal, hpc, Option.some.injEq, if_neg (Int.not_lt.mpr hge)] at hstep
    subst hstep
    have havailable : ((s.signals + 1 : Nat) : Int) - s.grants = s.signals - s.grants + 1 := by
      omega
    by_cases hneg : s.sema.m_count < 0
    · simp only [if_pos hneg] at hwaiter ⊢
      exact ⟨by rw [havailable]; exact hwaiter, nofun⟩
    · simp only [if_neg hneg] at hwaiter ⊢
      exact ⟨by rw [havailable]; exact hwaiter, nofun⟩

theorem SemaOk.post (h : SemaOk s) (hstep : s.post = some s') : SemaOk s' := by
  obtain ⟨hwaiter, -⟩ := h
  cases hpc : s.signaler with
  | idle | failed =>
    rw [Sema.post, hpc] at hstep
    cases hstep
  | post =>
    rw [Sema.posts_of_post hpc] at hwaiter
    simp only [Sema.post, hpc, Option.some.injEq] at hstep
    subst hstep
    refine ⟨?_, nofun⟩
    simpa [Sema.posts] using hwaiter

/-- What a step of the waiter comes to: it goes on, or it gets a signal that no other wait has got,
    or it gives up, and then there is none. -/
inductive WaitOutcome (s s' : Sema) : Prop where
  | on (hgrants : s'.grants = s.grants) (hwaiter : ∀ result, s'.waiter ≠ .returned result)
  | granted (hgrants : s'.grants = s.grants + 1) (hwaiter : s'.waiter = .returned true)
      (hlt : s.grants < s.signals)
  | gaveUp (hgrants : s'.grants = s.grants) (hwaiter : s'.waiter = .returned false)
      (heq : s.signals = s.grants)

structure Waited (s s' : Sema) : Prop where
  signaler : s'.signaler = s.signaler
  signals : s'.signals = s.signals
  outcome : WaitOutcome s s'

theorem Sema.posts_grant (s : Sema) (h : s.sema.m_sema ≠ 0) :
    (s.grant { s.sema with m_sema := s.sema.m_sema - 1 }).posts = s.posts - 1 :=
  (Nat.sub_add_comm (Nat.one_le_iff_ne_zero.mpr h)).symm

theorem SemaOk.go (h : SemaOk s) {waiter : Waiter}
    (hwaiter : WaiterOk s.sema.m_count (s.signals - s.grants) s.posts waiter)
    (hon : ∀ result, waiter ≠ .returned result) :
    SemaOk { s with waiter } ∧ Waited s { s with waiter } :=
  ⟨⟨hwaiter, h.signaler⟩, .mk rfl rfl (.on rfl hon)⟩

theorem SemaOk.giveUp (h : SemaOk s) {m_count : Int} (hcount : m_count = 0)
    (heq : s.signals = s.grants) (hposts : s.posts = 0) :
    SemaOk { s with sema := { s.sema with m_count }, waiter := .returned false } ∧
      Waited s { s with sema := { s.sema with m_count }, waiter := .returned false } := by
  refine ⟨⟨?_, h.signaler⟩, .mk rfl rfl (.gaveUp rfl rfl heq)⟩
  rw [hcount]
  exact ⟨by simp [heq], by simp [heq], hposts⟩

theorem SemaOk.grant (h : SemaOk s) {sema : LightweightSemaphore}
    (hcount : sema.m_count = s.signals - s.grants - 1) (hlt : s.grants < s.signals)
    (hposts : (s.grant sema).posts = 0) : SemaOk (s.grant sema) ∧ Waited s (s.grant sema) := by
  refine ⟨⟨?_, h.signaler⟩, .mk rfl rfl (.granted rfl rfl hlt)⟩
  simp only [Sema.grant, WaiterOk] at hposts ⊢
  omega

theorem SemaOk.waitStep (h : SemaOk s) {acquired : Bool}
    (hstep : s.waitStep acquired = some s') : SemaOk s' ∧ Waited s s' := by
  have hwaiter := h.waiter
  cases hpc : s.waiter with
  | idle | returned _ =>
    rw [Sema.waitStep, hpc] at hstep
    cases hstep
  | tryWait =>
    simp only [Sema.waitStep, hpc, Option.some.injEq] at hstep
    subst hstep
    rw [hpc] at hwaiter
    obtain ⟨hcount, hge, hposts⟩ := hwaiter
    by_cases hpos : s.sema.m_count > 0
    · rw [if_pos hpos]
      exact h.go ⟨hcount, hcount ▸ hpos, hposts⟩ nofun
    · rw [if_neg hpos]
      exact h.giveUp (by omega : s.sema.m_count = 0) (by omega) hposts
  | wait timeout_usecs =>
    simp only [Sema.waitStep, hpc, Option.some.injEq] at hstep
    subst hstep
    rw [hpc] at hwaiter
    obtain ⟨hcount, hge, hposts⟩ := hwaiter
    by_cases hpos : s.sema.m_count > 0
    · rw [if_pos hpos]
      exact h.go ⟨hcount, hcount ▸ hpos, hposts⟩ nofun
    · rw [if_neg hpos]
      exact h.go ⟨hcount, hge, hposts⟩ nofun
  | take =>
    simp only [Sema.waitStep, hpc, Option.some.injEq] at hstep
    subst hstep
    rw [hpc] at hwaiter
    obtain ⟨hcount, hpos, hposts⟩ := hwaiter
    exact h.grant (congrArg (· - 1) hcount) (by omega) hposts
  | spin timeout_usecs spin =>
    rw [hpc] at hwaiter
    obtain ⟨hcount, hge, hposts⟩ := hwaiter
    cases spin with
    | zero =>
      simp only [Sema.waitStep, hpc, Option.some.injEq] at hstep
      subst hstep
      exact h.go ⟨hcount, hge, hposts⟩ nofun
    | succ spin =>
      simp only [Sema.waitStep, hpc, Option.some.injEq] at hstep
      subst hstep
      by_cases hpos : s.sema.m_count > 0
      · rw [if_pos hpos]
        exact h.go ⟨hcount, hcount ▸ hpos, hposts⟩ nofun
      · rw [if_neg hpos]
        exact h.go ⟨hcount, hge, hposts⟩ nofun
  | register timeout_usecs =>
    simp only [Sema.waitStep, hpc] at hstep
    rw [hpc] at hwaiter
    obtain ⟨hcount, hge, hposts⟩ := hwaiter
    by_cases hpos : s.sema.m_count > 0
    · rw [if_pos hpos, Option.some.injEq] at hstep
      subst hstep
      exact h.grant (congrArg (· - 1) hcount) (by omega) hposts
    · rw [if_neg hpos, Option.some.injEq] at hstep
      subst hstep
      have hnone : (s.signals : Int) - s.grants = 0 := by omega
      have hok : WaiterOk (s.sema.m_count - 1) (s.signals - s.grants) s.posts .restore :=
        ⟨congrArg (· - 1) hcount, Or.inl ⟨hnone, hposts⟩⟩
      by_cases htimeout : timeout_usecs = 0
      · rw [if_pos htimeout]
        exact ⟨⟨hok, h.signaler⟩, .mk rfl rfl (.on rfl nofun)⟩
      · rw [if_neg htimeout]
        exact ⟨⟨hok, h.signaler⟩, .mk rfl rfl (.on rfl nofun)⟩
  | block =>
    simp only [Sema.waitStep, hpc] at hstep
    rw [hpc] at hwaiter
    cases acquired with
    | false =>
      simp only [Bool.false_eq_true, if_false, Option.some.injEq] at hstep
      subst hstep
      exact h.go hwaiter nofun
    | true =>
      obtain ⟨hcount, hposts⟩ := hwaiter
      simp only [if_true] at hstep
      by_cases hzero : s.sema.m_sema = 0
      · rw [if_pos hzero] at hstep
        cases hstep
      · rw [if_neg hzero, Option.some.injEq] at hstep
        subst hstep
        have hle : s.sema.m_sema ≤ s.posts := Nat.le_add_right ..
        exact h.grant hcount (by omega) (by rw [s.posts_grant hzero]; omega)
  | restore =>
    simp only [Sema.waitStep, hpc, Option.some.injEq] at hstep
    subst hstep
    rw [hpc] at hwaiter
    obtain ⟨hcount, hposts⟩ := hwaiter
    by_cases hneg : s.sema.m_count < 0
    · rw [if_pos hneg]
      exact h.giveUp (by omega) (by omega) (by omega)
    · rw [if_neg hneg]
      have hcount' : s.sema.m_count + 1 = s.signals - s.grants := by omega
      have hpos : (0 : Int) < s.signals - s.grants := by omega
      have hone : s.posts = 1 := by omega
      exact ⟨⟨⟨hcount', hpos, hone⟩, h.signaler⟩, .mk rfl rfl (.on rfl nofun)⟩
  | retry =>
    simp only [Sema.waitStep, hpc, Option.some.injEq] at hstep
    subst hstep
    rw [hpc] at hwaiter
    obtain ⟨hcount, hpos, hposts⟩ := hwaiter
    rw [if_pos (hcount ▸ hpos)]
    refine ⟨⟨?_, h.signaler⟩, .mk rfl rfl (.on rfl nofun)⟩
    exact ⟨congrArg (· - 1) hcount, hpos, hposts⟩
  | tryTake =>
    simp only [Sema.waitStep, hpc] at hstep
    rw [hpc] at hwaiter
    obtain ⟨hcount, hpos, hposts⟩ := hwaiter
    by_cases hzero : s.sema.m_sema = 0
    · rw [if_pos hzero, Option.some.injEq] at hstep
      subst hstep
      exact h.go ⟨hcount, Or.inr ⟨hpos, hposts⟩⟩ nofun
    · rw [if_neg hzero, Option.some.injEq] at hstep
      subst hstep
      exact h.grant hcount (by omega) (by rw [s.posts_grant hzero]; omega)

theorem SemaOk.call (h : SemaOk s) {waiter : Waiter}
    (hwaiter : waiter = .tryWait ∨ ∃ timeout_usecs, waiter = .wait timeout_usecs)
    (hstep : s.call waiter = some s') : SemaOk s' ∧ s' = { s with waiter } := by
  have hok := h.waiter
  cases hpc : s.waiter with
  | idle | returned _ =>
    simp only [Sema.call, hpc, Option.some.injEq] at hstep
    subst hstep
    rw [hpc] at hok
    refine ⟨⟨?_, h.signaler⟩, rfl⟩
    rcases hwaiter with rfl | ⟨timeout_usecs, rfl⟩
    · exact hok
    · exact hok
  | _ =>
    rw [Sema.call, hpc] at hstep
    cases hstep

theorem SemaOk.run {step : SemaStep} (h : SemaOk s) (hstep : step.run s = some s') :
    SemaOk s' := by
  cases step with
  | signal => exact h.signal hstep
  | post => exact h.post hstep
  | tryWait => exact (h.call (Or.inl rfl) hstep).1
  | wait timeout_usecs => exact (h.call (Or.inr ⟨timeout_usecs, rfl⟩) hstep).1
  | waiter acquired => exact (h.waitStep hstep).1

theorem SemaOk.start : SemaOk Sema.start := ⟨⟨rfl, Int.le_refl _, rfl⟩, nofun⟩

theorem SemaOk.grants_le (h : SemaOk s) : s.grants ≤ s.signals := by
  have hok := h.waiter
  cases hpc : s.waiter <;> simp only [hpc, WaiterOk] at hok <;> omega

/-- A waiter at `m_sema` gets there what it waits for. -/
theorem SemaOk.posts_pos (h : SemaOk s) (hpc : s.waiter = .block) (hlt : s.grants < s.signals) :
    s.sema.m_sema = 1 ∨ s.signaler = .post := by
  have hok := h.waiter
  rw [hpc] at hok
  have hposts : s.posts = 1 := by
    have := hok.2
    omega
  by_cases hpost : s.signaler = .post
  · exact Or.inr hpost
  · left
    rw [Sema.posts, if_neg hpost] at hposts
    exact hposts

/-- In any order of steps the assertion of `signal` holds, no signal is used twice, a waiter gives
    up only when there is none left, and one that waits for a post is not forgotten. -/
theorem semaphore_counts (steps : List SemaStep) :
    ∀ s ∈ Runs.states SemaStep.run Sema.start steps,
      s.signaler ≠ .failed ∧ s.grants ≤ s.signals ∧
      (s.waiter = .block → s.grants < s.signals → s.sema.m_sema = 1 ∨ s.signaler = .post) ∧
      ∀ acquired s', s.waitStep acquired = some s' → s'.waiter = .returned false →
        s.signals = s.grants := by
  intro s hs
  have h := Runs.states_induction (P := SemaOk) (fun _ _ _ hstep h => h.run hstep) SemaOk.start
    steps s hs
  refine ⟨h.signaler, h.grants_le, h.posts_pos, ?_⟩
  intro acquired s' hstep hwaiter
  rcases (h.waitStep hstep).2.outcome with ⟨-, hon⟩ | ⟨-, htrue, -⟩ | ⟨-, -, heq⟩
  · exact absurd hwaiter (hon _)
  · rw [htrue] at hwaiter
    cases hwaiter
  · exact heq

theorem semaphore_counts_tryWait : ∃ s ∈ Runs.states SemaStep.run Sema.start
    [.signal, .tryWait, .waiter true, .waiter true, .tryWait], s.signals = s.grants := by
  have h := semaphore_counts [.signal, .tryWait, .waiter true, .waiter true, .tryWait]
  exact ⟨_, List.mem_of_getElem? (i := 4) rfl,
    (h _ (List.mem_of_getElem? (i := 4) rfl)).2.2.2 true _ rfl rfl⟩

end Moodycamel
