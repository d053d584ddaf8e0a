import Mathlib.Data.List.Basic

/-!
# Runs

A system is driven by calls, of which any may fail to return.  A run is a list of
calls, and its states are the states after its calls, up to the first one that
does not return.
-/

namespace Runs

variable {S C : Type*} (step : C → S → Option S)

/-- The states after the calls of a list. -/
def states : S → List C → List S
  | _, [] => []
  | x, c :: calls =>
    match step c x with
    | none => []
    | some y => y :: states y calls

/-- Every call of the list that returns is made where `cond` holds. -/
def Along (cond : C → S → Prop) : S → List C → Prop
  | _, [] => True
  | x, c :: calls =>
    match step c x with
    | none => True
    | some y => cond c x ∧ Along cond y calls

/-- Every call of the list that is made, also one that does not return, is made where `cond`
    holds. -/
def Meets (cond : C → S → Prop) : S → List C → Prop
  | _, [] => True
  | x, c :: calls => cond c x ∧ ∀ y, step c x = some y → Meets cond y calls

instance decidableAlong {cond : C → S → Prop} [∀ c x, Decidable (cond c x)] :
    (x : S) → (calls : List C) → Decidable (Along step cond x calls)
  | _, [] => .isTrue trivial
  | x, c :: calls => by
    unfold Along
    exact match step c x with
      | none => .isTrue trivial
      | some y => @instDecidableAnd _ _ _ (decidableAlong y calls)

instance decidableMeets {cond : C → S → Prop} [∀ c x, Decidable (cond c x)] :
    (x : S) → (calls : List C) → Decidable (Meets step cond x calls)
  | _, [] => .isTrue trivial
  | x, c :: calls => by
    unfold Meets
    exact match step c x with
      | none => decidable_of_iff (cond c x) (by simp)
      | some y =>
        have : Decidable (Meets step cond y calls) := decidableMeets y calls
        decidable_of_iff (cond c x ∧ Meets step cond y calls) (by simp)

variable {step}

theorem states_cons_none {c : C} {x : S} (h : step c x = none) (calls : List C) :
    states step x (c :: calls) = [] := by
  rw [states, h]

theorem states_cons_some {c : C} {x y : S} (h : step c x = some y) (calls : List C) :
    states step x (c :: calls) = y :: states step y calls := by
  rw [states, h]

theorem along_cons_none {cond : C → S → Prop} {c : C} {x : S} (h : step c x = none)
    (calls : List C) : Along step cond x (c :: calls) := by
  rw [Along, h]
  trivial

theorem along_cons_some {cond : C → S → Prop} {c : C} {x y : S} (h : step c x = some y)
    (calls : List C) :
    Along step cond x (c :: calls) ↔ cond c x ∧ Along step cond y calls := by
  rw [Along, h]

/-- A run goes on from the state that the same call, made again and again, comes to. -/
theorem mem_states_replicate {f : Nat → S} {c : C} (n : Nat)
    (hstep : ∀ k < n, step c (f k) = some (f (k + 1))) {calls : List C} {y : S}
    (hy : y ∈ states step (f n) calls) :
    y ∈ states step (f 0) (List.replicate n c ++ calls) := by
  induction n generalizing f with
  | zero => exact hy
  | succ n ih =>
    rw [List.replicate_succ, List.cons_append, states_cons_some (hstep 0 (Nat.succ_pos n))]
    apply List.mem_cons_of_mem
    apply ih (f := fun k => f (k + 1))
    · intro k hk
      exact hstep (k + 1) (Nat.succ_lt_succ hk)
    · exact hy

/-- What every call keeps, every state of a run has. -/
theorem states_induction {P : S → Prop} (hstep : ∀ c x y, step c x = some y → P x → P y)
    {x : S} (hx : P x) (calls : List C) : ∀ y ∈ states step x calls, P y := by
  induction calls generalizing x with
  | nil => simp [states]
  | cons c calls ih =>
    cases hcall : step c x with
    | none => simp [states_cons_none hcall]
    | some y =>
      rw [states_cons_some hcall, List.forall_mem_cons]
      have hy := hstep c x y hcall hx
      exact ⟨hy, ih hy⟩

/-- If under a condition every call returns and keeps `P`, a run that meets it goes through to its
    end, in states that have `P`. -/
theorem states_of_meets {P : S → Prop} {cond : C → S → Prop}
    (hstep : ∀ c x, P x → cond c x → ∃ y, step c x = some y ∧ P y) {x : S} (hx : P x)
    {calls : List C} (h : Meets step cond x calls) :
    (states step x calls).length = calls.length ∧ ∀ y ∈ states step x calls, P y := by
  induction calls generalizing x with
  | nil => simp [states]
  | cons c calls ih =>
    obtain ⟨hcond, hrest⟩ := h
    obtain ⟨y, hcall, hy⟩ := hstep c x hx hcond
    obtain ⟨hlen, hall⟩ := ih hy (hrest y hcall)
    rw [states_cons_some hcall, List.forall_mem_cons]
    exact ⟨congrArg Nat.succ hlen, hy, hall⟩

/-- What a call keeps exactly under a condition, all states of a run have exactly when every
    call of the run meets it.  `I` is what holds in any case. -/
theorem forall_states_iff {P I : S → Prop} {cond : C → S → Prop}
    (hinv : ∀ c x y, step c x = some y → I x → I y)
    (hstep : ∀ c x y, step c x = some y → I x → P x → (P y ↔ cond c x))
    {x : S} (hI : I x) (hP : P x) (calls : List C) :
    (∀ y ∈ states step x calls, P y) ↔ Along step cond x calls := by
  induction calls generalizing x with
  | nil => simp [states, Along]
  | cons c calls ih =>
    cases hcall : step c x with
    | none => simp [states_cons_none hcall, along_cons_none hcall]
    | some y =>
      rw [states_cons_some hcall, along_cons_some hcall, List.forall_mem_cons,
        hstep c x y hcall hI hP]
      apply and_congr_right
      intro hcond
      exact ih (hinv c x y hcall hI) ((hstep c x y hcall hI hP).mpr hcond)

end Runs
