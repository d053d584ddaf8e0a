import Mathlib.Data.List.Basic

/-!
# Sequences of calls

A program answers calls and keeps a state, and a specification says what each call
should answer and do.  What a single call of the program has to show of its state
and of what it sends out, any sequence of calls then shows.
-/

namespace CallSequences

variable {C X T R R' E : Type*}

/-- The answers to the calls of a list, one after the other, and the state after them. -/
def runAll (call : C → X → R × X) : List C → X → List R × X
  | [], x => ([], x)
  | c :: calls, x =>
    let (r, x) := call c x
    let (rs, x) := runAll call calls x
    (r :: rs, x)

variable {call : C → X → R × X} {spec : C → T → R' × T}

theorem runAll_cons (c : C) (calls : List C) (x : X) :
    runAll call (c :: calls) x = ((call c x).1 :: (runAll call calls (call c x).2).1,
      (runAll call calls (call c x).2).2) := rfl

/-- What each call does to a part of the state, the sequence does to it call by call. -/
theorem runAll_foldl {V : Type*} (view : T → V) (update : V → C → V)
    (hview : ∀ c t, view (spec c t).2 = update (view t) c) (calls : List C) (t : T) :
    view (runAll spec calls t).2 = calls.foldl update (view t) := by
  induction calls generalizing t with
  | nil => rfl
  | cons c calls ih =>
    rw [runAll_cons, List.foldl_cons, ← hview]
    exact ih _

/-- What a call of the program has to show: `inv` is what its states keep, `abs` the state of the
    specification that they stand for, `sent` what was sent out in all, and `sends` what a call
    sends. -/
structure Refines (inv : X → Prop) (abs : X → T) (answer : R' → R) (sent : X → List E)
    (sends : C → List E) (call : C → X → R × X) (spec : C → T → R' × T) : Prop where
  keeps : ∀ c x, inv x → inv (call c x).2
  answers : ∀ c x, inv x → (call c x).1 = answer (spec c (abs x)).1
  agrees : ∀ c x, inv x → abs (call c x).2 = (spec c (abs x)).2
  sending : ∀ c x, inv x → sent (call c x).2 = sent x ++ sends c

namespace Refines

variable {inv : X → Prop} {abs : X → T} {answer : R' → R} {sent : X → List E}
  {sends : C → List E}

theorem runAll (h : Refines inv abs answer sent sends call spec) (calls : List C) {x : X}
    (hx : inv x) :
    inv (CallSequences.runAll call calls x).2 ∧
      (CallSequences.runAll call calls x).1 =
        (CallSequences.runAll spec calls (abs x)).1.map answer ∧
      abs (CallSequences.runAll call calls x).2 = (CallSequences.runAll spec calls (abs x)).2 ∧
      sent (CallSequences.runAll call calls x).2 = sent x ++ calls.flatMap sends := by
  induction calls generalizing x with
  | nil => exact ⟨hx, rfl, rfl, (List.append_nil _).symm⟩
  | cons c calls ih =>
    obtain ⟨hinv, hanswers, habs, hsent⟩ := ih (h.keeps c x hx)
    rw [h.agrees c x hx] at hanswers habs
    rw [h.sending c x hx] at hsent
    refine ⟨hinv, ?_, habs, ?_⟩
    · rw [runAll_cons, runAll_cons, List.map_cons, h.answers c x hx, hanswers]
    · rw [runAll_cons, hsent, List.flatMap_cons, List.append_assoc]

end Refines

end CallSequences
