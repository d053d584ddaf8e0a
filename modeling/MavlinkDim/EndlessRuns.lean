import Mathlib.Order.OrderIsoNat

/-!
# Endless runs

A loop makes one step after the other until a step ends it.  `after` makes a given
number of steps.  A loop that no step ends is an infinite sequence of states, and a
number that no step increases is settled from some point of the sequence on.
-/

namespace EndlessRuns

variable {S : Type*} (next : S → Option S)

/-- The state after `n` steps, if none of them ends the loop. -/
def after : Nat → S → Option S
  | 0, s => some s
  | n + 1, s => (next s).bind (after n)

/-- The sequence of states of a loop from `s` on that no step ends. -/
structure Endless (s : S) (run : Nat → S) : Prop where
  start : run 0 = s
  step : ∀ k, next (run k) = some (run (k + 1))

variable {next} {s : S} {run : Nat → S}

theorem after_succ_of_none (h : next s = none) (n : Nat) : after next (n + 1) s = none := by
  rw [after, h, Option.bind_none]

theorem after_succ_of_some {s' : S} (h : next s = some s') (n : Nat) :
    after next (n + 1) s = after next n s' := by
  rw [after, h, Option.bind_some]

theorem after_add (m n : Nat) (s : S) :
    after next (m + n) s = (after next m s).bind (after next n) := by
  induction m generalizing s with
  | zero => rw [Nat.zero_add, after, Option.bind_some]
  | succ m ih =>
    rw [Nat.succ_add]
    cases h : next s with
    | none => rw [after_succ_of_none h, after_succ_of_none h, Option.bind_none]
    | some s' => rw [after_succ_of_some h, after_succ_of_some h, ih]

theorem after_one (s : S) : after next 1 s = next s := by
  cases h : next s with
  | none => exact after_succ_of_none h 0
  | some s' => exact after_succ_of_some h 0

/-- The last step of several. -/
theorem after_succ_last (n : Nat) (s : S) :
    after next (n + 1) s = (after next n s).bind next := by
  rw [after_add, funext after_one]

/-- A loop that has ended stays so. -/
theorem after_mono {m n : Nat} (hle : m ≤ n) (h : after next m s = none) :
    after next n s = none := by
  obtain ⟨k, rfl⟩ := Nat.exists_eq_add_of_le hle
  rw [after_add, h, Option.bind_none]

theorem Endless.after_eq (h : Endless next s run) (n : Nat) :
    after next n s = some (run n) := by
  induction n with
  | zero => rw [after, h.start]
  | succ n ih => rw [after_succ_last, ih, Option.bind_some, h.step]

theorem Endless.tail (h : Endless next s run) (K : Nat) :
    Endless next (run K) fun k => run (K + k) :=
  ⟨rfl, fun k => h.step (K + k)⟩

/-- A loop that comes to the start of an endless one is endless. -/
theorem Endless.not_ended {s' : S} {m : Nat} (hreach : after next m s = some s')
    (h : Endless next s' run) (n : Nat) : after next n s ≠ none := by
  intro hnone
  have hboth := after_mono (Nat.le_add_left n m) hnone
  rw [after_add, hreach, Option.bind_some, h.after_eq n] at hboth
  cases hboth

/-- A loop whose every number of steps is possible is endless. -/
theorem exists_endless_iff : (∃ run, Endless next s run) ↔ ∀ n, after next n s ≠ none := by
  constructor
  · rintro ⟨run, h⟩ n
    rw [h.after_eq n]
    exact Option.some_ne_none _
  · intro h
    have hsome : ∀ n, ∃ s', after next n s = some s' := fun n =>
      Option.ne_none_iff_exists'.mp (h n)
    choose run hrun using hsome
    refine ⟨run, ?_, ?_⟩
    · exact Option.some.inj (hrun 0).symm
    · intro k
      have hlast := hrun (k + 1)
      rwa [after_succ_last, hrun k, Option.bind_some] at hlast

/-- A loop without a step that ends it. -/
theorem after_ne_none (h : ∀ s, next s ≠ none) (n : Nat) (s : S) : after next n s ≠ none := by
  induction n generalizing s with
  | zero => exact Option.some_ne_none s
  | succ n ih =>
    obtain ⟨s', hs'⟩ := Option.ne_none_iff_exists'.mp (h s)
    rw [after_succ_of_some hs']
    exact ih s'

/-- What every step keeps holds of every state. -/
theorem Endless.invariant (h : Endless next s run) {P : S → Prop} (hstart : P s)
    (hstep : ∀ {s s'}, P s → next s = some s' → P s') (k : Nat) : P (run k) := by
  induction k with
  | zero => rw [h.start]; exact hstart
  | succ k ih => exact hstep ih (h.step k)

/-- A number that no step increases is settled from some state on. -/
theorem Endless.settles (h : Endless next s run) {P : S → Prop} (hP : ∀ k, P (run k))
    {measure : S → Nat} (hstep : ∀ {s s'}, P s → next s = some s' → measure s' ≤ measure s) :
    ∃ K, ∀ k ≥ K, measure (run (k + 1)) = measure (run k) := by
  have hanti : Antitone fun k => measure (run k) :=
    antitone_nat_of_succ_le fun k => hstep (hP k) (h.step k)
  obtain ⟨K, hK⟩ := WellFoundedLT.antitone_chain_condition hanti
  refine ⟨K, fun k hk => ?_⟩
  exact (hK (k + 1) (Nat.le_succ_of_le hk)).symm.trans (hK k hk)

end EndlessRuns
