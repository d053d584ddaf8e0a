import Mathlib.Data.List.Count

/-!
# Ledgers

A ledger records what was acquired and what was released.  `Balance es held` says
that the resources acquired and not yet released are those of the list `held`, as
often as they stand there.
-/

namespace Ledger

/-- An entry of a ledger of resources of type `ρ`. -/
inductive Entry (ρ : Type*) where
  | acquired (r : ρ)
  | released (r : ρ)
deriving DecidableEq, Repr

variable {ρ : Type*} [DecidableEq ρ]

/-- `held` is what the entries leave to be released. -/
def Balance (es : List (Entry ρ)) (held : List ρ) : Prop :=
  ∀ r, es.count (.acquired r) = es.count (.released r) + held.count r

theorem Balance.nil : Balance ([] : List (Entry ρ)) [] := by
  intro r
  simp

theorem Balance.acquire {es : List (Entry ρ)} {held : List ρ} (h : Balance es held) (r : ρ) :
    Balance (es ++ [.acquired r]) (r :: held) := by
  intro r'
  have hr := h r'
  by_cases heq : r = r'
  · subst heq
    simp only [List.count_append, List.count_cons_self, List.count_nil, List.count_singleton,
      beq_iff_eq, reduceCtorEq, if_false]
    omega
  · have hne : Entry.acquired r ≠ Entry.acquired r' := by simpa using heq
    simp only [List.count_append, List.count_cons_of_ne heq, List.count_cons_of_ne hne,
      List.count_singleton, List.count_nil, beq_iff_eq, reduceCtorEq, if_false]
    omega

theorem Balance.release {es : List (Entry ρ)} {held : List ρ} {r : ρ}
    (h : Balance es (r :: held)) : Balance (es ++ [.released r]) held := by
  intro r'
  have hr := h r'
  by_cases heq : r = r'
  · subst heq
    simp only [List.count_cons_self] at hr
    simp only [List.count_append, List.count_cons_self, List.count_nil, List.count_singleton,
      beq_iff_eq, reduceCtorEq, if_false]
    omega
  · have hne : Entry.released r ≠ Entry.released r' := by simpa using heq
    simp only [List.count_cons_of_ne heq] at hr
    simp only [List.count_append, List.count_cons_of_ne hne, List.count_singleton,
      List.count_nil, beq_iff_eq, reduceCtorEq, if_false]
    omega

theorem Balance.perm {es : List (Entry ρ)} {held held' : List ρ} (h : Balance es held)
    (hperm : held.Perm held') : Balance es held' := by
  intro r
  rw [← hperm.count_eq r]
  exact h r

/-- A ledger leaves one list of resources, up to its order. -/
theorem Balance.unique {es : List (Entry ρ)} {held held' : List ρ} (h : Balance es held)
    (h' : Balance es held') : held.Perm held' := by
  apply List.perm_iff_count.mpr
  intro r
  have hr := h r
  have hr' := h' r
  omega

end Ledger
