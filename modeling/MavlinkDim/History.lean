import Mathlib.Data.List.Basic

/-!
# Histories

A history is the list of the events so far.  `Admitted` says that every event was
in order when it happened, `Last` what the last event of a kind was, and `Since`
which events came after it.
-/

namespace History

variable {E α : Type*}

/-- Each event of the history is admitted by those before it. -/
def Admitted (ok : List E → E → Prop) (log : List E) : Prop :=
  ∀ pre e post, log = pre ++ e :: post → ok pre e

/-- `a` is what the last event with a value of `f` has, and `es` are the events behind it. -/
def Since (f : E → Option α) (log : List E) (a : α) (es : List E) : Prop :=
  ∃ pre e, log = pre ++ e :: es ∧ f e = some a ∧ ∀ e' ∈ es, f e' = none

/-- `a` is what the last event with a value of `f` has. -/
def Last (f : E → Option α) (log : List E) (a : α) : Prop := ∃ es, Since f log a es

variable {ok : List E → E → Prop} {f : E → Option α} {log es : List E} {e : E} {a : α}

theorem Admitted.nil : Admitted ok [] := by
  intro pre e post h
  simp at h

theorem Admitted.snoc (h : Admitted ok log) (he : ok log e) : Admitted ok (log ++ [e]) := by
  intro pre e' post hsplit
  rcases List.eq_nil_or_concat post with rfl | ⟨post, e'', rfl⟩
  · obtain ⟨rfl, heq⟩ := List.append_inj' hsplit rfl
    obtain rfl := List.singleton_inj.mp heq
    exact he
  · rw [List.concat_eq_append, ← List.cons_append, ← List.append_assoc] at hsplit
    obtain ⟨rfl, -⟩ := List.append_inj' hsplit rfl
    exact h pre e' post rfl

theorem admitted_snoc_iff : Admitted ok (log ++ [e]) ↔ Admitted ok log ∧ ok log e := by
  constructor
  · intro h
    refine ⟨?_, h log e [] rfl⟩
    rintro pre e' post rfl
    exact h pre e' (post ++ [e]) (by simp)
  · rintro ⟨hlog, he⟩
    exact hlog.snoc he

theorem Since.start (h : f e = some a) : Since f (log ++ [e]) a [] :=
  ⟨log, e, rfl, h, by simp⟩

theorem Since.snoc (h : Since f log a es) (he : f e = none) :
    Since f (log ++ [e]) a (es ++ [e]) := by
  obtain ⟨pre, e₀, rfl, hvalue, hnone⟩ := h
  refine ⟨pre, e₀, by simp, hvalue, ?_⟩
  rw [List.forall_mem_append]
  exact ⟨hnone, List.forall_mem_singleton.mpr he⟩

/-- There is one last event with a value. -/
theorem Since.unique {es' : List E} {a' : α} (h : Since f log a es) (h' : Since f log a' es') :
    a = a' ∧ es = es' := by
  obtain ⟨pre, e, hlog, hvalue, hnone⟩ := h
  obtain ⟨pre', e', hlog', hvalue', hnone'⟩ := h'
  rcases List.append_eq_append_iff.mp (hlog.symm.trans hlog') with
    ⟨l, -, hrest⟩ | ⟨l, -, hrest⟩
  · cases l with
    | nil =>
      obtain ⟨rfl, rfl⟩ := List.cons.inj hrest
      exact ⟨Option.some.inj (hvalue.symm.trans hvalue'), rfl⟩
    | cons _ l =>
      -- the other event comes later, and has a value
      obtain ⟨-, rfl⟩ := List.cons.inj hrest
      have hlater := hnone e' (by simp)
      rw [hvalue'] at hlater
      cases hlater
  · cases l with
    | nil =>
      obtain ⟨rfl, rfl⟩ := List.cons.inj hrest
      exact ⟨Option.some.inj (hvalue.symm.trans hvalue'), rfl⟩
    | cons _ l =>
      obtain ⟨-, rfl⟩ := List.cons.inj hrest
      have hlater := hnone' e (by simp)
      rw [hvalue] at hlater
      cases hlater

theorem Last.start (h : f e = some a) : Last f (log ++ [e]) a := ⟨[], .start h⟩

end History
