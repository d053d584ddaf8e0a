import MavlinkDim.History
import Mathlib.Data.List.Induction

/-!
# Transducers

A machine with a state that takes inputs one at a time and answers each with at
most one output.  Several readers may share one machine; the inputs of a run are
then tagged with the reader that brings them, and so are the outputs.  What a
reader gets should depend on its own inputs only (`Noninterfering`); it does where
the machine is as good as new whenever the reader changes (`Clean`).
-/

namespace Transducer

variable {S I O : Type*} (step : S → I → S × Option O)

/-- The state after the inputs, and the outputs. -/
def run : S → List I → S × List O
  | s, [] => (s, [])
  | s, i :: is =>
    let (s, o) := step s i
    let (s, os) := run s is
    (s, o.toList ++ os)

theorem run_cons (s : S) (i : I) (is : List I) :
    run step s (i :: is) =
      ((run step (step s i).1 is).1, (step s i).2.toList ++ (run step (step s i).1 is).2) := rfl

theorem run_append (s : S) (is is' : List I) :
    run step s (is ++ is') =
      ((run step (run step s is).1 is').1,
        (run step s is).2 ++ (run step (run step s is).1 is').2) := by
  induction is generalizing s with
  | nil => rfl
  | cons i is ih => simp [run_cons, ih, List.append_assoc]

/-- The two states answer whatever comes with the same outputs. -/
def Equivalent (s s' : S) : Prop := ∀ is, (run step s is).2 = (run step s' is).2

/-- The machine keeps nothing from one input to the next. -/
def Memoryless (s₀ : S) : Prop := ∀ is, Equivalent step (run step s₀ is).1 s₀

variable {step}

theorem Equivalent.refl (s : S) : Equivalent step s s := by
  intro is
  rfl

theorem Equivalent.symm {s s' : S} (h : Equivalent step s s') : Equivalent step s' s := by
  intro is
  exact (h is).symm

theorem Equivalent.trans {s s' s'' : S} (h : Equivalent step s s')
    (h' : Equivalent step s' s'') : Equivalent step s s'' := by
  intro is
  exact (h is).trans (h' is)

/-- They do so after the same inputs. -/
theorem Equivalent.run {s s' : S} (h : Equivalent step s s') (is : List I) :
    Equivalent step (run step s is).1 (run step s' is).1 := by
  intro is'
  have happend := h (is ++ is')
  rw [run_append, run_append, h is] at happend
  exact List.append_cancel_left happend

/-! ### Readers -/

section Own

variable {κ α : Type*}

/-- The inputs, all of them brought by `k`. -/
def tagged (k : κ) (l : List α) : List (κ × α) := l.map fun a => (k, a)

/-- The reader that came last. -/
def last (l : List (κ × α)) : Option κ := l.getLast?.map Prod.fst

theorem tagged_snd (k : κ) (l : List α) : (tagged k l).map Prod.snd = l := by
  simp [tagged, Function.comp_def]

theorem last_snoc (l : List (κ × α)) (e : κ × α) : last (l ++ [e]) = some e.1 := by
  simp [last]

variable [DecidableEq κ]

/-- What belongs to reader `k`. -/
def own (k : κ) (l : List (κ × α)) : List α := (l.filter fun e => e.1 = k).map Prod.snd

theorem own_append (k : κ) (l l' : List (κ × α)) : own k (l ++ l') = own k l ++ own k l' := by
  simp [own]

theorem own_tagged_self (k : κ) (l : List α) : own k (tagged k l) = l := by
  induction l with
  | nil => rfl
  | cons a l ih =>
    have hcons : own k (tagged k (a :: l)) = a :: own k (tagged k l) := by
      simp [own, tagged]
    rw [hcons, ih]

theorem own_tagged_ne {k k' : κ} (h : k' ≠ k) (l : List α) : own k (tagged k' l) = [] := by
  induction l with
  | nil => rfl
  | cons a l ih =>
    have hcons : own k (tagged k' (a :: l)) = own k (tagged k' l) := by
      simp [own, tagged, h]
    rw [hcons, ih]

theorem own_snoc_self (k : κ) (l : List (κ × α)) (a : α) :
    own k (l ++ [(k, a)]) = own k l ++ [a] := by
  rw [own_append]
  exact congrArg (own k l ++ ·) (own_tagged_self k [a])

theorem own_snoc_ne {k k' : κ} (h : k' ≠ k) (l : List (κ × α)) (a : α) :
    own k (l ++ [(k', a)]) = own k l := by
  rw [own_append]
  exact (congrArg (own k l ++ ·) (own_tagged_ne h [a])).trans (List.append_nil _)

end Own

variable {κ : Type*}

variable (step) in
/-- A step of the shared machine. -/
def sharedStep (s : S) (e : κ × I) : S × Option (κ × O) :=
  let (s, o) := step s e.2
  (s, o.map fun o => (e.1, o))

variable (step) in
/-- Whenever another reader comes than the last, the state is as good as `s₀`. -/
def Clean (s₀ : S) (l : List (κ × I)) : Prop :=
  History.Admitted
    (fun l e => last l ≠ some e.1 → Equivalent step (run step s₀ (l.map Prod.snd)).1 s₀) l

theorem run_sharedStep_fst (s : S) (l : List (κ × I)) :
    (run (sharedStep step) s l).1 = (run step s (l.map Prod.snd)).1 := by
  induction l generalizing s with
  | nil => rfl
  | cons e l ih =>
    rw [run_cons, List.map_cons, run_cons]
    exact ih _

theorem Memoryless.clean {s₀ : S} (h : Memoryless step s₀) (l : List (κ × I)) :
    Clean step s₀ l := by
  intro pre e post _ _
  exact h _

variable [DecidableEq κ]

variable (step) in
/-- What reader `k` gets from a machine that is shared. -/
def received (k : κ) (s : S) (l : List (κ × I)) : List O := own k (run (sharedStep step) s l).2

variable (step) (κ) in
/-- What a reader gets depends on its own inputs only. -/
def Noninterfering (s₀ : S) : Prop :=
  ∀ l l' : List (κ × I), (∀ k, own k l = own k l') →
    ∀ k, received step k s₀ l = received step k s₀ l'

variable (step) in
/-- Whenever a reader comes, with any inputs, it gets what its own inputs give. -/
def Undisturbed (s₀ : S) (l : List (κ × I)) : Prop :=
  History.Admitted
    (fun l e => ∀ is,
      received step e.1 s₀ (l ++ tagged e.1 is) = (run step s₀ (own e.1 l ++ is)).2) l

theorem received_append (k : κ) (s : S) (l l' : List (κ × I)) :
    received step k s (l ++ l') =
      received step k s l ++ received step k (run step s (l.map Prod.snd)).1 l' := by
  rw [received, run_append, own_append, run_sharedStep_fst]
  rfl

variable (step) in
theorem received_tagged_self (k : κ) (s : S) (is : List I) :
    received step k s (tagged k is) = (run step s is).2 := by
  have houts : (run (sharedStep step) s (tagged k is)).2 = tagged k (run step s is).2 := by
    induction is generalizing s with
    | nil => rfl
    | cons i is ih =>
      have htail := ih (step s i).1
      simp only [tagged, List.map_cons, run_cons, List.map_append] at htail ⊢
      rw [← htail]
      cases hout : (step s i).2 <;> simp [sharedStep, hout]
  rw [received, houts, own_tagged_self]

variable (step) in
theorem received_tagged_ne {k k' : κ} (h : k' ≠ k) (s : S) (is : List I) :
    received step k s (tagged k' is) = [] := by
  induction is generalizing s with
  | nil => rfl
  | cons i is ih =>
    have hsplit : tagged k' (i :: is) = tagged k' [i] ++ tagged k' is := rfl
    rw [hsplit, received_append, ih, List.append_nil]
    cases hout : (step s i).2 <;> simp [received, run, tagged, sharedStep, own, hout, h]

theorem received_snoc_self (k : κ) (s : S) (l : List (κ × I)) (i : I) :
    received step k s (l ++ [(k, i)]) =
      received step k s l ++ (run step (run step s (l.map Prod.snd)).1 [i]).2 := by
  rw [received_append]
  exact congrArg (received step k s l ++ ·) (received_tagged_self step k _ [i])

theorem received_snoc_ne {k k' : κ} (h : k' ≠ k) (s : S) (l : List (κ × I)) (i : I) :
    received step k s (l ++ [(k', i)]) = received step k s l := by
  rw [received_append]
  exact (congrArg (received step k s l ++ ·) (received_tagged_ne step h _ [i])).trans
    (List.append_nil _)

/-- What each reader finds in a clean run: it has got what its own inputs give; while it is the
    last that came, the machine is as its own inputs leave it; and when it left, they left the
    machine as good as `s₀`. -/
structure Found (step : S → I → S × Option O) (s₀ : S) (l : List (κ × I)) (k : κ) : Prop where
  received : received step k s₀ l = (run step s₀ (own k l)).2
  here : last l = some k →
    Equivalent step (run step s₀ (l.map Prod.snd)).1 (run step s₀ (own k l)).1
  left : last l ≠ some k → Equivalent step (run step s₀ (own k l)).1 s₀

variable {s₀ : S} {l : List (κ × I)} {k : κ}

/-- The machine is for `k` as its own inputs leave it exactly if `k` came last or the machine is
    as good as `s₀`. -/
theorem Found.equivalent_iff (h : Found step s₀ l k) :
    Equivalent step (run step s₀ (l.map Prod.snd)).1 (run step s₀ (own k l)).1 ↔
      (last l ≠ some k → Equivalent step (run step s₀ (l.map Prod.snd)).1 s₀) := by
  constructor
  · intro hown hleft
    exact hown.trans (h.left hleft)
  · intro hnew
    by_cases hlast : last l = some k
    · exact h.here hlast
    · exact (hnew hlast).trans (h.left hlast).symm

theorem Found.nil : Found step s₀ [] k := by
  refine ⟨rfl, ?_, ?_⟩
  · intro hlast
    simp [last] at hlast
  · intro _
    exact .refl s₀

theorem Found.snoc_self {i : I} (h : Found step s₀ l k)
    (he : last l ≠ some k → Equivalent step (run step s₀ (l.map Prod.snd)).1 s₀) :
    Found step s₀ (l ++ [(k, i)]) k := by
  have hequiv := h.equivalent_iff.mpr he
  refine ⟨?_, ?_, ?_⟩
  · rw [received_snoc_self, own_snoc_self, run_append, h.received, hequiv [i]]
  · intro _
    rw [own_snoc_self, List.map_append, run_append, run_append]
    exact hequiv.run [i]
  · intro hleft
    exact absurd (last_snoc l (k, i)) hleft

theorem Found.snoc_ne {k' : κ} {i : I} (h : Found step s₀ l k) (hne : k' ≠ k)
    (he : last l ≠ some k' → Equivalent step (run step s₀ (l.map Prod.snd)).1 s₀) :
    Found step s₀ (l ++ [(k', i)]) k := by
  refine ⟨?_, ?_, ?_⟩
  · rw [received_snoc_ne hne, own_snoc_ne hne, h.received]
  · intro hlast
    rw [last_snoc] at hlast
    exact absurd (Option.some.inj hlast) hne
  · intro _
    rw [own_snoc_ne hne]
    by_cases hlast : last l = some k
    · -- `k` leaves now
      have hnew := he (by simp [hlast, Ne.symm hne])
      exact (h.here hlast).symm.trans hnew
    · exact h.left hlast

theorem Clean.found (h : Clean step s₀ l) (k : κ) : Found step s₀ l k := by
  induction l using List.reverseRec with
  | nil => exact .nil
  | append_singleton l e ih =>
    obtain ⟨k', i⟩ := e
    obtain ⟨hl, he⟩ := History.admitted_snoc_iff.mp h
    by_cases hsame : k' = k
    · subst hsame
      exact (ih hl).snoc_self he
    · exact (ih hl).snoc_ne hsame he

/-- A reader that comes gets what its own inputs give, whatever they are, exactly if the machine
    is for it as its own inputs leave it. -/
theorem Found.undisturbed_iff (h : Found step s₀ l k) :
    (∀ is, Transducer.received step k s₀ (l ++ tagged k is) = (run step s₀ (own k l ++ is)).2) ↔
      Equivalent step (run step s₀ (l.map Prod.snd)).1 (run step s₀ (own k l)).1 := by
  apply forall_congr'
  intro is
  rw [received_append, received_tagged_self, run_append, h.received]
  exact List.append_right_inj _

/-- The readers are undisturbed exactly in the clean runs. -/
theorem undisturbed_iff : Undisturbed step s₀ l ↔ Clean step s₀ l := by
  induction l using List.reverseRec with
  | nil => exact iff_of_true .nil .nil
  | append_singleton l e ih =>
    rw [Undisturbed, Clean, History.admitted_snoc_iff, History.admitted_snoc_iff]
    change Undisturbed step s₀ l ∧ _ ↔ Clean step s₀ l ∧ _
    rw [ih]
    apply and_congr_right
    intro hclean
    have hfound := hclean.found e.1
    exact hfound.undisturbed_iff.trans hfound.equivalent_iff

/-- Two readers do not interfere, in any runs, exactly if the machine keeps nothing. -/
theorem noninterfering_iff {k k' : κ} (hne : k ≠ k') :
    Noninterfering step κ s₀ ↔ Memoryless step s₀ := by
  constructor
  · intro h is is'
    -- the inputs of `k` come before those of `k'`, or after them
    have howns : ∀ k₁, own k₁ (tagged k is ++ tagged k' is') =
        own k₁ (tagged k' is' ++ tagged k is) := by
      intro k₁
      rw [own_append, own_append]
      by_cases hk : k = k₁
      · have hk' : k' ≠ k₁ := by
          rintro rfl
          exact hne hk
        rw [own_tagged_ne hk']
        simp
      · rw [own_tagged_ne hk]
        simp
    have hreceived := h _ _ howns k'
    rw [received_append, received_append, received_tagged_ne step hne, received_tagged_ne step hne,
      received_tagged_self, received_tagged_self, tagged_snd, List.nil_append,
      List.append_nil] at hreceived
    exact hreceived
  · intro h l l' howns k
    rw [((h.clean l).found k).received, ((h.clean l').found k).received, howns k]

end Transducer
