import Mathlib.Tactic.Common

/-!
# Runs of a labelled transition system

A system is given by its step relation `Step s i s'`: from the state `s` the action `i` may lead
to `s'`.  A *run* from `s` is the list of the actions taken, each with the state it led to.

Two rules turn facts about one step into facts about whole runs.

* `Transition.Run.invariant` — what every step under a side condition `Ok` keeps is kept by every
  run all of whose steps meet `Ok`; `Transition.Run.steps` is its form for statements about steps.
* `Transition.Run.forall_states_iff` — if moreover a step that misses `Ok` always loses the
  property, then a run keeps the property in *all* its states exactly when all its steps meet
  `Ok`.  This is the shape of an exact condition on runs.
-/

set_option autoImplicit false

universe u v

namespace Transition

variable {σ : Type u} {ι : Type v} {Step : σ → ι → σ → Prop}

/-- `tr` is a run from `s`: every entry is an action together with the state it leads to. -/
inductive Run (Step : σ → ι → σ → Prop) : σ → List (ι × σ) → Prop where
  | nil (s : σ) : Run Step s []
  | cons {s s' : σ} {i : ι} {tr : List (ι × σ)} (hstep : Step s i s') (hrun : Run Step s' tr) :
      Run Step s ((i, s') :: tr)

/-- The states a run goes through, the first one included. -/
def states (s : σ) (tr : List (ι × σ)) : List σ := s :: tr.map Prod.snd

/-- Every step of the run meets `P`, read at the state the step starts from. -/
def Steps (P : σ → ι → Prop) : σ → List (ι × σ) → Prop
  | _, [] => True
  | s, (i, s') :: tr => P s i ∧ Steps P s' tr

/-- The state a run ends in. -/
def final (s : σ) : List (ι × σ) → σ
  | [] => s
  | (_, s') :: tr => final s' tr

@[simp] theorem states_nil (s : σ) : states s ([] : List (ι × σ)) = [s] := rfl

@[simp] theorem states_cons (s : σ) (i : ι) (s' : σ) (tr : List (ι × σ)) :
    states s ((i, s') :: tr) = s :: states s' tr := rfl

@[simp] theorem steps_nil (P : σ → ι → Prop) (s : σ) : Steps P s [] := trivial

@[simp] theorem steps_cons (P : σ → ι → Prop) (s : σ) (i : ι) (s' : σ) (tr : List (ι × σ)) :
    Steps P s ((i, s') :: tr) ↔ P s i ∧ Steps P s' tr := Iff.rfl

theorem final_mem_states (s : σ) (tr : List (ι × σ)) : final s tr ∈ states s tr := by
  induction tr generalizing s with
  | nil => simp [final]
  | cons p tr ih => exact List.mem_cons_of_mem _ (ih p.2)

/-- **The invariant rule**: what every step that meets `Ok` keeps, a run of such steps keeps. -/
theorem Run.invariant {Inv : σ → Prop} {Ok : σ → ι → Prop}
    (hok : ∀ s i s', Inv s → Ok s i → Step s i s' → Inv s')
    {s : σ} {tr : List (ι × σ)} (hrun : Run Step s tr) (hs : Inv s) (hsteps : Steps Ok s tr) :
    ∀ t ∈ states s tr, Inv t := by
  induction hrun with
  | nil s => simpa using hs
  | @cons s s' i tr hstep _ ih =>
    intro t ht
    rw [states_cons, List.mem_cons] at ht
    rcases ht with rfl | ht
    · exact hs
    · exact ih (hok s i s' hs hsteps.1 hstep) hsteps.2 t ht

/-- What holds of every step that meets `Ok` from a state of the invariant holds of every step of a
run of such steps. -/
theorem Run.steps {Inv : σ → Prop} {Ok P : σ → ι → Prop}
    (hok : ∀ s i s', Inv s → Ok s i → Step s i s' → Inv s')
    (hP : ∀ s i, Inv s → Ok s i → P s i)
    {s : σ} {tr : List (ι × σ)} (hrun : Run Step s tr) (hs : Inv s) (hsteps : Steps Ok s tr) :
    Steps P s tr := by
  induction hrun with
  | nil s => exact steps_nil P s
  | @cons s s' i tr hstep _ ih =>
    exact ⟨hP s i hs hsteps.1, ih (hok s i s' hs hsteps.1 hstep) hsteps.2⟩

/-- **The exact condition on runs**: when steps that meet `Ok` keep an invariant that gives `Good`,
and a step that misses `Ok` ends in a state that is not `Good`, the runs all of whose states are
`Good` are the runs all of whose steps meet `Ok`. -/
theorem Run.forall_states_iff {Inv Good : σ → Prop} {Ok : σ → ι → Prop}
    (hgood : ∀ s, Inv s → Good s)
    (hok : ∀ s i s', Inv s → Ok s i → Step s i s' → Inv s')
    (hbad : ∀ s i s', Inv s → ¬ Ok s i → Step s i s' → ¬ Good s')
    {s : σ} {tr : List (ι × σ)} (hrun : Run Step s tr) (hs : Inv s) :
    (∀ t ∈ states s tr, Good t) ↔ Steps Ok s tr := by
  refine ⟨fun h ↦ ?_, fun h t ht ↦ hgood t (hrun.invariant hok hs h t ht)⟩
  induction hrun with
  | nil s => exact steps_nil Ok s
  | @cons s s' i tr hstep _ ih =>
    have htail : ∀ t ∈ states s' tr, Good t := fun t ht ↦ h t (List.mem_cons_of_mem _ ht)
    by_cases hi : Ok s i
    · exact ⟨hi, ih (hok s i s' hs hi hstep) htail⟩
    · exact absurd (htail s' (by simp [states])) (hbad s i s' hs hi hstep)

end Transition
