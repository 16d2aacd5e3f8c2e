import Mathlib.Tactic.Common

/-!
# Interleaved runs

A run is a list of steps of several parties, in the order in which they happen.  A part of the state
belongs to one of them if only its steps change it; then what becomes of this part does not depend
on how the steps are interleaved.

* `Owns` — a part of the state that only some of the steps change.
* `Owns.foldl` — the part behind a run is what these steps alone make of it.
-/

set_option autoImplicit false

universe u v w x

namespace Interleave

variable {σ : Type u} {ι : Type v} {π : Type w} {κ : Type x}

/-- `part` is changed by the steps with an `act` only, and these do to it what `stepOn` says. -/
structure Owns (step : σ → ι → σ) (part : σ → π) (act : ι → Option κ) (stepOn : π → κ → π) :
    Prop where
  acts : ∀ s i k, act i = some k → part (step s i) = stepOn (part s) k
  leaves : ∀ s i, act i = none → part (step s i) = part s

variable {step : σ → ι → σ} {part : σ → π} {act : ι → Option κ} {stepOn : π → κ → π}

/-- **A part behind a run** depends on the steps of its owner only. -/
theorem Owns.foldl (h : Owns step part act stepOn) (l : List ι) (s : σ) :
    part (l.foldl step s) = (l.filterMap act).foldl stepOn (part s) := by
  induction l generalizing s with
  | nil => rfl
  | cons i l ih =>
    rw [List.foldl_cons, ih]
    cases hact : act i with
    | none => rw [List.filterMap_cons_none hact, h.leaves s i hact]
    | some k => rw [List.filterMap_cons_some hact, h.acts s i k hact, List.foldl_cons]

end Interleave
