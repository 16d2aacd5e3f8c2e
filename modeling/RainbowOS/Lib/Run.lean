import Mathlib.Tactic.Common

/-!
# Computations over a state that may stop or not end

A computation changes a state, and returns a value or stops.  If it contains loops that need not
end, it is given a number of rounds for each of them and has no result (`none`) if that was not
enough; so the computation itself is a family over the number of rounds.  `Run.Mono` says that more
rounds do not change a result.

`Run.Ends` is the total-correctness judgement for such a family: with enough rounds it ends, in a
value that satisfies the postcondition or in one of the stops that are allowed.  `Run.ends_bind` is
the rule for a sequence, which makes it a calculus of preconditions: what `x` followed by `f` asks
of the state is what `x` asks if its postcondition is what `f` asks.
-/

set_option autoImplicit false

/-- A computation over `σ` that returns an `α`, stops with an `ε`, or was given too few rounds. -/
abbrev Run (ε σ α : Type) : Type := ExceptT ε (StateT σ Option) α

namespace Run

variable {ε σ α β : Type} {s t : σ}

@[simp] theorem pure_apply (a : α) : (pure a : Run ε σ α) s = some (.ok a, s) := rfl

section Bind

variable {x : Run ε σ α} {f : α → Run ε σ β}

theorem bind_of_ok {a : α} (hx : x s = some (.ok a, t)) : (x >>= f) s = f a t := by
  change (x s).bind _ = _
  rw [hx]
  rfl

theorem bind_of_error {e : ε} (hx : x s = some (.error e, t)) :
    (x >>= f) s = some (.error e, t) := by
  change (x s).bind _ = _
  rw [hx]
  rfl

theorem bind_of_none (hx : x s = none) : (x >>= f) s = none := by
  change (x s).bind _ = _
  rw [hx]
  rfl

/-- A sequence returns only if both parts do. -/
theorem bind_eq_ok {b : β} {u : σ} :
    (x >>= f) s = some (.ok b, u) ↔
      ∃ a t, x s = some (.ok a, t) ∧ f a t = some (.ok b, u) := by
  constructor
  · intro h
    cases hx : x s with
    | none =>
      rw [bind_of_none hx] at h
      cases h
    | some res =>
      obtain ⟨res, t⟩ := res
      cases res with
      | error e =>
        rw [bind_of_error hx] at h
        cases h
      | ok a =>
        rw [bind_of_ok hx] at h
        exact ⟨a, t, rfl, h⟩
  · rintro ⟨a, t, hx, hf⟩
    rwa [bind_of_ok hx]

/-- A sequence stops where the first part does, or where the second one does after it. -/
theorem bind_eq_error {e : ε} {u : σ} :
    (x >>= f) s = some (.error e, u) ↔
      x s = some (.error e, u) ∨ ∃ a t, x s = some (.ok a, t) ∧ f a t = some (.error e, u) := by
  cases hx : x s with
  | none => simp [bind_of_none hx]
  | some res =>
    obtain ⟨res, t⟩ := res
    cases res with
    | error e' => simp [bind_of_error hx]
    | ok a => simp [bind_of_ok hx]

end Bind

variable {x : ℕ → Run ε σ α} {f : ℕ → α → Run ε σ β}

/-! ## The number of rounds -/

/-- More rounds do not change a result. -/
def Mono (x : ℕ → Run ε σ α) : Prop :=
  ∀ ⦃i j : ℕ⦄, i ≤ j → ∀ ⦃s r⦄, x i s = some r → x j s = some r

theorem mono_const (x : Run ε σ α) : Mono fun _ ↦ x := fun _ _ _ _ _ h ↦ h

theorem mono_bind (hx : Mono x) (hf : ∀ a, Mono fun i ↦ f i a) : Mono fun i ↦ x i >>= f i := by
  intro i j hij s r h
  dsimp only at h ⊢
  cases hi : x i s with
  | none =>
    rw [bind_of_none hi] at h
    cases h
  | some res =>
    obtain ⟨res, t⟩ := res
    cases res with
    | error e => rwa [bind_of_error (hx hij hi), ← bind_of_error (f := f i) hi]
    | ok a =>
      rw [bind_of_ok hi] at h
      rw [bind_of_ok (hx hij hi)]
      exact hf a hij h

/-- Two results of one computation are the same. -/
theorem Mono.unique (hx : Mono x) {i j : ℕ} {r r' : Except ε α × σ} (h : x i s = some r)
    (h' : x j s = some r') : r = r' := by
  have hi := hx (Nat.le_max_left i j) h
  rw [hx (Nat.le_max_right i j) h'] at hi
  exact (Option.some.inj hi).symm

/-! ## How a computation ends -/

/-- A value with the postcondition `P`, or an allowed stop. -/
def Outcome (allowed : ε → Prop) (P : α → Prop) : Except ε α → Prop
  | .ok a => P a
  | .error e => allowed e

@[simp] theorem outcome_ok {allowed : ε → Prop} {P : α → Prop} {a : α} :
    Outcome allowed P (.ok a) ↔ P a := Iff.rfl

@[simp] theorem outcome_error {allowed : ε → Prop} {P : α → Prop} {e : ε} :
    Outcome allowed P (.error e) ↔ allowed e := Iff.rfl

/-- With enough rounds, `x` ends from `s`, in a value with the postcondition `Q` or in an allowed
stop. -/
def Ends (allowed : ε → Prop) (Q : α → σ → Prop) (x : ℕ → Run ε σ α) (s : σ) : Prop :=
  ∃ i r t, x i s = some (r, t) ∧ Outcome allowed (Q · t) r

variable {allowed : ε → Prop} {Q : β → σ → Prop}

theorem ends_of_ok {P : α → σ → Prop} {i : ℕ} {a : α} (hx : Mono x) (h : x i s = some (.ok a, t)) :
    Ends allowed P x s ↔ P a t := by
  constructor
  · rintro ⟨j, r, u, hj, hr⟩
    obtain ⟨rfl, rfl⟩ := Prod.mk.inj (hx.unique hj h)
    exact hr
  · intro hP
    exact ⟨i, _, _, h, hP⟩

theorem ends_of_error {P : α → σ → Prop} {i : ℕ} {e : ε} (hx : Mono x)
    (h : x i s = some (.error e, t)) : Ends allowed P x s ↔ allowed e := by
  constructor
  · rintro ⟨j, r, u, hj, hr⟩
    obtain ⟨rfl, rfl⟩ := Prod.mk.inj (hx.unique hj h)
    exact hr
  · intro he
    exact ⟨i, _, _, h, he⟩

section First

variable {y : Run ε σ α}

/-- A sequence whose first part is known to return. -/
theorem ends_bind_of_ok {a : α} (hy : y s = some (.ok a, t)) :
    Ends allowed Q (fun i ↦ y >>= f i) s ↔ Ends allowed Q (fun i ↦ f i a) t := by
  simp only [Ends, bind_of_ok hy]

/-- A sequence whose first part is known to stop. -/
theorem ends_bind_of_error {e : ε} (hy : y s = some (.error e, t)) :
    Ends allowed Q (fun i ↦ y >>= f i) s ↔ allowed e := by
  simp only [Ends, bind_of_error hy]
  constructor
  · rintro ⟨-, r, u, hr, hout⟩
    obtain ⟨rfl, rfl⟩ := Prod.mk.inj (Option.some.inj hr)
    exact hout
  · intro he
    exact ⟨0, _, _, rfl, he⟩

end First

/-- **The rule for a sequence.** -/
theorem ends_bind (hx : Mono x) (hf : ∀ a, Mono fun i ↦ f i a) :
    Ends allowed Q (fun i ↦ x i >>= f i) s ↔
      Ends allowed (fun a t ↦ Ends allowed Q (fun i ↦ f i a) t) x s := by
  constructor
  · rintro ⟨i, r, u, hi, hr⟩
    dsimp only at hi
    cases hxi : x i s with
    | none =>
      rw [bind_of_none hxi] at hi
      cases hi
    | some res =>
      obtain ⟨res, t⟩ := res
      cases res with
      | error e =>
        rw [bind_of_error hxi] at hi
        obtain ⟨rfl, rfl⟩ := Prod.mk.inj (Option.some.inj hi)
        exact ⟨i, _, _, hxi, hr⟩
      | ok a =>
        rw [bind_of_ok hxi] at hi
        exact ⟨i, _, _, hxi, i, r, u, hi, hr⟩
  · rintro ⟨i, r, t, hi, hr⟩
    cases r with
    | error e => exact ⟨i, _, _, bind_of_error hi, hr⟩
    | ok a =>
      obtain ⟨j, r, u, hj, hr⟩ := hr
      refine ⟨max i j, r, u, ?_, hr⟩
      dsimp only
      rw [bind_of_ok (hx (Nat.le_max_left i j) hi)]
      exact hf a (Nat.le_max_right i j) hj

/-- Only the postconditions of the values that `x` does return matter. -/
theorem ends_congr {P P' : α → σ → Prop}
    (h : ∀ i a t, x i s = some (.ok a, t) → (P a t ↔ P' a t)) :
    Ends allowed P x s ↔ Ends allowed P' x s := by
  have hres : ∀ i r t, x i s = some (r, t) →
      (Outcome allowed (P · t) r ↔ Outcome allowed (P' · t) r) := by
    intro i r t hi
    cases r with
    | ok a => exact h i a t hi
    | error e => exact Iff.rfl
  constructor
  · rintro ⟨i, r, t, hi, hr⟩
    exact ⟨i, r, t, hi, (hres i r t hi).mp hr⟩
  · rintro ⟨i, r, t, hi, hr⟩
    exact ⟨i, r, t, hi, (hres i r t hi).mpr hr⟩

end Run
