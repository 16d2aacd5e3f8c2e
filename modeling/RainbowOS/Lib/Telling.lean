import RainbowOS.Lib.Run

/-!
# What a computation is to put out

`Telling ω ν α` is what can be said about a computation from outside: what it puts out, and then the
value that it returns or the verdict in which it ends, if it comes to an end at all.  It says
nothing about a state.  `Verdicts P` holds of a telling whose verdict, if it has one, is among `P`.

`Run.Follows Before After Final x a` is the simulation between the two: the computation `x` over a
state puts out what `a` tells, where `Before l` and `After l` hold of the states in front of it and
behind it when `l` has been put out, and `Final l v` of those in which `l` is all and `v` the
verdict.
`Run.follows_bind` is the rule for a sequence.
-/

set_option autoImplicit false

/-- What is put out, and a value or a verdict; `none` is a computation that does not end. -/
def Telling (ω ν α : Type) : Type :=
  Option (List ω × Except ν α)

namespace Telling

variable {ω ν α β : Type}

/-- `f` behind `a`. -/
def bind (a : Telling ω ν α) (f : α → Telling ω ν β) : Telling ω ν β :=
  match a with
  | none => none
  | some (l, .error verdict) => some (l, .error verdict)
  | some (l, .ok x) => (f x).map fun r ↦ (l ++ r.1, r.2)

instance : Monad (Telling ω ν) where
  pure x := some ([], .ok x)
  bind := bind

/-- Something is put out. -/
def tell (l : List ω) : Telling ω ν Unit := some (l, .ok ())

/-- The end. -/
def verdict (v : ν) : Telling ω ν α := some ([], .error v)

/-- A verdict can only be one of these. -/
def Verdicts (P : ν → Prop) (a : Telling ω ν α) : Prop :=
  ∀ l v, a = some (l, .error v) → P v

variable {P : ν → Prop} {a : Telling ω ν α} {f : α → Telling ω ν β}

/-- What a sequence tells. -/
theorem bind_of_eq {l l' : List ω} {x : α} {r : Except ν β} (ha : a = some (l, .ok x))
    (hf : f x = some (l', r)) : a >>= f = some (l ++ l', r) := by
  rw [ha]
  exact congrArg (Option.map fun r ↦ (l ++ r.1, r.2)) hf

/-- A sequence does not end where its first part does not, or the second behind it. -/
theorem bind_eq_none_iff :
    a >>= f = none ↔ a = none ∨ ∃ l x, a = some (l, .ok x) ∧ f x = none := by
  obtain _ | ⟨l, v | x⟩ := a
  · exact iff_of_true rfl (.inl rfl)
  · refine iff_of_false (fun h ↦ ?_) ?_
    · cases h
    · rintro (h | ⟨l', x, h, -⟩) <;> cases h
  · constructor
    · exact fun h ↦ .inr ⟨l, x, rfl, Option.map_eq_none_iff.mp h⟩
    · rintro (h | ⟨l', x', h, hnone⟩) <;> cases h
      exact Option.map_eq_none_iff.mpr hnone

theorem verdicts_tell (l : List ω) : Verdicts P (tell l) := by
  intro l' v h
  cases h

theorem Verdicts.bind (ha : Verdicts P a) (hf : ∀ l x, a = some (l, .ok x) → Verdicts P (f x)) :
    Verdicts P (a >>= f) := by
  intro l v h
  obtain _ | ⟨l', v' | x⟩ := a
  · cases h
  · obtain ⟨-, hv⟩ := Prod.mk.inj (Option.some.inj h)
    rw [← Except.error.inj hv]
    exact ha l' v' rfl
  · obtain ⟨⟨l'', r⟩, hr, hl⟩ := Option.map_eq_some_iff.mp h
    obtain ⟨-, rfl⟩ := Prod.mk.inj hl
    exact hf l' x rfl l'' v hr

end Telling

namespace Run

variable {ε σ α β ω ν : Type} {Before After Said : List ω → σ → Prop}
  {Final : List ω → ν → ε → σ → Prop}

/-- A result is as it has been told, behind what had been put out before. -/
def Result (After : List ω → σ → Prop) (Final : List ω → ν → ε → σ → Prop) (l : List ω)
    (r : Option (Except ε α × σ)) : Telling ω ν α → Prop
  | none => r = none
  | some (l', .ok a) => ∃ t, r = some (.ok a, t) ∧ After (l ++ l') t
  | some (l', .error v) => ∃ e t, r = some (.error e, t) ∧ Final (l ++ l') v e t

/-- `x` does what `a` tells. -/
def Follows (Before After : List ω → σ → Prop) (Final : List ω → ν → ε → σ → Prop)
    (x : Run ε σ α) (a : Telling ω ν α) : Prop :=
  ∀ l s, Before l s → Result After Final l (x s) a

/-- **The rule for a sequence.** -/
theorem follows_bind {x : Run ε σ α} {a : Telling ω ν α} {f : α → Run ε σ β}
    {g : α → Telling ω ν β} (hx : Follows Before Said Final x a)
    (hf : ∀ l y, a = some (l, .ok y) → Follows Said After Final (f y) (g y)) :
    Follows Before After Final (x >>= f) (a >>= g) := by
  intro l s hs
  have hresult := hx l s hs
  obtain _ | ⟨l', v | y⟩ := a
  · exact bind_of_none hresult
  · obtain ⟨e, t, hrun, hfinal⟩ := hresult
    exact ⟨e, t, bind_of_error hrun, hfinal⟩
  · obtain ⟨t, hrun, hsaid⟩ := hresult
    have hnext := hf l' y rfl (l ++ l') t hsaid
    rw [← bind_of_ok (f := f) hrun] at hnext
    change Result After Final l _ ((g y).map fun r ↦ (l' ++ r.1, r.2))
    generalize g y = b at hnext ⊢
    obtain _ | ⟨l'', v | z⟩ := b
    · exact hnext
    · obtain ⟨e, u, hrun', hfinal⟩ := hnext
      exact ⟨e, u, hrun', List.append_assoc l l' l'' ▸ hfinal⟩
    · obtain ⟨u, hrun', hsaid'⟩ := hnext
      exact ⟨u, hrun', List.append_assoc l l' l'' ▸ hsaid'⟩

/-- What is not told. -/
theorem follows_bind_of_silent {x : Run ε σ Unit} {f : Unit → Run ε σ β} {b : Telling ω ν β}
    (hx : ∀ l s, Before l s → ∃ t, x s = some (.ok (), t) ∧ Said l t)
    (hf : Follows Said After Final (f ()) b) : Follows Before After Final (x >>= f) b := by
  intro l s hs
  obtain ⟨t, hrun, hsaid⟩ := hx l s hs
  rw [bind_of_ok hrun]
  exact hf l t hsaid

/-- The same behind what is told. -/
theorem follows_then_silent {x : Run ε σ Unit} {f : Unit → Run ε σ Unit} {a : Telling ω ν Unit}
    (hx : Follows Before Said Final x a)
    (hf : ∀ l s, Said l s → ∃ t, f () s = some (.ok (), t) ∧ After l t) :
    Follows Before After Final (x >>= f) a := by
  intro l s hs
  have hresult := hx l s hs
  obtain _ | ⟨l', v | y⟩ := a
  · exact bind_of_none hresult
  · obtain ⟨e, t, hrun, hfinal⟩ := hresult
    exact ⟨e, t, bind_of_error hrun, hfinal⟩
  · obtain ⟨t, hrun, hsaid⟩ := hresult
    obtain ⟨u, hrun', hafter⟩ := hf _ t hsaid
    exact ⟨u, (bind_of_ok hrun).trans hrun', hafter⟩

/-- What is behind the end does not matter. -/
theorem follows_bind_of_verdict {x : Run ε σ α} {l : List ω} {v : ν} {f : α → Run ε σ β}
    (hx : Follows Before After Final x (some (l, .error v))) :
    Follows Before After Final (x >>= f) (some (l, .error v) : Telling ω ν β) := by
  intro l' s hs
  obtain ⟨e, t, hrun, hfinal⟩ := hx l' s hs
  exact ⟨e, t, bind_of_error hrun, hfinal⟩

end Run
