import RainbowOS.Fat32.Layout
import RainbowOS.Lib.Run

/-!
# Operations on the heap

An operation of the loader is an `Op`: it changes the heap, and returns or stops.  The state of the
heap remembers whether a request has been refused, for the statements about refusals; no operation
looks at that.

Beside each way to make an operation stands its rule for `Run.Ends`.
-/

set_option autoImplicit false

namespace RainbowOS

/-- The heap during an operation. -/
structure Heap (σ : Type) where
  /-- The state of the allocator. -/
  state : σ
  /-- Has a request been refused? -/
  refused : Bool

/-- An operation: `none` when a loop was not left in the rounds it was given. -/
abbrev Op (σ α : Type) : Type := Run Stop (Heap σ) α

namespace Op

variable {σ α β : Type}

/-- `new uint8_t[size]`. -/
def new (A : Allocator σ) (size : BitVec 32) : Op σ (Option Bytes) := fun h ↦
  let r := A.alloc h.state size
  some (.ok r.1, ⟨r.2, h.refused || r.1.isNone⟩)

/-- A computation that does not touch the heap. -/
def ofExec (r : Exec α) : Op σ α := fun h ↦ some (r, h)

/-- A loop that does not touch the heap. -/
def ofLoop (r : Option (Exec α)) : Op σ α := fun h ↦ r.map fun r ↦ (r, h)

/-- A loop that does not touch the heap and does not stop. -/
def loop (r : Option α) : Op σ α := ofLoop (r.map .ok)

/-- `if (c) earlyPanic(msg)`. -/
def panicIf (c : Prop) [Decidable c] (msg : String) : Op σ Unit :=
  ofExec (if c then .error (.earlyPanic msg) else .ok ())

variable {h t : Heap σ}

/-! ## What they return -/

theorem new_of_some {A : Allocator σ} {size : BitVec 32} {b : Bytes}
    (hb : (A.alloc h.state size).1 = some b) :
    new A size h = some (.ok (some b), ⟨(A.alloc h.state size).2, h.refused⟩) := by
  simp [new, hb]

theorem new_of_none {A : Allocator σ} {size : BitVec 32} (hb : (A.alloc h.state size).1 = none) :
    new A size h = some (.ok none, ⟨(A.alloc h.state size).2, true⟩) := by
  simp [new, hb]

@[simp] theorem ofExec_apply (r : Exec α) : (ofExec r : Op σ α) h = some (r, h) := rfl

theorem ofExec_eq_ok {r : Exec α} {a : α} : ofExec r h = some (.ok a, t) ↔ r = .ok a ∧ h = t := by
  rw [ofExec_apply, Option.some.injEq, Prod.mk.injEq]

theorem ofLoop_eq_ok {r : Option (Exec α)} {a : α} :
    ofLoop r h = some (.ok a, t) ↔ r = some (.ok a) ∧ h = t := by
  cases r with
  | none => simp [ofLoop]
  | some r => simp [ofLoop]

theorem loop_eq_ok {r : Option α} {a : α} : loop r h = some (.ok a, t) ↔ r = some a ∧ h = t := by
  rw [loop, ofLoop_eq_ok]
  cases r with
  | none => simp
  | some b => simp

theorem panicIf_eq_ok {c : Prop} [Decidable c] {msg : String} {u : Unit} :
    panicIf c msg h = some (.ok u, t) ↔ ¬ c ∧ h = t := by
  rw [panicIf, ofExec_eq_ok]
  by_cases hc : c
  · simp [hc]
  · simp [hc]

/-! ## Their rules -/

variable {allowed : Stop → Prop} {Q : α → Heap σ → Prop} {f : ℕ → α → Op σ β}
  {Q' : β → Heap σ → Prop}

theorem ends_ofExec {r : Exec α} :
    Run.Ends allowed Q (fun _ ↦ ofExec r) h ↔ Run.Outcome allowed (Q · h) r := by
  cases r with
  | ok a => exact Run.ends_of_ok (i := 0) (Run.mono_const _) (ofExec_apply _)
  | error stop => exact Run.ends_of_error (i := 0) (Run.mono_const _) (ofExec_apply _)

theorem ends_ofLoop {x : ℕ → Option (Exec α)} :
    Run.Ends allowed Q (fun i ↦ ofLoop (x i)) h ↔
      ∃ i r, x i = some r ∧ Run.Outcome allowed (Q · h) r := by
  constructor
  · rintro ⟨i, r, t, hi, hr⟩
    obtain ⟨r', hr', heq⟩ := Option.map_eq_some_iff.mp hi
    obtain ⟨rfl, rfl⟩ := Prod.mk.inj heq
    exact ⟨i, r', hr', hr⟩
  · rintro ⟨i, r, hi, hr⟩
    exact ⟨i, r, h, Option.map_eq_some_iff.mpr ⟨r, hi, rfl⟩, hr⟩

theorem mono_ofLoop {x : ℕ → Option (Exec α)}
    (hx : ∀ ⦃i j⦄, i ≤ j → ∀ ⦃r⦄, x i = some r → x j = some r) :
    Run.Mono fun i ↦ (ofLoop (x i) : Op σ α) := by
  intro i j hij h r hi
  obtain ⟨r', hr', rfl⟩ := Option.map_eq_some_iff.mp hi
  exact Option.map_eq_some_iff.mpr ⟨r', hx hij hr', rfl⟩

theorem mono_loop {x : ℕ → Option α} (hx : ∀ ⦃i j⦄, i ≤ j → ∀ ⦃a⦄, x i = some a → x j = some a) :
    Run.Mono fun i ↦ (loop (x i) : Op σ α) := by
  refine mono_ofLoop fun i j hij r hi ↦ ?_
  obtain ⟨a, ha, rfl⟩ := Option.map_eq_some_iff.mp hi
  exact Option.map_eq_some_iff.mpr ⟨a, hx hij ha, rfl⟩

theorem ends_loop {x : ℕ → Option α} :
    Run.Ends allowed Q (fun i ↦ loop (x i)) h ↔ ∃ i a, x i = some a ∧ Q a h := by
  simp only [loop, ends_ofLoop, Option.map_eq_some_iff]
  constructor
  · rintro ⟨i, -, ⟨a, ha, rfl⟩, hQ⟩
    exact ⟨i, a, ha, hQ⟩
  · rintro ⟨i, a, ha, hQ⟩
    exact ⟨i, _, ⟨a, ha, rfl⟩, hQ⟩

theorem ends_panicIf_bind {c : Prop} [Decidable c] {msg : String} {f : ℕ → Unit → Op σ β} :
    Run.Ends Stop.IsPanic Q' (fun i ↦ panicIf c msg >>= f i) h ↔
      (¬ c → Run.Ends Stop.IsPanic Q' (fun i ↦ f i ()) h) := by
  by_cases hc : c
  · rw [panicIf, if_pos hc, Run.ends_bind_of_error (ofExec_apply _)]
    exact iff_of_true trivial (absurd hc)
  · rw [panicIf, if_neg hc, Run.ends_bind_of_ok (ofExec_apply _), forall_prop_of_true hc]

end Op

end RainbowOS
