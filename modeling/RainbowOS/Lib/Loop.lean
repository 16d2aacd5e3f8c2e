import Mathlib.Tactic.Common

/-!
# Loops that may not terminate

A loop whose exit depends on data read from outside need not terminate, so it has no value to give
it in a total language.  This file gives such a loop a meaning all the same: the body is a total
function that either goes on with a new state or leaves with a result, `Loop.run` iterates it for
a given number of rounds, and `Loop.Returns body s a` says that some number of rounds is enough to
leave with `a`.

* `Loop.Returns.unique` — a loop has at most one result, so `Returns` is a partial function.
* `Loop.Returns.of_done`, `Loop.Returns.of_next` — the total-correctness rules, for an induction on
  whatever the rounds use up.
* `Loop.not_returns_of_invariant` — the divergence rule: if an invariant makes the body go on
  for ever, the loop has no result.
* `Loop.states` — the states in which the rounds of the loop begin, for statements about what the
  loop does on its way; `Loop.run_of_path` and `Loop.states_of_path` follow it along a known path,
  and by `Loop.path_of_run` every run is one.  `Loop.exists_returns_iff` says when it is left.
-/

set_option autoImplicit false

universe u v

/-- What one round of a loop does: go on with a new state, or leave with a result. -/
inductive LoopStep (σ : Type u) (α : Type v) where
  /-- Another round, from this state. -/
  | next (s : σ)
  /-- The loop is left with this result. -/
  | done (a : α)

namespace Loop

variable {σ : Type u} {α : Type v} {body : σ → LoopStep σ α}

/-- The loop, run for at most the given number of rounds; `none` when that was not enough. -/
def run (body : σ → LoopStep σ α) : ℕ → σ → Option α
  | 0, _ => none
  | n + 1, s =>
    match body s with
    | .done a => some a
    | .next s' => run body n s'

/-- The loop started in `s` is left with the result `a`. -/
def Returns (body : σ → LoopStep σ α) (s : σ) (a : α) : Prop := ∃ n, run body n s = some a

theorem run_succ_of_done {s : σ} {a : α} (h : body s = .done a) (n : ℕ) :
    run body (n + 1) s = some a := by
  rw [run, h]

theorem run_succ_of_next {s s' : σ} (h : body s = .next s') (n : ℕ) :
    run body (n + 1) s = run body n s' := by
  rw [run, h]

/-- A loop that has been left stays left: more rounds do not change the result. -/
theorem run_mono {n k : ℕ} (hnk : n ≤ k) {s : σ} {a : α} (h : run body n s = some a) :
    run body k s = some a := by
  induction n generalizing k s with
  | zero => simp [run] at h
  | succ n ih =>
    obtain ⟨k, rfl⟩ : ∃ j, k = j + 1 := ⟨k - 1, by omega⟩
    cases hb : body s with
    | done b =>
      rw [run_succ_of_done hb] at h ⊢
      exact h
    | next s' =>
      rw [run_succ_of_next hb] at h ⊢
      exact ih (by omega) h

theorem Returns.of_done {s : σ} {a : α} (h : body s = .done a) : Returns body s a :=
  ⟨1, run_succ_of_done h 0⟩

theorem Returns.of_next {s s' : σ} {a : α} (h : body s = .next s') (hr : Returns body s' a) :
    Returns body s a := by
  obtain ⟨n, hn⟩ := hr
  exact ⟨n + 1, (run_succ_of_next h n).trans hn⟩

/-- **A loop has at most one result.** -/
theorem Returns.unique {s : σ} {a b : α} (ha : Returns body s a) (hb : Returns body s b) :
    a = b := by
  obtain ⟨n, hn⟩ := ha
  obtain ⟨k, hk⟩ := hb
  have h := run_mono (Nat.le_max_left n k) hn
  rw [run_mono (Nat.le_max_right n k) hk] at h
  exact (Option.some.inj h).symm

theorem Returns.iff_eq {s : σ} {a b : α} (ha : Returns body s a) : Returns body s b ↔ b = a :=
  ⟨fun hb ↦ hb.unique ha, fun h ↦ h ▸ ha⟩

theorem returns_iff_of_next {s s' : σ} {a : α} (h : body s = .next s') :
    Returns body s a ↔ Returns body s' a := by
  refine ⟨fun ⟨n, hn⟩ ↦ ?_, .of_next h⟩
  cases n with
  | zero => simp [run] at hn
  | succ n => exact ⟨n, (run_succ_of_next h n).symm.trans hn⟩

/-! ## The states on the way -/

/-- The states in which the first rounds of the loop begin. -/
def states (body : σ → LoopStep σ α) : ℕ → σ → List σ
  | 0, _ => []
  | n + 1, s => s :: match body s with
    | .done _ => []
    | .next s' => states body n s'

theorem states_succ_of_done {s : σ} {a : α} (h : body s = .done a) (n : ℕ) :
    states body (n + 1) s = [s] := by
  rw [states, h]

theorem states_succ_of_next {s s' : σ} (h : body s = .next s') (n : ℕ) :
    states body (n + 1) s = s :: states body n s' := by
  rw [states, h]

/-- What every round keeps holds in every state on the way. -/
theorem forall_states {Inv : σ → Prop} (hnext : ∀ s s', Inv s → body s = .next s' → Inv s') (n : ℕ)
    {s : σ} (hs : Inv s) : ∀ t ∈ states body n s, Inv t := by
  induction n generalizing s with
  | zero => exact fun t ht ↦ absurd ht List.not_mem_nil
  | succ n ih =>
    cases hb : body s with
    | done a =>
      rw [states_succ_of_done hb]
      exact List.forall_mem_singleton.mpr hs
    | next s' =>
      rw [states_succ_of_next hb]
      exact List.forall_mem_cons.mpr ⟨hs, ih (hnext s s' hs hb)⟩

/-- Along a path the rounds are used up one by one. -/
theorem run_of_path {f : ℕ → σ} {k : ℕ} (hpath : ∀ j < k, body (f j) = .next (f (j + 1))) (n : ℕ) :
    run body (k + n) (f 0) = run body n (f k) := by
  induction k generalizing n with
  | zero => rw [Nat.zero_add]
  | succ k ih =>
    rw [Nat.add_assoc, ih (fun j hj ↦ hpath j (Nat.lt_succ_of_lt hj)) (1 + n), Nat.add_comm 1 n,
      run_succ_of_next (hpath k (Nat.lt_succ_self k))]

theorem states_of_path {f : ℕ → σ} {k : ℕ} (hpath : ∀ j < k, body (f j) = .next (f (j + 1)))
    (n : ℕ) : states body (k + n) (f 0) = (List.range k).map f ++ states body n (f k) := by
  induction k generalizing n with
  | zero => rw [Nat.zero_add, List.range_zero, List.map_nil, List.nil_append]
  | succ k ih =>
    rw [Nat.add_assoc, ih (fun j hj ↦ hpath j (Nat.lt_succ_of_lt hj)) (1 + n), Nat.add_comm 1 n,
      states_succ_of_next (hpath k (Nat.lt_succ_self k)), List.range_succ, List.map_append,
      List.append_assoc]
    rfl

/-- Every run is a path, at the end of which the loop is left. -/
theorem path_of_run {n : ℕ} {s : σ} {a : α} (h : run body n s = some a) :
    ∃ (f : ℕ → σ) (k : ℕ), f 0 = s ∧ k < n ∧ (∀ j < k, body (f j) = .next (f (j + 1))) ∧
      body (f k) = .done a := by
  induction n generalizing s with
  | zero => cases h
  | succ n ih =>
    cases hb : body s with
    | done b =>
      rw [run_succ_of_done hb] at h
      exact ⟨fun _ ↦ s, 0, rfl, n.succ_pos, fun j hj ↦ absurd hj j.not_lt_zero,
        hb.trans (congrArg LoopStep.done (Option.some.inj h))⟩
    | next s' =>
      rw [run_succ_of_next hb] at h
      obtain ⟨f, k, rfl, hk, hpath, hdone⟩ := ih h
      refine ⟨fun | 0 => s | j + 1 => f j, k + 1, rfl, Nat.succ_lt_succ hk, fun j hj ↦ ?_, hdone⟩
      cases j with
      | zero => exact hb
      | succ j => exact hpath j (Nat.lt_of_succ_lt_succ hj)

/-- **When a loop is left**, if the states in which it would go on are known: exactly if one of them
is such that it is left there. -/
theorem exists_returns_iff {f : ℕ → σ} (hf : ∀ i s, body (f i) = .next s → s = f (i + 1)) :
    (∃ a, Returns body (f 0) a) ↔ ∃ k a, body (f k) = .done a := by
  constructor
  · rintro ⟨a, n, hrun⟩
    obtain ⟨g, k, hstart, -, hpath, hdone⟩ := path_of_run hrun
    have hsame : ∀ i ≤ k, g i = f i := by
      intro i hi
      induction i with
      | zero => exact hstart
      | succ i ih =>
        have hnext := hpath i hi
        rw [ih (Nat.le_of_succ_le hi)] at hnext
        exact hf i _ hnext
    exact ⟨k, a, hsame k (Nat.le_refl k) ▸ hdone⟩
  · rintro ⟨k, a, hdone⟩
    induction k generalizing f with
    | zero => exact ⟨a, .of_done hdone⟩
    | succ k ih =>
      cases hb : body (f 0) with
      | done b => exact ⟨b, .of_done hb⟩
      | next s =>
        obtain rfl := hf 0 s hb
        obtain ⟨b, hreturns⟩ := ih (fun i s h ↦ hf (i + 1) s h) hdone
        exact ⟨b, .of_next hb hreturns⟩

/-- A loop that is left at the end of a path has been in the states of the path. -/
theorem states_of_path_done {f : ℕ → σ} {k n : ℕ} {a : α}
    (hpath : ∀ j < k, body (f j) = .next (f (j + 1))) (hdone : body (f k) = .done a) (hn : k < n) :
    states body n (f 0) = (List.range (k + 1)).map f := by
  obtain ⟨i, rfl⟩ := Nat.exists_eq_add_of_lt hn
  rw [Nat.add_assoc, states_of_path hpath, states_succ_of_done hdone, List.range_succ,
    List.map_append]
  rfl

/-- A loop that is left has come to the end of every path from its start. -/
theorem mem_states_of_path {f : ℕ → σ} {k n : ℕ} {a : α}
    (hpath : ∀ j < k, body (f j) = .next (f (j + 1))) (h : run body n (f 0) = some a) :
    f k ∈ states body n (f 0) := by
  have hlt : k < n := by
    by_contra hge
    have hk := run_mono (Nat.le_of_not_lt hge) h
    rw [← Nat.add_zero k, run_of_path hpath] at hk
    cases hk
  obtain ⟨i, rfl⟩ := Nat.exists_eq_add_of_lt hlt
  rw [Nat.add_assoc, states_of_path hpath, states]
  exact List.mem_append_right _ List.mem_cons_self

/-- Two bodies that agree in the states on the way run alike. -/
theorem run_congr {body' : σ → LoopStep σ α} {n : ℕ} {s : σ}
    (h : ∀ t ∈ states body n s, body' t = body t) : run body' n s = run body n s := by
  induction n generalizing s with
  | zero => rfl
  | succ n ih =>
    have hs : body' s = body s := h s List.mem_cons_self
    cases hb : body s with
    | done a => rw [run_succ_of_done hb, run_succ_of_done (hs.trans hb)]
    | next s' =>
      rw [run_succ_of_next hb, run_succ_of_next (hs.trans hb)]
      refine ih fun t ht ↦ h t ?_
      rw [states_succ_of_next hb]
      exact List.mem_cons_of_mem _ ht

/-- **Divergence**: a loop whose invariant makes it go on in every round has no result. -/
theorem not_returns_of_invariant {Inv : σ → Prop}
    (hnext : ∀ s, Inv s → ∃ s', body s = .next s' ∧ Inv s') {s : σ} (hs : Inv s) (a : α) :
    ¬ Returns body s a := by
  rintro ⟨n, hn⟩
  induction n generalizing s with
  | zero => simp [run] at hn
  | succ n ih =>
    obtain ⟨s', hb, hs'⟩ := hnext s hs
    rw [run_succ_of_next hb] at hn
    exact ih hs' hn

/-- A state that the body does not change is never left. -/
theorem not_returns_of_fixed {s : σ} (h : body s = .next s) (a : α) : ¬ Returns body s a :=
  not_returns_of_invariant (fun t (ht : t = s) ↦ ⟨s, ht ▸ h, rfl⟩) rfl a

end Loop
