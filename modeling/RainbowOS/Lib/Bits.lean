import Mathlib.Tactic.Common

/-!
# Masks

A word is tested with a mask, `x &&& mask ≠ 0`.  This file says what such a test means bit by bit.

* `Bits.and_ne_zero_iff` — some bit of the mask is set in the word.
* `Bits.getLsbD_ofNat_iff` — the bits of a constant mask, from a finite check.
* `Bits.and_bit_ne_zero_iff` — a mask of one bit.
-/

set_option autoImplicit false

namespace Bits

variable {w : ℕ}

/-- A mask tells whether one of its bits is set. -/
theorem and_ne_zero_iff (x mask : BitVec w) :
    x &&& mask ≠ 0 ↔ ∃ i, mask.getLsbD i = true ∧ x.getLsbD i = true := by
  refine ⟨fun hne ↦ ?_, ?_⟩
  · by_contra hnone
    refine hne (BitVec.eq_of_getLsbD_eq fun i hi ↦ ?_)
    rw [BitVec.getLsbD_and, BitVec.ofNat_eq_ofNat, BitVec.getLsbD_zero]
    by_contra hbit
    rw [Bool.not_eq_false, Bool.and_eq_true] at hbit
    exact hnone ⟨i, hbit.2, hbit.1⟩
  · rintro ⟨i, hmask, hx⟩ hzero
    have hbit : (x &&& mask).getLsbD i = true := by
      rw [BitVec.getLsbD_and, hx, hmask]
      rfl
    rw [hzero] at hbit
    simp at hbit

/-- The bits of a constant, found by trying them. -/
theorem getLsbD_ofNat_iff {v : ℕ} {p : ℕ → Prop}
    (h : ∀ i < w, (BitVec.ofNat w v).getLsbD i = true ↔ p i) (hp : ∀ i, p i → i < w) (i : ℕ) :
    (BitVec.ofNat w v).getLsbD i = true ↔ p i := by
  by_cases hi : i < w
  · exact h i hi
  · rw [BitVec.getLsbD_of_ge _ _ (Nat.le_of_not_lt hi)]
    exact iff_of_false Bool.false_ne_true fun hpi ↦ hi (hp i hpi)

/-- A mask of one bit tells whether it is set. -/
theorem and_bit_ne_zero_iff {x mask : BitVec w} {i : ℕ}
    (hmask : ∀ j, mask.getLsbD j = true ↔ j = i) : x &&& mask ≠ 0 ↔ x.getLsbD i = true := by
  simp only [and_ne_zero_iff, hmask, exists_eq_left]

/-- Bit 0. -/
theorem and_one_ne_zero_iff {x : BitVec 32} : x &&& 1 ≠ 0 ↔ x.getLsbD 0 = true :=
  and_bit_ne_zero_iff (getLsbD_ofNat_iff (by decide) fun i hi ↦ by omega)

end Bits
