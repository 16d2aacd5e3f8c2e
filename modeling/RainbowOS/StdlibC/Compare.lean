import Mathlib.Data.Int.Notation
import RainbowOS.StdlibC.CString

/-!
# `memcmp`

The comparison loop of `lib/stdlibC/string.c` on the bytes of two objects, behind which it may not
look.
-/

set_option autoImplicit false

namespace RainbowOS

/-- `memcmp(ptr1, ptr2, size)`. -/
def memcmp : (ptr1 ptr2 : Bytes) → (size : ℕ) → Exec ℤ
  | _, _, 0 => .ok 0
  | a :: as, b :: bs, size + 1 =>
    if a < b then .ok (-1) else if b < a then .ok 1 else memcmp as bs size
  | [], _, _ + 1 => .error .outOfBounds
  | _ :: _, [], _ + 1 => .error .outOfBounds

variable {s t : Bytes} {n : ℕ}

/-- Inside two objects `memcmp` tells equal from different. -/
theorem memcmp_spec (hs : n ≤ s.length) (ht : n ≤ t.length) :
    ∃ c, memcmp s t n = .ok c ∧ (c = 0 ↔ s.take n = t.take n) := by
  induction n generalizing s t with
  | zero => exact ⟨0, by rw [memcmp], iff_of_true rfl rfl⟩
  | succ n ih =>
    obtain ⟨a, as, rfl⟩ := List.exists_cons_of_length_pos (Nat.lt_of_lt_of_le n.succ_pos hs)
    obtain ⟨b, bs, rfl⟩ := List.exists_cons_of_length_pos (Nat.lt_of_lt_of_le n.succ_pos ht)
    rw [memcmp, List.take_succ_cons, List.take_succ_cons, List.cons.injEq]
    by_cases hlt : a < b
    · refine ⟨-1, if_pos hlt, iff_of_false (by decide) fun h ↦ ?_⟩
      exact BitVec.lt_irrefl b (h.1 ▸ hlt)
    · rw [if_neg hlt]
      by_cases hgt : b < a
      · refine ⟨1, if_pos hgt, iff_of_false (by decide) fun h ↦ ?_⟩
        exact BitVec.lt_irrefl b (h.1 ▸ hgt)
      · obtain rfl : a = b := BitVec.le_antisymm (BitVec.not_lt.mp hgt) (BitVec.not_lt.mp hlt)
        rw [if_neg hgt, and_iff_right rfl]
        exact ih (Nat.le_of_succ_le_succ hs) (Nat.le_of_succ_le_succ ht)

/-- A string ends inside its array. -/
theorem length_of_strlen (h : strlen s = .ok n) : n < s.length := by
  induction s generalizing n with
  | nil => cases h
  | cons c s ih =>
    rw [strlen] at h
    by_cases hc : c = 0
    · rw [if_pos hc, Except.ok.injEq] at h
      exact h ▸ Nat.zero_lt_succ _
    · rw [if_neg hc] at h
      cases hs : strlen s with
      | error e => rw [hs] at h; cases h
      | ok k =>
        rw [hs] at h
        obtain rfl : k + 1 = n := Except.ok.inj h
        exact Nat.succ_lt_succ (ih hs)

end RainbowOS
