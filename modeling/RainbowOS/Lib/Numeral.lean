import Mathlib.Data.Nat.Digits.Lemmas

/-!
# Numerals

A number is written down in a base as the list of its digits, the most significant one first and
without leading zeros, where zero is written `[0]`.  `Nat.digits` has them the other way around and
writes zero as the empty list.

* `Numeral.isNumeral_digits` — `Numeral.digits` are a numeral of the number.
* `Numeral.read_eq` — digit by digit reading gives the positional value.
-/

set_option autoImplicit false

namespace Numeral

variable {b n d : ℕ} {ds : List ℕ}

/-- The digits are the numeral of `n` in base `b`. -/
structure IsNumeral (b n : ℕ) (ds : List ℕ) : Prop where
  nonempty : ds ≠ []
  lt_base : ∀ d ∈ ds, d < b
  /-- Only zero begins with the digit zero. -/
  leading : ds.head? = some 0 → n = 0 ∧ ds = [0]
  value : Nat.ofDigits b ds.reverse = n

/-- The digits of a number. -/
def digits (b n : ℕ) : List ℕ := if n = 0 then [0] else (Nat.digits b n).reverse

theorem digits_of_ne (hn : n ≠ 0) : digits b n = (Nat.digits b n).reverse := if_neg hn

theorem isNumeral_digits (hb : 1 < b) (n : ℕ) : IsNumeral b n (digits b n) := by
  by_cases hn : n = 0
  · subst hn
    refine ⟨List.cons_ne_nil 0 [], fun d hd ↦ ?_, fun _ ↦ ⟨rfl, rfl⟩, Nat.ofDigits_singleton⟩
    obtain rfl : d = 0 := List.mem_singleton.mp hd
    omega
  · have hne := Nat.digits_ne_nil_iff_ne_zero (b := b).mpr hn
    rw [digits_of_ne hn]
    refine ⟨mt List.reverse_eq_nil_iff.mp hne, fun d hd ↦ ?_, fun hhead ↦ ?_, ?_⟩
    · exact Nat.digits_lt_base hb (List.mem_reverse.mp hd)
    · rw [List.head?_reverse, List.getLast?_eq_some_getLast hne, Option.some.injEq] at hhead
      exact absurd hhead (Nat.getLast_digit_ne_zero b hn)
    · rw [List.reverse_reverse, Nat.ofDigits_digits]

/-- A number has no more digits than its bound. -/
theorem length_digits_le {k : ℕ} (hb : 1 < b) (hk : 0 < k) (hn : n < b ^ k) :
    (digits b n).length ≤ k := by
  by_cases h : n = 0
  · rw [digits, if_pos h]
    exact hk
  · rw [digits_of_ne h, List.length_reverse, Nat.digits_length_le_iff hb]
    exact hn

/-- Read one digit after the other. -/
def read (b : ℕ) (ds : List ℕ) (acc : ℕ) : ℕ := ds.foldl (fun acc d ↦ b * acc + d) acc

theorem read_eq (b : ℕ) (ds : List ℕ) (acc : ℕ) :
    read b ds acc = Nat.ofDigits b ds.reverse + b ^ ds.length * acc := by
  induction ds generalizing acc with
  | nil => simp [read]
  | cons d ds ih =>
    rw [read, List.foldl_cons, ← read, ih, Nat.ofDigits_reverse_cons, List.length_cons]
    ring

end Numeral
