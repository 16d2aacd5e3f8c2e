import Mathlib.Data.List.Lex

/-!
# Words and their first difference

A word ends in a letter that occurs nowhere else in it, so no word is the beginning of another one:
two words that are not the same have a first place at which they differ, and there both of them
have a letter.  `firstDiff` finds the two letters, and whatever goes through two words letter by
letter is decided by them.

* `Lexicographic.Compared` — the ways in which a comparison of two words can go.  `compared` says
  that there are no others, so a statement about two words is an induction with five cases.
* `Lexicographic.Compared.eq_none_iff` — words without a first difference are the same.
* `Lexicographic.Compared.map_lt_iff` — under every injective key the lexicographic order of two
  words is the order of the keys of their first different letters.
-/

set_option autoImplicit false

namespace Lexicographic

universe u v

variable {α : Type u} {β : Type v} {z : α} {s t : List α} {p : Option (α × α)}

/-- The first two letters that are different and at the same place. -/
def firstDiff [DecidableEq α] : List α → List α → Option (α × α)
  | a :: s, b :: t => if a = b then firstDiff s t else some (a, b)
  | _, _ => none

/-- The words `s ++ [z]` and `t ++ [z]` have the first difference `p`. -/
inductive Compared (z : α) : List α → List α → Option (α × α) → Prop where
  /-- Both words end. -/
  | ended : Compared z [] [] none
  /-- The first word ends. -/
  | left {b : α} {t : List α} (hb : b ≠ z) : Compared z [] (b :: t) (some (z, b))
  /-- The second word ends. -/
  | right {a : α} {s : List α} (ha : a ≠ z) : Compared z (a :: s) [] (some (a, z))
  /-- The first letters differ. -/
  | differ {a b : α} {s t : List α} (ha : a ≠ z) (hb : b ≠ z) (hab : a ≠ b) :
    Compared z (a :: s) (b :: t) (some (a, b))
  /-- The first letters are the same. -/
  | agree {a : α} {s t : List α} {p : Option (α × α)} (ha : a ≠ z) (h : Compared z s t p) :
    Compared z (a :: s) (a :: t) p

theorem compared [DecidableEq α] (hs : z ∉ s) (ht : z ∉ t) :
    Compared z s t (firstDiff (s ++ [z]) (t ++ [z])) := by
  induction s generalizing t with
  | nil =>
    cases t with
    | nil => simpa [firstDiff] using Compared.ended
    | cons b t =>
      have hb : b ≠ z := fun h ↦ ht (h ▸ List.mem_cons_self)
      simpa [firstDiff, hb.symm] using Compared.left hb
  | cons a s ih =>
    have ha : a ≠ z := fun h ↦ hs (h ▸ List.mem_cons_self)
    cases t with
    | nil => simpa [firstDiff, ha] using Compared.right ha
    | cons b t =>
      have hb : b ≠ z := fun h ↦ ht (h ▸ List.mem_cons_self)
      by_cases hab : a = b
      · subst hab
        have hrest := ih (fun h ↦ hs (List.mem_cons_of_mem a h))
          (fun h ↦ ht (List.mem_cons_of_mem a h))
        simpa [firstDiff] using Compared.agree ha hrest
      · simpa [firstDiff, hab] using Compared.differ ha hb hab

namespace Compared

/-- Words are the same exactly if they have no first difference. -/
theorem eq_none_iff (h : Compared z s t p) : p = none ↔ s = t := by
  induction h with
  | ended => simp
  | left hb => simp
  | right ha => simp
  | differ ha hb hab => simp [hab]
  | agree ha h ih => simpa using ih

theorem fst_ne_snd {a b : α} (h : Compared z s t p) (hp : p = some (a, b)) : a ≠ b := by
  induction h with
  | ended => cases hp
  | left hb =>
    cases hp
    exact hb.symm
  | right ha =>
    cases hp
    exact ha
  | differ ha hb hab =>
    cases hp
    exact hab
  | agree ha h ih => exact ih hp

/-- **The first difference decides the order.** -/
theorem map_lt_iff [Preorder β] (key : α → β) (hkey : Function.Injective key)
    (h : Compared z s t p) : (s ++ [z]).map key < (t ++ [z]).map key ↔
      ∃ a b, p = some (a, b) ∧ key a < key b := by
  have hcons : ∀ {a b : α} (u w : List β), a ≠ b →
      (key a :: u < key b :: w ↔ key a < key b) := by
    intro a b u w hab
    rw [List.cons_lt_cons_iff]
    exact or_iff_left fun heq ↦ hab (hkey heq.1)
  induction h with
  | ended => simp
  | left hb => simpa using hcons _ _ hb.symm
  | right ha => simpa using hcons _ _ ha
  | differ ha hb hab => simpa using hcons _ _ hab
  | agree ha h ih => simpa using ih

end Compared

end Lexicographic
