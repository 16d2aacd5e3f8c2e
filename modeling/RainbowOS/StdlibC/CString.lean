import Mathlib.Data.List.TakeWhile
import RainbowOS.Fat32.Layout

/-!
# `strlen` and `strcpy`

The string loops of `lib/stdlibC/string.c` on objects: the characters of an array up to its end,
behind which neither loop may look.

* `strlen_append`, `strcpy_append` — on an array that holds a string and its terminator.
-/

set_option autoImplicit false

namespace RainbowOS

/-- `strlen(str)`. -/
def strlen : Bytes → Exec ℕ
  | [] => .error .outOfBounds
  | c :: cs => if c = 0 then .ok 0 else (strlen cs).map (· + 1)

/-- The loop of `strcpy`: what the characters of the destination are afterwards. -/
def copyString : (dest src : Bytes) → Exec Bytes
  | _ :: ds, c :: cs => if c = 0 then .ok (0 :: ds) else (copyString ds cs).map (c :: ·)
  | [], _ => .error .outOfBounds
  | _ :: _, [] => .error .outOfBounds

/-- `strcpy(dest, src)`. -/
def strcpy (dest : Option Bytes) (src : Bytes) : Exec Bytes :=
  match dest with
  | none => .error .nullPointer
  | some dest => copyString dest src

variable {s rest dest : Bytes}

namespace Bytes

@[simp] theorem cString_cons_zero (rest : Bytes) : cString (0 :: rest) = [] := rfl

theorem cString_cons_of_ne {c : Byte} (hc : c ≠ 0) (rest : Bytes) :
    cString (c :: rest) = c :: cString rest :=
  List.takeWhile_cons_of_pos (decide_eq_true hc)

theorem cString_of_not_mem (hs : 0 ∉ s) : cString s = s :=
  List.takeWhile_eq_self_iff.mpr fun _ hc ↦ decide_eq_true fun h ↦ hs (h ▸ hc)

theorem zero_not_mem_cString (bs : Bytes) : 0 ∉ bs.cString := fun h ↦
  absurd (List.mem_takeWhile_imp h) (by decide)

/-- A string and its terminator in front of anything. -/
theorem cString_append_zero (s rest : Bytes) : cString (s ++ 0 :: rest) = cString s := by
  induction s with
  | nil => rfl
  | cons c s ih =>
    by_cases hc : c = 0
    · subst hc
      rfl
    · rw [List.cons_append, cString_cons_of_ne hc, cString_cons_of_ne hc, ih]

/-- An array that holds a zero byte is a string, its terminator, and a rest. -/
theorem eq_cString_append (h : 0 ∈ s) : ∃ rest, s = cString s ++ 0 :: rest := by
  induction s with
  | nil => cases h
  | cons c s ih =>
    by_cases hc : c = 0
    · subst hc
      exact ⟨s, rfl⟩
    · obtain ⟨rest, hrest⟩ := ih ((List.mem_cons.mp h).resolve_left (Ne.symm hc))
      exact ⟨rest, by rw [cString_cons_of_ne hc, List.cons_append, ← hrest]⟩

end Bytes

theorem strlen_append (hs : 0 ∉ s) (rest : Bytes) : strlen (s ++ 0 :: rest) = .ok s.length := by
  induction s with
  | nil => rfl
  | cons c s ih =>
    obtain ⟨hc, hs⟩ := not_or.mp (mt List.mem_cons.mpr hs)
    rw [List.cons_append, strlen, if_neg (Ne.symm hc), ih hs]
    rfl

theorem strcpy_append (hs : 0 ∉ s) (rest : Bytes) (hdest : dest.length = s.length + 1) :
    strcpy (some dest) (s ++ 0 :: rest) = .ok (s ++ [0]) := by
  rw [strcpy]
  induction s generalizing dest with
  | nil =>
    obtain ⟨d, rfl⟩ := List.length_eq_one_iff.mp hdest
    rfl
  | cons c s ih =>
    obtain ⟨hc, hs⟩ := not_or.mp (mt List.mem_cons.mpr hs)
    cases dest with
    | nil => cases hdest
    | cons d ds =>
      rw [List.cons_append, copyString, if_neg (Ne.symm hc), ih hs (Nat.succ.inj hdest)]
      rfl

end RainbowOS
