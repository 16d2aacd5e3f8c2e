import Mathlib.Data.Int.Order.Basic
import RainbowOS.Lib.Lexicographic
import RainbowOS.StdlibC.Compare

/-!
# `strcmp`

`strcmp` stops at the first two characters that differ, as `memcmp` does, and returns their
difference.  But `memcmp` reads its bytes through pointers to `unsigned char`, and `strcmp` as plain
`char`, which is signed on this target.

* `CStr.strcmp_eq`, `CStr.memcmp_eq` — both results are a function of the first difference of the
  two strings with their terminators.
* `CStr.le_iff` — so `strcmp` orders strings by their signed characters, letter by letter.
* `strcmp_memcmp_iff` — it agrees with `memcmp` on two strings exactly if the first characters in
  which they differ are both below 0x80 or both not.
-/

set_option autoImplicit false

namespace RainbowOS

/-- `strcmp(str1, str2)`, on the characters from the current index on. -/
def strcmp : (str1 str2 : Bytes) → Exec ℤ
  | c :: cs, d :: ds =>
    if c ≠ 0 ∧ d ≠ 0 then if c ≠ d then .ok (c.toInt - d.toInt) else strcmp cs ds
    else .ok (c.toInt - d.toInt)
  | [], _ => .error .outOfBounds
  | _ :: _, [] => .error .outOfBounds

/-! ## Strings in memory -/

/-- An array with a string in it: somewhere in it there is a terminator. -/
structure CStr where
  array : Bytes
  terminated : 0 ∈ array

namespace CStr

variable {s t u : CStr}

/-- The characters in front of the terminator. -/
def chars (s : CStr) : Bytes := s.array.cString

/-- The first difference of two strings, where the terminators count as characters. -/
def firstDiff (s t : CStr) : Option (Byte × Byte) :=
  Lexicographic.firstDiff (s.chars ++ [0]) (t.chars ++ [0])

theorem zero_not_mem_chars (s : CStr) : 0 ∉ s.chars := s.array.zero_not_mem_cString

theorem compared (s t : CStr) : Lexicographic.Compared 0 s.chars t.chars (s.firstDiff t) :=
  Lexicographic.compared s.zero_not_mem_chars t.zero_not_mem_chars

theorem strlen_eq (s : CStr) : strlen s.array = .ok s.chars.length := by
  obtain ⟨rest, hrest⟩ := Bytes.eq_cString_append s.terminated
  rw [hrest]
  exact strlen_append s.zero_not_mem_chars rest

end CStr

/-! ## What the loops return -/

variable {s t rest rest' : Bytes} {p : Option (Byte × Byte)}

theorem strcmp_of_compared (h : Lexicographic.Compared 0 s t p) :
    strcmp (s ++ 0 :: rest) (t ++ 0 :: rest') =
      .ok (p.elim 0 fun q ↦ q.1.toInt - q.2.toInt) := by
  induction h with
  | ended => simp [strcmp]
  | left hb => simp [strcmp]
  | right ha => simp [strcmp]
  | differ ha hb hab => simp [strcmp, hab]
  | agree ha h ih =>
    rw [List.cons_append, List.cons_append, strcmp, if_pos ⟨ha, ha⟩, if_neg (not_not_intro rfl)]
    exact ih

/-- The difference of two characters is 0 for equal ones only. -/
theorem elim_sub_toInt_eq_zero_iff (h : Lexicographic.Compared 0 s t p) :
    (p.elim 0 fun q ↦ q.1.toInt - q.2.toInt) = 0 ↔ s = t := by
  rw [← h.eq_none_iff]
  cases hp : p with
  | none => exact iff_of_true rfl rfl
  | some q =>
    refine iff_of_false (fun hzero ↦ ?_) (Option.some_ne_none q)
    exact h.fst_ne_snd hp (BitVec.toInt_inj.mp (Int.sub_eq_zero.mp hzero))

/-- As far as the terminator of the shorter string. -/
theorem memcmp_of_compared (h : Lexicographic.Compared 0 s t p) :
    memcmp (s ++ 0 :: rest) (t ++ 0 :: rest') (min s.length t.length + 1) =
      .ok (p.elim 0 fun q ↦ if q.1 < q.2 then -1 else 1) := by
  have hhead : ∀ {a b : Byte} {as bs : Bytes} {n : ℕ}, a ≠ b →
      memcmp (a :: as) (b :: bs) (n + 1) = .ok (if a < b then -1 else 1) := by
    intro a b as bs n hab
    rw [memcmp]
    by_cases hlt : a < b
    · rw [if_pos hlt, if_pos hlt]
    · have hgt : b < a := by bv_omega
      rw [if_neg hlt, if_neg hlt, if_pos hgt]
  induction h with
  | ended => simp [memcmp]
  | left hb => exact hhead hb.symm
  | right ha => exact hhead ha
  | differ ha hb hab => exact hhead hab
  | agree ha h ih =>
    rw [List.length_cons, List.length_cons, Nat.succ_min_succ, List.cons_append, List.cons_append,
      memcmp, if_neg (BitVec.lt_irrefl _), if_neg (BitVec.lt_irrefl _)]
    exact ih

namespace CStr

variable {s t u : CStr}

theorem strcmp_eq (s t : CStr) : strcmp s.array t.array =
    .ok ((s.firstDiff t).elim 0 fun q ↦ q.1.toInt - q.2.toInt) := by
  obtain ⟨rest, hs⟩ := Bytes.eq_cString_append s.terminated
  obtain ⟨rest', ht⟩ := Bytes.eq_cString_append t.terminated
  rw [hs, ht]
  exact strcmp_of_compared (s.compared t)

/-- `strcmp` is 0 for equal strings only. -/
theorem strcmp_eq_zero_iff (s t : CStr) : strcmp s.array t.array = .ok 0 ↔ s.chars = t.chars := by
  rw [strcmp_eq, Except.ok.injEq]
  exact elim_sub_toInt_eq_zero_iff (s.compared t)

theorem memcmp_eq (s t : CStr) :
    memcmp s.array t.array (min s.chars.length t.chars.length + 1) =
      .ok ((s.firstDiff t).elim 0 fun q ↦ if q.1 < q.2 then -1 else 1) := by
  obtain ⟨rest, hs⟩ := Bytes.eq_cString_append s.terminated
  obtain ⟨rest', ht⟩ := Bytes.eq_cString_append t.terminated
  rw [hs, ht]
  exact memcmp_of_compared (s.compared t)

theorem firstDiff_eq_none_iff : s.firstDiff t = none ↔ s.chars = t.chars :=
  (s.compared t).eq_none_iff

/-! ## The order -/

/-- `strcmp(s, t) <= 0`. -/
def Le (s t : CStr) : Prop := ∃ c ≤ 0, strcmp s.array t.array = .ok c

/-- A string as the list of its signed characters, with the terminator. -/
def signed (s : CStr) : List ℤ := (s.chars ++ [0]).map BitVec.toInt

theorem signed_lt_iff : s.signed < t.signed ↔
    ∃ a b, s.firstDiff t = some (a, b) ∧ a.toInt < b.toInt :=
  (s.compared t).map_lt_iff BitVec.toInt fun _ _ ↦ BitVec.toInt_inj.mp

theorem signed_inj : s.signed = t.signed ↔ s.chars = t.chars := by
  have hinj : Function.Injective (BitVec.toInt : Byte → ℤ) := fun _ _ ↦ BitVec.toInt_inj.mp
  rw [signed, signed, hinj.list_map.eq_iff, List.append_cancel_right_eq]

/-- **`strcmp` compares the signed characters, letter by letter.** -/
theorem le_iff : s.Le t ↔ s.signed ≤ t.signed := by
  rw [le_iff_lt_or_eq, signed_lt_iff, signed_inj, ← firstDiff_eq_none_iff, Le, strcmp_eq]
  cases hdiff : s.firstDiff t with
  | none => simp
  | some q =>
    have hne : q.1.toInt ≠ q.2.toInt := fun h ↦
      (s.compared t).fst_ne_snd hdiff (BitVec.toInt_inj.mp h)
    constructor
    · rintro ⟨c, hc, hval⟩
      rw [← Except.ok.inj hval, Option.elim_some] at hc
      exact .inl ⟨q.1, q.2, rfl, by omega⟩
    · rintro (⟨a, b, hq, hlt⟩ | hnone)
      · cases hq
        exact ⟨a.toInt - b.toInt, by omega, rfl⟩
      · cases hnone

theorem Le.total (s t : CStr) : s.Le t ∨ t.Le s := by
  rw [le_iff, le_iff]
  exact le_total s.signed t.signed

theorem Le.trans (h : s.Le t) (h' : t.Le u) : s.Le u := by
  rw [le_iff] at h h' ⊢
  exact le_trans h h'

theorem Le.antisymm (h : s.Le t) (h' : t.Le s) : s.chars = t.chars := by
  rw [le_iff] at h h'
  exact signed_inj.mp (le_antisymm h h')

/-! ## Against `memcmp` -/

/-- `strcmp(s, t)` and `memcmp(s, t, min(strlen(s), strlen(t)) + 1)` have the same sign. -/
def ComparesAlike (s t : CStr) : Prop :=
  ∃ n k c d, strlen s.array = .ok n ∧ strlen t.array = .ok k ∧
    strcmp s.array t.array = .ok c ∧ memcmp s.array t.array (min n k + 1) = .ok d ∧
    c.sign = d.sign

/-- The first characters in which the strings differ, if there are any, are both below 0x80 or both
not. -/
def SameHalf (s t : CStr) : Prop := ∀ a b, s.firstDiff t = some (a, b) → a.msb = b.msb

theorem comparesAlike_iff_sign : s.ComparesAlike t ↔
    ((s.firstDiff t).elim 0 fun q ↦ q.1.toInt - q.2.toInt).sign =
      ((s.firstDiff t).elim 0 fun q ↦ if q.1 < q.2 then -1 else 1 : ℤ).sign := by
  constructor
  · rintro ⟨n, k, c, d, hn, hk, hc, hd, hsign⟩
    obtain rfl := Except.ok.inj (s.strlen_eq.symm.trans hn)
    obtain rfl := Except.ok.inj (t.strlen_eq.symm.trans hk)
    rw [strcmp_eq, Except.ok.injEq] at hc
    rw [memcmp_eq, Except.ok.injEq] at hd
    rwa [hc, hd]
  · exact fun hsign ↦ ⟨_, _, _, _, s.strlen_eq, t.strlen_eq, strcmp_eq s t, memcmp_eq s t, hsign⟩

/-- Two different characters are ordered alike, signed and unsigned, exactly if they have the same
top bit. -/
theorem sign_sub_toInt_iff {a b : Byte} (hab : a ≠ b) :
    (a.toInt - b.toInt).sign = (if a < b then -1 else 1 : ℤ).sign ↔ a.msb = b.msb := by
  have hne : a.toNat ≠ b.toNat := fun h ↦ hab (BitVec.toNat_inj.mp h)
  have ha := a.isLt
  have hb := b.isLt
  simp only [BitVec.toInt_eq_toNat_cond, BitVec.msb_eq_decide, decide_eq_decide, BitVec.lt_def]
  by_cases hlt : a.toNat < b.toNat
  · rw [if_pos hlt, Int.sign_neg_one, Int.sign_eq_neg_one_iff_neg]
    omega
  · rw [if_neg hlt, Int.sign_one, Int.sign_eq_one_iff_pos]
    omega

theorem comparesAlike_iff : s.ComparesAlike t ↔ s.SameHalf t := by
  rw [comparesAlike_iff_sign, SameHalf]
  cases hdiff : s.firstDiff t with
  | none => simp
  | some q =>
    have hne : q.1 ≠ q.2 := (s.compared t).fst_ne_snd hdiff
    rw [Option.elim_some, Option.elim_some, sign_sub_toInt_iff hne]
    constructor
    · intro hmsb a b hq
      cases hq
      exact hmsb
    · exact fun h ↦ h q.1 q.2 rfl

end CStr

/-- **When `strcmp` and `memcmp` order strings alike.**  Two strings are ordered alike exactly if
their first difference has both characters in the same half of the alphabet.  Whatever they are,
`strcmp` is 0 for equal strings only, and it is a total order: that of the signed characters. -/
theorem strcmp_memcmp_iff (s t : CStr) :
    (s.ComparesAlike t ↔ s.SameHalf t) ∧ (strcmp s.array t.array = .ok 0 ↔ s.chars = t.chars) ∧
      (s.Le t ∧ t.Le s ↔ s.chars = t.chars) ∧ Std.Total CStr.Le ∧ IsTrans CStr CStr.Le := by
  refine ⟨CStr.comparesAlike_iff, CStr.strcmp_eq_zero_iff s t, ⟨fun h ↦ h.1.antisymm h.2, ?_⟩,
    ⟨CStr.Le.total⟩, ⟨fun _ _ _ ↦ CStr.Le.trans⟩⟩
  intro heq
  rw [CStr.le_iff, CStr.le_iff, CStr.signed_inj.mpr heq]
  exact ⟨le_refl _, le_refl _⟩

/-- The names of two files, the first of which begins with `é` in the code page of the BIOS. -/
theorem strcmp_memcmp_opposite :
    let s : CStr := ⟨[0x82, 0x2e, 0x54, 0x58, 0x54, 0], by decide⟩
    let t : CStr := ⟨[0x41, 0x2e, 0x54, 0x58, 0x54, 0], by decide⟩
    strcmp s.array t.array = .ok (-191) ∧ memcmp s.array t.array (min 5 5 + 1) = .ok 1 ∧
      ¬ s.ComparesAlike t := by
  intro s t
  refine ⟨rfl, rfl, fun halike ↦ ?_⟩
  have hmsb := CStr.comparesAlike_iff.mp halike 0x82 0x41 rfl
  exact absurd hmsb (by decide)

end RainbowOS
