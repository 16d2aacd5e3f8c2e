import RainbowOS.Klib.Xtoa
import RainbowOS.StdlibC.CString

/-!
# Signed decimals: what `xtoa` writes, read back

The remainders of a negative number are not positive, so `xtoa` writes characters from below `'0'`
for them.

* `cString_xtoa` — the string in the caller's array.
* `readDecimal_xtoa_iff` — reading it as a decimal number gives the value back if and only if the
  value is not negative.
-/

set_option autoImplicit false

namespace RainbowOS

/-! ## Reading a decimal number -/

/-- The character is one of `0`-`9`. -/
abbrev IsDecimalDigit (c : Byte) : Prop := 0x30 ≤ c ∧ c ≤ 0x39

/-- Read decimal digits behind those that have given `acc`. -/
def readDigits : Bytes → (acc : ℕ) → Option ℕ
  | [], acc => some acc
  | c :: s, acc => if IsDecimalDigit c then readDigits s (10 * acc + (c.toNat - 0x30)) else none

/-- Read a number without a sign. -/
def readUnsigned (s : Bytes) : Option ℕ := if s = [] then none else readDigits s 0

/-- Read a decimal number: an optional minus sign, then digits only. -/
def readDecimal (s : Bytes) : Option ℤ :=
  if s.head? = some 0x2d then (readUnsigned s.tail).map fun n : ℕ ↦ -(n : ℤ)
  else (readUnsigned s).map fun n : ℕ ↦ (n : ℤ)

variable {T : IntType} {z : ℤ} {b : ℕ} {s : Bytes}

theorem readDigits_symbol {ds : List ℕ} (hds : ∀ d ∈ ds, d < 10) (acc : ℕ) :
    readDigits (ds.map symbol) acc = some (Numeral.read 10 ds acc) := by
  induction ds generalizing acc with
  | nil => rfl
  | cons d ds ih =>
    obtain ⟨hd, hds⟩ := List.forall_mem_cons.mp hds
    have hsymbol : ∀ d < 10, IsDecimalDigit (symbol d) ∧ (symbol d).toNat - 0x30 = d := by decide
    obtain ⟨hdigit, hvalue⟩ := hsymbol d hd
    rw [List.map_cons, readDigits, if_pos hdigit, hvalue, ih hds]
    rfl

theorem readDigits_of_head {c : Byte} (hc : ¬ IsDecimalDigit c) (h : s.head? = some c) (acc : ℕ) :
    readDigits s acc = none := by
  obtain ⟨s, rfl⟩ := List.head?_eq_some_iff.mp h
  rw [readDigits, if_neg hc]

/-- A numeral is read back. -/
theorem readDecimal_symbol {n : ℕ} {ds : List ℕ} (h : Numeral.IsNumeral 10 n ds) :
    readDecimal (ds.map symbol) = some (n : ℤ) := by
  have hminus : (ds.map symbol).head? ≠ some 0x2d := by
    intro hhead
    obtain ⟨d, hd, heq⟩ := List.mem_map.mp (List.mem_of_head? hhead)
    have hne : ∀ d < 10, symbol d ≠ 0x2d := by decide
    exact hne d (h.lt_base d hd) heq
  have hempty : ds.map symbol ≠ [] := mt List.map_eq_nil_iff.mp h.nonempty
  rw [readDecimal, if_neg hminus, readUnsigned, if_neg hempty, readDigits_symbol h.lt_base,
    Numeral.read_eq, h.value]
  rfl

/-! ## The string in the array -/

/-- No character of the string is the terminator. -/
theorem zero_not_mem_printed (hb : 2 ≤ b) (hb' : b ≤ 16) (z : ℤ) : 0 ∉ printed b z := by
  intro hmem
  rw [printed] at hmem
  obtain hsign | hdigits := List.mem_append.mp hmem
  · split at hsign
    · exact absurd hsign (by decide)
    · cases hsign
  · by_cases hz : z = 0
    · rw [if_pos hz] at hdigits
      exact absurd hdigits (by decide)
    · rw [if_neg hz] at hdigits
      obtain ⟨d, hd, heq⟩ := List.mem_map.mp (List.mem_reverse.mp hdigits)
      have hd' := Nat.lt_of_lt_of_le (Nat.digits_lt_base hb hd) hb'
      have hne : ∀ d < 16, digitChar (1 * (d : ℕ)) ≠ 0 ∧ digitChar (-1 * (d : ℕ)) ≠ 0 := by decide
      obtain hσ | hσ := sign_eq_or hz
      · rw [hσ] at heq
        exact (hne d hd').1 heq
      · rw [hσ] at heq
        exact (hne d hd').2 heq

/-- The array after a call holds the string, if it is long enough. -/
theorem cString_xtoa (hb : 2 ≤ b) (hb' : b ≤ 16) (m : Mem) (value : BitVec T.width) (str : Addr)
    {fuel : ℕ} (hfuel : T.width < fuel)
    (hlen : (printed b (T.toInt value)).length < MAX_NUM_STR_SIZE) :
    ∃ m', xtoa T fuel m value str b = some (m', str) ∧
      Bytes.cString (m'.bytes str MAX_NUM_STR_SIZE) = printed b (T.toInt value) := by
  refine ⟨_, xtoa_spec hb hb' m value str hfuel, ?_⟩
  have hzero := zero_not_mem_printed hb hb' (T.toInt value)
  generalize printed b (T.toInt value) = s at hlen hzero ⊢
  have hfits : (s ++ [0]).length ≤ MAX_NUM_STR_SIZE := by
    rw [List.length_append, List.length_singleton]
    exact hlen
  have htake := Mem.take_bytes_writeList m str hfits (by decide)
  rw [← List.take_append_drop (s ++ [0]).length ((m.writeList str (s ++ [0])).bytes str _), htake,
    List.append_assoc, List.singleton_append, Bytes.cString_append_zero,
    Bytes.cString_of_not_mem hzero]

/-- A decimal number is never longer than its type has bits. -/
theorem length_printed_ten (hT : T.signed = true) (h : T.Represents z) :
    (printed 10 z).length ≤ T.width := by
  have hwidth := T.width_ge
  rw [IntType.Represents, if_pos hT] at h
  have habs : z.natAbs ≤ 2 ^ (T.width - 1) := by
    have hcast : (z.natAbs : ℤ) ≤ 2 ^ (T.width - 1) := by omega
    exact_mod_cast hcast
  have hpow : 2 ^ (T.width - 1) < 10 ^ (T.width - 1) :=
    Nat.pow_lt_pow_left (by decide) (by omega)
  have hdigits : (Nat.digits 10 z.natAbs).length ≤ T.width - 1 :=
    (Nat.digits_length_le_iff (by decide) _).mpr (Nat.lt_of_le_of_lt habs hpow)
  have hsign : (if 10 = 10 ∧ z < 0 then [0x2d] else ([] : List Byte)).length ≤ 1 := by
    split
    · exact Nat.le_refl 1
    · exact Nat.zero_le 1
  have hchars : (if z = 0 then [0x30] else (digitChars z.sign 10 z.natAbs).reverse).length ≤
      T.width - 1 := by
    split
    · rw [List.length_singleton]
      omega
    · rwa [List.length_reverse, length_digitChars]
  rw [printed, List.length_append]
  omega

/-- The most significant character of a negative number is not a digit. -/
theorem readDecimal_printed_of_neg (hz : z < 0) : readDecimal (printed 10 z) = none := by
  have hne : z.natAbs ≠ 0 := by omega
  have hdigits := Nat.digits_ne_nil_iff_ne_zero (b := 10).mpr hne
  have hlast := Nat.getLast_digit_ne_zero 10 hne
  have hlt := Nat.digits_lt_base (b := 10) (by decide) (List.getLast_mem hdigits)
  have hchar : ∀ d < 10, d ≠ 0 → ¬ IsDecimalDigit (digitChar (-1 * (d : ℕ))) := by decide
  have hhead : (digitChars z.sign 10 z.natAbs).reverse.head? =
      some (digitChar (-1 * ((Nat.digits 10 z.natAbs).getLast hdigits : ℕ))) := by
    rw [List.head?_reverse, digitChars, List.getLast?_map, List.getLast?_eq_some_getLast hdigits,
      Option.map_some, Int.sign_eq_neg_one_of_neg hz]
  have hempty : (digitChars z.sign 10 z.natAbs).reverse ≠ [] :=
    mt List.reverse_eq_nil_iff.mp (digitChars_ne_nil z.sign 10 hne)
  rw [printed, if_pos ⟨rfl, hz⟩, if_neg (by omega), readDecimal, List.singleton_append,
    List.head?_cons, if_pos rfl, List.tail_cons, readUnsigned, if_neg hempty,
    readDigits_of_head (hchar _ hlt hlast) hhead, Option.map_none]

/-- **Decimals are read back exactly when they are not negative.**  For every signed type and value:
`xtoa(value, str, 10)` leaves a decimal numeral of the value in an array of `MAX_NUM_STR_SIZE` bytes
if and only if the value is not negative. -/
theorem readDecimal_xtoa_iff (T : IntType) (hT : T.signed = true) (m : Mem)
    (value : BitVec T.width) (str : Addr) {fuel : ℕ} (hfuel : T.width < fuel) :
    (∃ m', xtoa T fuel m value str 10 = some (m', str) ∧
      readDecimal (Bytes.cString (m'.bytes str MAX_NUM_STR_SIZE)) = some (T.toInt value)) ↔
    0 ≤ T.toInt value := by
  have hlen := length_printed_ten hT (T.represents_toInt value)
  have hwidth := T.width_le
  obtain ⟨m', hxtoa, hstring⟩ := cString_xtoa (b := 10) (by decide) (by decide) m value str hfuel
    (by rw [MAX_NUM_STR_SIZE]; omega)
  constructor
  · rintro ⟨m'', hxtoa', hread⟩
    by_contra hneg
    have heq : some (m', str) = some (m'', str) := hxtoa.symm.trans hxtoa'
    obtain rfl : m' = m'' := congrArg Prod.fst (Option.some.inj heq)
    rw [hstring, readDecimal_printed_of_neg (by omega)] at hread
    cases hread
  · intro hnonneg
    refine ⟨m', hxtoa, ?_⟩
    obtain ⟨n, hn⟩ := Int.eq_ofNat_of_zero_le hnonneg
    rw [hstring, hn, printed_natCast (by decide) (by decide),
      readDecimal_symbol (Numeral.isNumeral_digits (by decide) n)]

theorem readDecimal_xtoa_iff_int64 :
    ∃ m', xtoa .int64 65 (fun _ ↦ 0xff) (1204 : BitVec 64) 0x9000 10 = some (m', 0x9000) ∧
      readDecimal (Bytes.cString (m'.bytes 0x9000 MAX_NUM_STR_SIZE)) = some 1204 :=
  (readDecimal_xtoa_iff .int64 rfl (fun _ ↦ 0xff) (1204 : BitVec 64) 0x9000
    (show IntType.int64.width < 65 by decide)).mpr (by decide)

/-- For -1 the string is a minus sign and a slash. -/
theorem readDecimal_xtoa_minus_one :
    ¬ ∃ m', xtoa .int64 65 (fun _ ↦ 0xff) (-1 : BitVec 64) 0x9000 10 = some (m', 0x9000) ∧
      readDecimal (Bytes.cString (m'.bytes 0x9000 MAX_NUM_STR_SIZE)) = some (-1) := by
  rintro ⟨m', hxtoa, hread⟩
  have hstring : (xtoa .int64 65 (fun _ ↦ 0xff) (-1 : BitVec 64) 0x9000 10).map
      (fun r ↦ Bytes.cString (r.1.bytes 0x9000 MAX_NUM_STR_SIZE)) = some [0x2d, 0x2f] := by
    decide +kernel
  rw [hxtoa, Option.map_some, Option.some.injEq] at hstring
  rw [hstring] at hread
  exact absurd hread (by decide)

end RainbowOS
