import RainbowOS.Lib.Loop
import RainbowOS.Lib.Memory
import RainbowOS.Lib.Numeral

/-!
# Number formatting: `xtoa`

`xtoa` of `klib/cstdlib.hpp` is a template over the integer type of its argument.  The digits come
out of repeated division, the least significant one first, and the string is turned around in place.
An integer type is an `IntType`; the arithmetic is done on `ℤ` and brought back into the type where
the code stores it there.

* `run_digitStep` — the division loop writes `Nat.digits`, with the sign of the value on each.
* `foldl_swapChars` — the loop behind it reverses the string, whatever the parity of its length.
* `xtoa_spec` — the string as a whole.
* `xtoa_unsigned` — on unsigned types it is the value's numeral in the base.
-/

set_option autoImplicit false

namespace RainbowOS

/-! ## Integer types -/

/-- An integer type of the language: at least a `char`, at most a `uint64_t`. -/
structure IntType where
  width : ℕ
  signed : Bool
  width_ge : 8 ≤ width
  width_le : width ≤ 64

namespace IntType

/-- The number that an object of the type stands for. -/
def toInt (T : IntType) (v : BitVec T.width) : ℤ := if T.signed then v.toInt else v.toNat

/-- `static_cast<T>(n)`. -/
def cast (T : IntType) (n : ℤ) : ℤ := T.toInt (BitVec.ofInt T.width n)

/-- The numbers of the type. -/
def Represents (T : IntType) (n : ℤ) : Prop :=
  if T.signed then -2 ^ (T.width - 1) ≤ n ∧ n < 2 ^ (T.width - 1) else 0 ≤ n ∧ n < 2 ^ T.width

/-- `uint64_t`. -/
def uint64 : IntType := ⟨64, false, by decide, by decide⟩

/-- `int64_t`. -/
def int64 : IntType := ⟨64, true, by decide, by decide⟩

end IntType

/-! ## The function -/

/-- `MAX_NUM_STR_SIZE`. -/
def MAX_NUM_STR_SIZE : ℕ := 65

/-- The character for a remainder, which has been cast to `char`. -/
def digitChar (remainder : ℤ) : Byte :=
  let digit : Byte := BitVec.ofInt 8 remainder
  if digit.toInt < 10 then BitVec.ofInt 8 (0x30 + digit.toInt)
  else BitVec.ofInt 8 (0x41 + digit.toInt - 10)

/-- A round of the loop that takes `num` apart: the memory, `num`, `index`. -/
def digitStep (T : IntType) (convertedBase : ℤ) (str : Addr) (s : Mem × ℤ × ℕ) :
    LoopStep (Mem × ℤ × ℕ) (Mem × ℕ) :=
  match s with
  | (m, num, index) =>
    if num = 0 then .done (m, index)
    else
      .next (m.write8 (str + addr index) (digitChar (num.tmod convertedBase)),
        T.cast (num.tdiv convertedBase), index + 1)

/-- `tmp = str[i]; str[i] = str[j]; str[j] = tmp;` -/
def swapChars (m : Mem) (str : Addr) (i j : ℕ) : Mem :=
  let tmp := m (str + addr i)
  (m.write8 (str + addr i) (m (str + addr j))).write8 (str + addr j) tmp

/-- `xtoa(value, str, base)`, with its return value. -/
def xtoa (T : IntType) (fuel : ℕ) (m : Mem) (value : BitVec T.width) (str : Addr) (base : ℤ) :
    Option (Mem × Addr) :=
  if base < 2 ∨ 16 < base then some (m, 0)
  else
    let convertedBase := T.cast base
    if T.toInt value = 0 then
      some ((m.write8 (str + addr 0) 0x30).write8 (str + addr 1) 0, str)
    else
      (Loop.run (digitStep T convertedBase str) fuel (m, T.toInt value, 0)).map fun (m, index) ↦
        let (m, index) := if convertedBase = 10 ∧ T.toInt value < 0 then
          (m.write8 (str + addr index) 0x2d, index + 1) else (m, index)
        let m := m.write8 (str + addr index) 0
        let index := index - 1
        ((List.range (index / 2 + 1)).foldl (fun m i ↦ swapChars m str i (index - i)) m, str)

variable {T : IntType} {m : Mem} {str : Addr} {b n : ℕ} {σ : ℤ}

/-! ## Integer types -/

theorem IntType.represents_toInt (T : IntType) (v : BitVec T.width) : T.Represents (T.toInt v) := by
  rw [Represents, toInt]
  by_cases hT : T.signed = true
  · rw [if_pos hT, if_pos hT]
    exact ⟨BitVec.le_toInt v, BitVec.toInt_lt⟩
  · rw [if_neg hT, if_neg hT]
    exact ⟨Int.natCast_nonneg _, by exact_mod_cast v.isLt⟩

theorem IntType.cast_of_represents {z : ℤ} (h : T.Represents z) : T.cast z = z := by
  rw [Represents] at h
  rw [cast, toInt]
  by_cases hT : T.signed = true
  · rw [if_pos hT] at h ⊢
    exact BitVec.toInt_ofInt_eq_self (Nat.lt_of_lt_of_le (by decide) T.width_ge) h.1 h.2
  · rw [if_neg hT] at h ⊢
    have hlt : z < ((2 ^ T.width : ℕ) : ℤ) := by exact_mod_cast h.2
    rw [BitVec.toNat_ofInt, Int.emod_eq_of_lt h.1 hlt, Int.toNat_of_nonneg h.1]

/-- A number of smaller magnitude and the same sign. -/
theorem IntType.Represents.of_le {k : ℕ} (hσ : σ = 1 ∨ σ = -1) (h : T.Represents (σ * n))
    (hk : k ≤ n) : T.Represents (σ * k) := by
  rw [Represents] at h ⊢
  by_cases hT : T.signed = true
  · rw [if_pos hT] at h ⊢
    have hpos : (0 : ℤ) < 2 ^ (T.width - 1) := by positivity
    obtain rfl | rfl := hσ <;> omega
  · rw [if_neg hT] at h ⊢
    obtain rfl | rfl := hσ <;> omega

/-- The bases are numbers of every type. -/
theorem IntType.represents_base (T : IntType) (hb : b ≤ 16) : T.Represents b := by
  have hwidth := T.width_ge
  have hpow : (2 : ℤ) ^ 7 ≤ 2 ^ (T.width - 1) := pow_le_pow_right₀ (by decide) (by omega)
  have hpow' : (2 : ℤ) ^ 7 ≤ 2 ^ T.width := pow_le_pow_right₀ (by decide) (by omega)
  rw [Represents]
  split
  · omega
  · omega

/-! ## The digits -/

theorem tmod_sign_mul (hσ : σ = 1 ∨ σ = -1) : (σ * n).tmod b = σ * (n % b : ℕ) := by
  obtain rfl | rfl := hσ
  · rw [one_mul, one_mul, Int.ofNat_tmod]
  · rw [neg_one_mul, neg_one_mul, Int.neg_tmod, Int.ofNat_tmod]

theorem tdiv_sign_mul (hσ : σ = 1 ∨ σ = -1) : (σ * n).tdiv b = σ * (n / b : ℕ) := by
  obtain rfl | rfl := hσ
  · rw [one_mul, one_mul, Int.ofNat_tdiv]
  · rw [neg_one_mul, neg_one_mul, Int.neg_tdiv, Int.ofNat_tdiv]

/-- The characters that the loop writes for the number `σ * n`. -/
def digitChars (σ : ℤ) (b n : ℕ) : List Byte := (Nat.digits b n).map fun d : ℕ ↦ digitChar (σ * d)

/-- **The division loop** writes the digits, the least significant one first. -/
theorem run_digitStep (hσ : σ = 1 ∨ σ = -1) (hb : 1 < b) (h : T.Represents (σ * n)) (m : Mem)
    (i : ℕ) {fuel : ℕ} (hfuel : (Nat.digits b n).length < fuel)
    (hlen : (Nat.digits b n).length < 2 ^ 32) :
    Loop.run (digitStep T b str) fuel (m, σ * n, i) =
      some (m.writeList (str + addr i) (digitChars σ b n), i + (Nat.digits b n).length) := by
  induction fuel generalizing n m i with
  | zero => omega
  | succ fuel ih =>
    by_cases hn : n = 0
    · subst hn
      rw [Loop.run_succ_of_done (a := (m, i)) (by simp [digitStep])]
      simp [digitChars, Mem.writeList]
    · have hne : σ * n ≠ 0 := by
        obtain rfl | rfl := hσ <;> omega
      have hdigits := Nat.digits_def' hb (Nat.pos_of_ne_zero hn)
      have hquot := h.of_le hσ (Nat.div_le_self n b)
      rw [hdigits, List.length_cons] at hfuel hlen
      have hstep : digitStep T b str (m, σ * n, i) =
          .next (m.write8 (str + addr i) (digitChar (σ * (n % b : ℕ))), σ * (n / b : ℕ),
            i + 1) := by
        rw [digitStep, if_neg hne, tmod_sign_mul hσ, tdiv_sign_mul hσ,
          IntType.cast_of_represents hquot]
      have hrest : (digitChars σ b (n / b)).length < 2 ^ 32 := by
        rw [digitChars, List.length_map]
        omega
      have haddr : str + addr (i + 1) = str + addr i + addr 1 := by
        rw [add_addr_addr]
      have hchars : digitChars σ b n = digitChar (σ * (n % b : ℕ)) :: digitChars σ b (n / b) := by
        rw [digitChars, hdigits, List.map_cons, digitChars]
      rw [Loop.run_succ_of_next hstep, ih hquot _ _ (by omega) (by omega), haddr,
        Mem.writeList_cons _ _ _ hrest, ← hchars, hdigits, List.length_cons, Nat.add_assoc,
        Nat.add_comm 1]

/-! ## Turning the string around -/

/-- What has been turned around after `k` rounds. -/
def turned (f : ℕ → Byte) (last k : ℕ) (i : ℕ) : Byte :=
  if i ≤ last ∧ (i < k ∨ last - k < i) then f (last - i) else f i

theorem swapChars_write {i j k : ℕ} (hi : i < k) (hj : j < k) (hk : k ≤ 2 ^ 32) (m : Mem)
    (a : Addr) (f : ℕ → Byte) : swapChars (m.write a k f) a i j =
      m.write a k (Function.update (Function.update f i (f j)) j (f i)) := by
  rw [swapChars, Mem.write_add hi hk, Mem.write_add hj hk, Mem.write_write8 _ _ hi hk,
    Mem.write_write8 _ _ hj hk]

/-- **The reversing loop**, round by round. -/
theorem foldl_swapChars {k last len : ℕ} (hk : k ≤ last / 2 + 1) (hlen : last < len)
    (hlen' : len ≤ 2 ^ 32) (m : Mem) (a : Addr) (f : ℕ → Byte) :
    (List.range k).foldl (fun m i ↦ swapChars m a i (last - i)) (m.write a len f) =
      m.write a len (turned f last k) := by
  induction k with
  | zero =>
    refine Mem.write_congr fun i _ ↦ ?_
    rw [turned, if_neg (by omega)]
  | succ k ih =>
    rw [List.range_succ, List.foldl_append, ih (by omega), List.foldl_cons, List.foldl_nil,
      swapChars_write (by omega) (by omega) hlen']
    refine Mem.write_congr fun i _ ↦ ?_
    -- the two characters of this round are still in their old places
    have hfront : turned f last k k = f k := if_neg (by omega)
    have hback : turned f last k (last - k) = f (last - k) := if_neg (by omega)
    rw [hfront, hback, Function.update_apply, Function.update_apply]
    by_cases hi : i = last - k
    · rw [if_pos hi, turned, if_pos (by omega)]
      exact congrArg f (by omega)
    · by_cases hi' : i = k
      · rw [if_neg hi, if_pos hi', turned, if_pos (by omega), hi']
      · rw [if_neg hi, if_neg hi', turned, turned]
        exact if_congr (by omega) rfl rfl

/-- A string is terminated and turned around. -/
theorem foldl_swapChars_writeList {s : List Byte} (hs : s ≠ []) (hlen : s.length < 2 ^ 32)
    (m : Mem) (a : Addr) :
    (List.range ((s.length - 1) / 2 + 1)).foldl (fun m i ↦ swapChars m a i (s.length - 1 - i))
        ((m.writeList a s).write8 (a + addr s.length) 0) =
      m.writeList a (s.reverse ++ [0]) := by
  rw [Mem.writeList_concat _ _ _ hlen]
  have hpos := List.length_pos_of_ne_nil hs
  rw [Mem.writeList, List.length_append, List.length_singleton,
    foldl_swapChars (Nat.le_refl _) (by omega) (by omega), Mem.writeList, List.length_append,
    List.length_reverse, List.length_singleton]
  refine Mem.write_congr fun i hi ↦ ?_
  rw [turned]
  by_cases hlt : i < s.length
  · rw [if_pos (by omega), List.getD_append _ _ _ _ (by omega),
      List.getD_append _ _ _ _ (by simpa using hlt), List.getD_eq_getElem _ _ (by omega),
      List.getD_eq_getElem _ _ (by simpa using hlt), List.getElem_reverse]
  · obtain rfl : i = s.length := by omega
    rw [if_neg (by omega), List.getD_append_right _ _ _ _ (Nat.le_refl _),
      List.getD_append_right _ _ _ _ (by simp), List.length_reverse]

/-! ## The string -/

/-- The string that `xtoa` writes for the number `z`. -/
def printed (b : ℕ) (z : ℤ) : List Byte :=
  (if b = 10 ∧ z < 0 then [0x2d] else []) ++
    if z = 0 then [0x30] else (digitChars z.sign b z.natAbs).reverse

theorem IntType.Represents.natAbs_lt {z : ℤ} (h : T.Represents z) : z.natAbs < 2 ^ T.width := by
  have hwidth := T.width_ge
  rw [Represents] at h
  by_cases hT : T.signed = true
  · rw [if_pos hT] at h
    have hpow : (2 : ℤ) ^ (T.width - 1) < 2 ^ T.width :=
      pow_lt_pow_right₀ (by decide) (by omega)
    have habs : (z.natAbs : ℤ) < 2 ^ T.width := by omega
    exact_mod_cast habs
  · rw [if_neg hT] at h
    have habs : (z.natAbs : ℤ) < 2 ^ T.width := by omega
    exact_mod_cast habs

theorem length_digits_le {z : ℤ} (hb : 2 ≤ b) (h : T.Represents z) :
    (Nat.digits b z.natAbs).length ≤ T.width := by
  rw [Nat.digits_length_le_iff hb]
  exact Nat.lt_of_lt_of_le h.natAbs_lt (Nat.pow_le_pow_left hb _)

theorem length_digitChars (σ : ℤ) (b n : ℕ) :
    (digitChars σ b n).length = (Nat.digits b n).length := by
  rw [digitChars, List.length_map]

theorem digitChars_ne_nil (σ : ℤ) (b : ℕ) (hn : n ≠ 0) : digitChars σ b n ≠ [] := by
  rw [digitChars, Ne, List.map_eq_nil_iff, Nat.digits_eq_nil_iff_eq_zero]
  exact hn

theorem sign_eq_or {z : ℤ} (hz : z ≠ 0) : z.sign = 1 ∨ z.sign = -1 := by
  obtain hneg | hpos := lt_or_gt_of_ne hz
  · exact .inr (Int.sign_eq_neg_one_of_neg hneg)
  · exact .inl (Int.sign_eq_one_of_pos hpos)

/-- The division loop on a value of the type. -/
theorem run_digitStep_value {z : ℤ} (hb : 2 ≤ b) (hz : z ≠ 0) (h : T.Represents z) (m : Mem)
    (str : Addr) {fuel : ℕ} (hfuel : T.width < fuel) :
    Loop.run (digitStep T b str) fuel (m, z, 0) =
      some (m.writeList str (digitChars z.sign b z.natAbs),
        (digitChars z.sign b z.natAbs).length) := by
  have hwidth := T.width_le
  have hlen := length_digits_le hb h
  have hfirst : str + addr 0 = str := BitVec.add_zero str
  have hrun : Loop.run (digitStep T b str) fuel (m, z.sign * z.natAbs, 0) = _ :=
    run_digitStep (sign_eq_or hz) hb (by rwa [Int.sign_mul_natAbs]) m 0 (by omega) (by omega)
  rw [Int.sign_mul_natAbs, hfirst, Nat.zero_add, ← length_digitChars z.sign] at hrun
  exact hrun

/-- **What `xtoa` writes**, for every type, value and base. -/
theorem xtoa_spec (hb : 2 ≤ b) (hb' : b ≤ 16) (m : Mem) (value : BitVec T.width) (str : Addr)
    {fuel : ℕ} (hfuel : T.width < fuel) :
    xtoa T fuel m value str b =
      some (m.writeList str (printed b (T.toInt value) ++ [0]), str) := by
  have hrep := T.represents_toInt value
  have hbase := IntType.cast_of_represents (T.represents_base hb')
  rw [xtoa, if_neg (by omega)]
  simp only [hbase]
  generalize T.toInt value = z at hrep ⊢
  by_cases hz : z = 0
  · subst hz
    have hfirst : str + addr 0 = str := BitVec.add_zero str
    have hzero := Mem.writeList_concat m str 0 (show [(0x30 : Byte)].length < 2 ^ 32 by decide)
    rw [Mem.writeList_singleton] at hzero
    rw [if_pos rfl, printed, if_neg (by omega), if_pos rfl, hfirst]
    exact congrArg (fun m ↦ some (m, str)) hzero
  · have hwidth := T.width_le
    have hlen := length_digits_le hb hrep
    rw [← length_digitChars z.sign] at hlen
    have hdigits := digitChars_ne_nil z.sign b (Int.natAbs_ne_zero.mpr hz)
    rw [if_neg hz, run_digitStep_value hb hz hrep m str hfuel, Option.map_some, printed, if_neg hz]
    generalize digitChars z.sign b z.natAbs = s at hlen hdigits ⊢
    dsimp only
    by_cases hminus : b = 10 ∧ z < 0
    · have hturn := foldl_swapChars_writeList (s := s ++ [0x2d]) (by simp)
        (by rw [List.length_append, List.length_singleton]; omega) m str
      rw [List.reverse_append, List.length_append] at hturn
      rw [if_pos hminus, if_pos (by omega), Mem.writeList_concat _ _ _ (by omega)]
      exact congrArg (fun m ↦ some (m, str)) hturn
    · rw [if_neg hminus, if_neg (by omega)]
      exact congrArg (fun m ↦ some (m, str)) (foldl_swapChars_writeList hdigits (by omega) m str)

/-! ## Unsigned types -/

/-- The characters of the digits. -/
def digitSymbols : List Byte :=
  [0x30, 0x31, 0x32, 0x33, 0x34, 0x35, 0x36, 0x37, 0x38, 0x39, 0x41, 0x42, 0x43, 0x44, 0x45, 0x46]

/-- The character of a digit. -/
def symbol (d : ℕ) : Byte := digitSymbols.getD d 0

theorem digitChar_natCast {d : ℕ} (hd : d < 16) : digitChar d = symbol d := by
  have hall : ∀ d < 16, digitChar (d : ℕ) = symbol d := by decide
  exact hall d hd

/-- A number that is not negative is written as its numeral. -/
theorem printed_natCast (hb : 2 ≤ b) (hb' : b ≤ 16) (n : ℕ) :
    printed b n = (Numeral.digits b n).map symbol := by
  rw [printed, if_neg (by omega), List.nil_append]
  by_cases hn : n = 0
  · subst hn
    rfl
  · have hsign : (n : ℤ).sign = 1 := Int.sign_eq_one_of_pos (by omega)
    rw [if_neg (by omega), Numeral.digits_of_ne hn, List.map_reverse, digitChars, hsign,
      Int.natAbs_natCast]
    refine congrArg List.reverse (List.map_congr_left fun d hd ↦ ?_)
    rw [one_mul]
    exact digitChar_natCast (Nat.lt_of_lt_of_le (Nat.digits_lt_base hb hd) hb')

/-- **Formatting an unsigned value is invertible.**  For every unsigned type, value and base from 2
to 16, `xtoa` writes the value's numeral in that base, in the characters `0`-`9` and `A`-`F` and
with its terminator: at most as many digits as the type has bits, so nothing is written behind an
array of `MAX_NUM_STR_SIZE` bytes. -/
theorem xtoa_unsigned (T : IntType) (hT : T.signed = false) (m : Mem) (value : BitVec T.width)
    (str : Addr) {base : ℕ} (hbase : 2 ≤ base) (hbase' : base ≤ 16) {fuel : ℕ}
    (hfuel : T.width < fuel) :
    ∃ m' digits, xtoa T fuel m value str base = some (m', str) ∧
      m' = m.writeList str (digits.map symbol ++ [0]) ∧
      Numeral.IsNumeral base value.toNat digits ∧
      1 ≤ digits.length ∧ digits.length ≤ T.width ∧
      Mem.EqOn (fun x ↦ ¬ Mem.Range str (T.width + 1) x) m m' ∧
      T.width + 1 ≤ MAX_NUM_STR_SIZE := by
  have hvalue : T.toInt value = value.toNat := by rw [IntType.toInt, hT]; rfl
  have hnumeral := Numeral.isNumeral_digits hbase value.toNat
  have hlen : (Numeral.digits base value.toNat).length ≤ T.width :=
    Numeral.length_digits_le hbase (Nat.lt_of_lt_of_le (by decide) T.width_ge)
      (Nat.lt_of_lt_of_le value.isLt (Nat.pow_le_pow_left hbase _))
  refine ⟨_, _, ?_, rfl, hnumeral, List.length_pos_of_ne_nil hnumeral.nonempty, hlen, ?_,
    Nat.succ_le_succ T.width_le⟩
  · rw [xtoa_spec hbase hbase' m value str hfuel, hvalue, printed_natCast hbase hbase']
  · refine Mem.eqOn_write fun x hx ↦ not_not.mpr ?_
    rw [Mem.Range, List.length_append, List.length_map, List.length_singleton] at hx
    exact Nat.lt_of_lt_of_le hx (Nat.succ_le_succ hlen)

theorem xtoa_unsigned_uint64 :
    ∃ m' digits, xtoa .uint64 65 (fun _ ↦ 0xff) (0xbeef : BitVec 64) 0x9000 (16 : ℕ) =
        some (m', 0x9000) ∧ Numeral.IsNumeral 16 0xbeef digits := by
  obtain ⟨m', digits, hxtoa, -, hdigits, -⟩ := xtoa_unsigned .uint64 rfl (fun _ ↦ 0xff)
    (0xbeef : BitVec 64) 0x9000 (show 2 ≤ 16 by decide) (by decide)
    (show IntType.uint64.width < 65 by decide)
  exact ⟨m', digits, hxtoa, hdigits⟩

end RainbowOS
