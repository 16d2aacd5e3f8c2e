import Mathlib.Algebra.GroupWithZero.Nat
import Mathlib.Data.List.GetD
import Mathlib.Tactic.Common

/-!
# Byte-addressed memory of a 32-bit machine

A memory is a function from 32-bit addresses to bytes, so address arithmetic wraps exactly as the
machine's does and every access has a meaning.  Multi-byte values are little-endian.

* `Mem.write m a n b` overwrites the `n` bytes from `a` on; every store, fill and copy below is an
  instance of it, so there is one pair of lemmas about what a store changes
  (`Mem.write_add`, `Mem.write_of_not_mem`).
* `Mem.readLE` and `Mem.writeLE` read and write the `n`-byte little-endian value at an address;
  `Mem.readLE_writeLE` is the round trip, `Mem.readLE_writeLE_of_disjoint` the frame rule.
* `mem_range_iff` turns the wrapping membership test `(x - a).toNat < n` into the two inequalities
  `omega` wants, for a range that does not wrap.
-/

set_option autoImplicit false

/-- An address of the machine. -/
abbrev Addr := BitVec 32

/-- A byte. -/
abbrev Byte := BitVec 8

/-- The memory of the machine. -/
abbrev Mem := Addr → Byte

/-! ## Ranges of addresses -/

/-- The address with a given number. -/
abbrev addr (n : ℕ) : Addr := BitVec.ofNat 32 n

theorem toNat_addr {n : ℕ} (h : n < 2 ^ 32) : (addr n).toNat = n := by
  rw [BitVec.toNat_ofNat, Nat.mod_eq_of_lt h]

theorem addr_toNat (a : Addr) : addr a.toNat = a := by
  rw [addr, BitVec.ofNat_toNat, BitVec.setWidth_eq]

theorem add_addr_addr (a : Addr) (i j : ℕ) : a + addr i + addr j = a + addr (i + j) := by
  rw [BitVec.add_assoc, ← BitVec.ofNat_add]

theorem add_ofNat_sub (a : Addr) {i : ℕ} (hi : i < 2 ^ 32) :
    (a + BitVec.ofNat 32 i - a).toNat = i := by
  rw [BitVec.add_comm, BitVec.add_sub_cancel, BitVec.toNat_ofNat, Nat.mod_eq_of_lt hi]

theorem toNat_sub_add_ofNat (x a : Addr) {j : ℕ} (hj : j ≤ (x - a).toNat) :
    (x - (a + BitVec.ofNat 32 j)).toNat = (x - a).toNat - j := by
  bv_omega

theorem add_one_add_ofNat (a : Addr) (i : ℕ) :
    a + 1 + BitVec.ofNat 32 i = a + BitVec.ofNat 32 (i + 1) := by
  rw [BitVec.ofNat_add, BitVec.add_assoc, BitVec.add_comm 1]
  rfl

theorem toNat_add_ofNat (a : Addr) {i : ℕ} (hi : a.toNat + i < 2 ^ 32) :
    (a + BitVec.ofNat 32 i).toNat = a.toNat + i := by
  rw [BitVec.toNat_add, BitVec.toNat_ofNat, Nat.mod_eq_of_lt (show i < 2 ^ 32 by omega),
    Nat.mod_eq_of_lt hi]

/-- Membership in a range that does not wrap around the address space. -/
theorem mem_range_iff {a : Addr} {n : ℕ} (h : a.toNat + n ≤ 2 ^ 32) (x : Addr) :
    (x - a).toNat < n ↔ a.toNat ≤ x.toNat ∧ x.toNat < a.toNat + n := by
  have hx := x.isLt
  rw [BitVec.toNat_sub]
  omega

theorem add_ofNat_sub_self (a x : Addr) : a + BitVec.ofNat 32 (x - a).toNat = x := by
  rw [BitVec.ofNat_toNat, BitVec.setWidth_eq, BitVec.add_comm, BitVec.sub_add_cancel]

namespace Mem

/-! ## Overwriting a range -/

/-- Overwrite the `n` bytes from `a` on with `b 0, b 1, …`. -/
def write (m : Mem) (a : Addr) (n : ℕ) (b : ℕ → Byte) : Mem := fun x ↦
  if (x - a).toNat < n then b (x - a).toNat else m x

theorem write_of_mem {m : Mem} {a : Addr} {n : ℕ} {b : ℕ → Byte} {x : Addr}
    (h : (x - a).toNat < n) : m.write a n b x = b (x - a).toNat :=
  if_pos h

theorem write_of_not_mem {m : Mem} {a : Addr} {n : ℕ} {b : ℕ → Byte} {x : Addr}
    (h : ¬ (x - a).toNat < n) : m.write a n b x = m x :=
  if_neg h

theorem write_add {m : Mem} {a : Addr} {n : ℕ} {b : ℕ → Byte} {i : ℕ} (hi : i < n)
    (hn : n ≤ 2 ^ 32) : m.write a n b (a + BitVec.ofNat 32 i) = b i := by
  have h := add_ofNat_sub a (show i < 2 ^ 32 by omega)
  rw [write_of_mem (by omega), h]

@[simp] theorem write_zero (m : Mem) (a : Addr) (b : ℕ → Byte) : m.write a 0 b = m := by
  funext x
  exact write_of_not_mem (by omega)

theorem write_congr {m : Mem} {a : Addr} {n : ℕ} {b c : ℕ → Byte} (h : ∀ i < n, b i = c i) :
    m.write a n b = m.write a n c := by
  funext x
  by_cases hx : (x - a).toNat < n
  · rw [write_of_mem hx, write_of_mem hx, h _ hx]
  · rw [write_of_not_mem hx, write_of_not_mem hx]

/-- A range is overwritten by two pieces, one behind the other. -/
theorem write_write_append (m : Mem) (a : Addr) {n k : ℕ} (hnk : n + k ≤ 2 ^ 32) (b c : ℕ → Byte) :
    (m.write a n b).write (a + BitVec.ofNat 32 n) k c =
      m.write a (n + k) fun i ↦ if i < n then b i else c (i - n) := by
  funext x
  by_cases hn : (x - a).toNat < n
  · rw [write_of_not_mem (by bv_omega), write_of_mem hn, write_of_mem (by omega), if_pos hn]
  · by_cases hk : (x - a).toNat < n + k
    · have hsub := toNat_sub_add_ofNat x a (Nat.le_of_not_lt hn)
      rw [write_of_mem (by omega), hsub, write_of_mem hk, if_neg hn]
    · rw [write_of_not_mem (by bv_omega), write_of_not_mem hn, write_of_not_mem hk]

/-! ## Little-endian values -/

/-- Byte `i` of a value, the least significant first. -/
def byteOf {w : ℕ} (v : BitVec w) (i : ℕ) : Byte := v.extractLsb' (8 * i) 8

/-- The `n`-byte little-endian value at `a`. -/
def readLE (m : Mem) : (n : ℕ) → Addr → BitVec (8 * n)
  | 0, _ => 0
  | n + 1, a => m.readLE n (a + 1) ++ m a

/-- Store an `n`-byte value, least significant byte first. -/
def writeLE (m : Mem) (n : ℕ) (a : Addr) (v : BitVec (8 * n)) : Mem := m.write a n (byteOf v)

/-- The 16-bit value at `a`. -/
abbrev read16 (m : Mem) (a : Addr) : BitVec 16 := m.readLE 2 a

/-- The 32-bit value at `a`. -/
abbrev read32 (m : Mem) (a : Addr) : BitVec 32 := m.readLE 4 a

/-- The 64-bit value at `a`. -/
abbrev read64 (m : Mem) (a : Addr) : BitVec 64 := m.readLE 8 a

/-- Store a 16-bit value. -/
abbrev write16 (m : Mem) (a : Addr) (v : BitVec 16) : Mem := m.writeLE 2 a v

/-- Store a 32-bit value. -/
abbrev write32 (m : Mem) (a : Addr) (v : BitVec 32) : Mem := m.writeLE 4 a v

/-- Store a 64-bit value. -/
abbrev write64 (m : Mem) (a : Addr) (v : BitVec 64) : Mem := m.writeLE 8 a v

/-- Store one byte. -/
abbrev write8 (m : Mem) (a : Addr) (v : Byte) : Mem := m.write a 1 fun _ ↦ v

theorem write8_self (m : Mem) (a : Addr) (v : Byte) : m.write8 a v a = v :=
  write_of_mem (by simp)

theorem write8_of_ne {m : Mem} {a x : Addr} {v : Byte} (h : x ≠ a) : m.write8 a v x = m x := by
  refine write_of_not_mem fun hlt ↦ h ?_
  have hx := add_ofNat_sub_self a x
  rw [show (x - a).toNat = 0 by omega] at hx
  simpa using hx.symm

/-- A store into a range that has been overwritten. -/
theorem write_write8 (m : Mem) (a : Addr) {i n : ℕ} (hi : i < n) (hn : n ≤ 2 ^ 32) (b : ℕ → Byte)
    (v : Byte) : (m.write a n b).write8 (a + addr i) v = m.write a n (Function.update b i v) := by
  funext x
  by_cases hx : x = a + addr i
  · subst hx
    rw [write8_self, write_add hi hn, Function.update_self]
  · have hne : (x - a).toNat ≠ i := fun h ↦ hx (by rw [← h, addr, add_ofNat_sub_self])
    rw [write8_of_ne hx]
    by_cases hlt : (x - a).toNat < n
    · rw [write_of_mem hlt, write_of_mem hlt, Function.update_of_ne hne]
    · rw [write_of_not_mem hlt, write_of_not_mem hlt]

/-! ## Lists of bytes -/

/-- The `n` bytes from `a` on. -/
def bytes (m : Mem) (a : Addr) (n : ℕ) : List Byte := (List.range n).map fun i ↦ m (a + addr i)

@[simp] theorem length_bytes (m : Mem) (a : Addr) (n : ℕ) : (m.bytes a n).length = n := by
  rw [bytes, List.length_map, List.length_range]

/-- Store the bytes of a list. -/
def writeList (m : Mem) (a : Addr) (bs : List Byte) : Mem := m.write a bs.length fun i ↦ bs.getD i 0

theorem writeList_add {m : Mem} {a : Addr} {bs : List Byte} {i : ℕ} (hi : i < bs.length)
    (hn : bs.length ≤ 2 ^ 32) : m.writeList a bs (a + addr i) = bs.getD i 0 :=
  write_add hi hn

theorem writeList_singleton (m : Mem) (a : Addr) (c : Byte) : m.writeList a [c] = m.write8 a c := by
  refine write_congr fun i hi ↦ ?_
  obtain rfl : i = 0 := Nat.lt_one_iff.mp hi
  rfl

/-- A list is stored byte by byte, from the front … -/
theorem writeList_cons (m : Mem) (a : Addr) (c : Byte) {bs : List Byte} (h : bs.length < 2 ^ 32) :
    (m.write8 a c).writeList (a + addr 1) bs = m.writeList a (c :: bs) := by
  rw [writeList, write8, write_write_append m a (by omega), writeList, List.length_cons,
    Nat.add_comm 1]
  refine write_congr fun i _ ↦ ?_
  cases i with
  | zero => rfl
  | succ i => rw [if_neg (by omega), Nat.add_sub_cancel, List.getD_cons_succ]

/-- … or to the back. -/
theorem writeList_concat (m : Mem) (a : Addr) (c : Byte) {bs : List Byte}
    (h : bs.length < 2 ^ 32) :
    (m.writeList a bs).write8 (a + addr bs.length) c = m.writeList a (bs ++ [c]) := by
  rw [writeList, write8, write_write_append m a (by omega), writeList, List.length_append,
    List.length_singleton]
  refine write_congr fun i hi ↦ ?_
  by_cases hlt : i < bs.length
  · rw [if_pos hlt, List.getD_append _ _ _ _ hlt]
  · rw [if_neg hlt, List.getD_append_right _ _ _ _ (Nat.le_of_not_lt hlt),
      show i - bs.length = 0 by omega, List.getD_cons_zero]

theorem take_bytes_writeList (m : Mem) (a : Addr) {bs : List Byte} {n : ℕ}
    (hbs : bs.length ≤ n) (hn : n ≤ 2 ^ 32) :
    ((m.writeList a bs).bytes a n).take bs.length = bs := by
  refine List.ext_getElem (by simpa using Nat.min_eq_left hbs) fun i hi hi' ↦ ?_
  rw [List.getElem_take]
  simp only [bytes, List.getElem_map, List.getElem_range]
  rw [writeList_add hi' (by omega), List.getD_eq_getElem _ _ hi']

/-- A value depends on its own bytes only. -/
theorem readLE_congr {m m' : Mem} {n : ℕ} {a a' : Addr}
    (h : ∀ i < n, m (a + BitVec.ofNat 32 i) = m' (a' + BitVec.ofNat 32 i)) :
    m.readLE n a = m'.readLE n a' := by
  induction n generalizing a a' with
  | zero => rfl
  | succ n ih =>
    have hhead : m a = m' a' := by simpa using h 0 (by omega)
    have htail : m.readLE n (a + 1) = m'.readLE n (a' + 1) := by
      refine ih fun i hi ↦ ?_
      rw [add_one_add_ofNat, add_one_add_ofNat]
      exact h (i + 1) (by omega)
    rw [readLE, readLE, hhead, htail]

/-- Bit `i` of a value is bit `i % 8` of its byte `i / 8`. -/
theorem getLsbD_readLE (m : Mem) {n : ℕ} (a : Addr) {i : ℕ} (hi : i < 8 * n) :
    (m.readLE n a).getLsbD i = (m (a + BitVec.ofNat 32 (i / 8))).getLsbD (i % 8) := by
  induction n generalizing a i with
  | zero => omega
  | succ n ih =>
    rw [readLE, BitVec.getLsbD_append]
    by_cases h8 : i < 8
    · simp [h8, Nat.div_eq_of_lt h8, Nat.mod_eq_of_lt h8]
    · obtain ⟨j, rfl⟩ : ∃ j, i = j + 8 := ⟨i - 8, by omega⟩
      rw [if_neg h8, Nat.add_sub_cancel, ih (a + 1) (by omega), add_one_add_ofNat,
        Nat.add_mod_right, Nat.add_div_right j (by omega)]

theorem getLsbD_byteOf {w : ℕ} (v : BitVec w) (i j : ℕ) (hj : j < 8) :
    (byteOf v i).getLsbD j = v.getLsbD (8 * i + j) := by
  simp [byteOf, hj]

/-- The bytes of a value that has been read. -/
theorem byteOf_readLE (m : Mem) {n i : ℕ} (hi : i < n) (a : Addr) :
    byteOf (m.readLE n a) i = m (a + BitVec.ofNat 32 i) := by
  refine BitVec.eq_of_getLsbD_eq fun j hj ↦ ?_
  rw [getLsbD_byteOf _ _ _ hj, getLsbD_readLE _ _ (by omega)]
  have hdiv : (8 * i + j) / 8 = i := by omega
  have hmod : (8 * i + j) % 8 = j := by omega
  rw [hdiv, hmod]

/-- A part of a stored value, read back. -/
theorem readLE_writeLE_part (m : Mem) {n j k : ℕ} (hn : n ≤ 2 ^ 32) (hjk : j + k ≤ n) (a : Addr)
    (v : BitVec (8 * n)) :
    (m.writeLE n a v).readLE k (a + BitVec.ofNat 32 j) = v.extractLsb' (8 * j) (8 * k) := by
  refine BitVec.eq_of_getLsbD_eq fun i hi ↦ ?_
  rw [getLsbD_readLE _ _ hi, add_addr_addr, writeLE,
    write_add (by omega) hn, getLsbD_byteOf _ _ _ (Nat.mod_lt i (by omega)),
    BitVec.getLsbD_extractLsb', decide_eq_true hi, Bool.true_and]
  exact congrArg v.getLsbD (by omega)

/-- **What is stored is what is read back.** -/
theorem readLE_writeLE (m : Mem) {n : ℕ} (hn : n ≤ 2 ^ 32) (a : Addr) (v : BitVec (8 * n)) :
    (m.writeLE n a v).readLE n a = v := by
  have h := readLE_writeLE_part m hn (Nat.le_of_eq (Nat.zero_add n)) a v
  simpa using h

/-- A 16-bit value is two bytes, the low one first. -/
theorem read16_eq (m : Mem) (a : Addr) : m.read16 a = m (a + 1) ++ m a := by
  refine BitVec.eq_of_getLsbD_eq (w := 16) fun i hi ↦ ?_
  rw [BitVec.getLsbD_append, read16, getLsbD_readLE m (n := 2) a (by omega)]
  by_cases h8 : i < 8
  · rw [if_pos h8, Nat.div_eq_of_lt h8, Nat.mod_eq_of_lt h8, BitVec.add_zero]
  · rw [if_neg h8, show i / 8 = 1 by omega, show i % 8 = i - 8 by omega]
    rfl

/-- A 32-bit value is two 16-bit values, the low one first. -/
theorem read32_eq (m : Mem) (a : Addr) : m.read32 a = m.read16 (a + 2) ++ m.read16 a := by
  refine BitVec.eq_of_getLsbD_eq (w := 32) fun i hi ↦ ?_
  rw [BitVec.getLsbD_append, read32, getLsbD_readLE m (n := 4) a (by omega)]
  by_cases h16 : i < 16
  · rw [if_pos h16, read16, getLsbD_readLE m (n := 2) a (by omega)]
  · rw [if_neg h16, read16, getLsbD_readLE m (n := 2) _ (by omega),
      show (i - 16) % 8 = i % 8 by omega]
    refine congrArg (fun x ↦ (m x).getLsbD (i % 8)) ?_
    bv_omega

/-- A 64-bit value is two 32-bit values, the low one first. -/
theorem read64_eq (m : Mem) (a : Addr) : m.read64 a = m.read32 (a + 4) ++ m.read32 a := by
  refine BitVec.eq_of_getLsbD_eq (w := 64) fun i hi ↦ ?_
  rw [BitVec.getLsbD_append, read64, getLsbD_readLE m (n := 8) a (by omega)]
  by_cases h32 : i < 32
  · rw [if_pos h32, read32, getLsbD_readLE m (n := 4) a (by omega)]
  · rw [if_neg h32, read32, getLsbD_readLE m (n := 4) _ (by omega),
      show (i - 32) % 8 = i % 8 by omega]
    refine congrArg (fun x ↦ (m x).getLsbD (i % 8)) ?_
    bv_omega

/-- The two bytes of a 16-bit value, the high one first. -/
theorem eq_of_read16_eq {m m' : Mem} {a : Addr} (h : m.read16 a = m'.read16 a) :
    m (a + 1) = m' (a + 1) ∧ m a = m' a := by
  have hbyte : ∀ j < 8, (m (a + 1)).getLsbD j = (m' (a + 1)).getLsbD j ∧
      (m a).getLsbD j = (m' a).getLsbD j := by
    intro j hj
    have hhigh := congrArg (BitVec.getLsbD · (8 + j)) h
    have hlow := congrArg (BitVec.getLsbD · j) h
    simp only [getLsbD_readLE _ (n := 2) a (show 8 + j < 16 by omega)] at hhigh
    simp only [getLsbD_readLE _ (n := 2) a (show j < 16 by omega)] at hlow
    rw [show (8 + j) / 8 = 1 by omega, show (8 + j) % 8 = j by omega] at hhigh
    rw [Nat.div_eq_of_lt hj, Nat.mod_eq_of_lt hj, BitVec.add_zero] at hlow
    exact ⟨hhigh, hlow⟩
  exact ⟨BitVec.eq_of_getLsbD_eq fun j hj ↦ (hbyte j hj).1,
    BitVec.eq_of_getLsbD_eq fun j hj ↦ (hbyte j hj).2⟩

/-- **The frame rule**: a value none of whose bytes is overwritten is unchanged. -/
theorem readLE_write_of_disjoint {m : Mem} {a b : Addr} {n k : ℕ} {f : ℕ → Byte}
    (h : ∀ i < k, n ≤ (b + BitVec.ofNat 32 i - a).toNat) :
    (m.write a n f).readLE k b = m.readLE k b :=
  readLE_congr fun i hi ↦ write_of_not_mem (by have := h i hi; omega)

/-- The frame rule inside an object: stores and loads at offsets from one address. -/
theorem readLE_write_offset (m : Mem) (p : Addr) {j n k l : ℕ} (f : ℕ → Byte)
    (h : k + l ≤ j ∨ j + n ≤ k) (hj : j + n ≤ 2 ^ 32) (hk : k + l ≤ 2 ^ 32) :
    (m.write (p + addr j) n f).readLE l (p + addr k) = m.readLE l (p + addr k) := by
  refine readLE_write_of_disjoint fun i hi ↦ ?_
  bv_omega

/-- Two ranges that do not wrap are disjoint when one ends before the other starts. -/
theorem disjoint_of_le {a b : Addr} {n k : ℕ} (ha : a.toNat + n ≤ 2 ^ 32)
    (hb : b.toNat + k ≤ 2 ^ 32) (h : a.toNat + n ≤ b.toNat ∨ b.toNat + k ≤ a.toNat) :
    ∀ i < k, n ≤ (b + BitVec.ofNat 32 i - a).toNat := by
  intro i hi
  by_contra hlt
  have hmem := (mem_range_iff ha (b + BitVec.ofNat 32 i)).mp (by omega)
  rw [toNat_add_ofNat b (by omega)] at hmem
  omega

/-! ## Frames -/

/-- The two memories agree outside the interval from `lo` up to `hi`. -/
def EqOff (m m' : Mem) (lo hi : ℕ) : Prop :=
  ∀ x : Addr, x.toNat < lo ∨ hi ≤ x.toNat → m' x = m x

theorem EqOff.refl (m : Mem) (lo hi : ℕ) : EqOff m m lo hi := fun _ _ ↦ rfl

theorem EqOff.trans {m₁ m₂ m₃ : Mem} {lo hi : ℕ} (h : EqOff m₁ m₂ lo hi) (h' : EqOff m₂ m₃ lo hi) :
    EqOff m₁ m₃ lo hi :=
  fun x hx ↦ (h' x hx).trans (h x hx)

theorem EqOff.mono {m m' : Mem} {lo hi lo' hi' : ℕ} (h : EqOff m m' lo hi) (hlo : lo' ≤ lo)
    (hhi : hi ≤ hi') : EqOff m m' lo' hi' :=
  fun x hx ↦ h x (by omega)

theorem eqOff_write (m : Mem) (a : Addr) {n : ℕ} (b : ℕ → Byte) (h : a.toNat + n ≤ 2 ^ 32) :
    EqOff m (m.write a n b) a.toNat (a.toNat + n) := by
  intro x hx
  refine write_of_not_mem fun hmem ↦ ?_
  rw [mem_range_iff h] at hmem
  omega

/-- A value outside the interval is unchanged. -/
theorem EqOff.readLE_eq {m m' : Mem} {lo hi n : ℕ} {a : Addr} (h : EqOff m m' lo hi)
    (ha : a.toNat + n ≤ 2 ^ 32) (hout : a.toNat + n ≤ lo ∨ hi ≤ a.toNat) :
    m'.readLE n a = m.readLE n a := by
  refine readLE_congr fun i hi ↦ h _ ?_
  rw [toNat_add_ofNat a (by omega)]
  omega

/-- The `n` addresses from `a` on, modulo `2 ^ 32`. -/
def Range (a : Addr) (n : ℕ) (x : Addr) : Prop := (x - a).toNat < n

theorem range_add {a : Addr} {n j : ℕ} (hj : j < n) (hn : n ≤ 2 ^ 32) : Range a n (a + addr j) := by
  rw [Range, add_ofNat_sub _ (by omega)]
  exact hj

/-- A part of a range. -/
theorem Range.of_part {a x : Addr} {j k n : ℕ} (h : Range (a + addr j) k x) (hjk : j + k ≤ n)
    (hn : n ≤ 2 ^ 32) : Range a n x := by
  rw [Range] at h ⊢
  bv_omega

/-- Ranges that follow each other have nothing in common. -/
theorem not_range_of_le {a b x : Addr} {n k : ℕ} (hn : a.toNat + n ≤ 2 ^ 32)
    (hk : b.toNat + k ≤ 2 ^ 32) (h : a.toNat + n ≤ b.toNat ∨ b.toNat + k ≤ a.toNat)
    (hx : Range a n x) : ¬ Range b k x := by
  rw [Range, mem_range_iff hn] at hx
  rw [Range, mem_range_iff hk]
  omega

/-- The two memories agree on a set of addresses. -/
def EqOn (P : Addr → Prop) (m m' : Mem) : Prop := ∀ x, P x → m' x = m x

theorem EqOn.trans {P : Addr → Prop} {m₁ m₂ m₃ : Mem} (h : EqOn P m₁ m₂) (h' : EqOn P m₂ m₃) :
    EqOn P m₁ m₃ :=
  fun x hx ↦ (h' x hx).trans (h x hx)

theorem EqOn.mono {P Q : Addr → Prop} {m m' : Mem} (h : EqOn P m m') (hQ : ∀ x, Q x → P x) :
    EqOn Q m m' :=
  fun x hx ↦ h x (hQ x hx)

theorem eqOn_write {P : Addr → Prop} {m : Mem} {a : Addr} {n : ℕ} {b : ℕ → Byte}
    (h : ∀ x, Range a n x → ¬ P x) : EqOn P m (m.write a n b) :=
  fun x hx ↦ write_of_not_mem fun hlt ↦ h x hlt hx

theorem EqOn.readLE_eq {P : Addr → Prop} {m m' : Mem} {a : Addr} {n : ℕ} (h : EqOn P m m')
    (hP : ∀ x, Range a n x → P x) (hn : n ≤ 2 ^ 32) : m'.readLE n a = m.readLE n a :=
  readLE_congr fun _ hi ↦ h _ (hP _ (range_add hi hn))

end Mem
