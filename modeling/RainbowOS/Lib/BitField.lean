import RainbowOS.Lib.Memory

/-!
# Bit-fields

A bit-field of a word is a number of bits from some position on.  `BitField.get` reads it and
`BitField.set` replaces it; `get_set` and `get_set_of_disjoint` are all that is needed of them.
`Mem.setField` stores into a bit-field of a byte in memory.
-/

set_option autoImplicit false

namespace BitField

variable {w k k' lo lo' : ℕ}

/-- The `k` bits from `lo` on. -/
def get (v : BitVec w) (lo k : ℕ) : BitVec k := v.extractLsb' lo k

/-- Replace the `k` bits from `lo` on. -/
def set (v : BitVec w) (lo : ℕ) (x : BitVec k) : BitVec w :=
  v &&& ~~~((BitVec.allOnes k).setWidth w <<< lo) ||| x.setWidth w <<< lo

theorem getLsbD_set (v : BitVec w) (x : BitVec k) (h : lo + k ≤ w) (i : ℕ) :
    (set v lo x).getLsbD i =
      if lo ≤ i ∧ i < lo + k then x.getLsbD (i - lo) else v.getLsbD i := by
  rw [set, BitVec.getLsbD_or, BitVec.getLsbD_and, BitVec.getLsbD_not, BitVec.getLsbD_shiftLeft,
    BitVec.getLsbD_shiftLeft, BitVec.getLsbD_setWidth, BitVec.getLsbD_setWidth,
    BitVec.getLsbD_allOnes]
  by_cases hi : i < w
  · by_cases hlo : i < lo
    · simp [hi, hlo, Nat.not_le.mpr hlo]
    · by_cases hhi : i < lo + k
      · simp [hi, hlo, hhi, Nat.le_of_not_lt hlo, show i - lo < k by omega,
          show i - lo < w by omega]
      · simp [hi, hlo, hhi, show ¬ i - lo < k by omega,
          BitVec.getLsbD_of_ge x (i - lo) (by omega)]
  · rw [if_neg (by omega), BitVec.getLsbD_of_ge v i (by omega)]
    simp [hi]

/-- What has been put into a field. -/
theorem get_set (v : BitVec w) (x : BitVec k) (h : lo + k ≤ w) : get (set v lo x) lo k = x := by
  refine BitVec.eq_of_getLsbD_eq fun i hi ↦ ?_
  rw [get, BitVec.getLsbD_extractLsb', getLsbD_set v x h, if_pos (by omega), decide_eq_true hi,
    Nat.add_sub_cancel_left, Bool.true_and]

/-- The other fields. -/
theorem get_set_of_disjoint (v : BitVec w) (x : BitVec k) (h : lo + k ≤ w)
    (hdis : lo + k ≤ lo' ∨ lo' + k' ≤ lo) : get (set v lo x) lo' k' = get v lo' k' := by
  refine BitVec.eq_of_getLsbD_eq fun i hi ↦ ?_
  rw [get, get, BitVec.getLsbD_extractLsb', BitVec.getLsbD_extractLsb', getLsbD_set v x h,
    if_neg (by omega)]

end BitField

/-- Store into the bit-field of the byte at `a` that begins at bit `lo`. -/
def Mem.setField {k : ℕ} (m : Mem) (a : Addr) (lo : ℕ) (x : BitVec k) : Mem :=
  m.write8 a (BitField.set (m a) lo x)

theorem Mem.setField_self {k : ℕ} (m : Mem) (a : Addr) (lo : ℕ) (x : BitVec k) :
    m.setField a lo x a = BitField.set (m a) lo x :=
  write8_self m a _
