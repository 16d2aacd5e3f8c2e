import RainbowOS.Lib.Memory

/-!
# `memcpy`, `memmove` and `memset`

The byte loops of `lib/stdlibC/string.c`, one store at a time in the order of the source.

* `memmove_eq_write` — whatever way the two ranges overlap, `memmove` leaves the destination with
  the bytes the source had before the call.
* `memcpy_eq_write` — so does `memcpy`, if the destination does not start inside the source.
* `memset_eq_write` — `memset` fills the destination.
-/

set_option autoImplicit false

namespace RainbowOS

/-! ## The loops -/

/-- `memcpy(dst, src, size)`. -/
def memcpy (m : Mem) (dst src : Addr) (size : ℕ) : Mem :=
  (List.range size).foldl (fun m i ↦ m.write8 (dst + addr i) (m (src + addr i))) m

/-- `memset(buf, value, size)`. -/
def memset (m : Mem) (buf : Addr) (value : Byte) (size : ℕ) : Mem :=
  (List.range size).foldl (fun m i ↦ m.write8 (buf + addr i) value) m

/-- `memmove(dst, src, size)`: upwards when the destination is below the source, else downwards. -/
def memmove (m : Mem) (dst src : Addr) (size : ℕ) : Mem :=
  if dst < src then
    (List.range size).foldl (fun m i ↦ m.write8 (dst + addr i) (m (src + addr i))) m
  else
    (List.range size).reverse.foldl (fun m i ↦ m.write8 (dst + addr i) (m (src + addr i))) m

variable {m : Mem} {dst src : Addr} {size : ℕ}

/-! ## What they write -/

/-- A store right behind a range extends the range. -/
theorem write_write8_succ (m : Mem) (a : Addr) {k : ℕ} (hk : k < 2 ^ 32) (b : ℕ → Byte) :
    (m.write a k b).write8 (a + addr k) (b k) = m.write a (k + 1) b := by
  funext x
  by_cases hx : x = a + addr k
  · subst hx
    rw [Mem.write8_self, Mem.write_add (by omega) (by omega)]
  · rw [Mem.write8_of_ne hx]
    have hne : (x - a).toNat ≠ k := fun h ↦ hx (by rw [← h, addr, add_ofNat_sub_self])
    by_cases hlt : (x - a).toNat < k
    · rw [Mem.write_of_mem hlt, Mem.write_of_mem (by omega)]
    · rw [Mem.write_of_not_mem hlt, Mem.write_of_not_mem (by omega)]

/-- A store right in front of a range extends it too. -/
theorem write_write8_pred (m : Mem) (a : Addr) {j k : ℕ} (hk : j + k < 2 ^ 32) (b : ℕ → Byte) :
    (m.write (a + addr (j + 1)) k fun i ↦ b (j + 1 + i)).write8 (a + addr j) (b j)
      = m.write (a + addr j) (k + 1) fun i ↦ b (j + i) := by
  funext x
  by_cases hx : x = a + addr j
  · subst hx
    rw [Mem.write8_self, Mem.write_of_mem (by simp)]
    simp
  · rw [Mem.write8_of_ne hx]
    have hpos : (x - (a + addr j)).toNat ≠ 0 := fun h ↦ hx (by bv_omega)
    have hsub : (x - (a + addr j)).toNat = (x - (a + addr (j + 1))).toNat + 1 ∨
        ¬ (x - (a + addr (j + 1))).toNat < k ∧ ¬ (x - (a + addr j)).toNat < k + 1 := by
      bv_omega
    rcases hsub with h | ⟨h, h'⟩
    · by_cases hlt : (x - (a + addr (j + 1))).toNat < k
      · rw [Mem.write_of_mem hlt, Mem.write_of_mem (by omega), h]
        exact congrArg b (by omega)
      · rw [Mem.write_of_not_mem hlt, Mem.write_of_not_mem (by omega)]
    · rw [Mem.write_of_not_mem h, Mem.write_of_not_mem h']

theorem memset_eq_write (m : Mem) (buf : Addr) (value : Byte) (hsize : size ≤ 2 ^ 32) :
    memset m buf value size = m.write buf size fun _ ↦ value := by
  rw [memset]
  induction size with
  | zero => simp
  | succ k ih =>
    rw [List.range_succ, List.foldl_append, ih (by omega)]
    exact write_write8_succ m buf (by omega) _

/-- The upward loop: before round `k` the source byte `k` has not been overwritten. -/
theorem copyUp_eq_write (hsize : size ≤ 2 ^ 32)
    (hfar : ∀ i < size, i ≤ (src + addr i - dst).toNat) :
    (List.range size).foldl (fun m i ↦ m.write8 (dst + addr i) (m (src + addr i))) m
      = m.write dst size fun i ↦ m (src + addr i) := by
  induction size with
  | zero => simp
  | succ k ih =>
    have hsrc := hfar k (by omega)
    rw [List.range_succ, List.foldl_append, ih (by omega) fun i hi ↦ hfar i (by omega),
      List.foldl_cons, List.foldl_nil, Mem.write_of_not_mem (by omega)]
    exact write_write8_succ m dst (by omega) _

/-- The downward loop, after which the bytes from number `j` on are copied. -/
theorem copyDown_eq_write {j k : ℕ} (hsize : j + k ≤ 2 ^ 32)
    (hfar : ∀ i < j, k + j ≤ (src + addr i - (dst + addr (i + 1))).toNat + (i + 1)) :
    (List.range j).reverse.foldl (fun m i ↦ m.write8 (dst + addr i) (m (src + addr i)))
        (m.write (dst + addr j) k fun i ↦ m (src + addr (j + i)))
      = m.write dst (j + k) fun i ↦ m (src + addr i) := by
  induction j generalizing k with
  | zero => simp
  | succ j ih =>
    have hsrc := hfar j (by omega)
    rw [List.range_succ, List.reverse_append, List.reverse_singleton, List.singleton_append,
      List.foldl_cons, Mem.write_of_not_mem (by omega),
      write_write8_pred m dst (by omega) fun i ↦ m (src + addr i), ih (by omega) fun i hi ↦ ?_,
      show j + 1 + k = j + (k + 1) by omega]
    have := hfar i (by omega)
    omega

theorem memcpy_eq_write (hsize : size ≤ 2 ^ 32)
    (hfar : ∀ i < size, i ≤ (src + addr i - dst).toNat) :
    memcpy m dst src size = m.write dst size fun i ↦ m (src + addr i) :=
  copyUp_eq_write hsize hfar

/-- **`memmove` copies the bytes the source had before the call**, for ranges that do not wrap. -/
theorem memmove_eq_write (hdst : dst.toNat + size ≤ 2 ^ 32) (hsrc : src.toNat + size ≤ 2 ^ 32) :
    memmove m dst src size = m.write dst size fun i ↦ m (src + addr i) := by
  rw [memmove]
  split
  · rename_i hlt
    refine copyUp_eq_write (by omega) fun i hi ↦ ?_
    bv_omega
  · rename_i hlt
    have h := @copyDown_eq_write m dst src size 0 (by omega) fun i hi ↦ by bv_omega
    rwa [Mem.write_zero, Nat.add_zero] at h

/-- **`memmove` under every overlap.**  Byte by byte: the destination holds what the source held
before the call, and nothing else has changed. -/
theorem memmove_exact (hdst : dst.toNat + size ≤ 2 ^ 32) (hsrc : src.toNat + size ≤ 2 ^ 32) :
    (∀ i < size, memmove m dst src size (dst + addr i) = m (src + addr i)) ∧
      ∀ x : Addr, x.toNat < dst.toNat ∨ dst.toNat + size ≤ x.toNat →
        memmove m dst src size x = m x := by
  rw [memmove_eq_write hdst hsrc]
  constructor
  · intro i hi
    exact Mem.write_add hi (by omega)
  · exact Mem.eqOff_write m dst _ hdst

/-- A destination that begins inside the source, where an upward copy would repeat one byte. -/
theorem memmove_exact_upwards :
    let m : Mem := fun x ↦ x.setWidth 8
    (∀ i < 3, memmove m 0x1001 0x1000 3 (0x1001 + addr i) = m (0x1000 + addr i)) ∧
      ∀ x : Addr, x.toNat < 0x1001 ∨ 0x1001 + 3 ≤ x.toNat → memmove m 0x1001 0x1000 3 x = m x :=
  memmove_exact (by decide) (by decide)

end RainbowOS
