import RainbowOS.Heap.Entry
import RainbowOS.Lib.FirstFit

/-!
# The header chain in memory, and the blocks it stands for

`Represents m a bs` says that the headers found in memory from address `a` on are those of the
blocks `bs`, laid out one behind the other, with the end marker behind the last one.  The list of
blocks lives in `Lib/FirstFit.lean`, where it cannot be malformed; this file connects it to the
bytes.

* `HeapEntry.fields_of_eqOff` and the equations before it are the load/store algebra of a header.
* `Represents.tail` and `Represents.replace` cut a chain at a block and put another tail in place
  of the one that is there.
* `allocate_refines` — `allocate` on a represented chain does what `FirstFit.alloc` does on the
  blocks, as long as the block taken fits exactly or leaves room for a header.
* `defragment_refines` and `kfree_refines` — `kfree` does what `FirstFit.release` does.
-/

set_option autoImplicit false

namespace RainbowOS

open FirstFit

/-! ## One header -/

namespace HeapEntry

theorem next_setNext (m : Mem) (a p : Addr) : next (setNext m a p) a = p :=
  Mem.readLE_writeLE (n := 4) m (by omega) a p

theorem reserved_setNext (m : Mem) (a p : Addr) : reserved (setNext m a p) a = reserved m a := by
  rw [reserved, setNext, Mem.write32, Mem.writeLE, Mem.write_of_not_mem, reserved]
  bv_omega

theorem next_setReserved (m : Mem) (a : Addr) (r : Bool) :
    next (setReserved m a r) a = next m a := by
  rw [next, setReserved, Mem.write8, Mem.read32]
  refine Mem.readLE_write_of_disjoint (n := 1) (k := 4) fun i hi ↦ ?_
  bv_omega

theorem getLsbD_zero_setReserved (b : Byte) (r : Bool) :
    ((b &&& 0xfe) ||| (BitVec.ofBool r).setWidth 8).getLsbD 0 = r := by
  rw [BitVec.getLsbD_or, BitVec.getLsbD_and, show (0xfe : Byte).getLsbD 0 = false from rfl,
    Bool.and_false, Bool.false_or]
  cases r <;> rfl

theorem reserved_setReserved (m : Mem) (a : Addr) (r : Bool) :
    reserved (setReserved m a r) a = r := by
  rw [reserved, setReserved, Mem.write8, Mem.write_of_mem (by simp)]
  exact getLsbD_zero_setReserved _ r

theorem next_init (m : Mem) (a p : Addr) : next (init m a p) a = p := next_setNext _ a p

theorem reserved_init (m : Mem) (a p : Addr) : reserved (init m a p) a = (p == 0) := by
  rw [init, reserved_setNext, reserved_setReserved]

/-! Each of these stores stays inside the header it is about. -/

theorem eqOff_setNext (m : Mem) {a : Addr} (p : Addr) (h : a.toNat + 8 ≤ 2 ^ 32) :
    Mem.EqOff m (setNext m a p) a.toNat (a.toNat + 8) :=
  (Mem.eqOff_write m a _ (by omega)).mono (by omega) (by omega)

theorem eqOff_setReserved (m : Mem) {a : Addr} (r : Bool) (h : a.toNat + 8 ≤ 2 ^ 32) :
    Mem.EqOff m (setReserved m a r) a.toNat (a.toNat + 8) := by
  have h4 : (a + 4).toNat = a.toNat + 4 := toNat_add_ofNat a (i := 4) (by omega)
  have hw := Mem.eqOff_write m (a + 4) (n := 1)
    (fun _ ↦ (m (a + 4) &&& 0xfe) ||| (BitVec.ofBool r).setWidth 8) (by omega)
  exact hw.mono (by omega) (by omega)

theorem eqOff_init (m : Mem) {a : Addr} (p : Addr) (h : a.toNat + 8 ≤ 2 ^ 32) :
    Mem.EqOff m (init m a p) a.toNat (a.toNat + 8) :=
  (eqOff_setReserved m _ h).trans (eqOff_setNext _ p h)

/-- **The frame of a header**: a change outside it does not change its fields. -/
theorem fields_of_eqOff {m m' : Mem} {a : Addr} {lo hi : ℕ} (hm : Mem.EqOff m m' lo hi)
    (ha : a.toNat + 8 ≤ 2 ^ 32) (h : a.toNat + 8 ≤ lo ∨ hi ≤ a.toNat) :
    next m' a = next m a ∧ reserved m' a = reserved m a := by
  have hbyte : ∀ i < 8, m' (a + BitVec.ofNat 32 i) = m (a + BitVec.ofNat 32 i) := by
    intro i hi
    refine hm _ ?_
    rw [toNat_add_ofNat a (by omega)]
    omega
  exact ⟨Mem.readLE_congr fun i hi ↦ hbyte i (by omega),
    congrArg (BitVec.getLsbD · 0) (hbyte 4 (by omega))⟩

end HeapEntry

open HeapEntry

/-! ## The chain -/

/-- The headers in memory from `a` on are those of the blocks, and behind them is the end marker:
a reserved header without a next one. -/
def Represents (m : Mem) : ℕ → List Block → Prop
  | a, [] => next m (addr a) = 0 ∧ reserved m (addr a) = true
  | a, b :: bs => next m (addr a) = addr (a + 8 + b.size) ∧ reserved m (addr a) = b.used ∧
      Represents m (a + 8 + b.size) bs

variable {m m' : Mem} {a lo hi : ℕ} {b : Block} {bs pre post : List Block}

/-- Only the fields of the headers matter. -/
theorem Represents.congr (h : Represents m a bs)
    (hm : ∀ x ∈ headers 8 a bs, next m' (addr x) = next m (addr x) ∧
      reserved m' (addr x) = reserved m (addr x)) : Represents m' a bs := by
  induction bs generalizing a with
  | nil =>
    have hf := hm a (by simp [headers])
    exact ⟨hf.1.trans h.1, hf.2.trans h.2⟩
  | cons b bs ih =>
    have hf := hm a (by simp [headers])
    exact ⟨hf.1.trans h.1, hf.2.trans h.2.1, ih h.2.2 fun x hx ↦ hm x (by simp [headers, hx])⟩

theorem Represents.of_eqOff (h : Represents m a bs) (hm : Mem.EqOff m m' lo hi)
    (hbound : a + span 8 bs + 8 ≤ 2 ^ 32) (hoff : a + span 8 bs + 8 ≤ lo ∨ hi ≤ a) :
    Represents m' a bs := by
  refine h.congr fun x hx ↦ ?_
  have hx := le_of_mem_headers hx
  have ha : (addr x).toNat = x := toNat_addr (by omega)
  exact fields_of_eqOff hm (by omega) (by omega)

/-- The chain behind its first blocks. -/
theorem Represents.tail (h : Represents m a (pre ++ bs)) : Represents m (a + span 8 pre) bs := by
  induction pre generalizing a with
  | nil => exact h
  | cons c pre ih =>
    have := ih h.2.2
    rwa [span_cons, show a + (8 + c.size + span 8 pre) = a + 8 + c.size + span 8 pre by omega]

/-- **Put another tail in place of the one that is there.**  The first blocks have to be out of
reach of what was changed. -/
theorem Represents.replace {bs' : List Block} (h : Represents m a (pre ++ bs))
    (hm : Mem.EqOff m m' lo hi) (hlo : a + span 8 pre ≤ lo) (hbound : a + span 8 pre ≤ 2 ^ 32)
    (h' : Represents m' (a + span 8 pre) bs') : Represents m' a (pre ++ bs') := by
  induction pre generalizing a with
  | nil => exact h'
  | cons c pre ih =>
    rw [span_cons] at hlo hbound h'
    have hf := fields_of_eqOff (a := addr a) hm (by rw [toNat_addr] <;> omega)
      (by rw [toNat_addr] <;> omega)
    refine ⟨hf.1.trans h.1, hf.2.trans h.2.1, ih h.2.2 (by omega) (by omega) ?_⟩
    rwa [show a + 8 + c.size + span 8 pre = a + (8 + c.size + span 8 pre) by omega]

/-- A block's header is not the end marker. -/
theorem Represents.next_ne_zero (h : Represents m a (b :: bs))
    (hbound : a + span 8 (b :: bs) + 8 ≤ 2 ^ 32) : next m (addr a) ≠ 0 := by
  rw [span_cons] at hbound
  rw [h.1]
  intro hz
  have := congrArg BitVec.toNat hz
  rw [toNat_addr (by omega)] at this
  simp at this

theorem Represents.getSize_eq (h : Represents m a (b :: bs)) :
    getSize m (addr a) = addr b.size := by
  rw [getSize, h.1, heapEntry_headerSize]
  bv_omega

/-! ## `allocate` -/

/-- The entries that do not fit are passed over. -/
theorem allocate_skip {n : BitVec 32} {r : Mem × Addr} (h : Represents m a (pre ++ bs))
    (hbound : a + span 8 (pre ++ bs) + 8 ≤ 2 ^ 32) (hpre : ∀ c ∈ pre, fits n.toNat c = false) :
    Loop.Returns (allocateStep n) (m, addr a) r ↔
      Loop.Returns (allocateStep n) (m, addr (a + span 8 pre)) r := by
  induction pre generalizing a with
  | nil => rfl
  | cons c pre ih =>
    have hc := hpre c (by simp)
    rw [List.cons_append] at h hbound
    have hsize := h.getSize_eq
    have hnext := h.next_ne_zero hbound
    rw [span_cons] at hbound
    have hstep : allocateStep n (m, addr a) = .next (m, addr (a + 8 + c.size)) := by
      rw [allocateStep, if_neg hnext, if_pos, h.1]
      rw [Bool.or_eq_true, decide_eq_true_eq, hsize, h.2.1, BitVec.lt_def, toNat_addr (by omega)]
      rw [fits, Bool.and_eq_false_iff, Bool.not_eq_false', decide_eq_false_iff_not] at hc
      exact hc.imp_right Nat.lt_of_not_le
    rw [Loop.returns_iff_of_next hstep, ih h.2.2 (by omega) fun d hd ↦ hpre d (by simp [hd]),
      span_cons, show a + 8 + c.size + span 8 pre = a + (8 + c.size + span 8 pre) by omega]

/-- An entry that fits is handed out. -/
theorem allocateStep_of_fits {n : BitVec 32} (h : Represents m a (b :: post))
    (hbound : a + span 8 (b :: post) + 8 ≤ 2 ^ 32) (hb : fits n.toNat b = true) :
    allocateStep n (m, addr a) = .done (take m (addr a) n, addr (a + 8)) := by
  have hsize := h.getSize_eq
  have hnext := h.next_ne_zero hbound
  rw [span_cons] at hbound
  rw [fits, Bool.and_eq_true, Bool.not_eq_true', decide_eq_true_eq] at hb
  have hptr : getDataPtr (addr a) = addr (a + 8) := (BitVec.ofNat_add a 8).symm
  rw [allocateStep, if_neg hnext, if_neg, hptr]
  rw [Bool.or_eq_true, decide_eq_true_eq, hsize, h.2.1, BitVec.lt_def, toNat_addr (by omega)]
  simpa [hb.1] using hb.2

/-- The comparison that guards the split is true for every block larger than the request: the
difference is taken the wrong way round, so it wraps. -/
theorem split_guard_iff {n : BitVec 32} {k : ℕ} (hk : n.toNat ≤ k) (hbound : k + 16 ≤ 2 ^ 32) :
    heapEntry_headerSize + 4 < n - addr k ↔ n.toNat < k := by
  rw [heapEntry_headerSize]
  bv_omega

theorem take_of_eq {n : BitVec 32} (h : Represents m a (b :: post))
    (hbound : a + span 8 (b :: post) + 8 ≤ 2 ^ 32) (hn : n.toNat = b.size) :
    take m (addr a) n = setReserved m (addr a) true := by
  rw [span_cons] at hbound
  have hguard := split_guard_iff (n := n) (k := b.size) (by omega) (by omega)
  rw [take, h.getSize_eq, if_neg (mt hguard.mp (by omega))]

theorem take_of_lt {n : BitVec 32} (h : Represents m a (b :: post))
    (hbound : a + span 8 (b :: post) + 8 ≤ 2 ^ 32) (hn : n.toNat < b.size) :
    take m (addr a) n = setReserved (init (setNext m (addr a) (addr (a + 8 + n.toNat)))
      (addr (a + 8 + n.toNat)) (addr (a + 8 + b.size))) (addr a) true := by
  rw [span_cons] at hbound
  have hnew : getDataPtr (addr a) + n = addr (a + 8 + n.toNat) := by
    rw [getDataPtr, heapEntry_headerSize]
    bv_omega
  have hguard := split_guard_iff (n := n) (k := b.size) (by omega) (by omega)
  rw [take, h.getSize_eq, if_pos (hguard.mpr hn), HeapEntry.split, hnew, h.1]

/-- **What a split writes**: the block ends at the new header, which leads on to the old next one;
nothing outside the block's header and the new one changes.  The new header is here even where it
overlaps the next one. -/
theorem take_split {n : BitVec 32} (h : Represents m a (b :: post))
    (hbound : a + span 8 (b :: post) + 8 ≤ 2 ^ 32) (hn : n.toNat < b.size) {q : ℕ}
    (hq : q = a + 8 + n.toNat) :
    next (take m (addr a) n) (addr a) = addr q ∧ reserved (take m (addr a) n) (addr a) = true ∧
      next (take m (addr a) n) (addr q) = addr (a + 8 + b.size) ∧
      reserved (take m (addr a) n) (addr q) = false ∧
      Mem.EqOff m (take m (addr a) n) a (q + 8) := by
  have hb := hbound
  rw [span_cons] at hb
  have ha : (addr a).toNat = a := toNat_addr (by omega)
  have hqa : (addr q).toNat = q := toNat_addr (by omega)
  rw [take_of_lt h hbound hn, ← hq]
  have h₁ := eqOff_setNext m (a := addr a) (addr q) (by omega)
  obtain ⟨m₁, hm₁⟩ : ∃ m₁, m₁ = setNext m (addr a) (addr q) := ⟨_, rfl⟩
  rw [← hm₁] at h₁ ⊢
  have h₂ := eqOff_init m₁ (a := addr q) (addr (a + 8 + b.size)) (by omega)
  obtain ⟨m₂, hm₂⟩ : ∃ m₂, m₂ = init m₁ (addr q) (addr (a + 8 + b.size)) := ⟨_, rfl⟩
  rw [← hm₂] at h₂ ⊢
  have h₃ := eqOff_setReserved m₂ (a := addr a) true (by omega)
  rw [ha] at h₁ h₃
  rw [hqa] at h₂
  have hnew := fields_of_eqOff (a := addr q) h₃ (by omega) (by omega)
  rw [hm₂, next_init, reserved_init, ← hm₂] at hnew
  refine ⟨?_, reserved_setReserved _ _ _, hnew.1, ?_, ?_⟩
  · rw [next_setReserved, (fields_of_eqOff h₂ (by omega) (by omega)).1, hm₁, next_setNext]
  · rw [hnew.2, beq_eq_false_iff_ne, ← h.1]
    exact h.next_ne_zero hbound
  · exact ((h₁.mono (le_refl a) (by omega)).trans (h₂.mono (by omega) (le_refl _))).trans
      (h₃.mono (le_refl a) (by omega))

/-- **Handing out a block changes the chain as splitting the block does**, if the new header has
room. -/
theorem take_refines {n : BitVec 32} (h : Represents m a (b :: post))
    (hbound : a + span 8 (b :: post) + 8 ≤ 2 ^ 32)
    (hroom : b.size = n.toNat ∨ n.toNat + 8 ≤ b.size) :
    Represents (take m (addr a) n) a (FirstFit.split 8 b n.toNat ++ post) ∧
      Mem.EqOff m (take m (addr a) n) a (a + 8 + b.size) := by
  have hb := hbound
  rw [span_cons] at hb
  rcases hroom with hn | hn
  · have hoff := eqOff_setReserved m (a := addr a) true (by rw [toNat_addr] <;> omega)
    rw [toNat_addr (by omega)] at hoff
    rw [take_of_eq h hbound hn.symm, FirstFit.split, if_neg (by omega)]
    refine ⟨⟨(next_setReserved _ _ _).trans h.1, reserved_setReserved _ _ _, ?_⟩,
      hoff.mono (le_refl a) (by omega)⟩
    exact h.2.2.of_eqOff hoff (by omega) (by omega)
  · obtain ⟨q, hq⟩ : ∃ q, q = a + 8 + n.toNat := ⟨_, rfl⟩
    obtain ⟨hnext, hres, hnext', hres', hoff⟩ := take_split h hbound (by omega) hq
    rw [FirstFit.split, if_pos (by omega)]
    have hend : q + 8 + (b.size - n.toNat - 8) = a + 8 + b.size := by omega
    refine ⟨⟨hq ▸ hnext, hres, ?_⟩, hoff.mono (le_refl a) (by omega)⟩
    rw [← hq]
    refine ⟨?_, hres', ?_⟩ <;> rw [hend]
    · exact hnext'
    · exact h.2.2.of_eqOff hoff (by omega) (by omega)

/-- **`kalloc` is first fit**: on a represented chain it hands out what `FirstFit.alloc` hands
out, and leaves the chain of the blocks `FirstFit.alloc` leaves. -/
theorem allocate_refines {n : BitVec 32} {bs' : List Block} {p : ℕ} (h : Represents m a bs)
    (hbound : a + span 8 bs + 8 ≤ 2 ^ 32)
    (hroom : ∀ b, bs.find? (fits n.toNat) = some b → b.size = n.toNat ∨ n.toNat + 8 ≤ b.size)
    (halloc : alloc 8 n.toNat a bs = some (bs', p)) :
    ∃ m', Loop.Returns (allocateStep n) (m, addr a) (m', addr p) ∧ Represents m' a bs' := by
  obtain ⟨pre, b, post, rfl, hpre, hb, rfl, rfl⟩ := alloc_cases halloc
  have hfind : (pre ++ b :: post).find? (fits n.toNat) = some b := by
    rw [List.find?_append, List.find?_eq_none.mpr (by simpa using hpre), Option.none_or,
      List.find?_cons_of_pos hb]
  rw [span_append, ← Nat.add_assoc] at hbound
  have htail := h.tail
  obtain ⟨hrep, hoff⟩ := take_refines htail hbound (hroom b hfind)
  refine ⟨_, ?_, h.replace hoff (le_refl _) (by omega) hrep⟩
  rw [allocate_skip h (by rw [span_append]; omega) hpre]
  exact .of_done (allocateStep_of_fits htail hbound hb)

/-- `kalloc` gives a null pointer and leaves the memory alone when no block is large enough. -/
theorem allocate_refines_none {n : BitVec 32} (h : Represents m a bs)
    (hbound : a + span 8 bs + 8 ≤ 2 ^ 32) (halloc : alloc 8 n.toNat a bs = none) :
    Loop.Returns (allocateStep n) (m, addr a) (m, 0) := by
  have h' : Represents m a (bs ++ []) := by rwa [List.append_nil]
  rw [allocate_skip h' (by rwa [List.append_nil]) (alloc_eq_none_iff.mp halloc)]
  refine .of_done ?_
  have hend : next m (addr (a + span 8 bs)) = 0 := h'.tail.1
  rw [allocateStep, if_pos hend]

/-! ## `kfree` -/

/-- **`defragment` absorbs the free blocks behind this one**, and touches its header only. -/
theorem defragment_refines {k : ℕ} (h : Represents m a (⟨k, false⟩ :: post))
    (hbound : a + (8 + k + span 8 post) + 8 ≤ 2 ^ 32) :
    ∃ m', Loop.Returns (defragmentStep (addr a)) m m' ∧ Represents m' a (absorb 8 k post) ∧
      Mem.EqOff m m' a (a + 8) := by
  have ha : (addr a).toNat = a := toNat_addr (by omega)
  induction post generalizing m k with
  | nil =>
    have hdone : defragmentStep (addr a) m = .done m := by
      rw [defragmentStep, h.1, if_pos h.2.2.2]
    exact ⟨m, .of_done hdone, h, .refl m _ _⟩
  | cons c cs ih =>
    cases hc : c.used with
    | true =>
      have hdone : defragmentStep (addr a) m = .done m := by
        rw [defragmentStep, h.1, if_pos (h.2.2.2.1.trans hc)]
      rw [absorb, if_pos hc]
      exact ⟨m, .of_done hdone, h, .refl m _ _⟩
    | false =>
      rw [span_cons] at hbound
      obtain ⟨q, hq⟩ : ∃ q, q = a + 8 + (k + 8 + c.size) := ⟨_, rfl⟩
      have hnext : defragmentStep (addr a) m = .next (setNext m (addr a) (addr q)) := by
        rw [defragmentStep, h.1, if_neg (by rw [h.2.2.2.1, hc]; simp), h.2.2.1,
          show a + 8 + k + 8 + c.size = q by omega]
      have hoff := eqOff_setNext m (a := addr a) (addr q) (by omega)
      rw [ha] at hoff
      have hrep : Represents (setNext m (addr a) (addr q)) a (⟨k + 8 + c.size, false⟩ :: cs) := by
        refine ⟨hq ▸ next_setNext _ _ _, (reserved_setNext _ _ _).trans h.2.1, ?_⟩
        have htail := h.2.2.2.2.of_eqOff hoff (by dsimp only; omega) (by dsimp only; omega)
        rwa [show a + 8 + k + 8 + c.size = a + 8 + (k + 8 + c.size) by omega] at htail
      obtain ⟨m', hr, hm', hoff'⟩ := ih hrep (by omega)
      rw [absorb, if_neg (by simp [hc])]
      exact ⟨m', .of_next hnext hr, hm', hoff.trans hoff'⟩

/-- The search of `kfree` passes over the entries whose data starts elsewhere. -/
theorem kfree_skip {p : ℕ} {r : Option Addr} (h : Represents m a (pre ++ bs))
    (hbound : a + span 8 (pre ++ bs) + 8 ≤ 2 ^ 32) (hp : p < 2 ^ 32)
    (hpre : release 8 p a pre = none) :
    Loop.Returns (kfreeStep m (addr p)) (addr a) r ↔
      Loop.Returns (kfreeStep m (addr p)) (addr (a + span 8 pre)) r := by
  induction pre generalizing a with
  | nil => rfl
  | cons c pre ih =>
    rw [List.cons_append] at h hbound
    have hlast : isLast m (addr a) = false := beq_eq_false_iff_ne.mpr (h.next_ne_zero hbound)
    rw [span_cons] at hbound
    rw [release] at hpre
    split at hpre
    · exact absurd hpre (by simp)
    · rename_i hap
      have hdata : getDataPtr (addr a) ≠ addr p := by
        rw [getDataPtr, heapEntry_headerSize]
        bv_omega
      have hstep : kfreeStep m (addr p) (addr a) = .next (addr (a + 8 + c.size)) := by
        rw [kfreeStep, hlast, if_neg (by simp), if_neg hdata, h.1]
      rw [Loop.returns_iff_of_next hstep,
        ih h.2.2 (by omega) (Option.map_eq_none_iff.mp hpre), span_cons,
        show a + 8 + c.size + span 8 pre = a + (8 + c.size + span 8 pre) by omega]

/-- `kfree(ptr)` ends in this way and leaves the memory `m'`. -/
def KfreeReturns (m : Mem) (heap ptr : Addr) (r : Exec Unit) (m' : Mem) : Prop :=
  ∃ fuel, kfree fuel m heap ptr = some (r, m')

theorem kfreeReturns_ok {heap ptr it : Addr} (hfind : Loop.Returns (kfreeStep m ptr) heap (some it))
    (hfree : Loop.Returns (defragmentStep it) (setReserved m it false) m') :
    KfreeReturns m heap ptr (.ok ()) m' := by
  obtain ⟨n, hn⟩ := hfind
  obtain ⟨k, hk⟩ := hfree
  refine ⟨max n k, ?_⟩
  rw [kfree, Loop.run_mono (le_max_left n k) hn]
  simp only [Option.bind_eq_bind, Option.bind_some, HeapEntry.free, defragment]
  rw [Loop.run_mono (le_max_right n k) hk]
  rfl

theorem kfree_mono {heap ptr : Addr} {r : Exec Unit × Mem} {n k : ℕ} (hnk : n ≤ k)
    (h : kfree n m heap ptr = some r) : kfree k m heap ptr = some r := by
  rw [kfree] at h ⊢
  obtain ⟨found, hfound, h⟩ := Option.bind_eq_some_iff.mp h
  refine Option.bind_eq_some_iff.mpr ⟨found, Loop.run_mono hnk hfound, ?_⟩
  cases found with
  | none => exact h
  | some it =>
    obtain ⟨m', hm', h⟩ := Option.bind_eq_some_iff.mp h
    exact Option.bind_eq_some_iff.mpr ⟨m', Loop.run_mono hnk hm', h⟩

theorem kfreeReturns_unique {heap ptr : Addr} {r r' : Exec Unit} {m₁ m₂ : Mem}
    (h : KfreeReturns m heap ptr r m₁) (h' : KfreeReturns m heap ptr r' m₂) :
    r = r' ∧ m₁ = m₂ := by
  obtain ⟨n, hn⟩ := h
  obtain ⟨k, hk⟩ := h'
  have hr := kfree_mono (le_max_left n k) hn
  rw [kfree_mono (le_max_right n k) hk] at hr
  obtain ⟨hr, hm⟩ := Prod.mk.inj (Option.some.inj hr)
  exact ⟨hr.symm, hm.symm⟩

/-- **`kfree` frees the block whose data starts at the pointer** and lets it absorb the free
blocks behind it. -/
theorem kfree_refines {p : ℕ} {bs' : List Block} (h : Represents m a bs)
    (hbound : a + span 8 bs + 8 ≤ 2 ^ 32) (hrel : release 8 p a bs = some bs') :
    ∃ m', KfreeReturns m (addr a) (addr p) (.ok ()) m' ∧ Represents m' a bs' := by
  obtain ⟨pre, b, post, rfl, rfl, rfl⟩ := release_cases hrel
  have hb := hbound
  rw [span_append, span_cons] at hb
  have ha : (addr (a + span 8 pre)).toNat = a + span 8 pre := toNat_addr (by omega)
  have htail := h.tail
  have hlast : isLast m (addr (a + span 8 pre)) = false :=
    beq_eq_false_iff_ne.mpr (htail.next_ne_zero (by rw [span_cons]; omega))
  -- the search finds the block
  have hfind : Loop.Returns (kfreeStep m (addr (a + span 8 pre + 8))) (addr a)
      (some (addr (a + span 8 pre))) := by
    rw [kfree_skip h hbound (by omega) (release_eq_none_of_lt (by omega))]
    refine .of_done ?_
    rw [kfreeStep, hlast, if_neg (by simp), if_pos]
    exact (BitVec.ofNat_add (a + span 8 pre) 8).symm
  -- clearing the flag leaves the chain with this block free
  have hoff := eqOff_setReserved m (a := addr (a + span 8 pre)) false (by omega)
  rw [ha] at hoff
  have hrep : Represents (setReserved m (addr (a + span 8 pre)) false) (a + span 8 pre)
      (⟨b.size, false⟩ :: post) :=
    ⟨(next_setReserved _ _ _).trans htail.1, reserved_setReserved _ _ _,
      htail.2.2.of_eqOff hoff (by omega) (by omega)⟩
  obtain ⟨m', hr, hm', hoff'⟩ := defragment_refines hrep (by omega)
  exact ⟨m', kfreeReturns_ok hfind hr, h.replace (hoff.trans hoff') (le_refl _) (by omega) hm'⟩

/-! ## The fresh heap -/

/-- **`heapInitialize` makes the region one free block.** -/
theorem heapInitialize_represents (m : Mem) {ptr : Addr} {maxSize : BitVec 32}
    (h16 : 16 ≤ maxSize.toNat) (hwrap : ptr.toNat + maxSize.toNat ≤ 2 ^ 32) :
    Represents (heapInitialize m ptr maxSize) ptr.toNat [⟨maxSize.toNat - 16, false⟩] := by
  obtain ⟨e, he⟩ : ∃ e, e = ptr.toNat + maxSize.toNat - 8 := ⟨_, rfl⟩
  have hend : heapEnd ptr maxSize = addr e := by
    rw [heapEnd, heapEntry_headerSize]
    bv_omega
  have hptr := addr_toNat ptr
  have hea : (addr e).toNat = e := toNat_addr (by omega)
  have hne : addr e ≠ 0 := by bv_omega
  rw [heapInitialize, hend]
  have hoff := eqOff_init (init m ptr (addr e)) (a := addr e) 0 (by omega)
  have hhead := fields_of_eqOff (a := ptr) hoff (by omega) (by omega)
  rw [next_init, reserved_init] at hhead
  have hsize : ptr.toNat + 8 + (maxSize.toNat - 16) = e := by omega
  refine ⟨?_, ?_, ?_⟩
  · rw [hptr, hsize]
    exact hhead.1
  · rw [hptr, hhead.2]
    exact beq_eq_false_iff_ne.mpr hne
  · rw [hsize]
    exact ⟨next_init _ _ _, reserved_init _ _ _⟩

end RainbowOS
