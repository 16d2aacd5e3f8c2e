import RainbowOS.Heap.Chain
import RainbowOS.Lib.Transition

/-!
# Heap safety over whole runs

The state of a run is the memory and the list of live blocks; its actions are `kalloc`, `kfree` of
a live pointer, and a byte written by a client into a live block.  `HeapSafe` is what such a run
should keep: a well-formed chain of headers from the heap's start to its end marker, and live
blocks that lie inside the region, off each other and off the headers.

It does not always keep it.  The guard of the split in `allocate` subtracts the available size from
the requested one, so it lets every larger block be split, and a remainder of one to seven bytes
leaves no room for the header that is written there: `kalloc_overlap` is such a run.
`heap_safe_iff` says that nothing else goes wrong — the runs that stay safe are exactly those in
which every `kalloc` takes a block that fits exactly or exceeds the request by a header at least
(`SplitLeavesRoom`) — and `HeapInv.exists_step` that then every call returns.
-/

set_option autoImplicit false

namespace RainbowOS

open FirstFit HeapEntry

/-! ## Runs of the heap's clients -/

/-- The memory of the machine, and the blocks that are live in it: pointer and requested size. -/
structure HeapState where
  /-- The memory. -/
  mem : Mem
  /-- The blocks handed out by `kalloc` and not given back yet. -/
  live : List (Addr × BitVec 32)

/-- What a client does. -/
inductive HeapOp where
  | kalloc (size : BitVec 32)
  | kfree (ptr : Addr)
  /-- Write a byte. -/
  | write (a : Addr) (v : Byte)

/-- A client's action on the heap that starts at `heap`.  Only live pointers are freed, and bytes
are written inside live blocks only. -/
inductive HeapStep (heap : Addr) : HeapState → HeapOp → HeapState → Prop where
  | kalloc {s : HeapState} {size : BitVec 32} {m' : Mem} {p : Addr}
      (hret : ∃ fuel, RainbowOS.kalloc fuel s.mem heap size = some (m', p)) :
      HeapStep heap s (.kalloc size) ⟨m', if p = 0 then s.live else (p, size) :: s.live⟩
  | kfree {s : HeapState} {p : Addr} {n : BitVec 32} {m' : Mem} (hlive : (p, n) ∈ s.live)
      (hret : KfreeReturns s.mem heap p (.ok ()) m') :
      HeapStep heap s (.kfree p) ⟨m', s.live.filter fun q ↦ decide (q.1 ≠ p)⟩
  | write {s : HeapState} {p a : Addr} {n : BitVec 32} {v : Byte} (hlive : (p, n) ∈ s.live)
      (hin : (a - p).toNat < n.toNat) :
      HeapStep heap s (.write a v) ⟨s.mem.write8 a v, s.live⟩

theorem HeapStep.kalloc_of_ne {heap p : Addr} {s : HeapState} {size : BitVec 32} {m' : Mem}
    (hret : ∃ fuel, RainbowOS.kalloc fuel s.mem heap size = some (m', p)) (hp : p ≠ 0) :
    HeapStep heap s (.kalloc size) ⟨m', (p, size) :: s.live⟩ := by
  have h := HeapStep.kalloc hret
  rwa [if_neg hp] at h

/-- The state right after `heapInitialize`. -/
def freshHeap (m : Mem) (base : Addr) (maxSize : BitVec 32) : HeapState :=
  ⟨heapInitialize m base maxSize, []⟩

/-! ## What a safe heap is -/

/-- `hs` are the headers of a well-formed chain from `heap` to `heapEnd`. -/
structure WellFormedChain (m : Mem) (heap heapEnd : Addr) (hs : List Addr) : Prop where
  /-- The chain starts at `heap`. -/
  head : hs.head? = some heap
  /-- The chain ends at `heapEnd`. -/
  last : hs.getLast? = some heapEnd
  /-- Each header leads to the next one, which is at least a header's size away. -/
  linked : hs.IsChain fun a b ↦ next m a = b ∧ a.toNat + 8 ≤ b.toNat
  /-- `heapEnd` is the only header without a next one. -/
  next_eq_zero : ∀ a ∈ hs, next m a = 0 ↔ a = heapEnd
  /-- `heapEnd` is reserved. -/
  reserved_end : reserved m heapEnd = true

/-- The ranges of `n` and `k` bytes from `a` and from `b` have no byte in common. -/
def NoOverlap (a : Addr) (n : ℕ) (b : Addr) (k : ℕ) : Prop :=
  a.toNat + n ≤ b.toNat ∨ b.toNat + k ≤ a.toNat

/-- A safe state of the heap in the region of `maxSize` bytes from `base`. -/
structure HeapSafe (base : Addr) (maxSize : BitVec 32) (s : HeapState) : Prop where
  /-- The headers are a well-formed chain, and no live block overlaps one of them. -/
  chain : ∃ hs, WellFormedChain s.mem base (heapEnd base maxSize) hs ∧
    ∀ q ∈ s.live, ∀ h ∈ hs, NoOverlap h 8 q.1 q.2.toNat
  /-- The live blocks lie inside the region. -/
  inside : ∀ q ∈ s.live, base.toNat ≤ q.1.toNat ∧ q.1.toNat + q.2.toNat ≤ base.toNat + maxSize.toNat
  /-- The live blocks do not overlap each other. -/
  disjoint : s.live.Pairwise fun q r ↦ NoOverlap q.1 q.2.toNat r.1 r.2.toNat

/-- `h` is the entry first fit takes: the first one, from `a` on, that is free and large enough. -/
inductive FirstFitEntry (m : Mem) (size : BitVec 32) : Addr → Addr → Prop where
  | here {a : Addr} (hnext : next m a ≠ 0) (hfree : reserved m a = false)
      (hsize : size ≤ getSize m a) : FirstFitEntry m size a a
  | there {a h : Addr} (hnext : next m a ≠ 0) (hskip : reserved m a = true ∨ getSize m a < size)
      (hrest : FirstFitEntry m size (next m a) h) : FirstFitEntry m size a h

/-- The condition on a step: a `kalloc` takes an entry that fits exactly or has room for a header
behind the data handed out. -/
def SplitLeavesRoom (heap : Addr) (s : HeapState) : HeapOp → Prop
  | .kalloc size => ∀ h, FirstFitEntry s.mem size heap h →
      getSize s.mem h = size ∨ size.toNat + 8 ≤ (getSize s.mem h).toNat
  | _ => True

/-! ## First fit, in memory and on blocks -/

variable {m m' : Mem} {a : ℕ} {bs : List Block}

/-- The first block is the entry, or it is passed over. -/
theorem firstFitEntry_cons_iff {size : BitVec 32} {h : Addr} {c : Block} {cs : List Block}
    (hrep : Represents m a (c :: cs)) (hbound : a + span 8 (c :: cs) + 8 ≤ 2 ^ 32) :
    FirstFitEntry m size (addr a) h ↔ (fits size.toNat c = true ∧ h = addr a) ∨
      (fits size.toNat c = false ∧ FirstFitEntry m size (addr (a + 8 + c.size)) h) := by
  have hnext := hrep.next_ne_zero hbound
  have hsize := hrep.getSize_eq
  rw [span_cons] at hbound
  have hle : size ≤ getSize m (addr a) ↔ size.toNat ≤ c.size := by
    rw [hsize, BitVec.le_def, toNat_addr (by omega)]
  have hfits : fits size.toNat c = true ↔
      reserved m (addr a) = false ∧ size ≤ getSize m (addr a) := by
    rw [fits, Bool.and_eq_true, Bool.not_eq_true', decide_eq_true_eq, hrep.2.1, hle]
  have hskip : fits size.toNat c = false ↔
      reserved m (addr a) = true ∨ getSize m (addr a) < size := by
    rw [← Bool.not_eq_true, hfits, not_and_or, Bool.not_eq_false, BitVec.not_le]
  constructor
  · intro hff
    cases hff with
    | here _ hfree hsize => exact .inl ⟨hfits.mpr ⟨hfree, hsize⟩, rfl⟩
    | there _ hpass hrest => exact .inr ⟨hskip.mpr hpass, hrep.1 ▸ hrest⟩
  · rintro (⟨hfit, rfl⟩ | ⟨hfit, hrest⟩)
    · obtain ⟨hfree, hsz⟩ := hfits.mp hfit
      exact .here hnext hfree hsz
    · refine .there hnext (hskip.mp hfit) ?_
      rwa [hrep.1]

/-- **First fit in memory is first fit on the blocks.** -/
theorem firstFitEntry_iff {size : BitVec 32} {h : Addr} (hrep : Represents m a bs)
    (hbound : a + span 8 bs + 8 ≤ 2 ^ 32) :
    FirstFitEntry m size (addr a) h ↔ ∃ pre b post, bs = pre ++ b :: post ∧
      (∀ c ∈ pre, fits size.toNat c = false) ∧ fits size.toNat b = true ∧
      h = addr (a + span 8 pre) := by
  induction bs generalizing a with
  | nil =>
    constructor
    · intro hff
      cases hff with
      | here hnext => exact absurd hrep.1 hnext
      | there hnext => exact absurd hrep.1 hnext
    · rintro ⟨pre, b, post, hbs, -⟩
      simp at hbs
  | cons c cs ih =>
    have hcons : FirstFitEntry m size (addr a) h ↔ _ := firstFitEntry_cons_iff hrep hbound
    rw [span_cons] at hbound
    have hshift : ∀ pre, a + span 8 (c :: pre) = a + 8 + c.size + span 8 pre := by
      intro pre
      rw [span_cons]
      omega
    rw [hcons, ih hrep.2.2 (by omega)]
    constructor
    · rintro (⟨hfit, rfl⟩ | ⟨hfit, pre, b, post, rfl, hpre, hb, rfl⟩)
      · exact ⟨[], c, cs, rfl, by simp, hfit, rfl⟩
      · exact ⟨c :: pre, b, post, rfl, List.forall_mem_cons.mpr ⟨hfit, hpre⟩, hb, by rw [hshift]⟩
    · rintro ⟨pre, b, post, hbs, hpre, hb, rfl⟩
      cases pre with
      | nil =>
        obtain ⟨rfl, rfl⟩ := List.cons.inj hbs
        exact .inl ⟨hb, rfl⟩
      | cons d pre =>
        obtain ⟨rfl, rfl⟩ := List.cons.inj hbs
        obtain ⟨hfit, hpre⟩ := List.forall_mem_cons.mp hpre
        exact .inr ⟨hfit, pre, b, post, rfl, hpre, hb, by rw [hshift]⟩

/-! ## Well-formed chains -/

theorem WellFormedChain.cons {h e b : Addr} {hs : List Addr} (hwf : WellFormedChain m b e hs)
    (hnext : next m h = b) (hfar : h.toNat + 8 ≤ b.toNat) (hne : h ≠ e) :
    WellFormedChain m h e (h :: hs) where
  head := rfl
  last := by rw [List.getLast?_cons, hwf.last, Option.getD_some]
  linked := by
    refine List.isChain_cons.mpr ⟨fun y hy ↦ ?_, hwf.linked⟩
    rw [hwf.head, Option.mem_some_iff] at hy
    exact hy ▸ ⟨hnext, hfar⟩
  next_eq_zero := by
    refine List.forall_mem_cons.mpr ⟨iff_of_false ?_ hne, hwf.next_eq_zero⟩
    rw [hnext]
    rintro rfl
    simp at hfar
  reserved_end := hwf.reserved_end

/-- A chain is the end marker alone, or a header and the chain that it leads to. -/
theorem WellFormedChain.uncons {h e : Addr} {hs : List Addr} (hwf : WellFormedChain m h e hs) :
    h = e ∧ hs = [e] ∨ h ≠ e ∧
      ∃ hs', hs = h :: hs' ∧ WellFormedChain m (next m h) e hs' ∧
        h.toNat + 8 ≤ (next m h).toNat := by
  obtain ⟨hs', rfl⟩ : ∃ hs', hs = h :: hs' := List.head?_eq_some_iff.mp hwf.head
  cases hs' with
  | nil =>
    have hlast : h = e := by simpa using hwf.last
    exact .inl ⟨hlast, by rw [hlast]⟩
  | cons y ys =>
    obtain ⟨⟨rfl, hfar⟩, hlinked⟩ := List.isChain_cons_cons.mp hwf.linked
    refine .inr ⟨fun he ↦ ?_, _, rfl, ⟨rfl, by simpa using hwf.last, hlinked,
      fun x hx ↦ hwf.next_eq_zero x (List.mem_cons_of_mem _ hx), hwf.reserved_end⟩, hfar⟩
    rw [(hwf.next_eq_zero h List.mem_cons_self).mpr he] at hfar
    simp at hfar

/-- A chain that does not end here goes on to the next header. -/
theorem WellFormedChain.tail {h e : Addr} {hs : List Addr} (hwf : WellFormedChain m h e hs)
    (hnext : next m h ≠ 0) :
    (∃ hs', WellFormedChain m (next m h) e hs') ∧ h.toNat + 8 ≤ (next m h).toNat := by
  have hzero := hwf.next_eq_zero h (List.mem_of_mem_head? hwf.head)
  obtain ⟨-, hs', -, hwf', hfar⟩ := hwf.uncons.resolve_left fun hlast ↦ hnext (hzero.mpr hlast.1)
  exact ⟨⟨hs', hwf'⟩, hfar⟩

/-- **A represented chain is well formed**, and its headers are those of the blocks. -/
theorem Represents.wellFormedChain (hrep : Represents m a bs)
    (hbound : a + span 8 bs + 8 ≤ 2 ^ 32) :
    WellFormedChain m (addr a) (addr (a + span 8 bs)) ((headers 8 a bs).map addr) := by
  induction bs generalizing a with
  | nil =>
    exact ⟨rfl, rfl, .singleton _, by simpa [headers] using hrep.1, hrep.2⟩
  | cons b bs ih =>
    rw [span_cons] at hbound
    have hwf := ih hrep.2.2 (by omega)
    rw [show a + 8 + b.size + span 8 bs = a + span 8 (b :: bs) by rw [span_cons]; omega] at hwf
    refine hwf.cons hrep.1 ?_ fun he ↦ ?_
    · rw [toNat_addr (by omega), toNat_addr (by omega)]
      omega
    · have := congrArg BitVec.toNat he
      rw [span_cons, toNat_addr (by omega), toNat_addr (by omega)] at this
      omega

/-- The chain from a later block on, after a change that left the earlier headers alone. -/
theorem WellFormedChain.drop {pre : List Block} {e : Addr} {hs : List Addr} {lo hi : ℕ}
    (hwf : WellFormedChain m' (addr a) e hs) (hrep : Represents m a (pre ++ bs))
    (hbound : a + span 8 (pre ++ bs) + 8 ≤ 2 ^ 32) (hm : Mem.EqOff m m' lo hi)
    (hlo : a + span 8 pre ≤ lo) : ∃ hs', WellFormedChain m' (addr (a + span 8 pre)) e hs' := by
  induction pre generalizing a hs with
  | nil => exact ⟨hs, hwf⟩
  | cons c pre ih =>
    rw [List.cons_append] at hrep hbound
    have hnext := hrep.next_ne_zero hbound
    rw [span_cons] at hlo hbound
    have hf := (fields_of_eqOff (a := addr a) hm (by rw [toNat_addr] <;> omega)
      (by rw [toNat_addr] <;> omega)).1
    rw [← hf] at hnext
    obtain ⟨⟨hs', hwf'⟩, -⟩ := hwf.tail hnext
    rw [hf, hrep.1] at hwf'
    obtain ⟨hs'', h''⟩ := ih hwf' hrep.2.2 (by omega) (by omega)
    refine ⟨hs'', ?_⟩
    rwa [span_cons, show a + (8 + c.size + span 8 pre) = a + 8 + c.size + span 8 pre by omega]

/-! ## The invariant -/

/-- The number of a live block's address, and its size. -/
def liveRange (q : Addr × BitVec 32) : ℕ × ℕ := (q.1.toNat, q.2.toNat)

/-- The region is cut into the blocks `bs`, and the live blocks are those in use. -/
structure HeapInv (base : Addr) (maxSize : BitVec 32) (s : HeapState) (bs : List Block) : Prop where
  /-- The headers in memory are those of the blocks. -/
  rep : Represents s.mem base.toNat bs
  /-- The blocks and the end marker fill the region. -/
  extent : span 8 bs + 8 = maxSize.toNat
  /-- The live blocks are the blocks in use. -/
  live : (s.live.map liveRange).Perm (usedRanges 8 base.toNat bs)

variable {base : Addr} {maxSize : BitVec 32} {s : HeapState}

theorem freshHeap_inv (m : Mem) (base : Addr) (maxSize : BitVec 32) (h16 : 16 ≤ maxSize.toNat)
    (hwrap : base.toNat + maxSize.toNat ≤ 2 ^ 32) :
    HeapInv base maxSize (freshHeap m base maxSize) [⟨maxSize.toNat - 16, false⟩] where
  rep := heapInitialize_represents m h16 hwrap
  extent := by simp only [span_cons, span_nil]; omega
  live := .refl []

/-- The blocks and the end marker are inside the address space. -/
theorem HeapInv.bound (hinv : HeapInv base maxSize s bs)
    (hwrap : base.toNat + maxSize.toNat ≤ 2 ^ 32) : base.toNat + span 8 bs + 8 ≤ 2 ^ 32 := by
  have hext := hinv.extent
  omega

/-- **The invariant gives safety.** -/
theorem HeapInv.safe (hinv : HeapInv base maxSize s bs)
    (hwrap : base.toNat + maxSize.toNat ≤ 2 ^ 32) : HeapSafe base maxSize s := by
  have hext := hinv.extent
  have hbound := hinv.bound hwrap
  have hmem : ∀ q ∈ s.live, liveRange q ∈ usedRanges 8 base.toNat bs := fun q hq ↦
    hinv.live.mem_iff.mp (List.mem_map_of_mem hq)
  refine ⟨⟨(headers 8 base.toNat bs).map addr, ?_, ?_⟩, fun q hq ↦ ?_, ?_⟩
  · have hwf := hinv.rep.wellFormedChain hbound
    have hend : addr (base.toNat + span 8 bs) = heapEnd base maxSize := by
      rw [heapEnd, heapEntry_headerSize]
      bv_omega
    rwa [hend, addr_toNat] at hwf
  · intro q hq h hh
    obtain ⟨x, hx, rfl⟩ := List.mem_map.mp hh
    have hle := le_of_mem_headers hx
    have := usedRanges_headers (hmem q hq) hx
    rw [NoOverlap, toNat_addr (by omega)]
    exact this
  · have := usedRanges_bounds (hmem q hq)
    simp only [liveRange] at this
    omega
  · have hpair : (s.live.map liveRange).Pairwise fun r t ↦ r.1 + r.2 ≤ t.1 ∨ t.1 + t.2 ≤ r.1 := by
      refine (hinv.live.pairwise_iff fun h ↦ h.symm).mpr ?_
      exact (usedRanges_pairwise base.toNat bs).imp fun h ↦ Or.inl (by omega)
    exact List.pairwise_map.mp hpair

/-! ## One step -/

theorem kalloc_unique {m : Mem} {heap p p' : Addr} {size : BitVec 32} {m₁ m₂ : Mem}
    (h : ∃ fuel, kalloc fuel m heap size = some (m₁, p))
    (h' : Loop.Returns (allocateStep size) (m, heap) (m₂, p')) : m₁ = m₂ ∧ p = p' :=
  Prod.mk.inj
    (Loop.Returns.unique (show Loop.Returns (allocateStep size) (m, heap) (m₁, p) from h) h')

/-- What an action does to the blocks. -/
def BlockStep (base : ℕ) (bs : List Block) : HeapOp → List Block → Prop
  | .kalloc size, bs' => (alloc 8 size.toNat base bs = none ∧ bs' = bs) ∨
      ∃ p, alloc 8 size.toNat base bs = some (bs', p)
  | .kfree ptr, bs' => release 8 ptr.toNat base bs = some bs'
  | .write _ _, bs' => bs' = bs

theorem room_of_splitLeavesRoom {size : BitVec 32} (hinv : HeapInv base maxSize s bs)
    (hwrap : base.toNat + maxSize.toNat ≤ 2 ^ 32) (hok : SplitLeavesRoom base s (.kalloc size)) :
    ∀ b, bs.find? (fits size.toNat) = some b → b.size = size.toNat ∨ size.toNat + 8 ≤ b.size := by
  intro b hb
  obtain ⟨hfit, pre, post, rfl, hpre⟩ := List.find?_eq_some_iff_append.mp hb
  have hext := hinv.extent
  have hff := (firstFitEntry_iff (h := addr (base.toNat + span 8 pre)) hinv.rep (by omega)).mpr
    ⟨pre, b, post, rfl, by simpa using hpre, hfit, rfl⟩
  rw [addr_toNat] at hff
  have hsize := hinv.rep.tail.getSize_eq
  rw [span_append, span_cons] at hext
  have hroom := hok _ hff
  rw [hsize, toNat_addr (by omega)] at hroom
  refine hroom.imp_left fun h ↦ ?_
  rw [← h, toNat_addr (by omega)]

/-- An allocation does to the blocks what `alloc` does. -/
theorem HeapInv.step_kalloc {size : BitVec 32} {m' : Mem} {p : Addr}
    (hinv : HeapInv base maxSize s bs) (hwrap : base.toNat + maxSize.toNat ≤ 2 ^ 32)
    (hok : SplitLeavesRoom base s (.kalloc size))
    (hret : ∃ fuel, kalloc fuel s.mem base size = some (m', p)) :
    ∃ bs', HeapInv base maxSize ⟨m', if p = 0 then s.live else (p, size) :: s.live⟩ bs' ∧
      BlockStep base.toNat bs (.kalloc size) bs' := by
  have hext := hinv.extent
  have hbound := hinv.bound hwrap
  have hbase := addr_toNat base
  have hroom := room_of_splitLeavesRoom hinv hwrap hok
  cases halloc : alloc 8 size.toNat base.toNat bs with
  | none =>
    have hr := allocate_refines_none hinv.rep hbound halloc
    rw [hbase] at hr
    obtain ⟨rfl, rfl⟩ := kalloc_unique hret hr
    exact ⟨bs, ⟨hinv.rep, hext, hinv.live⟩, Or.inl ⟨halloc, rfl⟩⟩
  | some r =>
    obtain ⟨bs', q⟩ := r
    obtain ⟨m'', hr, hrep⟩ := allocate_refines hinv.rep hbound hroom halloc
    rw [hbase] at hr
    obtain ⟨rfl, rfl⟩ := kalloc_unique hret hr
    have hspan := span_alloc halloc
    have hperm := alloc_usedRanges halloc hroom
    have hq := usedRanges_bounds (hperm.mem_iff.mpr List.mem_cons_self)
    have hne : addr q ≠ 0 := by bv_omega
    refine ⟨bs', ⟨hrep, by omega, ?_⟩, Or.inr ⟨q, halloc⟩⟩
    rw [if_neg hne, List.map_cons, liveRange, toNat_addr (by omega)]
    exact (hinv.live.cons _).trans hperm.symm

/-- A release of a live block does to the blocks what `release` does. -/
theorem HeapInv.step_kfree {p : Addr} {n : BitVec 32} {m' : Mem}
    (hinv : HeapInv base maxSize s bs) (hwrap : base.toNat + maxSize.toNat ≤ 2 ^ 32)
    (hlive : (p, n) ∈ s.live) (hret : KfreeReturns s.mem base p (.ok ()) m') :
    ∃ bs', HeapInv base maxSize ⟨m', s.live.filter fun q ↦ decide (q.1 ≠ p)⟩ bs' ∧
      BlockStep base.toNat bs (.kfree p) bs' := by
  have hext := hinv.extent
  have hbound := hinv.bound hwrap
  have hmem := hinv.live.mem_iff.mp (List.mem_map_of_mem hlive)
  obtain ⟨bs', hrel⟩ := exists_release hmem
  obtain ⟨m'', ⟨fuel, hr⟩, hrep⟩ := kfree_refines hinv.rep hbound hrel
  rw [addr_toNat, liveRange, addr_toNat] at hr
  obtain rfl : m' = m'' := (kfreeReturns_unique hret ⟨fuel, hr⟩).2
  refine ⟨bs', ⟨hrep, (span_release hrel).symm ▸ hext, ?_⟩, hrel⟩
  rw [release_usedRanges hrel (by omega)]
  have hfilter : (s.live.filter fun q ↦ decide (q.1 ≠ p)).map liveRange
      = (s.live.map liveRange).filter fun r ↦ decide (r.1 ≠ (liveRange (p, n)).1) := by
    rw [List.filter_map]
    refine congrArg _ (List.filter_congr fun q _ ↦ ?_)
    simp [liveRange, BitVec.toNat_inj]
  rw [hfilter]
  exact hinv.live.filter _

/-- A byte written inside a live block is outside the headers. -/
theorem HeapInv.step_write {p a : Addr} {n : BitVec 32} (v : Byte)
    (hinv : HeapInv base maxSize s bs) (hwrap : base.toNat + maxSize.toNat ≤ 2 ^ 32)
    (hlive : (p, n) ∈ s.live) (hin : (a - p).toNat < n.toNat) :
    HeapInv base maxSize ⟨s.mem.write8 a v, s.live⟩ bs := by
  have hbound := hinv.bound hwrap
  refine ⟨?_, hinv.extent, hinv.live⟩
  have hmem := hinv.live.mem_iff.mp (List.mem_map_of_mem hlive)
  have hb := usedRanges_bounds hmem
  simp only [liveRange] at hb
  rw [mem_range_iff (by omega)] at hin
  refine hinv.rep.congr fun x hx ↦ ?_
  have hxb := le_of_mem_headers hx
  have hoff := usedRanges_headers hmem hx
  simp only [liveRange] at hoff
  have hax : (addr x).toNat = x := toNat_addr (by omega)
  refine fields_of_eqOff (Mem.eqOff_write s.mem a (n := 1) (fun _ ↦ v) ?_) ?_ ?_ <;> omega

/-- **The heap in memory refines the abstract one**: an action that meets the condition keeps the
invariant, and does to the blocks what the corresponding operation does. -/
theorem HeapInv.step {op : HeapOp} {s' : HeapState} (hinv : HeapInv base maxSize s bs)
    (hwrap : base.toNat + maxSize.toNat ≤ 2 ^ 32) (hok : SplitLeavesRoom base s op)
    (hstep : HeapStep base s op s') :
    ∃ bs', HeapInv base maxSize s' bs' ∧ BlockStep base.toNat bs op bs' := by
  cases hstep with
  | kalloc hret => exact hinv.step_kalloc hwrap hok hret
  | kfree hlive hret => exact hinv.step_kfree hwrap hlive hret
  | write hlive hin => exact ⟨bs, hinv.step_write _ hwrap hlive hin, rfl⟩

/-- If the chain is well formed after a split, there was room for the header. -/
theorem room_of_take {m : Mem} {a : ℕ} {pre post : List Block} {b : Block} {n : BitVec 32}
    {last : Addr} {hs : List Addr} (hrep : Represents m a (pre ++ b :: post))
    (hbound : a + span 8 (pre ++ b :: post) + 8 ≤ 2 ^ 32) (hgt : n.toNat < b.size)
    (hwf : WellFormedChain (take m (addr (a + span 8 pre)) n) (addr a) last hs) :
    n.toNat + 8 ≤ b.size := by
  have hb := hbound
  rw [span_append, span_cons] at hb
  obtain ⟨q, hq⟩ : ∃ q, q = a + span 8 pre + 8 + n.toNat := ⟨_, rfl⟩
  obtain ⟨hnext, -, hnext', -, hoff⟩ := take_split hrep.tail (by rw [span_cons]; omega) hgt hq
  obtain ⟨hs, hwf⟩ := hwf.drop hrep (by omega) hoff (le_refl _)
  obtain ⟨⟨hs, hwf⟩, -⟩ := hwf.tail (by rw [hnext]; bv_omega)
  rw [hnext] at hwf
  -- the entry behind the data is at least a header's size before the next one
  obtain ⟨-, hfar⟩ := hwf.tail (by rw [hnext']; bv_omega)
  rw [hnext', toNat_addr (by omega), toNat_addr (by omega)] at hfar
  omega

/-- **A split without room is the end of safety**: the header written behind the data handed out
is less than a header's size before the next one. -/
theorem HeapInv.not_safe_of_step {op : HeapOp} {s' : HeapState} (hinv : HeapInv base maxSize s bs)
    (hwrap : base.toNat + maxSize.toNat ≤ 2 ^ 32) (hbad : ¬ SplitLeavesRoom base s op)
    (hstep : HeapStep base s op s') : ¬ HeapSafe base maxSize s' := by
  have hext := hinv.extent
  have hbound := hinv.bound hwrap
  have hbase := addr_toNat base
  cases hstep with
  | kfree => exact absurd trivial hbad
  | write => exact absurd trivial hbad
  | @kalloc size m' p hret =>
    rw [SplitLeavesRoom, not_forall] at hbad
    obtain ⟨h, hbad⟩ := hbad
    rw [Classical.not_imp, not_or, Nat.not_le] at hbad
    obtain ⟨hff, hne, hlt⟩ := hbad
    rw [← hbase, firstFitEntry_iff hinv.rep hbound] at hff
    obtain ⟨pre, b, post, rfl, hpre, hfit, rfl⟩ := hff
    have htail := hinv.rep.tail
    have hb := hbound
    rw [span_append, span_cons] at hb
    rw [htail.getSize_eq] at hne hlt
    rw [toNat_addr (by omega)] at hlt
    -- the block exceeds the request, but by less than a header
    have hfit' := hfit
    rw [fits, Bool.and_eq_true, decide_eq_true_eq] at hfit'
    have hgt : size.toNat < b.size := by
      refine lt_of_le_of_ne hfit'.2 fun heq ↦ hne ?_
      rw [← heq]
      simp
    have hdone := Loop.Returns.of_done
      (allocateStep_of_fits htail (by rw [span_cons]; omega) hfit)
    rw [← allocate_skip hinv.rep hbound hpre, hbase] at hdone
    obtain ⟨rfl, -⟩ := kalloc_unique hret hdone
    rintro ⟨⟨hs, hwf, -⟩, -, -⟩
    have hstart : WellFormedChain (take s.mem (addr (base.toNat + span 8 pre)) size)
        (addr base.toNat) (heapEnd base maxSize) hs := by
      rw [hbase]
      exact hwf
    have hroom := room_of_take hinv.rep hbound hgt hstart
    omega

/-- What a client may do: free what is live, write into what is live. -/
def Admissible (s : HeapState) : HeapOp → Prop
  | .kalloc _ => True
  | .kfree ptr => ∃ n, (ptr, n) ∈ s.live
  | .write a _ => ∃ q ∈ s.live, (a - q.1).toNat < q.2.toNat

/-- **Every admissible call returns** in a state that satisfies the invariant. -/
theorem HeapInv.exists_step (op : HeapOp) (hinv : HeapInv base maxSize s bs)
    (hwrap : base.toNat + maxSize.toNat ≤ 2 ^ 32) (hop : Admissible s op) :
    ∃ s', HeapStep base s op s' := by
  have hext := hinv.extent
  have hbound := hinv.bound hwrap
  have hbase := addr_toNat base
  cases op with
  | kalloc size =>
    suffices h : ∃ m' p, Loop.Returns (allocateStep size) (s.mem, base) (m', p) by
      obtain ⟨m', p, hret⟩ := h
      exact ⟨_, .kalloc hret⟩
    rw [← hbase]
    cases halloc : alloc 8 size.toNat base.toNat bs with
    | none => exact ⟨_, _, allocate_refines_none hinv.rep hbound halloc⟩
    | some r =>
      obtain ⟨pre, b, post, rfl, hpre, hfit, -, -⟩ := alloc_cases halloc
      have hskip := fun r ↦ allocate_skip (r := r) hinv.rep hbound hpre
      rw [span_append, ← Nat.add_assoc] at hbound
      have hdone := allocateStep_of_fits hinv.rep.tail hbound hfit
      exact ⟨_, _, (hskip _).mpr (.of_done hdone)⟩
  | kfree ptr =>
    obtain ⟨n, hlive⟩ := hop
    have hmem := hinv.live.mem_iff.mp (List.mem_map_of_mem hlive)
    obtain ⟨bs', hrel⟩ := exists_release hmem
    obtain ⟨m', hr, -⟩ := kfree_refines hinv.rep hbound hrel
    rw [hbase, liveRange, addr_toNat] at hr
    exact ⟨_, .kfree hlive hr⟩
  | write a v =>
    obtain ⟨q, hq, hin⟩ := hop
    exact ⟨_, .write (p := q.1) (n := q.2) hq hin⟩

/-! ## Whole runs -/

open Transition

/-- **Heap safety over whole runs.**  From a fresh heap, the runs that are safe in every state are
exactly those in which every `kalloc` takes an entry that fits exactly or leaves room for a header;
and where such a run ends, every admissible call returns. -/
theorem heap_safe_iff (m : Mem) {base : Addr} {maxSize : BitVec 32} (h16 : 16 ≤ maxSize.toNat)
    (hwrap : base.toNat + maxSize.toNat ≤ 2 ^ 32) {tr : List (HeapOp × HeapState)}
    (hrun : Run (HeapStep base) (freshHeap m base maxSize) tr) :
    ((∀ t ∈ states (freshHeap m base maxSize) tr, HeapSafe base maxSize t) ↔
      Steps (SplitLeavesRoom base) (freshHeap m base maxSize) tr) ∧
    (Steps (SplitLeavesRoom base) (freshHeap m base maxSize) tr →
      ∀ op, Admissible (final (freshHeap m base maxSize) tr) op →
        ∃ s', HeapStep base (final (freshHeap m base maxSize) tr) op s') := by
  have hinit : ∃ bs, HeapInv base maxSize (freshHeap m base maxSize) bs :=
    ⟨_, freshHeap_inv m base maxSize h16 hwrap⟩
  have hok : ∀ s op s', (∃ bs, HeapInv base maxSize s bs) → SplitLeavesRoom base s op →
      HeapStep base s op s' → ∃ bs, HeapInv base maxSize s' bs := by
    rintro s op s' ⟨bs, hinv⟩ hop hstep
    obtain ⟨bs', hinv', -⟩ := hinv.step hwrap hop hstep
    exact ⟨bs', hinv'⟩
  constructor
  · have hsafe : ∀ s, (∃ bs, HeapInv base maxSize s bs) → HeapSafe base maxSize s := by
      rintro s ⟨bs, hinv⟩
      exact hinv.safe hwrap
    refine hrun.forall_states_iff hsafe hok ?_ hinit
    rintro s op s' ⟨bs, hinv⟩ hbad hstep
    exact hinv.not_safe_of_step hwrap hbad hstep
  · intro hsteps op hop
    obtain ⟨bs, hinv⟩ := hrun.invariant hok hinit hsteps _ (final_mem_states _ _)
    exact hinv.exists_step op hwrap hop

/-- The first `kalloc` on a fresh heap splits its only entry. -/
theorem kalloc_fresh (m : Mem) (base : Addr) (maxSize size : BitVec 32) (h16 : 16 ≤ maxSize.toNat)
    (hwrap : base.toNat + maxSize.toNat ≤ 2 ^ 32) (hsize : size.toNat ≤ maxSize.toNat - 16) :
    kalloc 1 (heapInitialize m base maxSize) base size
      = some (take (heapInitialize m base maxSize) base size, base + 8) := by
  have hinv := freshHeap_inv m base maxSize h16 hwrap
  have hbase := addr_toNat base
  have hstep := allocateStep_of_fits (n := size) hinv.rep
    (by simp only [span_cons, span_nil]; omega) (by simpa [fits] using hsize)
  have hptr : addr (base.toNat + 8) = base + 8 := by bv_omega
  rw [hbase, hptr] at hstep
  exact Loop.run_succ_of_done hstep 0

/-- **The overlap**: in a region of 32 bytes at `0x1000` the only entry has 16 bytes.  `kalloc(12)`
splits it, and the new header at `0x1014` reaches four bytes into the end marker at `0x1018`. -/
theorem kalloc_overlap :
    ∃ m', HeapStep 0x1000 (freshHeap (fun _ ↦ 0) 0x1000 32) (.kalloc 12) ⟨m', [(0x1008, 12)]⟩ ∧
      next m' 0x1000 = 0x1014 ∧ next m' 0x1014 = heapEnd 0x1000 32 ∧
      heapEnd 0x1000 32 = 0x1018 ∧ ¬ HeapSafe 0x1000 32 ⟨m', [(0x1008, 12)]⟩ := by
  have hinv := freshHeap_inv (fun _ ↦ 0) 0x1000 32 (by decide) (by decide)
  have hret := kalloc_fresh (fun _ ↦ 0) 0x1000 32 12 (by decide)
    (by decide) (by decide)
  have hstep : HeapStep 0x1000 (freshHeap (fun _ ↦ 0) 0x1000 32) (.kalloc 12)
      ⟨take (heapInitialize (fun _ ↦ 0) 0x1000 32) 0x1000 12, [(0x1008, 12)]⟩ :=
    .kalloc_of_ne ⟨1, hret⟩ (by decide)
  obtain ⟨hnext, -, hnext', -, -⟩ := take_split (n := 12) hinv.rep (by decide) (by decide) rfl
  refine ⟨_, hstep, hnext, hnext', by decide, hinv.not_safe_of_step (by decide) ?_ hstep⟩
  intro hroom
  have hff : FirstFitEntry (heapInitialize (fun _ ↦ 0) 0x1000 32) 12 0x1000 0x1000 :=
    (firstFitEntry_iff hinv.rep (by decide)).mpr ⟨[], _, [], rfl, by simp, by decide, rfl⟩
  have hsize : getSize (heapInitialize (fun _ ↦ 0) 0x1000 32) 0x1000 = 16 := hinv.rep.getSize_eq
  have := hroom _ hff
  rw [show (freshHeap (fun _ ↦ 0) 0x1000 32).mem = heapInitialize (fun _ ↦ 0) 0x1000 32 from rfl,
    hsize] at this
  exact absurd this (by decide)

/-- A run that stays safe: 16 of 240 bytes are handed out and given back. -/
theorem heap_safe_iff_kalloc_kfree :
    ∃ tr, tr.map Prod.fst = [HeapOp.kalloc 16, .kfree 0x1008] ∧
      Run (HeapStep 0x1000) (freshHeap (fun _ ↦ 0) 0x1000 256) tr ∧
      ∀ t ∈ states (freshHeap (fun _ ↦ 0) 0x1000 256) tr, HeapSafe 0x1000 256 t := by
  have hinv := freshHeap_inv (fun _ ↦ 0) 0x1000 256 (by decide) (by decide)
  have hret := kalloc_fresh (fun _ ↦ 0) 0x1000 256 16 (by decide)
    (by decide) (by decide)
  have hsize : getSize (heapInitialize (fun _ ↦ 0) 0x1000 256) 0x1000 = 240 := hinv.rep.getSize_eq
  have hstep : HeapStep 0x1000 (freshHeap (fun _ ↦ 0) 0x1000 256) (.kalloc 16)
      ⟨take (heapInitialize (fun _ ↦ 0) 0x1000 256) 0x1000 16, [(0x1008, 16)]⟩ :=
    .kalloc_of_ne ⟨1, hret⟩ (by decide)
  have hroom : SplitLeavesRoom 0x1000 (freshHeap (fun _ ↦ 0) 0x1000 256) (.kalloc 16) := by
    intro h hff
    obtain ⟨pre, b, post, hbs, -, -, rfl⟩ := (firstFitEntry_iff hinv.rep (by decide)).mp hff
    cases pre with
    | nil =>
      refine Or.inr ?_
      show (16 : BitVec 32).toNat + 8
        ≤ (getSize (heapInitialize (fun _ ↦ 0) 0x1000 256) 0x1000).toNat
      rw [hsize]
      decide
    | cons c pre => simp at hbs
  obtain ⟨bs, hinv', -⟩ := hinv.step (by decide) hroom hstep
  obtain ⟨s', hstep'⟩ := hinv'.exists_step (.kfree 0x1008) (by decide) ⟨16, by simp⟩
  have hrun := Run.cons hstep (Run.cons hstep' (Run.nil s'))
  refine ⟨_, rfl, hrun, ?_⟩
  exact (heap_safe_iff (fun _ ↦ 0) (by decide) (by decide) hrun).1.mpr ⟨hroom, trivial, trivial⟩

end RainbowOS
