import RainbowOS.Heap.Safety

/-!
# When freed memory comes back

`free` coalesces forward only: the freed entry absorbs the free entries behind it, but a free entry
in front of it stays apart.  So whether a heap without live blocks is again the one entry
`heapInitialize` made depends on the order in which the blocks were freed.

* `heap_fresh_again` — it is, with every request that succeeds on a fresh heap succeeding again,
  in every run in which no `kfree` frees an entry right behind a free one (`PrevReserved`).
* `kfree_fragments` — two blocks freed in the order in which they were handed out leave two free
  entries, and a request that succeeded on the fresh heap fails.

What makes the first one go through is `FirstFit.NoAdjacentFree`: first fit always keeps free
blocks apart, a forward merge does so under the condition, and with no block in use at most one
block is left.
-/

set_option autoImplicit false

namespace RainbowOS

open FirstFit HeapEntry Transition

/-- `h` is an entry of the chain from `a` on. -/
inductive Entry (m : Mem) : Addr → Addr → Prop where
  | here (a : Addr) : Entry m a a
  | there {a h : Addr} (hnext : next m a ≠ 0) (hrest : Entry m (next m a) h) : Entry m a h

/-- The condition on a step: the entry in front of the one that `kfree` frees is reserved, if there
is one. -/
def PrevReserved (heap : Addr) (s : HeapState) : HeapOp → Prop
  | .kfree ptr => ∀ h, Entry s.mem heap h → next s.mem h = ptr - heapEntry_headerSize →
      reserved s.mem h = true
  | _ => True

/-- The heap is one free entry that reaches from `base` to the end marker. -/
structure SingleFreeEntry (m : Mem) (base : Addr) (maxSize : BitVec 32) : Prop where
  /-- The entry at `base` leads straight to the end marker. -/
  next_base : next m base = heapEnd base maxSize
  /-- It is free. -/
  free_base : reserved m base = false
  /-- Nothing follows the end marker. -/
  next_end : next m (heapEnd base maxSize) = 0
  /-- The end marker is reserved. -/
  reserved_end : reserved m (heapEnd base maxSize) = true

variable {m : Mem} {a : ℕ} {bs pre : List Block} {base : Addr} {maxSize : BitVec 32}
  {s s' : HeapState}

theorem Represents.entry (hrep : Represents m a (pre ++ bs))
    (hbound : a + span 8 (pre ++ bs) + 8 ≤ 2 ^ 32) : Entry m (addr a) (addr (a + span 8 pre)) := by
  induction pre generalizing a with
  | nil => exact .here _
  | cons c pre ih =>
    rw [List.cons_append] at hrep hbound
    have hnext := hrep.next_ne_zero hbound
    rw [span_cons] at hbound
    refine .there hnext ?_
    rw [hrep.1, span_cons,
      show a + (8 + c.size + span 8 pre) = a + 8 + c.size + span 8 pre by omega]
    exact ih hrep.2.2 (by omega)

/-- The entries of a represented chain are its headers. -/
theorem Represents.mem_headers {h : Addr} (hrep : Represents m a bs) (hentry : Entry m (addr a) h) :
    h ∈ (headers 8 a bs).map addr := by
  induction bs generalizing a with
  | nil =>
    cases hentry with
    | here => simp [headers]
    | there hnext => exact absurd hrep.1 hnext
  | cons b bs ih =>
    cases hentry with
    | here => simp [headers]
    | there _ hrest =>
      rw [hrep.1] at hrest
      exact List.mem_cons_of_mem _ (ih hrep.2.2 hrest)

/-- The condition on `kfree`, read on the blocks. -/
theorem HeapInv.prev_used {ptr : Addr} (hinv : HeapInv base maxSize s bs)
    (hwrap : base.toNat + maxSize.toNat ≤ 2 ^ 32) (hok : PrevReserved base s (.kfree ptr)) :
    ∀ pre b post, bs = pre ++ b :: post → ptr.toNat = base.toNat + span 8 pre + 8 →
      ∀ c ∈ pre.getLast?, c.used = true := by
  rintro pre b post rfl hptr c hc
  obtain ⟨pre, rfl⟩ := List.getLast?_eq_some_iff.mp hc
  have hrep := hinv.rep
  have hext := hinv.extent
  rw [List.append_assoc] at hrep hext
  have hentry := hrep.entry (by omega)
  rw [addr_toNat] at hentry
  have htail := hrep.tail
  rw [List.singleton_append] at htail
  rw [← htail.2.1]
  refine hok _ hentry ?_
  rw [span_append, span_cons, span_nil] at hptr
  rw [htail.1, heapEntry_headerSize]
  bv_omega

/-- The invariant of the runs below: besides being represented, the blocks have no two free
neighbours. -/
def CoalescedInv (base : Addr) (maxSize : BitVec 32) (s : HeapState) : Prop :=
  ∃ bs, HeapInv base maxSize s bs ∧ NoAdjacentFree bs

theorem CoalescedInv.step {op : HeapOp} (hinv : CoalescedInv base maxSize s)
    (hwrap : base.toNat + maxSize.toNat ≤ 2 ^ 32)
    (hok : SplitLeavesRoom base s op ∧ PrevReserved base s op) (hstep : HeapStep base s op s') :
    CoalescedInv base maxSize s' := by
  obtain ⟨bs, hbs, hfree⟩ := hinv
  obtain ⟨bs', hbs', hblock⟩ := hbs.step hwrap hok.1 hstep
  refine ⟨bs', hbs', ?_⟩
  cases op with
  | kalloc size =>
    rcases hblock with ⟨-, rfl⟩ | ⟨p, halloc⟩
    · exact hfree
    · exact noAdjacentFree_alloc halloc hfree
  | kfree ptr => exact noAdjacentFree_release hblock hfree (hbs.prev_used hwrap hok.2)
  | write a v => exact hblock ▸ hfree

/-- With nothing live, the blocks are the ones of the fresh heap. -/
theorem CoalescedInv.blocks_eq (hinv : CoalescedInv base maxSize s) (h16 : 16 ≤ maxSize.toNat)
    (hlive : s.live = []) : HeapInv base maxSize s [⟨maxSize.toNat - 16, false⟩] := by
  obtain ⟨bs, hbs, hfree⟩ := hinv
  have hperm := hbs.live
  rw [hlive, List.map_nil] at hperm
  have hext := hbs.extent
  rcases eq_singleton_of_noAdjacentFree hfree hperm.nil_eq.symm with rfl | ⟨n, rfl⟩
  · rw [span_nil] at hext
    omega
  · simp only [span_cons, span_nil] at hext
    obtain rfl : n = maxSize.toNat - 16 := by omega
    exact hbs

theorem HeapInv.singleFreeEntry (hinv : HeapInv base maxSize s [⟨maxSize.toNat - 16, false⟩])
    (h16 : 16 ≤ maxSize.toNat) : SingleFreeEntry s.mem base maxSize := by
  have hend : addr (base.toNat + 8 + (maxSize.toNat - 16)) = heapEnd base maxSize := by
    rw [heapEnd, heapEntry_headerSize]
    bv_omega
  have hrep := hinv.rep
  rw [Represents, Represents, hend, addr_toNat] at hrep
  exact ⟨hrep.1, hrep.2.1, hrep.2.2.1, hrep.2.2.2⟩

/-- A request finds on these blocks what it finds on a fresh heap. -/
theorem HeapInv.kalloc_of_fresh {m₀ : Mem} {size : BitVec 32} {p : Addr}
    (hinv : HeapInv base maxSize s [⟨maxSize.toNat - 16, false⟩]) (h16 : 16 ≤ maxSize.toNat)
    (hwrap : base.toNat + maxSize.toNat ≤ 2 ^ 32) (hp : p ≠ 0)
    (hfresh : ∃ fuel m', kalloc fuel (heapInitialize m₀ base maxSize) base size = some (m', p)) :
    ∃ fuel m', kalloc fuel s.mem base size = some (m', p) := by
  obtain ⟨fuel, m', hret⟩ := hfresh
  have hbound : base.toNat + span 8 [⟨maxSize.toNat - 16, false⟩] + 8 ≤ 2 ^ 32 := by
    simp only [span_cons, span_nil]
    omega
  have hbase := addr_toNat base
  have hrep := heapInitialize_represents m₀ h16 hwrap
  cases halloc : alloc 8 size.toNat base.toNat [⟨maxSize.toNat - 16, false⟩] with
  | none =>
    have hr := allocate_refines_none hrep hbound halloc
    rw [hbase] at hr
    exact absurd (kalloc_unique ⟨fuel, hret⟩ hr).2 hp
  | some r =>
    have hfit : fits size.toNat ⟨maxSize.toNat - 16, false⟩ = true := by
      by_contra hno
      rw [alloc_eq_none_iff.mpr (by simpa using hno)] at halloc
      exact absurd halloc (by simp)
    have hstep := allocateStep_of_fits hrep hbound hfit
    have hstep' := allocateStep_of_fits hinv.rep hbound hfit
    rw [hbase] at hstep hstep'
    obtain ⟨-, rfl⟩ := kalloc_unique ⟨fuel, hret⟩ (.of_done hstep)
    exact ⟨1, _, Loop.run_succ_of_done hstep' 0⟩

/-- **No permanent fragmentation, when nothing is freed right behind a free entry.**  In every run
from a fresh heap in which every split leaves room and every `kfree` meets `PrevReserved`, each
state without live blocks is the single free entry again, and every request that succeeds on the
fresh heap succeeds there, with the same pointer. -/
theorem heap_fresh_again (m : Mem) {base : Addr} {maxSize : BitVec 32} (h16 : 16 ≤ maxSize.toNat)
    (hwrap : base.toNat + maxSize.toNat ≤ 2 ^ 32) {tr : List (HeapOp × HeapState)}
    (hrun : Run (HeapStep base) (freshHeap m base maxSize) tr)
    (hsteps : Steps (fun s op ↦ SplitLeavesRoom base s op ∧ PrevReserved base s op)
      (freshHeap m base maxSize) tr) :
    ∀ t ∈ states (freshHeap m base maxSize) tr, t.live = [] →
      SingleFreeEntry t.mem base maxSize ∧
      ∀ size p, p ≠ 0 →
        (∃ fuel m', kalloc fuel (heapInitialize m base maxSize) base size = some (m', p)) →
        ∃ fuel m', kalloc fuel t.mem base size = some (m', p) := by
  intro t ht hlive
  have hinit : CoalescedInv base maxSize (freshHeap m base maxSize) :=
    ⟨_, freshHeap_inv m base maxSize h16 hwrap, .singleton _⟩
  have hinv := hrun.invariant (fun _ _ _ hs hok hstep ↦ CoalescedInv.step hs hwrap hok hstep)
    hinit hsteps t ht
  have hblocks := hinv.blocks_eq h16 hlive
  exact ⟨hblocks.singleFreeEntry h16, fun size p hp ↦ hblocks.kalloc_of_fresh h16 hwrap hp⟩

/-! ## Runs with known blocks

The blocks determine which steps are possible and what they lead to, so a concrete run needs no
look at the bytes. -/

/-- The condition on a step, on blocks: a request finds a block that fits exactly or has room for
a header, and only a block in use is freed. -/
def BlockRoom (base : ℕ) (bs : List Block) : HeapOp → Prop
  | .kalloc size => ∀ b ∈ bs.find? (fits size.toNat), b.size = size.toNat ∨ size.toNat + 8 ≤ b.size
  | .kfree ptr => ∃ r ∈ usedRanges 8 base bs, r.1 = ptr.toNat
  | .write _ _ => False

instance (base : ℕ) (bs : List Block) : (op : HeapOp) → Decidable (BlockRoom base bs op)
  | .kalloc size => inferInstanceAs (Decidable (∀ b ∈ bs.find? (fits size.toNat),
      b.size = size.toNat ∨ size.toNat + 8 ≤ b.size))
  | .kfree ptr => inferInstanceAs (Decidable (∃ r ∈ usedRanges 8 base bs, r.1 = ptr.toNat))
  | .write _ _ => inferInstanceAs (Decidable False)

theorem HeapInv.splitLeavesRoom {op : HeapOp} (hinv : HeapInv base maxSize s bs)
    (hwrap : base.toNat + maxSize.toNat ≤ 2 ^ 32) (hroom : BlockRoom base.toNat bs op) :
    SplitLeavesRoom base s op := by
  cases op with
  | kfree => trivial
  | write => trivial
  | kalloc size =>
    have hext := hinv.extent
    intro h hff
    rw [show base = addr base.toNat by simp, firstFitEntry_iff hinv.rep (by omega)] at hff
    obtain ⟨pre, b, post, rfl, hpre, hfit, rfl⟩ := hff
    have hfind := hroom b
      (List.find?_eq_some_iff_append.mpr ⟨hfit, pre, post, rfl, by simpa using hpre⟩)
    rw [span_append, span_cons] at hext
    rw [hinv.rep.tail.getSize_eq, toNat_addr (by omega)]
    refine hfind.imp_left fun heq ↦ ?_
    rw [heq]
    simp

theorem BlockStep.unique {op : HeapOp} {n : ℕ} {bs₁ bs₂ : List Block} (h₁ : BlockStep n bs op bs₁)
    (h₂ : BlockStep n bs op bs₂) : bs₁ = bs₂ := by
  cases op with
  | kalloc size =>
    rcases h₁ with ⟨hnone, rfl⟩ | ⟨p, hsome⟩ <;> rcases h₂ with ⟨hnone', rfl⟩ | ⟨q, hsome'⟩
    · rfl
    · exact absurd (hnone.symm.trans hsome') (by simp)
    · exact absurd (hnone'.symm.trans hsome) (by simp)
    · exact (Prod.mk.inj (Option.some.inj (hsome.symm.trans hsome'))).1
  | kfree ptr => exact Option.some.inj (h₁.symm.trans h₂)
  | write a v => exact h₁.trans h₂.symm

/-- **A step that is possible on the blocks is possible in memory**, and leads to those blocks. -/
theorem HeapInv.exists_blockStep (op : HeapOp) (bs' : List Block) (hinv : HeapInv base maxSize s bs)
    (hwrap : base.toNat + maxSize.toNat ≤ 2 ^ 32) (hroom : BlockRoom base.toNat bs op)
    (hblock : BlockStep base.toNat bs op bs') :
    ∃ s', HeapStep base s op s' ∧ SplitLeavesRoom base s op ∧ HeapInv base maxSize s' bs' := by
  have hok := hinv.splitLeavesRoom hwrap hroom
  have hop : Admissible s op := by
    cases op with
    | kalloc => trivial
    | write => exact hroom.elim
    | kfree ptr =>
      obtain ⟨r, hr, hptr⟩ := hroom
      obtain ⟨q, hq, rfl⟩ := List.mem_map.mp (hinv.live.mem_iff.mpr hr)
      exact ⟨q.2, by rwa [← BitVec.eq_of_toNat_eq hptr]⟩
  obtain ⟨s', hstep⟩ := hinv.exists_step op hwrap hop
  obtain ⟨bs'', hinv', hblock'⟩ := hinv.step hwrap hok hstep
  exact ⟨s', hstep, hok, hblock.unique hblock' ▸ hinv'⟩

theorem HeapInv.live_eq_nil (hinv : HeapInv base maxSize s bs)
    (hused : usedRanges 8 base.toNat bs = []) : s.live = [] := by
  have hperm := hinv.live
  rw [hused] at hperm
  exact List.map_eq_nil_iff.mp hperm.eq_nil

/-- Two blocks of 16 bytes, handed out in a region of 256 bytes at `0x1000`. -/
theorem exists_two_blocks : ∃ s₁ s₂,
    HeapStep 0x1000 (freshHeap (fun _ ↦ 0) 0x1000 256) (.kalloc 16) s₁ ∧
      SplitLeavesRoom 0x1000 (freshHeap (fun _ ↦ 0) 0x1000 256) (.kalloc 16) ∧
      HeapStep 0x1000 s₁ (.kalloc 16) s₂ ∧ SplitLeavesRoom 0x1000 s₁ (.kalloc 16) ∧
      HeapInv 0x1000 256 s₂ [⟨16, true⟩, ⟨16, true⟩, ⟨192, false⟩] := by
  have h₀ := freshHeap_inv (fun _ ↦ 0) 0x1000 256 (by decide) (by decide)
  obtain ⟨s₁, hs₁, hok₁, h₁⟩ := h₀.exists_blockStep (.kalloc 16)
    [⟨16, true⟩, ⟨216, false⟩] (by decide) (by decide) (.inr ⟨0x1008, by decide⟩)
  obtain ⟨s₂, hs₂, hok₂, h₂⟩ := h₁.exists_blockStep (.kalloc 16)
    [⟨16, true⟩, ⟨16, true⟩, ⟨192, false⟩] (by decide) (by decide)
    (.inr ⟨0x1020, by decide⟩)
  exact ⟨s₁, s₂, hs₁, hok₁, hs₂, hok₂, h₂⟩

/-- **The order matters**: two blocks of 16 bytes, handed out in a region of 256 bytes at `0x1000`
and freed in the same order.  Every split leaves room and nothing is live at the end, but the heap
is not one entry again, and `kalloc(240)`, which succeeds on the fresh heap, gives a null
pointer. -/
theorem kfree_fragments :
    ∃ tr, tr.map Prod.fst = [HeapOp.kalloc 16, .kalloc 16, .kfree 0x1008, .kfree 0x1020] ∧
      Run (HeapStep 0x1000) (freshHeap (fun _ ↦ 0) 0x1000 256) tr ∧
      Steps (SplitLeavesRoom 0x1000) (freshHeap (fun _ ↦ 0) 0x1000 256) tr ∧
      (final (freshHeap (fun _ ↦ 0) 0x1000 256) tr).live = [] ∧
      ¬ SingleFreeEntry (final (freshHeap (fun _ ↦ 0) 0x1000 256) tr).mem 0x1000 256 ∧
      (∃ fuel m', kalloc fuel (freshHeap (fun _ ↦ 0) 0x1000 256).mem 0x1000 240
        = some (m', 0x1008)) ∧
      ∀ fuel m' p, kalloc fuel (final (freshHeap (fun _ ↦ 0) 0x1000 256) tr).mem 0x1000 240
        = some (m', p) → p = 0 := by
  obtain ⟨s₁, s₂, hs₁, hok₁, hs₂, hok₂, h₂⟩ := exists_two_blocks
  obtain ⟨s₃, hs₃, hok₃, h₃⟩ := h₂.exists_blockStep (.kfree 0x1008)
    [⟨16, false⟩, ⟨16, true⟩, ⟨192, false⟩] (by decide) (by decide)
    (by rw [BlockStep]; decide)
  obtain ⟨s₄, hs₄, hok₄, h₄⟩ := h₃.exists_blockStep (.kfree 0x1020)
    [⟨16, false⟩, ⟨216, false⟩] (by decide) (by decide)
    (by rw [BlockStep]; decide)
  refine ⟨[(_, s₁), (_, s₂), (_, s₃), (_, s₄)], rfl, .cons hs₁ (.cons hs₂ (.cons hs₃ (.cons hs₄
    (.nil _)))), ⟨hok₁, hok₂, hok₃, hok₄, trivial⟩, h₄.live_eq_nil (by decide), ?_, ?_, ?_⟩
  · rintro ⟨hnext, -⟩
    exact absurd (h₄.rep.1.symm.trans hnext) (by decide)
  · exact ⟨1, _, kalloc_fresh (fun _ ↦ 0) 0x1000 256 240 (by decide) (by decide)
      (by decide)⟩
  · intro fuel m' p hret
    have hnone := allocate_refines_none (n := 240) h₄.rep (by decide) (by decide)
    exact (kalloc_unique ⟨fuel, hret⟩ hnone).2

/-- Two blocks freed in the other order: the heap is one free entry again. -/
theorem heap_fresh_again_reversed :
    ∃ tr, tr.map Prod.fst = [HeapOp.kalloc 16, .kalloc 16, .kfree 0x1020, .kfree 0x1008] ∧
      Run (HeapStep 0x1000) (freshHeap (fun _ ↦ 0) 0x1000 256) tr ∧
      SingleFreeEntry (final (freshHeap (fun _ ↦ 0) 0x1000 256) tr).mem 0x1000 256 := by
  obtain ⟨s₁, s₂, hs₁, hok₁, hs₂, hok₂, h₂⟩ := exists_two_blocks
  obtain ⟨s₃, hs₃, hok₃, h₃⟩ := h₂.exists_blockStep (.kfree 0x1020)
    [⟨16, true⟩, ⟨216, false⟩] (by decide) (by decide) (by rw [BlockStep]; decide)
  obtain ⟨s₄, hs₄, hok₄, h₄⟩ := h₃.exists_blockStep (.kfree 0x1008)
    [⟨240, false⟩] (by decide) (by decide) (by rw [BlockStep]; decide)
  have hrun := Run.cons hs₁ (.cons hs₂ (.cons hs₃ (.cons hs₄ (.nil s₄))))
  -- the entry in front of 0x1018 is in use, and there is none in front of 0x1000
  have hprev₃ : PrevReserved 0x1000 s₂ (.kfree 0x1020) := by
    obtain ⟨hn₁, hr₁, hn₂, -, hn₃, -, hn₄, -⟩ := h₂.rep
    intro h hh hnext
    have hmem := h₂.rep.mem_headers (h := h) hh
    simp only [headers, List.map_cons, List.map_nil, List.mem_cons, List.not_mem_nil, or_false]
      at hmem
    rcases hmem with rfl | rfl | rfl | rfl
    · exact hr₁
    · exact absurd (hn₂.symm.trans hnext) (by decide)
    · exact absurd (hn₃.symm.trans hnext) (by decide)
    · exact absurd (hn₄.symm.trans hnext) (by decide)
  have hprev₄ : PrevReserved 0x1000 s₃ (.kfree 0x1008) := by
    obtain ⟨hn₁, -, hn₂, -, hn₃, -⟩ := h₃.rep
    intro h hh hnext
    have hmem := h₃.rep.mem_headers (h := h) hh
    simp only [headers, List.map_cons, List.map_nil, List.mem_cons, List.not_mem_nil, or_false]
      at hmem
    rcases hmem with rfl | rfl | rfl
    · exact absurd (hn₁.symm.trans hnext) (by decide)
    · exact absurd (hn₂.symm.trans hnext) (by decide)
    · exact absurd (hn₃.symm.trans hnext) (by decide)
  refine ⟨_, rfl, hrun, ?_⟩
  exact (heap_fresh_again (fun _ ↦ 0) (by decide) (by decide) hrun
    ⟨⟨hok₁, trivial⟩, ⟨hok₂, trivial⟩, ⟨hok₃, hprev₃⟩, ⟨hok₄, hprev₄⟩, trivial⟩ s₄
    (by simp [states]) (h₄.live_eq_nil (by decide))).1

end RainbowOS
