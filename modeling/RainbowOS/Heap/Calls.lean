import RainbowOS.Heap.Safety

/-!
# `kalloc` and `kfree` on any well-formed chain

`Heap/Safety.lean` is about the chains that runs of the heap's clients lead to.  Here a call is made
on a chain of headers of which nothing is known but that it is well formed.

* `kalloc_exact` — `kalloc` is first fit, also where the split leaves no room for a header: the
  entry handed out is the first that is free and large enough, and nothing below it is changed.
* `kfree_exact` — `kfree` frees the entry and lets it absorb the free ones behind it up to the first
  reserved one, of which there is one because the end marker is reserved; it stores into the header
  of this entry only.
-/

set_option autoImplicit false

namespace RainbowOS

open HeapEntry

/-! ## Cutting chains and putting them together -/

namespace WellFormedChain

variable {m m' : Mem} {h e q : Addr} {hs pre post : List Addr}

/-- A chain with at least two headers. -/
theorem uncons_cons {g : Addr} (hwf : WellFormedChain m h e (h :: g :: hs)) :
    h ≠ e ∧ next m h = g ∧ h.toNat + 8 ≤ g.toNat ∧ WellFormedChain m g e (g :: hs) := by
  rcases hwf.uncons with ⟨-, hnil⟩ | ⟨hne, hs', hcons, hwf', hfar⟩
  · simp at hnil
  · obtain ⟨-, rfl⟩ := List.cons.inj hcons
    obtain rfl : g = next m h := by simpa using hwf'.head
    exact ⟨hne, rfl, hfar, hwf'⟩

/-- The chain from one of its headers on. -/
theorem suffix (hwf : WellFormedChain m h e (pre ++ q :: post)) :
    WellFormedChain m q e (q :: post) := by
  induction pre generalizing h with
  | nil =>
    obtain rfl : q = h := by simpa using hwf.head
    exact hwf
  | cons g pre ih =>
    rcases hwf.uncons with ⟨-, hnil⟩ | ⟨-, hs', hcons, hwf', -⟩
    · simp at hnil
    · obtain ⟨-, rfl⟩ := List.cons.inj hcons
      exact ih hwf'

/-- The headers of a chain ascend, up to the end marker. -/
theorem bounds (hwf : WellFormedChain m h e hs) :
    ∀ g ∈ hs, h.toNat ≤ g.toNat ∧ g.toNat ≤ e.toNat := by
  induction hs generalizing h with
  | nil => simp
  | cons x xs ih =>
    rcases hwf.uncons with ⟨rfl, hnil⟩ | ⟨-, hs', hcons, hwf', hfar⟩
    · rw [hnil]
      simp
    · obtain ⟨rfl, rfl⟩ := List.cons.inj hcons
      have ih' := ih hwf'
      have hmem : next m x ∈ xs := List.mem_of_mem_head? hwf'.head
      refine List.forall_mem_cons.mpr ⟨⟨Nat.le_refl _, ?_⟩, fun g hg ↦ ?_⟩
      · have := ih' _ hmem
        omega
      · have := ih' g hg
        omega

/-- The other headers are a header's size away. -/
theorem far (hwf : WellFormedChain m h e (pre ++ q :: post)) :
    (∀ g ∈ pre, g.toNat + 8 ≤ q.toNat) ∧ ∀ g ∈ post, q.toNat + 8 ≤ g.toNat := by
  refine ⟨fun g hg ↦ ?_, fun g hg ↦ ?_⟩
  · obtain ⟨pre₁, pre₂, rfl⟩ := List.append_of_mem hg
    rw [List.append_assoc, List.cons_append] at hwf
    rcases hwf.suffix.uncons with ⟨-, hnil⟩ | ⟨-, hs', hcons, hwf', hfar⟩
    · simp at hnil
    · obtain ⟨-, rfl⟩ := List.cons.inj hcons
      have := hwf'.bounds q (by simp)
      omega
  · rcases hwf.suffix.uncons with ⟨-, hnil⟩ | ⟨-, hs', hcons, hwf', hfar⟩
    · obtain ⟨-, rfl⟩ := List.cons.inj hnil
      cases hg
    · obtain ⟨-, rfl⟩ := List.cons.inj hcons
      have := hwf'.bounds g hg
      omega

/-- Only the fields of the headers matter. -/
theorem congr (hwf : WellFormedChain m h e hs)
    (hsame : ∀ g ∈ hs, next m' g = next m g ∧ reserved m' g = reserved m g) :
    WellFormedChain m' h e hs := by
  induction hs generalizing h with
  | nil => cases hwf.head
  | cons x xs ih =>
    have hx := hsame x List.mem_cons_self
    have hxs : ∀ g ∈ xs, next m' g = next m g ∧ reserved m' g = reserved m g := fun g hg ↦
      hsame g (List.mem_cons_of_mem _ hg)
    rcases hwf.uncons with ⟨rfl, hnil⟩ | ⟨hne, hs', hcons, hwf', hfar⟩
    · obtain ⟨rfl, rfl⟩ := List.cons.inj hnil
      refine ⟨rfl, rfl, .singleton _, ?_, hx.2.trans hwf.reserved_end⟩
      rw [List.forall_mem_singleton, hx.1]
      exact hwf.next_eq_zero x List.mem_cons_self
    · obtain ⟨rfl, rfl⟩ := List.cons.inj hcons
      rw [← hx.1] at hwf' hfar
      exact (ih (hx.1 ▸ hwf') hxs).cons rfl hfar hne

/-- **Put another tail in place of the one that is there**, with the headers before it unchanged. -/
theorem replace (hwf : WellFormedChain m h e (pre ++ q :: hs))
    (hsame : ∀ g ∈ pre, next m' g = next m g) (hwf' : WellFormedChain m' q e (q :: post)) :
    WellFormedChain m' h e (pre ++ q :: post) := by
  induction pre generalizing h with
  | nil =>
    obtain rfl : q = h := by simpa using hwf.head
    exact hwf'
  | cons g pre ih =>
    rcases hwf.uncons with ⟨-, hnil⟩ | ⟨hne, hs', hcons, htail, hfar⟩
    · simp at hnil
    · obtain ⟨rfl, rfl⟩ := List.cons.inj hcons
      have hg := hsame g List.mem_cons_self
      have ih' := ih htail fun x hx ↦ hsame x (List.mem_cons_of_mem _ hx)
      exact ih'.cons hg hfar hne

end WellFormedChain

variable {m m' : Mem} {heap last h q p : Addr} {size : BitVec 32} {hs run pre post : List Addr}

/-! ## `kalloc` -/

/-- The size of an entry reaches to the next one. -/
theorem add_getSize {n : ℕ} (hfar : h.toNat + 8 ≤ (next m h).toNat) (hn : n ≤ (getSize m h).toNat) :
    h.toNat + 8 + n ≤ (next m h).toNat := by
  rw [getSize, heapEntry_headerSize] at hn
  bv_omega

/-- **What handing out an entry writes**: the entry is reserved, and nothing below it changes, even
where the header behind the data has no room. -/
theorem take_frame (hfar : h.toNat + 8 ≤ (next m h).toNat) (hend : (next m h).toNat + 8 ≤ 2 ^ 32)
    (hsize : size ≤ getSize m h) :
    reserved (take m h size) h = true ∧ Mem.EqOff m (take m h size) h.toNat (2 ^ 32) := by
  have hnew := add_getSize hfar (BitVec.le_def.mp hsize)
  have hres : ∀ m₁, Mem.EqOff m m₁ h.toNat (2 ^ 32) →
      reserved (setReserved m₁ h true) h = true ∧
        Mem.EqOff m (setReserved m₁ h true) h.toNat (2 ^ 32) := fun m₁ hoff ↦
    ⟨reserved_setReserved _ _ _,
      hoff.trans ((eqOff_setReserved m₁ true (by omega)).mono (Nat.le_refl _) (by omega))⟩
  rw [take]
  split
  · have haddr : (getDataPtr h + size).toNat = h.toNat + 8 + size.toNat := by
      rw [getDataPtr, heapEntry_headerSize]
      bv_omega
    have h₁ := eqOff_setNext m (getDataPtr h + size) (a := h) (by omega)
    have h₂ := eqOff_init (setNext m h (getDataPtr h + size)) (next m h)
      (a := getDataPtr h + size) (by omega)
    exact hres _ ((h₁.mono (Nat.le_refl _) (by omega)).trans (h₂.mono (by omega) (by omega)))
  · exact hres m (.refl m _ _)

/-- An entry that `kalloc(size)` passes over. -/
def PassedOver (m : Mem) (size : BitVec 32) (h : Addr) : Prop :=
  reserved m h = true ∨ getSize m h < size

/-- **The search is first fit**: all entries are passed over, or the first one that is not is
handed out. -/
theorem allocate_cases (hwf : WellFormedChain m heap last hs) :
    (∀ h ∈ hs, PassedOver m size h) ∧ Loop.Returns (allocateStep size) (m, heap) (m, 0) ∨
      ∃ pre h post, hs = pre ++ h :: post ∧ (∀ g ∈ pre, PassedOver m size g) ∧
        ¬ PassedOver m size h ∧ h ≠ last ∧
        Loop.Returns (allocateStep size) (m, heap) (take m h size, getDataPtr h) := by
  induction hs generalizing heap with
  | nil => cases hwf.head
  | cons x xs ih =>
    rcases hwf.uncons with ⟨rfl, hnil⟩ | ⟨hne, hs', hcons, hwf', hfar⟩
    · obtain ⟨rfl, rfl⟩ := List.cons.inj hnil
      have hnext := (hwf.next_eq_zero x List.mem_cons_self).mpr rfl
      refine .inl ⟨List.forall_mem_singleton.mpr (.inl hwf.reserved_end), .of_done ?_⟩
      rw [allocateStep, if_pos hnext]
    · obtain ⟨rfl, rfl⟩ := List.cons.inj hcons
      have hnext : next m x ≠ 0 := fun h ↦ hne ((hwf.next_eq_zero x List.mem_cons_self).mp h)
      by_cases hpass : PassedOver m size x
      · have hstep : allocateStep size (m, x) = .next (m, next m x) := by
          rw [allocateStep, if_neg hnext, if_pos (by simpa [PassedOver] using hpass)]
        rcases ih hwf' with ⟨hall, hr⟩ | ⟨pre, h, post, rfl, hpre, hfit, hlast, hr⟩
        · exact .inl ⟨List.forall_mem_cons.mpr ⟨hpass, hall⟩, .of_next hstep hr⟩
        · exact .inr ⟨x :: pre, h, post, rfl, List.forall_mem_cons.mpr ⟨hpass, hpre⟩, hfit, hlast,
            .of_next hstep hr⟩
      · refine .inr ⟨[], x, xs, rfl, by simp, hpass, hne, .of_done ?_⟩
        rw [allocateStep, if_neg hnext, if_neg (by simpa [PassedOver] using hpass)]

/-- **Allocation is exact first fit**, on every well-formed chain. -/
theorem kalloc_exact (hwf : WellFormedChain m heap last hs) (hend : last.toNat + 8 ≤ 2 ^ 32)
    (size : BitVec 32) :
    ∃ fuel m' p, kalloc fuel m heap size = some (m', p) ∧
      (p = 0 ↔ ∀ h ∈ hs, reserved m h = false → getSize m h < size) ∧ (p = 0 → m' = m) ∧
      (p ≠ 0 → ∃ h ∈ hs, p = getDataPtr h ∧ reserved m h = false ∧ size ≤ getSize m h ∧
        (∀ g ∈ hs, g < h → reserved m g = true ∨ getSize m g < size) ∧
        reserved m' h = true ∧ ∀ x < h, m' x = m x) := by
  rcases @allocate_cases _ _ _ size _ hwf with ⟨hall, fuel, hr⟩ |
    ⟨pre, h, post, rfl, hpre, hfit, hlast, fuel, hr⟩
  · refine ⟨fuel, m, 0, hr, iff_of_true rfl fun h hh hfree ↦ ?_, fun _ ↦ rfl,
      fun hne ↦ absurd rfl hne⟩
    exact (hall h hh).resolve_left (by simp [hfree])
  · obtain ⟨hfree, hsize⟩ := not_or.mp hfit
    rw [Bool.not_eq_true] at hfree
    rw [BitVec.not_lt] at hsize
    obtain ⟨-, hs', hcons, hwf', hfar⟩ := hwf.suffix.uncons.resolve_left fun h ↦ hlast h.1
    have hbelow := hwf'.bounds _ (List.mem_of_mem_head? hwf'.head)
    obtain ⟨hreserved, hoff⟩ := take_frame hfar (by omega) hsize
    have hne : getDataPtr h ≠ 0 := by
      rw [getDataPtr, heapEntry_headerSize]
      bv_omega
    have hh : h ∈ pre ++ h :: post := by simp
    refine ⟨fuel, _, _, hr, iff_of_false hne fun hall ↦ ?_, fun hz ↦ absurd hz hne, fun _ ↦
      ⟨h, hh, rfl, hfree, hsize, fun g hg hlt ↦ ?_, hreserved, fun x hx ↦ hoff x (.inl hx)⟩⟩
    · exact absurd (hall h hh hfree) (BitVec.not_lt.mpr hsize)
    · rcases List.mem_append.mp hg with hmem | hmem
      · exact hpre g hmem
      · have hle := hwf.suffix.bounds g hmem
        exact absurd (BitVec.lt_def.mp hlt) (Nat.not_lt.mpr hle.1)

/-- The bytes of a header, and of `n` bytes of data behind it. -/
def entryBytes (next : BitVec 32) (flags : Byte) (n : ℕ) : List Byte :=
  (List.range 4).map (Mem.byteOf next) ++ [flags, 0, 0, 0] ++ List.replicate n 0

/-- A heap of four entries: one in use, two free ones and another one in use. -/
def smallHeap : Mem := fun a ↦
  (entryBytes 0x1018 1 16 ++ entryBytes 0x1028 0 8 ++ entryBytes 0x1050 0 32 ++
    entryBytes 0x1060 1 8 ++ entryBytes 0 1 0).getD (a - 0x1000).toNat 0

theorem wellFormedChain_smallHeap : WellFormedChain smallHeap 0x1000 0x1060
    [0x1000, 0x1018, 0x1028, 0x1050, 0x1060] := by
  have hrep : Represents smallHeap 0x1000 [⟨16, true⟩, ⟨8, false⟩, ⟨32, false⟩, ⟨8, true⟩] := by
    simp only [Represents]
    decide +kernel
  exact hrep.wellFormedChain (by decide)

/-- 16 bytes of it are handed out from its third entry: the first one is in use, and the second one
is too small. -/
theorem kalloc_exact_smallHeap : ∃ fuel m',
    kalloc fuel smallHeap 0x1000 16 = some (m', 0x1030) ∧ reserved m' 0x1028 = true := by
  obtain ⟨fuel, m', p, hr, hnull, -, hfound⟩ :=
    kalloc_exact wellFormedChain_smallHeap (by decide) 16
  have hne : p ≠ 0 := fun h ↦
    absurd (hnull.mp h 0x1028 (by decide) (by decide +kernel)) (by decide +kernel)
  obtain ⟨h, hh, rfl, hfree, hsize, -, hreserved, -⟩ := hfound hne
  simp only [List.mem_cons, List.not_mem_nil, or_false] at hh
  obtain rfl | rfl | rfl | rfl | rfl := hh
  · exact absurd hfree (by decide +kernel)
  · exact absurd hsize (by decide +kernel)
  · exact ⟨fuel, m', hr, hreserved⟩
  · exact absurd hfree (by decide +kernel)
  · exact absurd hfree (by decide +kernel)

/-! ## `kfree` -/

/-- A store into one header leaves the fields of the others alone. -/
theorem fields_of_far (hwf : WellFormedChain m heap last (pre ++ h :: post))
    (hend : last.toNat + 8 ≤ 2 ^ 32) (hoff : Mem.EqOff m m' h.toNat (h.toNat + 8)) :
    ∀ g ∈ pre ++ post, next m' g = next m g ∧ reserved m' g = reserved m g := by
  intro g hg
  have hfar : g.toNat + 8 ≤ h.toNat ∨ h.toNat + 8 ≤ g.toNat :=
    (List.mem_append.mp hg).imp (hwf.far.1 g) (hwf.far.2 g)
  have hmem : g ∈ pre ++ h :: post := by
    rcases List.mem_append.mp hg with hg | hg
    · exact List.mem_append_left _ hg
    · exact List.mem_append_right _ (List.mem_cons_of_mem _ hg)
  have hle := hwf.bounds g hmem
  exact fields_of_eqOff hoff (by omega) hfar

/-- **A run of free entries is absorbed**: by induction on the run, with the chain that is left
after each round. -/
theorem defragment_run (hwf : WellFormedChain m h last (h :: (run ++ q :: post)))
    (hend : last.toNat + 8 ≤ 2 ^ 32) (hrun : ∀ g ∈ run, reserved m g = false)
    (hq : reserved m q = true) :
    ∃ m', Loop.Returns (defragmentStep h) m m' ∧ WellFormedChain m' h last (h :: q :: post) ∧
      reserved m' h = reserved m h ∧ Mem.EqOff m m' h.toNat (h.toNat + 8) := by
  induction run generalizing m with
  | nil =>
    obtain ⟨-, hnext, -, -⟩ := hwf.uncons_cons
    refine ⟨m, .of_done ?_, hwf, rfl, .refl m _ _⟩
    rw [defragmentStep, hnext, if_pos hq]
  | cons g run ih =>
    rw [List.cons_append] at hwf
    obtain ⟨hne, hnext, hfar, hwf'⟩ := hwf.uncons_cons
    -- the entry absorbed is not the end marker, so there is one behind it
    obtain ⟨b, hs', hb⟩ : ∃ b hs', run ++ q :: post = b :: hs' :=
      List.exists_cons_of_ne_nil (by simp)
    rw [hb] at hwf hwf'
    obtain ⟨-, hnext', hfar', hwf''⟩ := hwf'.uncons_cons
    have hstep : defragmentStep h m = .next (setNext m h b) := by
      rw [defragmentStep, hnext, if_neg (by simp [hrun g List.mem_cons_self]), hnext']
    have hle := hwf''.bounds b List.mem_cons_self
    have hoff := eqOff_setNext m b (a := h) (by omega)
    have hsame := @fields_of_far _ _ _ _ _ [] _ hwf hend hoff
    have hchain := (hwf''.congr fun x hx ↦ hsame x (List.mem_cons_of_mem _ hx)).cons (h := h)
      (next_setNext m h b) (by omega) hne
    rw [← hb] at hsame hchain
    obtain ⟨m', hr, hwf₁, hres, hoff₁⟩ := ih hchain
      (fun x hx ↦ (hsame x (by simp [hx])).2.trans (hrun x (List.mem_cons_of_mem _ hx)))
      ((hsame q (by simp)).2.trans hq)
    exact ⟨m', .of_next hstep hr, hwf₁, hres.trans (reserved_setNext m h b), hoff.trans hoff₁⟩

/-- Behind an entry there is a run of free ones, and then a reserved one. -/
theorem exists_run (hwf : WellFormedChain m h last (h :: hs)) (hne : h ≠ last) :
    ∃ run q post, hs = run ++ q :: post ∧ (∀ g ∈ run, reserved m g = false) ∧
      reserved m q = true := by
  obtain ⟨-, hs', hcons, hwf', -⟩ := hwf.uncons.resolve_left fun h ↦ hne h.1
  obtain ⟨-, rfl⟩ := List.cons.inj hcons
  have hmem : last ∈ hs := List.mem_of_mem_getLast? hwf'.last
  obtain ⟨q, hq⟩ := Option.isSome_iff_exists.mp
    (List.find?_isSome.mpr ⟨last, hmem, hwf.reserved_end⟩)
  obtain ⟨hreserved, run, post, rfl, hrun⟩ := List.find?_eq_some_iff_append.mp hq
  exact ⟨run, q, post, rfl, by simpa using hrun, hreserved⟩

theorem WellFormedChain.isLast_eq_false (hwf : WellFormedChain m heap last hs) (hh : h ∈ hs)
    (hne : h ≠ last) : isLast m h = false :=
  beq_eq_false_iff_ne.mpr fun hz ↦ hne ((hwf.next_eq_zero h hh).mp hz)

/-- The search of `kfree` comes to the entry with this data pointer, or to the end marker. -/
theorem kfree_search (hwf : WellFormedChain m heap last (pre ++ h :: post))
    (hpre : ∀ g ∈ pre, getDataPtr g ≠ p) {r : Option Addr}
    (hr : Loop.Returns (kfreeStep m p) h r) : Loop.Returns (kfreeStep m p) heap r := by
  induction pre generalizing heap with
  | nil =>
    obtain rfl : h = heap := by simpa using hwf.head
    exact hr
  | cons g pre ih =>
    rcases hwf.uncons with ⟨-, hnil⟩ | ⟨hne, hs', hcons, htail, -⟩
    · simp at hnil
    · obtain ⟨rfl, rfl⟩ := List.cons.inj hcons
      have hnext := hwf.isLast_eq_false List.mem_cons_self hne
      refine .of_next ?_ (ih htail fun x hx ↦ hpre x (List.mem_cons_of_mem _ hx))
      rw [kfreeStep, hnext, if_neg (by simp), if_neg (hpre g List.mem_cons_self)]

theorem kfree_search_none (hwf : WellFormedChain m heap last hs)
    (hnone : ∀ h ∈ hs, h ≠ last → p ≠ getDataPtr h) :
    Loop.Returns (kfreeStep m p) heap none := by
  obtain ⟨pre, rfl⟩ := List.getLast?_eq_some_iff.mp hwf.last
  refine kfree_search hwf (fun g hg hp ↦ ?_) (.of_done ?_)
  · have hfar := hwf.far.1 g hg
    refine hnone g (by simp [hg]) (fun he ↦ ?_) hp.symm
    rw [he] at hfar
    omega
  · have hnext : isLast m last = true :=
      beq_iff_eq.mpr ((hwf.next_eq_zero last (by simp)).mpr rfl)
    rw [kfreeStep, if_pos hnext]

/-- The search of `kfree` finds the entry with this data pointer. -/
theorem kfree_search_entry (hwf : WellFormedChain m heap last (pre ++ h :: post))
    (hne : h ≠ last) : Loop.Returns (kfreeStep m (getDataPtr h)) heap (some h) := by
  have hle := hwf.bounds h (by simp)
  refine kfree_search hwf (fun g hg hp ↦ ?_) (.of_done ?_)
  · have hfar := hwf.far.1 g hg
    rw [getDataPtr, getDataPtr, heapEntry_headerSize] at hp
    bv_omega
  · rw [kfreeStep, hwf.isLast_eq_false (by simp) hne, if_neg (by simp), if_pos rfl]

/-- Clearing the flag of an entry leaves the chain from there on as it is. -/
theorem WellFormedChain.clearReserved (hwf : WellFormedChain m heap last (pre ++ h :: post))
    (hend : last.toNat + 8 ≤ 2 ^ 32) (hne : h ≠ last) :
    WellFormedChain (setReserved m h false) h last (h :: post) := by
  have hle := hwf.bounds h (by simp)
  have hsame := fields_of_far hwf hend (eqOff_setReserved m false (by omega))
  obtain ⟨-, hs', hcons, htail, hfar⟩ := hwf.suffix.uncons.resolve_left fun hl ↦ hne hl.1
  obtain ⟨-, rfl⟩ := List.cons.inj hcons
  exact (htail.congr fun g hg ↦ hsame g (List.mem_append_right _ hg)).cons
    (next_setReserved m h false) hfar hne

/-- **Freeing touches nothing else.** -/
theorem kfree_exact (hwf : WellFormedChain m heap last hs) (hend : last.toNat + 8 ≤ 2 ^ 32)
    (p : Addr) :
    (∀ h ∈ hs, h ≠ last → p = getDataPtr h →
      ∃ pre run q post m', hs = pre ++ h :: (run ++ q :: post) ∧
      (∀ g ∈ run, reserved m g = false) ∧ reserved m q = true ∧
      KfreeReturns m heap p (.ok ()) m' ∧ reserved m' h = false ∧
      WellFormedChain m' heap last (pre ++ h :: q :: post) ∧
      (∀ g ∈ pre ++ q :: post, next m' g = next m g ∧ reserved m' g = reserved m g) ∧
      Mem.EqOff m m' h.toNat (h.toNat + 8)) ∧
    ((∀ h ∈ hs, h ≠ last → p ≠ getDataPtr h) →
      KfreeReturns m heap p (.error (.earlyPanic "kfree: no such memory address!")) m) := by
  refine ⟨?_, fun hnone ↦ ?_⟩
  · rintro h hh hne rfl
    obtain ⟨pre, post, rfl⟩ := List.append_of_mem hh
    obtain ⟨run, q, post, rfl, hrun, hq⟩ := exists_run hwf.suffix hne
    have hfar := hwf.far
    have hbounds := hwf.bounds
    have hle := hbounds h hh
    have hfind := kfree_search_entry hwf hne
    have hoff := eqOff_setReserved m false (a := h) (by omega)
    have hchain := hwf.clearReserved hend hne
    obtain ⟨m₁, hm₁⟩ : ∃ m₁, m₁ = setReserved m h false := ⟨_, rfl⟩
    rw [← hm₁] at hoff hchain
    have hsame := fields_of_far hwf hend hoff
    obtain ⟨m', hr, hwf', hres, hoff'⟩ := defragment_run hchain hend
      (fun g hg ↦ (hsame g (by simp [hg])).2.trans (hrun g hg)) ((hsame q (by simp)).2.trans hq)
    have hsame' := fields_of_far hwf hend (hoff.trans hoff')
    refine ⟨pre, run, q, post, m', rfl, hrun, hq, kfreeReturns_ok hfind (hm₁ ▸ hr), ?_,
      hwf.replace (fun g hg ↦ (hsame' g (by simp [hg])).1) hwf', fun g hg ↦ hsame' g ?_,
      hoff.trans hoff'⟩
    · rw [hres, hm₁, reserved_setReserved]
    · rcases List.mem_append.mp hg with hg | hg
      · exact List.mem_append_left _ hg
      · exact List.mem_append_right _ (List.mem_append_right _ hg)
  · obtain ⟨fuel, hr⟩ := kfree_search_none hwf hnone
    exact ⟨fuel, by rw [kfree, hr]; rfl⟩

/-- In the small heap the first entry is freed and absorbs the next two, and what is no entry leads
to a panic. -/
theorem kfree_exact_smallHeap :
    (∃ m', KfreeReturns smallHeap 0x1000 0x1008 (.ok ()) m' ∧ reserved m' 0x1000 = false ∧
        WellFormedChain m' 0x1000 0x1060 [0x1000, 0x1050, 0x1060]) ∧
      KfreeReturns smallHeap 0x1000 0x2000
        (.error (.earlyPanic "kfree: no such memory address!")) smallHeap := by
  have hforeign := (kfree_exact wellFormedChain_smallHeap (by decide) 0x2000).2
    (by simp [getDataPtr, heapEntry_headerSize])
  refine ⟨?_, hforeign⟩
  obtain ⟨pre, run, q, post, m', hsplit, hrun, hq, hr, hfree, hwf, -⟩ :=
    (kfree_exact wellFormedChain_smallHeap (by decide) 0x1008).1 0x1000 (by decide) (by decide) rfl
  -- the entries behind the first one up to a reserved one are the second and the third
  have hsecond : reserved smallHeap 0x1018 = false := by decide +kernel
  have hthird : reserved smallHeap 0x1028 = false := by decide +kernel
  have hfourth : reserved smallHeap 0x1050 = true := by decide +kernel
  refine ⟨m', hr, hfree, ?_⟩
  cases pre with
  | cons g pre =>
    have hmem : (0x1000 : Addr) ∈ ([0x1018, 0x1028, 0x1050, 0x1060] : List Addr) := by
      rw [(List.cons.inj hsplit).2]
      simp
    exact absurd hmem (by decide)
  | nil =>
    rcases run with _ | ⟨g, _ | ⟨g', _ | ⟨g'', run⟩⟩⟩
    · cases hsplit
      exact absurd (hsecond.symm.trans hq) (by decide)
    · cases hsplit
      exact absurd (hthird.symm.trans hq) (by decide)
    · cases hsplit
      exact hwf
    · simp only [List.nil_append, List.cons_append, List.cons.injEq, true_and] at hsplit
      obtain ⟨-, -, rfl, -⟩ := hsplit
      exact absurd (hfourth.symm.trans (hrun 0x1050 (by simp))) (by decide)

end RainbowOS
