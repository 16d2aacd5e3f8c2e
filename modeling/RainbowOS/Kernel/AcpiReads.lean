import RainbowOS.Kernel.Madt

/-!
# What the search for the ACPI tables reads

The kernel looks for the tables of the firmware while it writes to memory itself.  What it finds
depends on the bytes that it reads, and those are the windows in low memory, the root table, the
signatures of the tables in it, and the records of the MADT.

* `acpi_header_congr`, `findEntry_congr`, `getEntry_congr` — the same bytes there, the same result.
* `TablesApart` — the bytes are apart from what the kernel writes, which is all that is needed.
-/

set_option autoImplicit false

namespace RainbowOS.Acpi

variable {m m' : Mem} {this : AcpiHeader} {ptr stop p : Addr} {name : Bytes} {fuel n : ℕ}

/-! ## The descriptor -/

theorem specialStrComp_congr (h : ∀ i < 36, m' (p + addr i) = m (p + addr i)) :
    specialStrComp m' p = specialStrComp m p := by
  rw [Bool.eq_iff_iff, specialStrComp_iff, specialStrComp_iff]
  refine forall₂_congr fun i hi ↦ ?_
  rw [RSDP_SEARCH_STR_LEN] at hi
  rw [h i (by omega)]

theorem searchWindow_congr
    (h : ∀ x, ptr ≤ x → x < stop → ∀ i < 36, m' (x + addr i) = m (x + addr i)) :
    searchWindow m' ptr stop = searchWindow m ptr stop := by
  fun_induction searchWindow m ptr stop with
  | case1 ptr hlt hcomp =>
    rw [searchWindow, if_pos hlt, specialStrComp_congr (h ptr (BitVec.le_refl ptr) hlt),
      if_pos hcomp]
  | case2 ptr hlt hcomp ih =>
    rw [searchWindow, if_pos hlt, specialStrComp_congr (h ptr (BitVec.le_refl ptr) hlt),
      if_neg hcomp]
    exact ih fun x hx hxlt ↦ h x (by bv_omega) hxlt
  | case3 ptr hge => rw [searchWindow, if_neg hge]

theorem searchRSDPDesc_congr (h : ∀ x, Searched x → ∀ i < 36, m' (x + addr i) = m (x + addr i)) :
    searchRSDPDesc m' = searchRSDPDesc m := by
  rw [searchRSDPDesc, searchRSDPDesc,
    @searchWindow_congr m m' _ _ fun x hlo hhi ↦ h x (.inl ⟨hlo, hhi⟩),
    @searchWindow_congr m m' _ _ fun x hlo hhi ↦ h x (.inr ⟨hlo, hhi⟩)]

theorem checkSum_congr (h : ∀ i < n, m' (p + addr i) = m (p + addr i)) :
    checkSum m' p n = checkSum m p n := by
  have hfold : (List.range n).foldl (fun (res : BitVec 32) i ↦ res + (m' (p + addr i)).setWidth 32)
      0 = (List.range n).foldl (fun res i ↦ res + (m (p + addr i)).setWidth 32) 0 := by
    refine List.foldl_ext _ _ _ fun res i hi ↦ ?_
    rw [h i (List.mem_range.mp hi)]
  rw [checkSum, checkSum, hfold]

theorem checkRSDPDesc_congr (h : ∀ i < 36, m' (p + addr i) = m (p + addr i)) :
    checkRSDPDesc m' p = checkRSDPDesc m p := by
  have hrevision : revision m' p = revision m p := h 15 (by decide)
  have hshort : checkSum m' p sizeof_rsdp_desc = checkSum m p sizeof_rsdp_desc :=
    checkSum_congr fun i hi ↦ h i (Nat.lt_trans hi (by decide))
  have hlong : checkSum m' p sizeof_xsdp_desc = checkSum m p sizeof_xsdp_desc := checkSum_congr h
  rw [checkRSDPDesc, checkRSDPDesc, hrevision, hshort, hlong]

/-- A pointer that is found has been searched. -/
theorem searched_of_search (m : Mem) :
    Searched (searchRSDPDesc m) ∨ searchRSDPDesc m = 0 := by
  obtain ⟨f, hfirst, hsearch⟩ | ⟨-, hnull⟩ := searchRSDPDesc_spec m
  · exact .inl (hsearch ▸ hfirst.searched)
  · exact .inr hnull

theorem findRSDPDesc_congr (h : ∀ x, Searched x → ∀ i < 36, m' (x + addr i) = m (x + addr i)) :
    findRSDPDesc m' = findRSDPDesc m := by
  rw [findRSDPDesc, findRSDPDesc, searchRSDPDesc_congr h]
  obtain hsearched | hnull := searched_of_search m
  · rw [checkRSDPDesc_congr (h _ hsearched)]
  · rw [hnull]
    rfl

/-- What `findRSDPDesc` returns has been searched, or it is null. -/
theorem searched_of_findRSDPDesc (hfind : findRSDPDesc m = .ok p) : Searched p ∨ p = 0 := by
  obtain hsearched | hnull := searched_of_search m
  · rw [findRSDPDesc] at hfind
    cases hcheck : checkRSDPDesc m (searchRSDPDesc m) with
    | error e =>
      rw [hcheck] at hfind
      cases hfind
    | ok valid =>
      rw [hcheck] at hfind
      cases valid with
      | true => exact .inl (Except.ok.inj hfind ▸ hsearched)
      | false => exact .inr (Except.ok.inj hfind).symm
  · rw [findRSDPDesc_of_null hnull] at hfind
    cases hfind

/-- **The constructor** depends on the windows, and on what is just behind them. -/
theorem acpi_header_congr (h : ∀ x, Searched x → ∀ i < 36, m' (x + addr i) = m (x + addr i)) :
    acpi_header m' = acpi_header m := by
  rw [acpi_header, acpi_header, findRSDPDesc_congr h]
  cases hfind : findRSDPDesc m with
  | error e => rfl
  | ok p =>
    obtain hsearched | rfl := searched_of_findRSDPDesc hfind
    · have hrevision : revision m' p = revision m p := h p hsearched 15 (by decide)
      change (if p = 0 then _ else (return ⟨p, revision m' p == 2⟩ : Exec AcpiHeader)) = _
      rw [hrevision]
      rfl
    · rfl

/-! ## The root table -/

/-- The bytes that `findEntry` reads: those of the descriptor, the root table with its slots, and
the signatures of the tables in it. -/
def RootReads (m : Mem) (this : AcpiHeader) (x : Addr) : Prop :=
  Mem.Range this.ptr 36 x ∨
    Mem.Range (rootHeader m this) (36 + slotSize m this * (numEntries m this).toNat) x ∨
    ∃ index < numEntries m this, Mem.Range (rootSlot m this index) 4 x

section

variable (h : ∀ x, RootReads m this x → m' x = m x)

include h

theorem desc_congr {i : ℕ} (hi : i < 36) : m' (this.ptr + addr i) = m (this.ptr + addr i) :=
  h _ (.inl (Mem.range_add hi (by decide)))

theorem xsdt_address_congr : xsdt_address m' this.ptr = xsdt_address m this.ptr := by
  refine Mem.readLE_congr (n := 8) fun i hi ↦ ?_
  rw [show (24 : Addr) = addr 24 from rfl, add_addr_addr]
  exact desc_congr h (by omega)

theorem usesXsdt_congr : UsesXsdt m' this = UsesXsdt m this := by
  rw [UsesXsdt, UsesXsdt, xsdt_address_congr h]

theorem rootHeader_congr : rootHeader m' this = rootHeader m this := by
  have hrsdt : rsdt_address m' this.ptr = rsdt_address m this.ptr := by
    refine Mem.readLE_congr (n := 4) fun i hi ↦ ?_
    rw [show (16 : Addr) = addr 16 from rfl, add_addr_addr]
    exact desc_congr h (by omega)
  rw [rootHeader, rootHeader, xsdt_address_congr h, hrsdt]
  exact ite_cond_congr (usesXsdt_congr h)

theorem slotSize_congr : slotSize m' this = slotSize m this := by
  rw [slotSize, slotSize]
  exact ite_cond_congr (usesXsdt_congr h)

/-- A byte of the root table. -/
theorem root_congr {i : ℕ} (hi : i < 36 + slotSize m this * (numEntries m this).toNat) :
    m' (rootHeader m this + addr i) = m (rootHeader m this + addr i) := by
  refine h _ (.inr (.inl ?_))
  rw [Mem.Range]
  refine Nat.lt_of_le_of_lt ?_ hi
  rw [BitVec.add_comm, BitVec.add_sub_cancel, BitVec.toNat_ofNat]
  exact Nat.mod_le _ _

theorem numEntries_congr : numEntries m' this = numEntries m this := by
  have hlength : sdtLength m' (rootHeader m this) = sdtLength m (rootHeader m this) := by
    refine Mem.readLE_congr (n := 4) fun i hi ↦ ?_
    rw [show (4 : Addr) = addr 4 from rfl, add_addr_addr]
    exact root_congr h (by omega)
  rw [numEntries, numEntries, rootHeader_congr h, slotSize_congr h, hlength]

theorem rootSlot_congr {index : BitVec 32} (hindex : index < numEntries m this) :
    rootSlot m' this index = rootSlot m this index := by
  have hbyte : ∀ i < slotSize m this,
      m' (rootHeader m this + sizeof_acpi_sdt_header + BitVec.ofNat 32 (slotSize m this) * index +
          addr i) =
        m (rootHeader m this + sizeof_acpi_sdt_header + BitVec.ofNat 32 (slotSize m this) * index +
          addr i) := by
    intro i hi
    obtain ⟨k, hk⟩ : ∃ k, k = index.toNat := ⟨_, rfl⟩
    have hofNat : index = BitVec.ofNat 32 k := by
      rw [hk, BitVec.ofNat_toNat, BitVec.setWidth_eq]
    rw [hofNat, slot_offset, add_addr_addr]
    refine root_congr h ?_
    have hlt : k + 1 ≤ (numEntries m this).toNat := hk ▸ hindex
    have hmul := Nat.mul_le_mul_left (slotSize m this) hlt
    rw [Nat.mul_add, Nat.mul_one] at hmul
    omega
  rw [rootSlot, rootSlot, rootHeader_congr h]
  by_cases huses : UsesXsdt m this
  · have huses' : UsesXsdt m' this := (usesXsdt_congr h).mpr huses
    rw [slotSize, if_pos huses] at hbyte
    rw [if_pos huses', if_pos huses, xsdtSlot, xsdtSlot]
    exact congrArg (BitVec.setWidth 32) (Mem.readLE_congr (n := 8) hbyte)
  · have huses' : ¬ UsesXsdt m' this := mt (usesXsdt_congr h).mp huses
    rw [slotSize, if_neg huses] at hbyte
    rw [if_neg huses', if_neg huses]
    exact Mem.readLE_congr (n := 4) hbyte

/-- **The search in the root table** depends on what it reads. -/
theorem findEntry_congr (name : Bytes) (fuel : ℕ) :
    findEntry fuel m' this name = findEntry fuel m this name := by
  have hstep : findEntryStep m' this name = findEntryStep m this name := by
    rw [findEntryStep_eq, findEntryStep_eq, numEntries_congr h]
    funext index
    rw [slotStep, slotStep]
    by_cases hindex : index < numEntries m this
    · have hsignature : sdtSignature m' (rootSlot m this index) =
          sdtSignature m (rootSlot m this index) :=
        List.map_congr_left fun i hi ↦ h _ (.inr (.inr ⟨index, hindex,
          Mem.range_add (List.mem_range.mp hi) (by decide)⟩))
      rw [if_pos hindex, if_pos hindex, rootSlot_congr h hindex, hsignature]
    · rw [if_neg hindex, if_neg hindex]
  rw [findEntry, findEntry, hstep]

theorem acpi_madt_congr (fuel : ℕ) : acpi_madt fuel m' this = acpi_madt fuel m this := by
  rw [acpi_madt, acpi_madt, findEntry_congr h]

end

/-! ## The MADT -/

/-- **The walk over the MADT** depends on what it reads. -/
theorem getEntry_congr (h : ∀ a ∈ madtReads fuel m ptr, m' a = m a) :
    getEntry fuel m' ptr 1 = getEntry fuel m ptr 1 := by
  have hlength : sdtLength m' ptr = sdtLength m ptr := by
    refine Mem.readLE_congr (n := 4) fun i hi ↦ ?_
    rw [show (4 : Addr) = addr 4 from rfl, add_addr_addr]
    exact h _ (List.mem_append_left _ (List.mem_map.mpr ⟨i, List.mem_range.mpr hi, rfl⟩))
  have hlimit : madtLimit m' ptr = madtLimit m ptr := congrArg (ptr + ·) hlength
  rw [getEntry_one, getEntry_one, hlimit]
  refine Loop.run_congr fun walker hwalker ↦ ?_
  have hreads : ∀ a ∈ entryReads m (madtLimit m ptr) walker, m' a = m a := fun a ha ↦
    h a (List.mem_append_right _ (List.mem_flatMap.mpr ⟨walker, hwalker, ha⟩))
  rw [getEntryStep, getEntryStep]
  by_cases hlt : walker < madtLimit m ptr
  · rw [entryReads, if_pos hlt] at hreads
    have htype : entry_type m' walker = entry_type m walker := by
      refine hreads walker ?_
      split
      · exact List.mem_cons_self
      · exact List.mem_cons_self
    rw [if_pos hlt, if_pos hlt, htype]
    by_cases hone : entry_type m walker = 1
    · rw [if_pos hone, if_pos hone]
    · rw [if_neg hone] at hreads
      have hrecord : record_length m' walker = record_length m walker :=
        hreads _ (List.mem_cons_of_mem _ List.mem_cons_self)
      rw [if_neg hone, if_neg hone, hrecord]
  · rw [if_neg hlt, if_neg hlt]

/-! ## Apart from the kernel -/

/-- Nothing is written to what the kernel reads of the tables. -/
structure TablesApart (written : Addr → Prop) (m : Mem) : Prop where
  windows : ∀ x, Searched x → ∀ i < 36, ¬ written (x + addr i)
  root : ∀ this, acpi_header m = .ok this → ∀ x, RootReads m this x → ¬ written x
  madt : ∀ this ptr fuel, acpi_header m = .ok this → acpi_madt fuel m this = some (.ok ptr) →
    ∀ a ∈ madtReads fuel m ptr, ¬ written a

variable {written : Addr → Prop}

/-- **The tables are found as if nothing had been written.** -/
theorem TablesApart.congr (h : TablesApart written m) (hm : ∀ x, ¬ written x → m' x = m x) :
    acpi_header m' = acpi_header m ∧ ∀ this, acpi_header m = .ok this → ∀ fuel,
      acpi_madt fuel m' this = acpi_madt fuel m this ∧
      ∀ ptr, acpi_madt fuel m this = some (.ok ptr) →
        getEntry fuel m' ptr 1 = getEntry fuel m ptr 1 := by
  refine ⟨acpi_header_congr fun x hx i hi ↦ hm _ (h.windows x hx i hi), fun this hthis fuel ↦ ?_⟩
  exact ⟨acpi_madt_congr (fun x hx ↦ hm x (h.root this hthis x hx)) fuel, fun ptr hptr ↦
    getEntry_congr fun a ha ↦ hm a (h.madt this ptr fuel hthis hptr a ha)⟩

end RainbowOS.Acpi
