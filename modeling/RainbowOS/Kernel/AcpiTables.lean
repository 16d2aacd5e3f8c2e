import Mathlib.Data.Nat.Find
import RainbowOS.Kernel.Rsdp
import RainbowOS.Lib.Loop
import RainbowOS.StdlibC.Compare

/-!
# Looking for an ACPI table: `acpi_header::findEntry`

The root table is a header of 36 bytes and behind it the addresses of the other tables: 32-bit ones
in the RSDT, 64-bit ones in the XSDT that a descriptor of revision 2 points to.  `findEntry` has a
loop for each; they differ in the width of a slot and are one step with parameters here.

* `findEntry_first_match` — on a root table whose length fits its slots, the first table with the
  name is found, the same one by either loop.
* `findEntry_inside_iff` — the number of slots is a difference of unsigned numbers, so a length
  below 36 makes the loop leave the table.
-/

set_option autoImplicit false

namespace RainbowOS.Acpi

/-! ## The structures -/

/-- `sizeof(acpi_sdt_header)`. -/
def sizeof_acpi_sdt_header : BitVec 32 := 36

/-- `header->signature`. -/
def sdtSignature (m : Mem) (header : Addr) : Bytes := m.bytes header 4

/-- `header->length`. -/
def sdtLength (m : Mem) (header : Addr) : BitVec 32 := m.read32 (header + 4)

/-- `_ptr->rsdt_address`. -/
def rsdt_address (m : Mem) (ptr : Addr) : BitVec 32 := m.read32 (ptr + 16)

/-- `_ptr->xsdt_address`. -/
def xsdt_address (m : Mem) (ptr : Addr) : BitVec 64 := m.read64 (ptr + 24)

/-- `sdt_addresses[index]` of the RSDT, as a pointer. -/
def rsdtSlot (m : Mem) (header : Addr) (index : BitVec 32) : Addr :=
  m.read32 (header + sizeof_acpi_sdt_header + 4 * index)

/-- `sdt_addresses[index]` of the XSDT, as a pointer: the cast drops the upper half. -/
def xsdtSlot (m : Mem) (header : Addr) (index : BitVec 32) : Addr :=
  (m.read64 (header + sizeof_acpi_sdt_header + 8 * index)).setWidth 32

/-! ## The search -/

/-- A round of the loops of `findEntry`. -/
def slotStep (m : Mem) (slot : BitVec 32 → Addr) (numEntries : BitVec 32) (name : Bytes)
    (index : BitVec 32) : LoopStep (BitVec 32) (Exec Addr) :=
  if index < numEntries then
    match memcmp (sdtSignature m (slot index)) name 4 with
    | .error e => .done (.error e)
    | .ok c => if c = 0 then .done (.ok (slot index)) else .next (index + 1)
  else .done (.ok 0)

/-- The loop over the XSDT. -/
def xsdtStep (m : Mem) (header : Addr) : Bytes → BitVec 32 → LoopStep (BitVec 32) (Exec Addr) :=
  slotStep m (xsdtSlot m header) ((sdtLength m header - sizeof_acpi_sdt_header) / 8)

/-- The loop over the RSDT. -/
def rsdtStep (m : Mem) (header : Addr) : Bytes → BitVec 32 → LoopStep (BitVec 32) (Exec Addr) :=
  slotStep m (rsdtSlot m header) ((sdtLength m header - sizeof_acpi_sdt_header) / 4)

/-- The condition of `findEntry` for the XSDT. -/
def UsesXsdt (m : Mem) (this : AcpiHeader) : Prop :=
  this.type2 = true ∧ xsdt_address m this.ptr ≠ 0

instance (m : Mem) (this : AcpiHeader) : Decidable (UsesXsdt m this) :=
  inferInstanceAs (Decidable (_ ∧ _))

/-- The loop that `findEntry` executes. -/
def findEntryStep (m : Mem) (this : AcpiHeader) (name : Bytes) :
    BitVec 32 → LoopStep (BitVec 32) (Exec Addr) :=
  if UsesXsdt m this then xsdtStep m ((xsdt_address m this.ptr).setWidth 32) name
  else rsdtStep m (rsdt_address m this.ptr) name

/-- `findEntry(name)`, with a bound on the number of rounds. -/
def findEntry (fuel : ℕ) (m : Mem) (this : AcpiHeader) (name : Bytes) : Option (Exec Addr) :=
  match strlen name with
  | .error e => some (.error e)
  | .ok len =>
    if len ≠ 4 then
      some (.error (.earlyPanic
        "In kernel::acpi::apicHeader::findEntry(): Error: Input string has invalid size"))
    else Loop.run (findEntryStep m this name) fuel 0

/-! ## The root table -/

/-- Where the root table is. -/
def rootHeader (m : Mem) (this : AcpiHeader) : Addr :=
  if UsesXsdt m this then (xsdt_address m this.ptr).setWidth 32 else rsdt_address m this.ptr

/-- The number of bytes of its slots. -/
def slotSize (m : Mem) (this : AcpiHeader) : ℕ := if UsesXsdt m this then 8 else 4

/-- The number of slots that `findEntry` computes. -/
def numEntries (m : Mem) (this : AcpiHeader) : BitVec 32 :=
  (sdtLength m (rootHeader m this) - sizeof_acpi_sdt_header) / BitVec.ofNat 32 (slotSize m this)

/-- The pointer in a slot of the root table. -/
def rootSlot (m : Mem) (this : AcpiHeader) : BitVec 32 → Addr :=
  if UsesXsdt m this then xsdtSlot m (rootHeader m this) else rsdtSlot m (rootHeader m this)

/-- The slots that it reads. -/
def visitedSlots (fuel : ℕ) (m : Mem) (this : AcpiHeader) (name : Bytes) : List (BitVec 32) :=
  if strlen name = .ok 4 then
    (Loop.states (findEntryStep m this name) fuel 0).filter (· < numEntries m this)
  else []

/-- An RSDT with `n` slots, for the tables at these addresses. -/
structure IsRsdt (m : Mem) (header : Addr) (n : ℕ) (table : ℕ → Addr) : Prop where
  length : (sdtLength m header).toNat = 36 + 4 * n
  slot : ∀ i < n, m.read32 (header + addr (36 + 4 * i)) = table i

/-- An XSDT with `n` slots, for the tables at these addresses, which are below `2 ^ 32`. -/
structure IsXsdt (m : Mem) (header : Addr) (n : ℕ) (table : ℕ → Addr) : Prop where
  length : (sdtLength m header).toNat = 36 + 8 * n
  slot : ∀ i < n, m.read64 (header + addr (36 + 8 * i)) = (table i).setWidth 64

/-- The address of the first table with the signature, or null if there is none. -/
def FirstMatch (m : Mem) (signature : Bytes) (n : ℕ) (table : ℕ → Addr) (result : Addr) : Prop :=
  (∃ i < n, sdtSignature m (table i) = signature ∧ result = table i ∧
    ∀ j < i, sdtSignature m (table j) ≠ signature) ∨
  ((∀ i < n, sdtSignature m (table i) ≠ signature) ∧ result = 0)

/-- The search ends, and it has read slots only that are between the header of the root table and
its end. -/
structure StaysInside (m : Mem) (this : AcpiHeader) (name : Bytes) : Prop where
  returns : ∃ fuel r, findEntry fuel m this name = some r
  inside : ∀ fuel, ∀ index ∈ visitedSlots fuel m this name,
    36 + slotSize m this * (index.toNat + 1) ≤ (sdtLength m (rootHeader m this)).toNat

variable {m : Mem} {this : AcpiHeader} {slot : BitVec 32 → Addr} {name signature : Bytes}
  {table : ℕ → Addr} {index entries : BitVec 32} {n : ℕ}

theorem length_sdtSignature (m : Mem) (header : Addr) : (sdtSignature m header).length = 4 :=
  Mem.length_bytes m header 4

/-! ## The rounds of the loop -/

/-- The loop of `findEntry` in terms of the root table. -/
theorem findEntryStep_eq (m : Mem) (this : AcpiHeader) (name : Bytes) :
    findEntryStep m this name = slotStep m (rootSlot m this) (numEntries m this) name := by
  rw [findEntryStep, rootSlot, numEntries, rootHeader, slotSize]
  split <;> rfl

theorem slotStep_of_end (h : ¬ index < entries) :
    slotStep m slot entries name index = .done (.ok 0) := by
  rw [slotStep, if_neg h]

theorem slotStep_of_lt (h : index < entries) (hname : 4 ≤ name.length) :
    slotStep m slot entries name index =
      if sdtSignature m (slot index) = name.take 4 then .done (.ok (slot index))
      else .next (index + 1) := by
  have hlen := length_sdtSignature m (slot index)
  obtain ⟨c, hc, hiff⟩ := memcmp_spec (Nat.le_of_eq hlen.symm) hname
  rw [List.take_of_length_le (Nat.le_of_eq hlen)] at hiff
  rw [slotStep, if_pos h, hc]
  simp only [hiff]

/-- The loop goes along the slots with other signatures. -/
theorem slot_path (hname : 4 ≤ name.length) (hn : n ≤ entries.toNat)
    (hother : ∀ i < n, sdtSignature m (slot (BitVec.ofNat 32 i)) ≠ name.take 4) : ∀ i < n,
    slotStep m slot entries name (BitVec.ofNat 32 i) = .next (BitVec.ofNat 32 (i + 1)) := by
  intro i hi
  have hlt : BitVec.ofNat 32 i < entries := by bv_omega
  rw [slotStep_of_lt hlt hname, if_neg (hother i hi), BitVec.ofNat_add]
  rfl

/-- The loop that is left at slot `n`. -/
theorem run_of_slot_path {r : Exec Addr} (hname : 4 ≤ name.length) (hn : n ≤ entries.toNat)
    (hother : ∀ i < n, sdtSignature m (slot (BitVec.ofNat 32 i)) ≠ name.take 4)
    (hdone : slotStep m slot entries name (BitVec.ofNat 32 n) = .done r) {fuel : ℕ}
    (hfuel : entries.toNat < fuel) : Loop.run (slotStep m slot entries name) fuel 0 = some r := by
  obtain ⟨k, rfl⟩ := Nat.exists_eq_add_of_lt (Nat.lt_of_le_of_lt hn hfuel)
  rw [Nat.add_assoc]
  refine (Loop.run_of_path (slot_path hname hn hother) (k + 1)).trans ?_
  exact Loop.run_succ_of_done hdone k

/-- **What the loop finds**: the first slot with the signature, or null behind the last one. -/
theorem slotStep_run (m : Mem) (slot : BitVec 32 → Addr) (hname : 4 ≤ name.length) :
    ∃ r, FirstMatch m (name.take 4) entries.toNat (fun i ↦ slot (BitVec.ofNat 32 i)) r ∧
      ∀ fuel, entries.toNat < fuel →
        Loop.run (slotStep m slot entries name) fuel 0 = some (.ok r) := by
  by_cases hex : ∃ i < entries.toNat, sdtSignature m (slot (BitVec.ofNat 32 i)) = name.take 4
  · classical
    have hfind := Nat.find_spec hex
    have hmin := fun j hj ↦ Nat.find_min hex (m := j) hj
    generalize Nat.find hex = i at hfind hmin
    obtain ⟨hi, hmatch⟩ := hfind
    have hother : ∀ j < i, sdtSignature m (slot (BitVec.ofNat 32 j)) ≠ name.take 4 :=
      fun j hj h ↦ hmin j hj ⟨hj.trans hi, h⟩
    have hlt : BitVec.ofNat 32 i < entries := by bv_omega
    refine ⟨_, .inl ⟨i, hi, hmatch, rfl, hother⟩, fun fuel hfuel ↦ ?_⟩
    refine run_of_slot_path hname (Nat.le_of_lt hi) hother ?_ hfuel
    rw [slotStep_of_lt hlt hname, if_pos hmatch]
  · have hother : ∀ j < entries.toNat, sdtSignature m (slot (BitVec.ofNat 32 j)) ≠ name.take 4 :=
      fun j hj h ↦ hex ⟨j, hj, h⟩
    have hend : ¬ BitVec.ofNat 32 entries.toNat < entries := by bv_omega
    exact ⟨0, .inr ⟨hother, rfl⟩, fun fuel hfuel ↦
      run_of_slot_path hname (Nat.le_refl _) hother (slotStep_of_end hend) hfuel⟩

/-! ## The number of slots -/

theorem toNat_slotSize (m : Mem) (this : AcpiHeader) :
    (BitVec.ofNat 32 (slotSize m this)).toNat = slotSize m this := by
  rw [slotSize]
  split <;> rfl

/-- On a table with its whole header, as many slots as fit. -/
theorem toNat_numEntries (h : 36 ≤ (sdtLength m (rootHeader m this)).toNat) :
    (numEntries m this).toNat =
      ((sdtLength m (rootHeader m this)).toNat - 36) / slotSize m this := by
  have hsub : (sdtLength m (rootHeader m this) - sizeof_acpi_sdt_header).toNat =
      (sdtLength m (rootHeader m this)).toNat - 36 := by
    rw [sizeof_acpi_sdt_header]
    bv_omega
  rw [numEntries, BitVec.toNat_udiv, toNat_slotSize, hsub]

/-- The difference wraps on a shorter table, so that there seem to be slots. -/
theorem numEntries_pos_of_lt (h : (sdtLength m (rootHeader m this)).toNat < 36) :
    0 < (numEntries m this).toNat := by
  have hsub : 2 ^ 32 - 36 ≤ (sdtLength m (rootHeader m this) - sizeof_acpi_sdt_header).toNat := by
    rw [sizeof_acpi_sdt_header]
    bv_omega
  have hsize : slotSize m this = 8 ∨ slotSize m this = 4 := by
    rw [slotSize]
    split
    · exact .inl rfl
    · exact .inr rfl
  rw [numEntries, BitVec.toNat_udiv, toNat_slotSize]
  exact Nat.div_pos (by omega) (by omega)

/-- A name of the right length is looked for. -/
theorem findEntry_eq_run (hname : strlen name = .ok 4) (fuel : ℕ) :
    findEntry fuel m this name = Loop.run (findEntryStep m this name) fuel 0 := by
  rw [findEntry, hname]
  exact if_neg (not_not.mpr rfl)

/-- The search ends on every root table. -/
theorem findEntry_run (m : Mem) (this : AcpiHeader) (hname : strlen name = .ok 4) :
    ∃ r, FirstMatch m (name.take 4) (numEntries m this).toNat
        (fun i ↦ rootSlot m this (BitVec.ofNat 32 i)) r ∧
      ∀ fuel, (numEntries m this).toNat < fuel → findEntry fuel m this name = some (.ok r) := by
  obtain ⟨r, hmatch, hrun⟩ :=
    slotStep_run m (rootSlot m this) (Nat.le_of_lt (length_of_strlen hname))
  refine ⟨r, hmatch, fun fuel hfuel ↦ ?_⟩
  rw [findEntry_eq_run hname, findEntryStep_eq, hrun fuel hfuel]

/-! ## Where it looks -/

theorem staysInside_of_le (h : 36 ≤ (sdtLength m (rootHeader m this)).toNat)
    (hname : strlen name = .ok 4) : StaysInside m this name where
  returns := by
    obtain ⟨r, -, hrun⟩ := findEntry_run m this hname
    exact ⟨(numEntries m this).toNat + 1, .ok r, hrun _ (Nat.lt_succ_self _)⟩
  inside fuel index hindex := by
    rw [visitedSlots, if_pos hname, List.mem_filter] at hindex
    have hlt : index.toNat < (numEntries m this).toNat := of_decide_eq_true hindex.2
    rw [toNat_numEntries h] at hlt
    have hmul : (index.toNat + 1) * slotSize m this ≤
        (sdtLength m (rootHeader m this)).toNat - 36 := Nat.mul_le_of_le_div _ _ _ hlt
    rw [Nat.mul_comm] at hmul
    omega

theorem staysInside_of_strlen (hname : strlen name ≠ .ok 4) : StaysInside m this name where
  returns := by
    cases hlen : strlen name with
    | error e => exact ⟨0, .error e, by rw [findEntry, hlen]⟩
    | ok len =>
      have hne : len ≠ 4 := fun h ↦ hname (hlen.trans (congrArg Except.ok h))
      exact ⟨0, _, by rw [findEntry, hlen]; exact if_pos hne⟩
  inside fuel index hindex := by
    rw [visitedSlots, if_neg hname] at hindex
    exact absurd hindex List.not_mem_nil

/-- On a table that is shorter than its header, the first slot is read. -/
theorem not_staysInside_of_lt (h : (sdtLength m (rootHeader m this)).toNat < 36)
    (hname : strlen name = .ok 4) : ¬ StaysInside m this name := by
  intro hinside
  have hvisited : 0 ∈ visitedSlots 1 m this name := by
    rw [visitedSlots, if_pos hname, List.mem_filter]
    exact ⟨by rw [Loop.states]; exact List.mem_cons_self,
      decide_eq_true (numEntries_pos_of_lt h)⟩
  have hend := hinside.inside 1 0 hvisited
  omega

/-- **When the lookup stays in the root table.**  For every memory, descriptor and name: the search
ends, and reads only slots between the header of the root table and its end, exactly if the table is
at least as long as its header; or the name has another length than 4, and nothing is read. -/
theorem findEntry_inside_iff (m : Mem) (this : AcpiHeader) (name : Bytes) :
    StaysInside m this name ↔
      (strlen name = .ok 4 → 36 ≤ (sdtLength m (rootHeader m this)).toNat) := by
  by_cases hname : strlen name = .ok 4
  · constructor
    · intro hinside _
      by_contra hlt
      exact not_staysInside_of_lt (Nat.lt_of_not_le hlt) hname hinside
    · exact fun h ↦ staysInside_of_le (h hname) hname
  · exact iff_of_true (staysInside_of_strlen hname) fun h ↦ absurd h hname

/-- **A root table of length 0**: the first slot behind it is read. -/
theorem findEntry_leaves : ¬ StaysInside (Mem.write32 (fun _ ↦ 0) 0x1010 0x2000) ⟨0x1000, false⟩
    [0x41, 0x50, 0x49, 0x43, 0] :=
  not_staysInside_of_lt (by decide) (by decide)

/-! ## What it finds -/

theorem FirstMatch.congr {table' : ℕ → Addr} {r : Addr} (h : ∀ i < n, table i = table' i)
    (hmatch : FirstMatch m signature n table r) : FirstMatch m signature n table' r := by
  obtain ⟨i, hi, hsig, rfl, hfirst⟩ | ⟨hnone, rfl⟩ := hmatch
  · rw [h i hi] at hsig
    refine .inl ⟨i, hi, hsig, h i hi, fun j hj ↦ ?_⟩
    rw [← h j (hj.trans hi)]
    exact hfirst j hj
  · refine .inr ⟨fun i hi ↦ ?_, rfl⟩
    rw [← h i hi]
    exact hnone i hi

/-- There is only one first match. -/
theorem FirstMatch.unique {r r' : Addr} (h : FirstMatch m signature n table r)
    (h' : FirstMatch m signature n table r') : r = r' := by
  obtain ⟨i, hi, hsig, rfl, hfirst⟩ | ⟨hnone, rfl⟩ := h
  · obtain ⟨j, hj, hsig', rfl, hfirst'⟩ | ⟨hnone', -⟩ := h'
    · rcases Nat.lt_trichotomy i j with hlt | rfl | hgt
      · exact absurd hsig (hfirst' i hlt)
      · rfl
      · exact absurd hsig' (hfirst j hgt)
    · exact absurd hsig (hnone' i hi)
  · obtain ⟨j, hj, hsig', -⟩ | ⟨-, rfl⟩ := h'
    · exact absurd hsig' (hnone j hj)
    · rfl

theorem slot_offset (header : Addr) (w i : ℕ) :
    header + sizeof_acpi_sdt_header + BitVec.ofNat 32 w * BitVec.ofNat 32 i =
      header + addr (36 + w * i) := by
  rw [sizeof_acpi_sdt_header, BitVec.add_assoc, ← BitVec.ofNat_mul]
  exact congrArg (header + ·) (BitVec.ofNat_add 36 (w * i)).symm

theorem IsXsdt.slots (h : IsXsdt m (rootHeader m this) n table) (huses : UsesXsdt m this) :
    (numEntries m this).toNat = n ∧ ∀ i < n, rootSlot m this (BitVec.ofNat 32 i) = table i := by
  have hlength := h.length
  refine ⟨?_, fun i hi ↦ ?_⟩
  · rw [toNat_numEntries (by omega), slotSize, if_pos huses]
    omega
  · have hslot := h.slot i hi
    rw [← slot_offset] at hslot
    rw [rootSlot, if_pos huses, xsdtSlot, show (8 : BitVec 32) = BitVec.ofNat 32 8 from rfl, hslot]
    exact BitVec.setWidth_setWidth_of_le _ (by decide)

theorem IsRsdt.slots (h : IsRsdt m (rootHeader m this) n table) (huses : ¬ UsesXsdt m this) :
    (numEntries m this).toNat = n ∧ ∀ i < n, rootSlot m this (BitVec.ofNat 32 i) = table i := by
  have hlength := h.length
  refine ⟨?_, fun i hi ↦ ?_⟩
  · rw [toNat_numEntries (by omega), slotSize, if_neg huses]
    omega
  · have hslot := h.slot i hi
    rw [← slot_offset] at hslot
    rw [rootSlot, if_neg huses, rsdtSlot, show (4 : BitVec 32) = BitVec.ofNat 32 4 from rfl, hslot]

/-- The lookup on a root table with these slots. -/
theorem findEntry_of_slots (hname : strlen name = .ok 4) (hslots : (numEntries m this).toNat = n ∧
      ∀ i < n, rootSlot m this (BitVec.ofNat 32 i) = table i) :
    ∃ r, FirstMatch m (name.take 4) n table r ∧
      ∀ fuel, n < fuel → findEntry fuel m this name = some (.ok r) := by
  obtain ⟨rfl, hslots⟩ := hslots
  obtain ⟨r, hmatch, hrun⟩ := findEntry_run m this hname
  exact ⟨r, hmatch.congr hslots, hrun⟩

/-- **The lookup is first match, on both paths.**  For every memory, name of four characters and
root table whose length is that of its slots: the first table with the name as its signature is
found, or null if there is none; and an XSDT and an RSDT that list the same tables give the same
result. -/
theorem findEntry_first_match (m : Mem) {name : Bytes} (rest : Bytes) (hlen : name.length = 4)
    (hname : 0 ∉ name) :
    (∀ this n table, UsesXsdt m this → IsXsdt m (rootHeader m this) n table →
      ∃ r, FirstMatch m name n table r ∧
        ∀ fuel, n < fuel → findEntry fuel m this (name ++ 0 :: rest) = some (.ok r)) ∧
    (∀ this n table, ¬ UsesXsdt m this → IsRsdt m (rootHeader m this) n table →
      ∃ r, FirstMatch m name n table r ∧
        ∀ fuel, n < fuel → findEntry fuel m this (name ++ 0 :: rest) = some (.ok r)) ∧
    ∀ this this' n table, UsesXsdt m this → IsXsdt m (rootHeader m this) n table →
      ¬ UsesXsdt m this' → IsRsdt m (rootHeader m this') n table →
      ∀ fuel, n < fuel →
        findEntry fuel m this (name ++ 0 :: rest) = findEntry fuel m this' (name ++ 0 :: rest) := by
  have hstrlen : strlen (name ++ 0 :: rest) = .ok 4 := by rw [strlen_append hname, hlen]
  have htake : (name ++ 0 :: rest).take 4 = name := List.take_left' hlen
  refine ⟨fun this n table huses h ↦ ?_, fun this n table huses h ↦ ?_,
    fun this this' n table huses h huses' h' fuel hfuel ↦ ?_⟩
  · obtain ⟨r, hmatch, hrun⟩ := findEntry_of_slots hstrlen (h.slots huses)
    exact ⟨r, htake ▸ hmatch, hrun⟩
  · obtain ⟨r, hmatch, hrun⟩ := findEntry_of_slots hstrlen (h.slots huses)
    exact ⟨r, htake ▸ hmatch, hrun⟩
  · obtain ⟨r, hmatch, hrun⟩ := findEntry_of_slots hstrlen (h.slots huses)
    obtain ⟨r', hmatch', hrun'⟩ := findEntry_of_slots hstrlen (h'.slots huses')
    rw [hrun fuel hfuel, hrun' fuel hfuel, hmatch.unique hmatch']

/-- The tables that both root tables list: one with another signature, and two MADTs. -/
def listedTables (i : ℕ) : Addr := [0x5000, 0x4000, 0x6000].getD i 0

/-- A descriptor at `0x1000` with an XSDT and an RSDT that list these tables. -/
def rootTablesMem : Mem :=
  let root := (Mem.write32 (fun _ ↦ 0) 0x1010 0x3000).write64 0x1018 0x2000
  let xsdt := (((root.write32 0x2004 60).write64 0x2024 0x5000).write64 0x202c 0x4000).write64
    0x2034 0x6000
  let rsdt := (((xsdt.write32 0x3004 48).write32 0x3024 0x5000).write32 0x3028 0x4000).write32
    0x302c 0x6000
  ((rsdt.write32 0x5000 0x50434146).write32 0x4000 0x43495041).write32 0x6000 0x43495041

/-- The MADT in the lower slot is found, through either root table. -/
theorem findEntry_first_match_apic :
    findEntry 4 rootTablesMem ⟨0x1000, true⟩ [0x41, 0x50, 0x49, 0x43, 0] = some (.ok 0x4000) ∧
      findEntry 4 rootTablesMem ⟨0x1000, false⟩ [0x41, 0x50, 0x49, 0x43, 0] =
        some (.ok 0x4000) := by
  have huses : UsesXsdt rootTablesMem ⟨0x1000, true⟩ := by decide +kernel
  have huses' : ¬ UsesXsdt rootTablesMem ⟨0x1000, false⟩ := by decide +kernel
  have hxsdt : IsXsdt rootTablesMem (rootHeader rootTablesMem ⟨0x1000, true⟩) 3 listedTables :=
    ⟨by decide +kernel, by decide +kernel⟩
  have hrsdt : IsRsdt rootTablesMem (rootHeader rootTablesMem ⟨0x1000, false⟩) 3 listedTables :=
    ⟨by decide +kernel, by decide +kernel⟩
  have hfirst : FirstMatch rootTablesMem [0x41, 0x50, 0x49, 0x43] 3 listedTables 0x4000 :=
    .inl ⟨1, by decide, by decide +kernel, rfl, by decide +kernel⟩
  have hlen : [(0x41 : Byte), 0x50, 0x49, 0x43].length = 4 := rfl
  obtain ⟨hx, -, hsame⟩ := findEntry_first_match rootTablesMem [] hlen (by decide)
  obtain ⟨r, hmatch, hrun⟩ := hx _ _ _ huses hxsdt
  rw [hmatch.unique hfirst] at hrun
  have hfound := hrun 4 (by decide)
  have heq := hsame _ _ _ _ huses hxsdt huses' hrsdt 4 (by decide)
  exact ⟨hfound, heq ▸ hfound⟩

end RainbowOS.Acpi
