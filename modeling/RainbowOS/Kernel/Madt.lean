import RainbowOS.Kernel.AcpiTables

/-!
# Walking over the MADT: `acpi_madt::getEntry`

Behind the fixed part of the table lie records, each with its type and its length in its first two
bytes.  `getEntry(1)` goes from one to the next by their lengths and returns the first one of type
1.  It looks whether a record begins inside the table, not whether it ends there, and takes every
length as it is.

`madtExact_iff` says for which tables the walk ends, stays in the table and finds the right record.
A null pointer is `none` in this file.
-/

set_option autoImplicit false

namespace RainbowOS.Acpi

/-! ## The walk -/

/-- `sizeof(madt_table)`. -/
def sizeof_madt_table : ℕ := 44

/-- `sizeof(madt_entry_type1)`. -/
def sizeof_madt_entry_type1 : ℕ := 12

/-- `curr->entry_type`. -/
def entry_type (m : Mem) (curr : Addr) : Byte := m curr

/-- `curr->record_length`. -/
def record_length (m : Mem) (curr : Addr) : Byte := m (curr + 1)

/-- `limit`. -/
def madtLimit (m : Mem) (ptr : Addr) : Addr := ptr + sdtLength m ptr

/-- A round of the loop of `getEntry`. -/
def getEntryStep (m : Mem) (limit walker : Addr) : LoopStep Addr (Option Addr) :=
  if walker < limit then
    if entry_type m walker = 1 then .done (some walker)
    else .next (walker + (record_length m walker).setWidth 32)
  else .done none

/-- `getEntry(type)` for the table at `ptr`, with a bound on the number of rounds. -/
def getEntry (fuel : ℕ) (m : Mem) (ptr : Addr) (type : ℤ) : Option (Option Addr) :=
  if type ≠ 1 then some none
  else Loop.run (getEntryStep m (madtLimit m ptr)) fuel (ptr + addr sizeof_madt_table)

/-- `acpi_madt::acpi_madt(acpiPtr)`: the member `_ptr`. -/
def acpi_madt (fuel : ℕ) (m : Mem) (acpiPtr : AcpiHeader) : Option (Exec Addr) :=
  (findEntry fuel m acpiPtr [0x41, 0x50, 0x49, 0x43, 0]).map fun found ↦ do
    let foundPtr ← found
    if foundPtr = 0 then
      .error (.earlyPanic "In kernel::acpi::acpiMadt constructor: Error: No MADT was found")
    else return foundPtr

/-- `io_apic::io_apic(ptr)`: the member `_ptr`. -/
def io_apic (fuel : ℕ) (m : Mem) (ptr : Addr) : Option (Exec Addr) :=
  (getEntry fuel m ptr 1).map fun entry ↦
    match entry with
    | none => .error (.earlyPanic
        "In kernel::cpu::io_apic constructor: Error: Couldn't find a MADT type 1 entry!")
    | some entry => .ok entry

/-- The bytes that a round reads. -/
def entryReads (m : Mem) (limit walker : Addr) : List Addr :=
  if walker < limit then if entry_type m walker = 1 then [walker] else [walker, walker + 1] else []

/-- The bytes that `getEntry(1)` reads: the length of the table, and those of the rounds. -/
def madtReads (fuel : ℕ) (m : Mem) (ptr : Addr) : List Addr :=
  (List.range 4).map (fun i ↦ ptr + addr (4 + i)) ++
    (Loop.states (getEntryStep m (madtLimit m ptr)) fuel (ptr + addr sizeof_madt_table)).flatMap
      (entryReads m (madtLimit m ptr))

/-! ## The records -/

/-- Where record number `i` begins in the table: the lengths before it, added up. -/
def recordOffset (m : Mem) (ptr : Addr) : ℕ → ℕ
  | 0 => sizeof_madt_table
  | i + 1 =>
    recordOffset m ptr i + (record_length m (ptr + addr (recordOffset m ptr i))).toNat

/-- The address of record number `i`. -/
def recordAddr (m : Mem) (ptr : Addr) (i : ℕ) : Addr := ptr + addr (recordOffset m ptr i)

/-- Record number `i` is of type 1 and lies wholly inside the table. -/
def WholeType1 (m : Mem) (ptr : Addr) (i : ℕ) : Prop :=
  entry_type m (recordAddr m ptr i) = 1 ∧
    recordOffset m ptr i + sizeof_madt_entry_type1 ≤ (sdtLength m ptr).toNat

/-- The bytes of the table: its fixed part, and those that it says it has. -/
def InMadt (m : Mem) (ptr a : Addr) : Prop :=
  (a - ptr).toNat < max sizeof_madt_table (sdtLength m ptr).toNat

/-- What `getEntry(1)` is to return. -/
def Expected (m : Mem) (ptr : Addr) : Option Addr → Prop
  | some a => ∃ i, WholeType1 m ptr i ∧ (∀ j < i, ¬ WholeType1 m ptr j) ∧ a = recordAddr m ptr i
  | none => ∀ i, ¬ WholeType1 m ptr i

/-- The walk ends with what it is to find, and reads only bytes of the table. -/
structure MadtExact (m : Mem) (ptr : Addr) : Prop where
  result : ∃ fuel r, getEntry fuel m ptr 1 = some r ∧ Expected m ptr r
  reads : ∀ fuel, ∀ a ∈ madtReads fuel m ptr, InMadt m ptr a

/-- Record number `i` is passed: it is of another type, begins before the limit, and its type and
its length are in the table. -/
structure Passed (m : Mem) (ptr : Addr) (i : ℕ) : Prop where
  lt : recordAddr m ptr i < madtLimit m ptr
  other : entry_type m (recordAddr m ptr i) ≠ 1
  type_in : InMadt m ptr (recordAddr m ptr i)
  length_in : InMadt m ptr (recordAddr m ptr i + 1)

variable {m : Mem} {ptr limit walker : Addr} {i j k : ℕ}

theorem recordAddr_succ (m : Mem) (ptr : Addr) (i : ℕ) : recordAddr m ptr (i + 1) =
    recordAddr m ptr i + (record_length m (recordAddr m ptr i)).setWidth 32 := by
  rw [recordAddr, recordOffset, addr, BitVec.ofNat_add, ← BitVec.add_assoc, BitVec.ofNat_toNat]
  rfl

theorem recordOffset_mono (m : Mem) (ptr : Addr) (h : i ≤ j) :
    recordOffset m ptr i ≤ recordOffset m ptr j := by
  induction h with
  | refl => exact Nat.le_refl _
  | step _ ih => exact ih.trans (Nat.le_add_right _ _)

/-- Records whose offsets fit in an address are at the same place only if their offsets agree. -/
theorem recordOffset_inj (hi : recordOffset m ptr i < 2 ^ 32) (hj : recordOffset m ptr j < 2 ^ 32)
    (h : recordAddr m ptr i = recordAddr m ptr j) :
    recordOffset m ptr i = recordOffset m ptr j := by
  rw [recordAddr, recordAddr] at h
  bv_omega

/-! ## The rounds of the loop -/

theorem getEntryStep_of_end (h : ¬ walker < limit) : getEntryStep m limit walker = .done none := by
  rw [getEntryStep, if_neg h]

theorem getEntryStep_of_type1 (h : walker < limit) (htype : entry_type m walker = 1) :
    getEntryStep m limit walker = .done (some walker) := by
  rw [getEntryStep, if_pos h, if_pos htype]

theorem getEntryStep_of_other (h : walker < limit) (htype : entry_type m walker ≠ 1) :
    getEntryStep m limit walker = .next (walker + (record_length m walker).setWidth 32) := by
  rw [getEntryStep, if_pos h, if_neg htype]

/-- A round goes on at a record of another type. -/
theorem of_getEntryStep_next {walker' : Addr} (h : getEntryStep m limit walker = .next walker') :
    walker < limit ∧ entry_type m walker ≠ 1 ∧
      walker' = walker + (record_length m walker).setWidth 32 := by
  by_cases hlt : walker < limit
  · by_cases htype : entry_type m walker = 1
    · rw [getEntryStep_of_type1 hlt htype] at h
      cases h
    · rw [getEntryStep_of_other hlt htype] at h
      exact ⟨hlt, htype, (LoopStep.next.inj h).symm⟩
  · rw [getEntryStep_of_end hlt] at h
    cases h

/-- The loop is left at a record of type 1, or at the limit. -/
theorem of_getEntryStep_done {r : Option Addr} (h : getEntryStep m limit walker = .done r) :
    walker < limit ∧ entry_type m walker = 1 ∧ r = some walker ∨ ¬ walker < limit ∧ r = none := by
  by_cases hlt : walker < limit
  · by_cases htype : entry_type m walker = 1
    · rw [getEntryStep_of_type1 hlt htype] at h
      exact .inl ⟨hlt, htype, (LoopStep.done.inj h).symm⟩
    · rw [getEntryStep_of_other hlt htype] at h
      cases h
  · rw [getEntryStep_of_end hlt] at h
    exact .inr ⟨hlt, (LoopStep.done.inj h).symm⟩

/-- The loop goes along the records that are passed. -/
theorem record_path (hk : ∀ i < k, recordAddr m ptr i < madtLimit m ptr ∧
      entry_type m (recordAddr m ptr i) ≠ 1) : ∀ i < k,
    getEntryStep m (madtLimit m ptr) (recordAddr m ptr i) = .next (recordAddr m ptr (i + 1)) := by
  intro i hi
  rw [getEntryStep_of_other (hk i hi).1 (hk i hi).2, recordAddr_succ]

/-- A path of the loop is the walk over the records. -/
theorem path_eq_record {f : ℕ → Addr} (hstart : f 0 = ptr + addr sizeof_madt_table)
    (hpath : ∀ i < k, getEntryStep m (madtLimit m ptr) (f i) = .next (f (i + 1))) :
    ∀ i ≤ k, f i = recordAddr m ptr i := by
  intro i hi
  induction i with
  | zero => exact hstart
  | succ i ih =>
    obtain ⟨-, -, hnext⟩ := of_getEntryStep_next (hpath i hi)
    rw [hnext, ih (Nat.le_of_succ_le hi), recordAddr_succ]

theorem getEntry_one (fuel : ℕ) (m : Mem) (ptr : Addr) : getEntry fuel m ptr 1 =
    Loop.run (getEntryStep m (madtLimit m ptr)) fuel (recordAddr m ptr 0) :=
  if_neg (not_not.mpr rfl)

/-! ## When the walk is right -/

theorem inMadt_of_whole (h : WholeType1 m ptr i) : InMadt m ptr (recordAddr m ptr i) := by
  have hwhole := h.2
  have hlt := (sdtLength m ptr).isLt
  rw [sizeof_madt_entry_type1] at hwhole
  rw [InMadt, recordAddr, add_ofNat_sub ptr (by omega)]
  omega

/-- The length of the table is in its fixed part. -/
theorem inMadt_length (hi : i < 4) : InMadt m ptr (ptr + addr (4 + i)) := by
  rw [InMadt, add_ofNat_sub ptr (by omega), sizeof_madt_table]
  omega

/-- What is left of the loop behind the records that are passed, and what is to be found there. -/
theorem expected_of_end (hpassed : ∀ i < k, Passed m ptr i)
    (hend : recordAddr m ptr k < madtLimit m ptr ∧ WholeType1 m ptr k ∨
      ¬ recordAddr m ptr k < madtLimit m ptr ∧ ∀ i, ¬ WholeType1 m ptr i) :
    ∃ r, getEntryStep m (madtLimit m ptr) (recordAddr m ptr k) = .done r ∧ Expected m ptr r ∧
      ∀ a ∈ entryReads m (madtLimit m ptr) (recordAddr m ptr k), InMadt m ptr a := by
  obtain ⟨hlt, hwhole⟩ | ⟨hge, hnone⟩ := hend
  · refine ⟨_, getEntryStep_of_type1 hlt hwhole.1, ⟨k, hwhole, fun j hj hj' ↦ ?_, rfl⟩, ?_⟩
    · exact (hpassed j hj).other hj'.1
    · rw [entryReads, if_pos hlt, if_pos hwhole.1]
      exact List.forall_mem_singleton.mpr (inMadt_of_whole hwhole)
  · refine ⟨_, getEntryStep_of_end hge, hnone, ?_⟩
    rw [entryReads, if_neg hge]
    exact fun a ha ↦ absurd ha List.not_mem_nil

theorem madtExact_of_passed (hpassed : ∀ i < k, Passed m ptr i)
    (hend : recordAddr m ptr k < madtLimit m ptr ∧ WholeType1 m ptr k ∨
      ¬ recordAddr m ptr k < madtLimit m ptr ∧ ∀ i, ¬ WholeType1 m ptr i) : MadtExact m ptr := by
  have hpath := record_path fun i hi ↦ ⟨(hpassed i hi).lt, (hpassed i hi).other⟩
  obtain ⟨r, hdone, hexpected, hreads⟩ := expected_of_end hpassed hend
  refine ⟨⟨k + 1, r, ?_, hexpected⟩, fun fuel a ha ↦ ?_⟩
  · rw [getEntry_one, Loop.run_of_path hpath, Loop.run_succ_of_done hdone]
  · -- the loop is only ever at the first `k + 1` records
    have hstates : ∀ w ∈ Loop.states (getEntryStep m (madtLimit m ptr)) fuel (recordAddr m ptr 0),
        ∃ i ≤ k, w = recordAddr m ptr i := by
      refine Loop.forall_states (fun w w' ⟨i, hi, hw⟩ hnext ↦ ?_) fuel ⟨0, Nat.zero_le k, rfl⟩
      obtain rfl | hlt := Nat.eq_or_lt_of_le hi
      · rw [hw, hdone] at hnext
        cases hnext
      · rw [hw, hpath i hlt] at hnext
        exact ⟨i + 1, hlt, (LoopStep.next.inj hnext).symm⟩
    rw [madtReads, List.mem_append] at ha
    obtain ha | ha := ha
    · obtain ⟨i, hi, rfl⟩ := List.mem_map.mp ha
      exact inMadt_length (List.mem_range.mp hi)
    · obtain ⟨w, hw, ha⟩ := List.mem_flatMap.mp ha
      obtain ⟨i, hi, rfl⟩ := hstates w hw
      obtain rfl | hlt := Nat.eq_or_lt_of_le hi
      · exact hreads a ha
      · have h := hpassed i hlt
        rw [entryReads, if_pos h.lt, if_neg h.other] at ha
        obtain rfl | ha := List.mem_cons.mp ha
        · exact h.type_in
        · rw [List.mem_singleton.mp ha]
          exact h.length_in

theorem passed_of_madtExact (h : MadtExact m ptr) :
    ∃ k, (∀ i < k, Passed m ptr i) ∧
      (recordAddr m ptr k < madtLimit m ptr ∧ WholeType1 m ptr k ∨
        ¬ recordAddr m ptr k < madtLimit m ptr ∧ ∀ i, ¬ WholeType1 m ptr i) := by
  obtain ⟨⟨fuel, r, hrun, hexpected⟩, hreads⟩ := h
  rw [getEntry_one] at hrun
  obtain ⟨f, k, hstart, hk, hpath, hdone⟩ := Loop.path_of_run hrun
  have hrecord := path_eq_record hstart hpath
  have hother : ∀ i < k, recordAddr m ptr i < madtLimit m ptr ∧
      entry_type m (recordAddr m ptr i) ≠ 1 := by
    intro i hi
    obtain ⟨hlt, htype, -⟩ := of_getEntryStep_next (hpath i hi)
    rw [hrecord i (Nat.le_of_lt hi)] at hlt htype
    exact ⟨hlt, htype⟩
  refine ⟨k, fun i hi ↦ ?_, ?_⟩
  · obtain ⟨hlt, htype⟩ := hother i hi
    have hmem : recordAddr m ptr i ∈
        Loop.states (getEntryStep m (madtLimit m ptr)) fuel (recordAddr m ptr 0) :=
      Loop.mem_states_of_path (record_path fun j hj ↦ hother j (hj.trans hi)) hrun
    have hin : ∀ a ∈ [recordAddr m ptr i, recordAddr m ptr i + 1], InMadt m ptr a := by
      intro a ha
      refine hreads fuel a (List.mem_append_right _ (List.mem_flatMap.mpr ⟨_, hmem, ?_⟩))
      rwa [entryReads, if_pos hlt, if_neg htype]
    exact ⟨hlt, htype, hin _ (by simp), hin _ (by simp)⟩
  · rw [hrecord k (Nat.le_refl k)] at hdone
    obtain ⟨hlt, htype, rfl⟩ | ⟨hge, rfl⟩ := of_getEntryStep_done hdone
    · obtain ⟨i, hwhole, -, haddr⟩ := hexpected
      -- the record that is expected is not among those passed, so its offset is that of this one
      have hki : k ≤ i := by
        by_contra hik
        exact (hother i (Nat.lt_of_not_le hik)).2 hwhole.1
      have hle := hwhole.2
      have hmono := recordOffset_mono m ptr hki
      have hlen := (sdtLength m ptr).isLt
      rw [sizeof_madt_entry_type1] at hle
      have hoffset := recordOffset_inj (by omega) (by omega) haddr
      exact .inl ⟨hlt, htype, hoffset ▸ hwhole.2⟩
    · exact .inr ⟨hge, hexpected⟩

/-- **When the walk over the MADT is right.**  For every content of the table: after some records of
other types, each of which has its type and its length in the table, the walk comes to a record of
type 1 that lies wholly inside the table, or it comes to the limit and the table has no such record.
(A record of length 0 in between is not passed, for the walk would not get away from it.) -/
theorem madtExact_iff (m : Mem) (ptr : Addr) : MadtExact m ptr ↔
    ∃ k, (∀ i < k, Passed m ptr i) ∧
      (recordAddr m ptr k < madtLimit m ptr ∧ WholeType1 m ptr k ∨
        ¬ recordAddr m ptr k < madtLimit m ptr ∧ ∀ i, ¬ WholeType1 m ptr i) :=
  ⟨passed_of_madtExact, fun ⟨_, hpassed, hend⟩ ↦ madtExact_of_passed hpassed hend⟩

/-- **A record of length 0**: the walk over a table of 52 bytes, all zeros behind its header, does
not end. -/
theorem madtExact_stuck : ¬ MadtExact (Mem.write32 (fun _ ↦ 0) 0x1004 52) 0x1000 := by
  intro h
  obtain ⟨⟨fuel, r, hrun, -⟩, -⟩ := h
  rw [getEntry_one] at hrun
  refine Loop.not_returns_of_fixed ?_ r ⟨fuel, hrun⟩
  exact getEntryStep_of_other (by decide) (by decide)

end RainbowOS.Acpi
