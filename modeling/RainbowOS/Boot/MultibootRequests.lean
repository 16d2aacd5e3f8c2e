import RainbowOS.Boot.Multiboot
import RainbowOS.EarlyLib.UpperMemory
import RainbowOS.Lib.Bits

/-!
# What becomes of the kernel's requests

The low 16 bits of the header's flags are requests that the loader must meet or refuse.  Bit 1 asks
for the sizes of memory, and the returned flags tell with bit 0 that they are there; bit 0 asks for
aligned modules.  `buildMultibootInfo` reads the two the other way round: it queries memory for bit
0, and gives the boot device for bit 1.

* `flags_buildMultibootInfo` — the returned flags, for every header.
* `honoursRequests_iff` — the requests are met or refused exactly if one is refused, or if the heap
  gave a block for the structure and memory is not asked for, or the modules are to be aligned.
-/

set_option autoImplicit false

namespace RainbowOS

open MultibootInfo Bits

namespace MultibootInfo

/-- `mem_lower`. -/
def mem_lower (m : Mem) (info : Addr) : BitVec 32 := field m info 4

/-- `mem_upper`. -/
def mem_upper (m : Mem) (info : Addr) : BitVec 32 := field m info 8

/-- `boot_device`. -/
def boot_device (m : Mem) (info : Addr) : BitVec 32 := field m info 12

end MultibootInfo

variable {m m' m₂ : Mem} {src : InfoSources} {headerFlags bootDevice : BitVec 32} {n : ℕ}

/-! ## The requests -/

/-- One of the bits 2 to 15 is set, for features that the loader does not have. -/
def AsksUnsupported (headerFlags : BitVec 32) : Prop :=
  ∃ i, 2 ≤ i ∧ i < 16 ∧ headerFlags.getLsbD i = true

theorem supported_iff : Supported headerFlags ↔ ¬ AsksUnsupported headerFlags := by
  have h4 : ∀ i, (4 : BitVec 32).getLsbD i = true ↔ i = 2 :=
    getLsbD_ofNat_iff (by decide) fun i hi ↦ by omega
  have hrest : ∀ i, (65528 : BitVec 32).getLsbD i = true ↔ 3 ≤ i ∧ i < 16 :=
    getLsbD_ofNat_iff (by decide) fun i hi ↦ by omega
  rw [Supported, ← not_iff_not, not_not, not_and_or, ← ne_eq, ← ne_eq, and_ne_zero_iff,
    and_ne_zero_iff]
  simp only [h4, hrest]
  constructor
  · rintro (⟨i, rfl, hbit⟩ | ⟨i, ⟨hlo, hhi⟩, hbit⟩)
    · exact ⟨2, Nat.le_refl 2, by decide, hbit⟩
    · exact ⟨i, Nat.le_of_succ_le hlo, hhi, hbit⟩
  · rintro ⟨i, hlo, hhi, hbit⟩
    rcases Nat.eq_or_lt_of_le hlo with rfl | hlo
    · exact .inl ⟨2, rfl, hbit⟩
    · exact .inr ⟨i, ⟨hlo, hhi⟩, hbit⟩

theorem and_two_ne_zero_iff : headerFlags &&& 2 ≠ 0 ↔ headerFlags.getLsbD 1 = true :=
  and_bit_ne_zero_iff (getLsbD_ofNat_iff (by decide) fun i hi ↦ by omega)

/-! ## What is written -/

/-- The members that are written with the memory map, apart from the flags. -/
theorem field_announceMap_of_lt (m : Mem) (src : InfoSources) (n : ℕ) {j : ℕ} (h : 4 ≤ j)
    (hj : j + 4 ≤ 8) : field (announceMap m src n) src.returnStruct j
      = field m src.returnStruct j := by
  rw [announceMap]
  simp (disch := omega) only [field_setField_of_ne]

theorem mem_upper_announceMap (m : Mem) (src : InfoSources) (n : ℕ) :
    mem_upper (announceMap m src n) src.returnStruct = getUpperMemorySize m src.mmapPtr n := by
  rw [announceMap, mem_upper]
  simp (disch := omega) only [field_setField_of_ne, field_setField_self]

theorem mmap_addr_announceMap (m : Mem) (src : InfoSources) (n : ℕ) :
    mmap_addr (announceMap m src n) src.returnStruct = src.mmapPtr := by
  rw [announceMap, mmap_addr]
  simp (disch := omega) only [field_setField_of_ne, field_setField_self]

theorem flags_announceMap (m : Mem) (src : InfoSources) (n : ℕ) :
    flags (announceMap m src n) src.returnStruct
      = flags m src.returnStruct ||| 1 ||| 64 := by
  rw [announceMap, flags]
  simp (disch := omega) only [field_setField_of_ne, field_setField_self, flags]
  rfl

/-- The array of the memory map is in low memory, and apart from the structure if the heap had a
block for that: `new` gives the null pointer otherwise. -/
structure InfoSources.Apart (src : InfoSources) : Prop where
  returnStruct_end : src.returnStruct.toNat + 120 ≤ 2 ^ 32
  mmapPtr_low : src.mmapPtr.toNat + 2800 ≤ 0x70000
  apart : src.returnStruct ≠ 0 → src.returnStruct.toNat + 120 ≤ src.mmapPtr.toNat ∨
    src.mmapPtr.toNat + 2800 ≤ src.returnStruct.toNat

/-- The query gave a map of `n` elements and the memory `m₂`. -/
def MapQueried (m : Mem) (src : InfoSources) (m₂ : Mem) (n : ℕ) : Prop :=
  queryUpperMemory (beforeMap m src src.int12) src.mmapPtr src.answers = some (.ok (m₂, n))

/-- The flags are cleared first. -/
theorem flags_beforeMap (m : Mem) (src : InfoSources) (lower : BitVec 32) :
    field (beforeMap m src lower) src.returnStruct 0 = 0 := by
  rw [beforeMap]
  simp (disch := omega) only [field_setField_of_ne, field_setField_self]

/-- The query leaves the structure as it is. -/
theorem field_of_mapQueried (hsrc : src.Apart) (hgranted : src.returnStruct ≠ 0)
    (hmap : MapQueried m src m₂ n) {j : ℕ} (hj : j + 4 ≤ 120) :
    field m₂ src.returnStruct j = field (beforeMap m src src.int12) src.returnStruct j := by
  have hend := hsrc.returnStruct_end
  have hapart := hsrc.apart hgranted
  have haddr : (src.returnStruct + addr j).toNat = src.returnStruct.toNat + j :=
    toNat_add_ofNat _ (by omega)
  have heq := queryUpperMemoryLoop_eqOff hsrc.mmapPtr_low (by decide) (fun _ _ ↦ rfl) hmap
  refine heq.readLE_eq ?_ ?_
  · rw [haddr]
    omega
  · rw [haddr]
    omega

theorem boot_device_buildBootDevice (hbit : headerFlags.getLsbD 1 = true) (m : Mem)
    (bootDevice : BitVec 32) (info : Addr) :
    boot_device (buildBootDevice m headerFlags bootDevice info) info = bootDevice := by
  rw [buildBootDevice, if_pos (and_two_ne_zero_iff.mpr hbit), boot_device]
  simp (disch := omega) only [field_setField_of_ne, field_setField_self]

/-- Memory is queried for bit 0. -/
theorem buildMemoryInfo_of_queried (hbit : headerFlags.getLsbD 0 = true) (hint12 : src.int12 ≠ 0)
    (hmap : MapQueried m src m₂ n) :
    buildMemoryInfo m headerFlags src = some (.ok (announceMap m₂ src n)) := by
  rw [MapQueried] at hmap
  rw [buildMemoryInfo, if_pos (and_one_ne_zero_iff.mpr hbit), queryLowerMemory, if_neg hint12]
  simp only [hmap]

theorem buildMemoryInfo_of_clear (hbit : headerFlags.getLsbD 0 = false) :
    buildMemoryInfo m headerFlags src = some (.ok (setField m src.returnStruct 0 0)) := by
  rw [buildMemoryInfo, if_neg fun hne ↦ ?_]
  rw [and_one_ne_zero_iff, hbit] at hne
  cases hne

/-- Wherever memory is queried, the queries succeed. -/
def QueriesSucceed (m : Mem) (headerFlags : BitVec 32) (src : InfoSources) : Prop :=
  headerFlags.getLsbD 0 = true → src.int12 ≠ 0 ∧ ∃ m₂ n, MapQueried m src m₂ n

/-- What the returned flags are, as a function of the header's. -/
def returnedFlags (headerFlags : BitVec 32) : BitVec 32 :=
  (if headerFlags.getLsbD 0 then 65 else 0) ||| if headerFlags.getLsbD 1 then 2 else 0

/-- A bit that is announced is 0, 1 or 6. -/
theorem getLsbD_returnedFlags {i : ℕ} (hbit : (returnedFlags headerFlags).getLsbD i = true) :
    headerFlags.getLsbD 0 = true ∧ (i = 0 ∨ i = 6) ∨ headerFlags.getLsbD 1 = true ∧ i = 1 := by
  have hmemory : ∀ i, (65 : BitVec 32).getLsbD i = true ↔ i = 0 ∨ i = 6 :=
    getLsbD_ofNat_iff (by decide) fun i hi ↦ by omega
  have hdevice : ∀ i, (2 : BitVec 32).getLsbD i = true ↔ i = 1 :=
    getLsbD_ofNat_iff (by decide) fun i hi ↦ by omega
  rw [returnedFlags, BitVec.getLsbD_or, Bool.or_eq_true] at hbit
  obtain hbit | hbit := hbit
  · split at hbit
    next h0 => exact .inl ⟨h0, (hmemory i).mp hbit⟩
    next => simp at hbit
  · split at hbit
    next h1 => exact .inr ⟨h1, (hdevice i).mp hbit⟩
    next => simp at hbit

theorem returnedFlags_memory : (returnedFlags headerFlags).getLsbD 0 = headerFlags.getLsbD 0 := by
  rw [returnedFlags]
  cases headerFlags.getLsbD 0 <;> cases headerFlags.getLsbD 1 <;> rfl

/-- When the queries that are made succeed, something is returned. -/
theorem buildMultibootInfo_returns (hqueries : QueriesSucceed m headerFlags src)
    (bootDevice : BitVec 32) :
    ∃ m', buildMultibootInfo m headerFlags bootDevice src
      = some (.ok (m', returnedInfo headerFlags src.returnStruct)) := by
  cases h0 : headerFlags.getLsbD 0 with
  | true =>
    obtain ⟨hint12, m₂, n, hmap⟩ := hqueries h0
    exact ⟨_, by rw [buildMultibootInfo, buildMemoryInfo_of_queried h0 hint12 hmap]⟩
  | false => exact ⟨_, by rw [buildMultibootInfo, buildMemoryInfo_of_clear h0]⟩

/-- **What the structure holds in the end**, if there is one and the queries that are made succeed:
memory is described for bit 0 of the header's flags, and the boot device given for bit 1. -/
theorem buildMultibootInfo_spec (hsrc : src.Apart) (hgranted : src.returnStruct ≠ 0)
    (hqueries : QueriesSucceed m headerFlags src) (bootDevice : BitVec 32) :
    ∃ m', buildMultibootInfo m headerFlags bootDevice src
        = some (.ok (m', returnedInfo headerFlags src.returnStruct)) ∧
      flags m' src.returnStruct = returnedFlags headerFlags ∧
      (headerFlags.getLsbD 0 = true → ∃ m₂ n, MapQueried m src m₂ n ∧
        queryLowerMemory src.int12 = .ok (mem_lower m' src.returnStruct) ∧
        mem_upper m' src.returnStruct = getUpperMemorySize m₂ src.mmapPtr n ∧
        mmap_length m' src.returnStruct = BitVec.ofNat 32 n * 24 ∧
        mmap_addr m' src.returnStruct = src.mmapPtr) ∧
      (headerFlags.getLsbD 1 = true → boot_device m' src.returnStruct = bootDevice) := by
  have hdevice : ∀ m₁ : Mem, flags (buildBootDevice m₁ headerFlags bootDevice src.returnStruct)
      src.returnStruct = flags m₁ src.returnStruct ||| if headerFlags.getLsbD 1 then 2 else 0 := by
    intro m₁
    simp only [flags_buildBootDevice, and_two_ne_zero_iff]
  cases h0 : headerFlags.getLsbD 0 with
  | true =>
    obtain ⟨hint12, m₂, n, hmap⟩ := hqueries h0
    have hkept : ∀ {j}, 4 ≤ j ∧ j + 4 ≤ 12 ∨ 16 ≤ j → j < 120 →
        field (buildBootDevice (announceMap m₂ src n) headerFlags bootDevice src.returnStruct)
          src.returnStruct j = field (announceMap m₂ src n) src.returnStruct j :=
      field_buildBootDevice_of_ne _ _ _ _
    refine ⟨_, ?_, ?_, fun _ ↦ ⟨m₂, n, hmap, ?_, ?_, ?_, ?_⟩,
      fun h1 ↦ boot_device_buildBootDevice h1 (announceMap m₂ src n) _ _⟩
    · rw [buildMultibootInfo, buildMemoryInfo_of_queried h0 hint12 hmap]
    · rw [hdevice, flags_announceMap, flags, field_of_mapQueried hsrc hgranted hmap (by decide),
        flags_beforeMap, returnedFlags, h0]
      rfl
    · rw [queryLowerMemory, if_neg hint12, mem_lower, hkept (.inl (by decide)) (by decide),
        field_announceMap_of_lt _ _ _ (by decide) (by decide),
        field_of_mapQueried hsrc hgranted hmap (by decide), beforeMap, field_setField_self]
    · exact (hkept (.inl (by decide)) (by decide)).trans (mem_upper_announceMap m₂ src n)
    · exact (hkept (.inr (by decide)) (by decide)).trans (mmap_length_announceMap m₂ src n)
    · exact (hkept (.inr (by decide)) (by decide)).trans (mmap_addr_announceMap m₂ src n)
  | false =>
    refine ⟨_, ?_, ?_, fun h ↦ (Bool.false_ne_true h).elim,
      fun h1 ↦ boot_device_buildBootDevice h1 (setField m src.returnStruct 0 0) _ _⟩
    · rw [buildMultibootInfo, buildMemoryInfo_of_clear h0]
    · rw [hdevice, flags, field_setField_self, returnedFlags, h0]
      rfl

/-! ## What is promised -/

/-- The members that bit `i` of the returned flags announces have been written, with what they are
to hold.  Only the members of the bits 0, 1 and 6 ever are. -/
def Filled (m m' : Mem) (src : InfoSources) (bootDevice : BitVec 32) (info : Addr) : ℕ → Prop
  | 0 => ∃ m₂ n, MapQueried m src m₂ n ∧ queryLowerMemory src.int12 = .ok (mem_lower m' info) ∧
      mem_upper m' info = getUpperMemorySize m₂ src.mmapPtr n
  | 1 => boot_device m' info = bootDevice
  | 6 => ∃ m₂ n, MapQueried m src m₂ n ∧ mmap_length m' info = BitVec.ofNat 32 n * 24 ∧
      mmap_addr m' info = src.mmapPtr
  | _ => False

/-- The header's requests are refused if one of them is for a feature that is not there, and met
otherwise; and what the returned flags announce has been written. -/
def HonoursRequests (m : Mem) (headerFlags bootDevice : BitVec 32) (src : InfoSources) : Prop :=
  ∃ m' p, buildMultibootInfo m headerFlags bootDevice src = some (.ok (m', p)) ∧
    (p = 0 ↔ AsksUnsupported headerFlags) ∧
    (p ≠ 0 → (headerFlags.getLsbD 1 = true →
        (flags m' p).getLsbD 0 = true ∧ Filled m m' src bootDevice p 0) ∧
      ∀ i, (flags m' p).getLsbD i = true → Filled m m' src bootDevice p i)

theorem returnedInfo_eq_zero_iff {info : Addr} :
    returnedInfo headerFlags info = 0 ↔ AsksUnsupported headerFlags ∨ info = 0 := by
  rw [← not_iff_not, ← ne_eq, returnedInfo_ne_zero_iff, supported_iff, not_or]

/-- **When the requests are honoured.**  For every header, if the queries that are made succeed:
exactly if one of the bits 2 to 15 is set, so that the request is refused, or the heap gave a block
for the structure, and bit 1 is clear, which asks for the sizes of memory, or bit 0 is set as
well. -/
theorem honoursRequests_iff (hsrc : src.Apart) (hqueries : QueriesSucceed m headerFlags src) :
    HonoursRequests m headerFlags bootDevice src ↔
      AsksUnsupported headerFlags ∨ src.returnStruct ≠ 0 ∧
        (headerFlags.getLsbD 1 = false ∨ headerFlags.getLsbD 0 = true) := by
  by_cases hask : AsksUnsupported headerFlags
  · obtain ⟨m', hret⟩ := buildMultibootInfo_returns hqueries bootDevice
    have hnull : returnedInfo headerFlags src.returnStruct = 0 :=
      returnedInfo_eq_zero_iff.mpr (.inl hask)
    exact iff_of_true ⟨m', _, hret, iff_of_true hnull hask, fun hne ↦ absurd hnull hne⟩ (.inl hask)
  rw [or_iff_right hask]
  by_cases hgranted : src.returnStruct = 0
  · refine iff_of_false ?_ fun hcond ↦ hcond.1 hgranted
    rintro ⟨m', p, hret, hnull, -⟩
    obtain rfl := eq_returnedInfo hret
    exact hask (hnull.mp (returnedInfo_eq_zero_iff.mpr (.inr hgranted)))
  · obtain ⟨m', hret, hflags, hmemory, hdevice⟩ :=
      buildMultibootInfo_spec hsrc hgranted hqueries bootDevice
    have hinfo : returnedInfo headerFlags src.returnStruct = src.returnStruct :=
      returnedInfo_of_supported (supported_iff.mpr hask) _
    rw [hinfo] at hret
    rw [and_iff_right hgranted]
    constructor
    · rintro ⟨m₁, p, hret₁, -, hmet⟩
      rw [hret, Option.some.injEq, Except.ok.injEq, Prod.mk.injEq] at hret₁
      obtain ⟨rfl, rfl⟩ := hret₁
      by_contra hneither
      rw [not_or, Bool.not_eq_false, Bool.not_eq_true] at hneither
      have hannounced := ((hmet hgranted).1 hneither.1).1
      rw [hflags, returnedFlags_memory, hneither.2] at hannounced
      exact Bool.false_ne_true hannounced
    · intro hcond
      refine ⟨m', _, hret, iff_of_false hgranted hask, fun _ ↦ ⟨fun h1 ↦ ?_, fun i hbit ↦ ?_⟩⟩
      · have h0 : headerFlags.getLsbD 0 = true :=
          hcond.resolve_left fun h1' ↦ Bool.false_ne_true (h1'.symm.trans h1)
        obtain ⟨m₂, n, hmap, hlower, hupper, -⟩ := hmemory h0
        exact ⟨by rw [hflags, returnedFlags_memory, h0], m₂, n, hmap, hlower, hupper⟩
      · rw [hflags] at hbit
        obtain ⟨h0, rfl | rfl⟩ | ⟨h1, rfl⟩ := getLsbD_returnedFlags hbit
        · obtain ⟨m₂, n, hmap, hlower, hupper, -⟩ := hmemory h0
          exact ⟨m₂, n, hmap, hlower, hupper⟩
        · obtain ⟨m₂, n, hmap, -, -, hlength, haddr⟩ := hmemory h0
          exact ⟨m₂, n, hmap, hlength, haddr⟩
        · exact hdevice h1

/-- What a small machine gives: one record, and 640 KiB of lower memory. -/
def oneRecordSources : InfoSources :=
  ⟨0x30000, 0x20000, 640, [⟨⟨0, 0x9fc00, 1, 0⟩, eaxSignature, 0, 20, false⟩]⟩

theorem oneRecordSources_apart : oneRecordSources.Apart :=
  ⟨by decide, by decide, fun _ ↦ .inr (by decide)⟩

/-- A header with the bits 0 and 1, as the kernel has it. -/
theorem honoursRequests_iff_kernel : HonoursRequests (fun _ ↦ 0) 3 0x80 oneRecordSources :=
  (honoursRequests_iff oneRecordSources_apart fun _ ↦ ⟨by decide, _, 1, rfl⟩).mpr
    (.inr ⟨by decide, .inr rfl⟩)

/-- **Bit 1 alone**: only the boot device is given. -/
theorem honoursRequests_swapped : ¬ HonoursRequests (fun _ ↦ 0) 2 0x80 oneRecordSources := by
  rintro ⟨m', p, hret, -, hmet⟩
  obtain ⟨m₁, hrun, hflags⟩ : ∃ m₁, buildMultibootInfo (fun _ ↦ 0) 2 0x80 oneRecordSources
      = some (.ok (m₁, 0x30000)) ∧ (flags m₁ 0x30000).getLsbD 0 = false :=
    ⟨_, rfl, by decide⟩
  rw [hrun, Option.some.injEq, Except.ok.injEq, Prod.mk.injEq] at hret
  obtain ⟨rfl, rfl⟩ := hret
  have hannounced := ((hmet (by decide)).1 rfl).1
  rw [hflags] at hannounced
  exact Bool.false_ne_true hannounced

end RainbowOS
