import RainbowOS.EarlyLib.MemoryDetection
import RainbowOS.Lib.Loop

/-!
# The multiboot information: `buildMultibootInfo`

The information structure is filled in according to the feature flags of the kernel's multiboot
header.  If the header asks for the memory map, the structure announces the array that
`queryUpperMemory` filled: its address, its length in bytes and bit 6 of the flags.

A reader of the map walks from element to element by `entry_length + 4`.  `MapWalkable` says what
the walk should find, and `mmap_never_walkable` that it never does: the announced length counts 24
bytes for an element that has 28.
-/

set_option autoImplicit false

namespace RainbowOS

/-! ## The structure -/

namespace MultibootInfo

/-- The 32-bit member at `offset` of the structure at `info`. -/
def field (m : Mem) (info : Addr) (offset : ℕ) : BitVec 32 := m.read32 (info + addr offset)

/-- Store a 32-bit member. -/
def setField (m : Mem) (info : Addr) (offset : ℕ) (v : BitVec 32) : Mem :=
  m.write32 (info + addr offset) v

/-- `flags`. -/
def flags (m : Mem) (info : Addr) : BitVec 32 := field m info 0

/-- `mmap_length`. -/
def mmap_length (m : Mem) (info : Addr) : BitVec 32 := field m info 44

/-- `mmap_addr`. -/
def mmap_addr (m : Mem) (info : Addr) : BitVec 32 := field m info 48

theorem field_setField_self (m : Mem) (info : Addr) (offset : ℕ) (v : BitVec 32) :
    field (setField m info offset v) info offset = v :=
  Mem.readLE_writeLE (n := 4) m (by omega) _ v

theorem field_setField_of_ne (m : Mem) (info : Addr) {i j : ℕ} (v : BitVec 32)
    (h : j + 4 ≤ i ∨ i + 4 ≤ j) (hi : i < 120) (hj : j < 120) :
    field (setField m info i v) info j = field m info j :=
  Mem.readLE_write_offset (n := 4) (l := 4) m info _ h (by omega) (by omega)

end MultibootInfo

open MultibootInfo

/-! ## Filling it in -/

/-- What `buildMultibootInfo` is given by the heap and the BIOS. -/
structure InfoSources where
  /-- The block `new multiboot_info_structure` returned. -/
  returnStruct : Addr
  /-- The array `new mmap_structure_entry[maxSize]` returned. -/
  mmapPtr : Addr
  /-- What `int 12h` gave, zero if it failed. -/
  int12 : BitVec 32
  /-- What `int 15h` will answer. -/
  answers : List Int15Answer

/-- `queryLowerMemory()`. -/
def queryLowerMemory (int12 : BitVec 32) : Exec (BitVec 32) :=
  if int12 = 0 then .error (.earlyPanic "queryLowerMemory(): Failure to query lower memory!")
  else .ok int12

/-- The memory in which `buildMultibootInfo` queries the memory map: `flags` and `mem_lower` have
been written. -/
def beforeMap (m : Mem) (src : InfoSources) (lower : BitVec 32) : Mem :=
  setField (setField m src.returnStruct 0 0) src.returnStruct 4 lower

/-- The members that describe the map: `mem_upper`, `mmap_length`, `mmap_addr` and the flags. -/
def announceMap (m : Mem) (src : InfoSources) (n : ℕ) : Mem :=
  let info := src.returnStruct
  let m := setField m info 8 (getUpperMemorySize m src.mmapPtr n)
  let m := setField m info 44 (BitVec.ofNat 32 n * 24)
  let m := setField m info 48 src.mmapPtr
  let m := setField m info 0 (flags m info ||| 1)
  setField m info 0 (flags m info ||| 1 <<< 6)

/-- What `buildMultibootInfo` does for bit 0 of the header's flags. -/
def buildMemoryInfo (m : Mem) (headerFlags : BitVec 32) (src : InfoSources) : Option (Exec Mem) :=
  if headerFlags &&& 1 ≠ 0 then
    match queryLowerMemory src.int12 with
    | .error e => some (.error e)
    | .ok lower =>
      match queryUpperMemory (beforeMap m src lower) src.mmapPtr src.answers with
      | none => none
      | some (.error e) => some (.error e)
      | some (.ok (m, n)) => some (.ok (announceMap m src n))
  else some (.ok (setField m src.returnStruct 0 0))

/-- What `buildMultibootInfo` does for bit 1. -/
def buildBootDevice (m : Mem) (headerFlags bootDevice : BitVec 32) (info : Addr) : Mem :=
  if headerFlags &&& 2 ≠ 0 then
    let m := setField m info 12 bootDevice
    setField m info 0 (flags m info ||| 2)
  else m

/-- The pointer `buildMultibootInfo` returns: null if any of the bits 2 to 15 is set. -/
def returnedInfo (headerFlags : BitVec 32) (info : Addr) : Addr :=
  if headerFlags &&& 4 ≠ 0 then 0
  else if headerFlags &&& 65528 ≠ 0 then 0
  else info

/-- `buildMultibootInfo(header, bootDevice)`, on `header->flags`: the memory afterwards and the
pointer returned. -/
def buildMultibootInfo (m : Mem) (headerFlags bootDevice : BitVec 32) (src : InfoSources) :
    Option (Exec (Mem × Addr)) :=
  match buildMemoryInfo m headerFlags src with
  | none => none
  | some (.error e) => some (.error e)
  | some (.ok m) => some (.ok (buildBootDevice m headerFlags bootDevice src.returnStruct,
      returnedInfo headerFlags src.returnStruct))

/-! ## Walking the map -/

/-- One step of a reader of the map: `pos` bytes have been consumed. -/
def walkStep (m : Mem) (mmapAddr mmapLength : BitVec 32) :
    BitVec 32 × List Addr → LoopStep (BitVec 32 × List Addr) (BitVec 32 × List Addr)
  | (pos, visited) =>
    if mmapLength ≤ pos then .done (pos, visited)
    else .next (pos + m.read32 (mmapAddr + pos) + 4, visited ++ [mmapAddr + pos])

/-- What the kernel is promised about the map of `n` elements at `mmapPtr`. -/
structure MapWalkable (m : Mem) (info mmapPtr : Addr) (n : ℕ) : Prop where
  /-- The announced range starts at the first element. -/
  start : mmap_addr m info = mmapPtr
  /-- It is the extent of the elements. -/
  extent : (mmap_length m info).toNat = n * sizeof_mmap_structure_entry
  /-- Every element carries its length. -/
  entry_length : ∀ k < n, (readEntry m (mmapElem mmapPtr k)).entry_length = 24
  /-- The walk visits the elements in order and stops at the end of the range. -/
  walk : Loop.Returns (walkStep m (mmap_addr m info) (mmap_length m info)) (0, [])
    (mmap_length m info, (List.range n).map (mmapElem mmapPtr))

variable {m m' : Mem} {src : InfoSources} {headerFlags bootDevice : BitVec 32} {n : ℕ}

/-! ## What is announced -/

theorem mmap_length_announceMap (m : Mem) (src : InfoSources) (n : ℕ) :
    mmap_length (announceMap m src n) src.returnStruct = BitVec.ofNat 32 n * 24 := by
  rw [announceMap, mmap_length]
  simp (disch := omega) only [field_setField_of_ne, field_setField_self]

/-- The boot device goes into its own member, and a bit of the flags. -/
theorem field_buildBootDevice_of_ne (m : Mem) (headerFlags bootDevice : BitVec 32) (info : Addr)
    {j : ℕ} (h : 4 ≤ j ∧ j + 4 ≤ 12 ∨ 16 ≤ j) (hj : j < 120) :
    field (buildBootDevice m headerFlags bootDevice info) info j = field m info j := by
  rw [buildBootDevice]
  split
  · simp (disch := omega) only [field_setField_of_ne]
  · rfl

theorem flags_buildBootDevice (m : Mem) (headerFlags bootDevice : BitVec 32) (info : Addr) :
    flags (buildBootDevice m headerFlags bootDevice info) info
      = flags m info ||| if headerFlags &&& 2 ≠ 0 then 2 else 0 := by
  rw [buildBootDevice]
  split
  · simp (disch := omega) only [flags, field_setField_of_ne, field_setField_self]
  · exact BitVec.or_zero.symm

/-- **A map is announced only if the header asks for it**, and then its length is counted with 24
bytes an element. -/
theorem mmap_length_of_announced {p : Addr}
    (hret : buildMultibootInfo m headerFlags bootDevice src = some (.ok (m', p)))
    (hbit : (flags m' src.returnStruct).getLsbD 6 = true) {m₂ : Mem}
    (hmap : queryUpperMemory (beforeMap m src src.int12) src.mmapPtr src.answers
      = some (.ok (m₂, n))) :
    mmap_length m' src.returnStruct = BitVec.ofNat 32 n * 24 := by
  rw [buildMultibootInfo, buildMemoryInfo] at hret
  by_cases hflag : headerFlags &&& 1 ≠ 0
  · rw [if_pos hflag, queryLowerMemory] at hret
    by_cases hlower : src.int12 = 0
    · simp [hlower] at hret
    · rw [if_neg hlower] at hret
      simp only [hmap, Option.some.injEq, Except.ok.injEq, Prod.mk.injEq] at hret
      rw [← hret.1, mmap_length,
        field_buildBootDevice_of_ne _ _ _ _ (.inr (by decide)) (by decide)]
      exact mmap_length_announceMap m₂ src n
  · rw [if_neg hflag] at hret
    simp only [Option.some.injEq, Except.ok.injEq, Prod.mk.injEq] at hret
    rw [← hret.1, flags_buildBootDevice, flags, field_setField_self] at hbit
    split at hbit
    · exact absurd hbit (by decide)
    · exact absurd hbit (by decide)

/-- The pointer returned is the same whatever the BIOS answers. -/
theorem eq_returnedInfo {p : Addr}
    (hret : buildMultibootInfo m headerFlags bootDevice src = some (.ok (m', p))) :
    p = returnedInfo headerFlags src.returnStruct := by
  rw [buildMultibootInfo] at hret
  split at hret
  · simp at hret
  · simp at hret
  · simp only [Option.some.injEq, Except.ok.injEq, Prod.mk.injEq] at hret
    exact hret.2.symm

/-- If the BIOS gives no answer, `buildMultibootInfo` panics. -/
theorem buildMultibootInfo_error {stop : Stop}
    (hret : buildMultibootInfo m headerFlags bootDevice src = some (.error stop)) :
    stop.IsPanic := by
  have hmemory : buildMemoryInfo m headerFlags src = some (.error stop) := by
    rw [buildMultibootInfo] at hret
    split at hret
    · cases hret
    · rename_i heq
      cases hret
      exact heq
    · cases hret
  rw [buildMemoryInfo, queryLowerMemory] at hmemory
  by_cases hflag : headerFlags &&& 1 ≠ 0
  · rw [if_pos hflag] at hmemory
    by_cases hlower : src.int12 = 0
    · simp only [hlower, if_true] at hmemory
      cases hmemory
      trivial
    · simp only [if_neg hlower] at hmemory
      split at hmemory
      · cases hmemory
      · rename_i hquery
        cases hmemory
        exact queryUpperMemoryLoop_error hquery
      · cases hmemory
  · rw [if_neg hflag] at hmemory
    cases hmemory

/-- None of the bits 2 to 15 is set, which stand for features that are not there. -/
def Supported (headerFlags : BitVec 32) : Prop := headerFlags &&& 4 = 0 ∧ headerFlags &&& 65528 = 0

theorem returnedInfo_of_supported (hsup : Supported headerFlags) (info : Addr) :
    returnedInfo headerFlags info = info := by
  rw [returnedInfo, if_neg (not_not.mpr hsup.1), if_neg (not_not.mpr hsup.2)]

theorem returnedInfo_of_not_supported (hsup : ¬ Supported headerFlags) (info : Addr) :
    returnedInfo headerFlags info = 0 := by
  rw [returnedInfo]
  split
  · rfl
  · rename_i h4
    rw [if_pos fun hrest ↦ hsup ⟨not_not.mp h4, hrest⟩]

theorem returnedInfo_ne_zero_iff {info : Addr} :
    returnedInfo headerFlags info ≠ 0 ↔ Supported headerFlags ∧ info ≠ 0 := by
  by_cases hsup : Supported headerFlags
  · rw [returnedInfo_of_supported hsup, and_iff_right hsup]
  · rw [returnedInfo_of_not_supported hsup]
    exact iff_of_false (fun h ↦ h rfl) fun h ↦ hsup h.1

theorem eq_returnStruct_of_ne_zero {p : Addr}
    (hret : buildMultibootInfo m headerFlags bootDevice src = some (.ok (m', p))) (hp : p ≠ 0) :
    p = src.returnStruct := by
  rw [eq_returnedInfo hret] at hp ⊢
  exact returnedInfo_of_supported (returnedInfo_ne_zero_iff.mp hp).1 _

theorem not_mapWalkable_of_length {info mmapPtr : Addr} (hn : 1 ≤ n) (hmax : n < 100)
    (hlen : mmap_length m info = BitVec.ofNat 32 n * 24) : ¬ MapWalkable m info mmapPtr n := by
  intro hwalk
  have hext := hwalk.extent
  rw [hlen, sizeof_mmap_structure_entry] at hext
  bv_omega

/-- **The map can never be walked.**  Whatever the BIOS answered and whatever else the header asks
for: when a map of `n` elements is announced, the announced range is not the extent of the `n`
elements. -/
theorem mmap_never_walkable {m m' m₂ : Mem} {headerFlags bootDevice : BitVec 32} {src : InfoSources}
    {p : Addr} {n : ℕ} (hret : buildMultibootInfo m headerFlags bootDevice src = some (.ok (m', p)))
    (hp : p ≠ 0) (hbit : (flags m' p).getLsbD 6 = true)
    (hmap : queryUpperMemory (beforeMap m src src.int12) src.mmapPtr src.answers
      = some (.ok (m₂, n))) (hn : 1 ≤ n) (hmax : n < 100) :
    ¬ MapWalkable m' p src.mmapPtr n := by
  obtain rfl := eq_returnStruct_of_ne_zero hret hp
  exact not_mapWalkable_of_length hn hmax (mmap_length_of_announced hret hbit hmap)

/-- A map of two elements. -/
theorem mmap_never_walkable_two :
    let m : Mem := fun _ ↦ 0
    let src : InfoSources := ⟨0x30000, 0x20000, 640,
      [⟨⟨0, 0x9fc00, 1, 0⟩, eaxSignature, 1, 20, false⟩,
        ⟨⟨0x100000, 0x7ee0000, 1, 0⟩, eaxSignature, 0, 20, false⟩]⟩
    ∃ m', buildMultibootInfo m 1 0x80 src = some (.ok (m', 0x30000)) ∧
      ¬ MapWalkable m' 0x30000 0x20000 2 := by
  intro m src
  have hbuild : buildMultibootInfo m 1 0x80 src = some (.ok (_, 0x30000)) := rfl
  refine ⟨_, hbuild, mmap_never_walkable (n := 2) hbuild (by decide) ?_ rfl (by decide) (by decide)⟩
  decide

/-- **One element**: the announced range has 24 bytes, the element 28. -/
theorem mmap_length_short :
    let m : Mem := fun _ ↦ 0
    let src : InfoSources := ⟨0x30000, 0x20000, 640,
      [⟨⟨0, 0x9fc00, 1, 0⟩, eaxSignature, 0, 20, false⟩]⟩
    ∃ m' m₂, buildMultibootInfo m 1 0x80 src = some (.ok (m', 0x30000)) ∧
      (flags m' 0x30000).getLsbD 6 = true ∧
      queryUpperMemory (beforeMap m src src.int12) src.mmapPtr src.answers = some (.ok (m₂, 1)) ∧
      mmap_length m' 0x30000 = 24 ∧ (readEntry m' (mmapElem 0x20000 0)).entry_length = 0 ∧
      ¬ MapWalkable m' 0x30000 0x20000 1 := by
  intro m src
  refine ⟨_, _, rfl, by decide, rfl, by decide, by decide, ?_⟩
  exact not_mapWalkable_of_length (by decide) (by decide) (by decide)

end RainbowOS
