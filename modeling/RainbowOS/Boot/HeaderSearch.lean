import Mathlib.Data.Nat.Find
import RainbowOS.Lib.Loop
import RainbowOS.Lib.Memory

/-!
# The multiboot header: `multibootHeaderSearch`

The header has to lie within the first `MULTIBOOT_SEARCH` bytes of the file, at a multiple of 4.
The loop that looks for it has two conditions, that it is still in that part and that it is still
in the file.  The second one is the wrong way round, and they are joined by `||`: the loop goes on
where the file has ended.

`multibootHeaderSearch_ends_iff` says when the search comes to an end at all, and
`multibootHeaderSearch_exact_iff` when it is right all the same: when there is a header to be found,
or the file is so long that the first condition ends the loop inside the file.
-/

set_option autoImplicit false

namespace RainbowOS

/-! ## The search -/

/-- `MULTIBOOT_MAGIC`. -/
def MULTIBOOT_MAGIC : BitVec 32 := 0x1badb002

/-- `MULTIBOOT_SEARCH`. -/
def MULTIBOOT_SEARCH : BitVec 32 := 8192

/-- `MULTIBOOT_HEADER_ALIGN`. -/
def MULTIBOOT_HEADER_ALIGN : BitVec 32 := 4

/-- The test of `multibootHeaderSearch` for a header. -/
def isMultibootHeader (m : Mem) (header : Addr) : Prop :=
  m.read32 header = MULTIBOOT_MAGIC ∧
    m.read32 header + m.read32 (header + 4) + m.read32 (header + 8) = 0

instance (m : Mem) (header : Addr) : Decidable (isMultibootHeader m header) :=
  inferInstanceAs (Decidable (_ ∧ _))

/-- One round of `multibootHeaderSearch`. -/
def headerSearchStep (m : Mem) (ptr : Addr) (size : BitVec 32) (header : Addr) :
    LoopStep Addr Addr :=
  if header ≤ ptr + MULTIBOOT_SEARCH - 12 ∨ ptr + size ≤ header then
    if isMultibootHeader m header then .done header else .next (header + MULTIBOOT_HEADER_ALIGN)
  else .done 0

/-- `multibootHeaderSearch(file)`, for the file of `size` bytes at `ptr`. -/
def multibootHeaderSearch (fuel : ℕ) (m : Mem) (ptr : Addr) (size : BitVec 32) : Option Addr :=
  Loop.run (headerSearchStep m ptr size) fuel ptr

/-- `header->flags`. -/
def headerFlags (m : Mem) (header : Addr) : BitVec 32 := m.read32 (header + 4)

/-- The bytes that are read in a round: the magic number and, behind it, the rest of a header if
that is right. -/
def headerReads (m : Mem) (ptr : Addr) (size : BitVec 32) (header : Addr) : List Addr :=
  if header ≤ ptr + MULTIBOOT_SEARCH - 12 ∨ ptr + size ≤ header then
    (List.range (if m.read32 header = MULTIBOOT_MAGIC then 12 else 4)).map fun i ↦ header + addr i
  else []

/-! ## What it should find -/

/-- Neither the file nor the part in which the header should be reaches the end of the address
space.  The file lies in the heap, which ends at `_disk_read_location`. -/
structure FilePlaced (ptr : Addr) (size : BitVec 32) : Prop where
  ne_null : ptr ≠ 0
  file : ptr.toNat + size.toNat < 2 ^ 32
  window : ptr.toNat + 8192 < 2 ^ 32

/-- There is a header at offset `o` of the file. -/
def HeaderAt (m : Mem) (ptr : Addr) (size : BitVec 32) (o : ℕ) : Prop :=
  4 ∣ o ∧ o + 12 ≤ min MULTIBOOT_SEARCH.toNat size.toNat ∧ isMultibootHeader m (ptr + addr o)

instance (m : Mem) (ptr : Addr) (size : BitVec 32) (o : ℕ) : Decidable (HeaderAt m ptr size o) :=
  inferInstanceAs (Decidable (_ ∧ _))

/-- The search ends with `header`, reads only bytes of the file, and finds the first header. -/
structure SearchExact (m : Mem) (ptr : Addr) (size : BitVec 32) (fuel : ℕ) (header : Addr) :
    Prop where
  returns : multibootHeaderSearch fuel m ptr size = some header
  reads : ∀ h ∈ Loop.states (headerSearchStep m ptr size) fuel ptr,
    ∀ a ∈ headerReads m ptr size h, (a - ptr).toNat < size.toNat
  lowest : ∀ o, HeaderAt m ptr size o → (∀ j < o, ¬ HeaderAt m ptr size j) → header = ptr + addr o
  null : header = 0 ↔ ∀ o, ¬ HeaderAt m ptr size o

variable {m : Mem} {ptr : Addr} {size : BitVec 32} {o k : ℕ}

theorem headerAt_iff : HeaderAt m ptr size (4 * k) ↔
    4 * k ≤ 8180 ∧ 4 * k + 12 ≤ size.toNat ∧ isMultibootHeader m (ptr + addr (4 * k)) := by
  rw [HeaderAt, MULTIBOOT_SEARCH, show (8192 : BitVec 32).toNat = 8192 from rfl, Nat.le_min]
  constructor
  · rintro ⟨-, ⟨hwindow, hsize⟩, hheader⟩
    exact ⟨by omega, hsize, hheader⟩
  · rintro ⟨hwindow, hsize, hheader⟩
    exact ⟨⟨k, rfl⟩, ⟨by omega, hsize⟩, hheader⟩

/-! ## The rounds of the loop -/

/-- The condition of the loop, at an offset. -/
theorem header_condition_iff (hfile : FilePlaced ptr size) (ho : ptr.toNat + o < 2 ^ 32) :
    (ptr + addr o ≤ ptr + MULTIBOOT_SEARCH - 12 ∨ ptr + size ≤ ptr + addr o) ↔
      o ≤ 8180 ∨ size.toNat ≤ o := by
  have hf := hfile.file
  have hw := hfile.window
  have hsearch : (ptr + MULTIBOOT_SEARCH - 12).toNat = ptr.toNat + 8180 := by
    rw [MULTIBOOT_SEARCH]
    bv_omega
  have hend : (ptr + size).toNat = ptr.toNat + size.toNat := by bv_omega
  rw [BitVec.le_def, BitVec.le_def, hsearch, hend, toNat_add_ofNat ptr ho]
  omega

theorem headerSearchStep_of_header (hfile : FilePlaced ptr size) (ho : ptr.toNat + o < 2 ^ 32)
    (hin : o ≤ 8180 ∨ size.toNat ≤ o) (hheader : isMultibootHeader m (ptr + addr o)) :
    headerSearchStep m ptr size (ptr + addr o) = .done (ptr + addr o) := by
  rw [headerSearchStep, if_pos ((header_condition_iff hfile ho).mpr hin), if_pos hheader]

theorem headerSearchStep_of_not_header (hfile : FilePlaced ptr size) (ho : ptr.toNat + o < 2 ^ 32)
    (hin : o ≤ 8180 ∨ size.toNat ≤ o) (hheader : ¬ isMultibootHeader m (ptr + addr o)) :
    headerSearchStep m ptr size (ptr + addr o) = .next (ptr + addr (o + 4)) := by
  rw [headerSearchStep, if_pos ((header_condition_iff hfile ho).mpr hin), if_neg hheader,
    MULTIBOOT_HEADER_ALIGN, BitVec.add_assoc]
  exact congrArg (fun x ↦ LoopStep.next (ptr + x)) (BitVec.ofNat_add o 4).symm

theorem headerSearchStep_of_end (hfile : FilePlaced ptr size) (ho : ptr.toNat + o < 2 ^ 32)
    (hin : ¬ (o ≤ 8180 ∨ size.toNat ≤ o)) :
    headerSearchStep m ptr size (ptr + addr o) = .done 0 := by
  rw [headerSearchStep, if_neg (mt (header_condition_iff hfile ho).mp hin)]

/-- The loop comes to every offset of the window with no header before it. -/
theorem header_path (hfile : FilePlaced ptr size) (hk : k ≤ 2046)
    (hnone : ∀ j < k, ¬ isMultibootHeader m (ptr + addr (4 * j))) :
    ∀ j < k,
      headerSearchStep m ptr size (ptr + addr (4 * j)) = .next (ptr + addr (4 * (j + 1))) := by
  intro j hj
  have hw := hfile.window
  exact headerSearchStep_of_not_header hfile (by omega) (.inl (by omega)) (hnone j hj)

/-- The offsets that are read in a round. -/
theorem mem_headerReads {a : Addr} (ha : a ∈ headerReads m ptr size (ptr + addr o)) :
    ∃ i < if m.read32 (ptr + addr o) = MULTIBOOT_MAGIC then 12 else 4, a = ptr + addr (o + i) := by
  rw [headerReads] at ha
  split at ha
  · obtain ⟨i, hi, rfl⟩ := List.mem_map.mp ha
    refine ⟨i, List.mem_range.mp hi, ?_⟩
    rw [BitVec.add_assoc]
    exact congrArg (ptr + ·) (BitVec.ofNat_add o i).symm
  · cases ha

/-- A round reads the file only, if the part of a header that it reads lies in it. -/
theorem headerReads_inside (hfile : FilePlaced ptr size) (ho : o + 4 ≤ size.toNat)
    (hmagic : m.read32 (ptr + addr o) = MULTIBOOT_MAGIC → o + 12 ≤ size.toNat) :
    ∀ a ∈ headerReads m ptr size (ptr + addr o), (a - ptr).toNat < size.toNat := by
  intro a ha
  have hf := hfile.file
  obtain ⟨i, hi, rfl⟩ := mem_headerReads ha
  have hlt : o + i < size.toNat := by
    split at hi
    · have := hmagic ‹_›
      omega
    · omega
  rw [add_ofNat_sub ptr (by omega)]
  exact hlt

/-- The search along a path that is left at offset `4 * k`, with the bytes that it has read. -/
theorem search_of_path {header : Addr}
    (hpath : ∀ j < k,
      headerSearchStep m ptr size (ptr + addr (4 * j)) = .next (ptr + addr (4 * (j + 1))))
    (hdone : headerSearchStep m ptr size (ptr + addr (4 * k)) = .done header)
    (hreads : ∀ j ≤ k, ∀ a ∈ headerReads m ptr size (ptr + addr (4 * j)),
      (a - ptr).toNat < size.toNat) :
    multibootHeaderSearch (k + 1) m ptr size = some header ∧
      ∀ h ∈ Loop.states (headerSearchStep m ptr size) (k + 1) ptr,
        ∀ a ∈ headerReads m ptr size h, (a - ptr).toNat < size.toNat := by
  have hptr : ptr + addr (4 * 0) = ptr := by simp
  have hrun := Loop.run_of_path hpath 1
  have hstates := Loop.states_of_path_done hpath hdone (Nat.lt_succ_self k)
  rw [hptr, Loop.run_succ_of_done hdone] at hrun
  rw [hptr] at hstates
  refine ⟨hrun, fun h hh ↦ ?_⟩
  rw [hstates] at hh
  obtain ⟨j, hj, rfl⟩ := List.mem_map.mp hh
  exact hreads j (Nat.le_of_lt_succ (List.mem_range.mp hj))

/-! ## When the search comes to an end -/

/-- **When the search ends**: if there is what looks like a header anywhere, also behind the file,
at a multiple of 4 from its beginning, or if the file goes on behind the part that is searched. -/
theorem multibootHeaderSearch_ends_iff (m : Mem) (ptr : Addr) (size : BitVec 32) :
    (∃ fuel header, multibootHeaderSearch fuel m ptr size = some header) ↔
      ∃ k, isMultibootHeader m (ptr + addr (4 * k)) ∨
        ¬ (ptr + addr (4 * k) ≤ ptr + MULTIBOOT_SEARCH - 12 ∨ ptr + size ≤ ptr + addr (4 * k)) := by
  have hptr : ptr + addr (4 * 0) = ptr := by simp
  have hnext : ∀ i header, headerSearchStep m ptr size (ptr + addr (4 * i)) = .next header →
      header = ptr + addr (4 * (i + 1)) := by
    intro i header h
    rw [headerSearchStep] at h
    split at h
    · split at h
      · cases h
      · rw [← LoopStep.next.inj h, Nat.mul_succ, show MULTIBOOT_HEADER_ALIGN = addr 4 from rfl,
          add_addr_addr]
    · cases h
  have hends := Loop.exists_returns_iff hnext
  rw [hptr] at hends
  rw [exists_comm]
  refine hends.trans (exists_congr fun k ↦ ?_)
  rw [headerSearchStep]
  split
  next hin =>
    split
    next hheader => exact iff_of_true ⟨_, rfl⟩ (.inl hheader)
    next hheader => exact iff_of_false nofun (not_or.mpr ⟨hheader, not_not.mpr hin⟩)
  next hin => exact iff_of_true ⟨_, rfl⟩ (.inr hin)

/-! ## When the search is exact -/

/-- A first header is found. -/
theorem searchExact_of_header (hfile : FilePlaced ptr size) (hk : HeaderAt m ptr size (4 * k))
    (hfirst : ∀ j < k, ¬ HeaderAt m ptr size (4 * j)) :
    SearchExact m ptr size (k + 1) (ptr + addr (4 * k)) := by
  obtain ⟨hwindow, hsize, hheader⟩ := headerAt_iff.mp hk
  have hf := hfile.file
  have hne := hfile.ne_null
  have hnone : ∀ j < k, ¬ isMultibootHeader m (ptr + addr (4 * j)) := fun j hj h ↦
    hfirst j hj (headerAt_iff.mpr ⟨by omega, by omega, h⟩)
  have hpath := header_path hfile (by omega) hnone
  have hdone := headerSearchStep_of_header hfile (by omega) (.inl hwindow) hheader
  obtain ⟨hreturns, hreads⟩ := search_of_path hpath hdone fun j hj ↦
    headerReads_inside hfile (by omega) fun _ ↦ by omega
  refine ⟨hreturns, hreads, ?_, iff_of_false ?_ fun hall ↦ hall _ hk⟩
  · intro o ho hlow
    obtain ⟨j, rfl⟩ := ho.1
    rcases Nat.lt_trichotomy j k with hlt | rfl | hgt
    · exact absurd ho (hfirst j hlt)
    · rfl
    · exact absurd hk (hlow _ (by omega))
  · bv_omega

/-- Without a header the whole window is searched, if the file is long enough. -/
theorem searchExact_of_none (hfile : FilePlaced ptr size) (hno : ∀ k, ¬ HeaderAt m ptr size (4 * k))
    (hlong : 8184 < size.toNat) (hpart : ∀ k, 4 * k ≤ 8180 → size.toNat < 4 * k + 12 →
      m.read32 (ptr + addr (4 * k)) ≠ MULTIBOOT_MAGIC) : SearchExact m ptr size 2047 0 := by
  have hf := hfile.file
  have hnone : ∀ j < 2046, ¬ isMultibootHeader m (ptr + addr (4 * j)) := by
    intro j hj h
    by_cases hsize : 4 * j + 12 ≤ size.toNat
    · exact hno j (headerAt_iff.mpr ⟨by omega, hsize, h⟩)
    · exact hpart j (by omega) (by omega) h.1
  have hpath := header_path hfile (Nat.le_refl 2046) hnone
  have hdone := headerSearchStep_of_end (m := m) (o := 4 * 2046) hfile (by omega) (by omega)
  have hinside : ∀ j ≤ 2046, ∀ a ∈ headerReads m ptr size (ptr + addr (4 * j)),
      (a - ptr).toNat < size.toNat := by
    intro j hj
    obtain rfl | hlt := Nat.eq_or_lt_of_le hj
    · rw [headerReads, if_neg (mt (header_condition_iff hfile (by omega)).mp (by omega))]
      exact fun a ha ↦ absurd ha List.not_mem_nil
    · refine headerReads_inside hfile (by omega) fun hmagic ↦ ?_
      by_contra hsize
      exact hpart j (by omega) (by omega) hmagic
  obtain ⟨hreturns, hreads⟩ := search_of_path hpath hdone hinside
  refine ⟨hreturns, hreads, fun o ho ↦ ?_, iff_of_true rfl fun o ho ↦ ?_⟩
  · obtain ⟨j, rfl⟩ := ho.1
    exact absurd ho (hno j)
  · obtain ⟨j, rfl⟩ := ho.1
    exact hno j ho

/-- The round at offset `4 * k` reads behind the end of the file. -/
def ReadsBehind (m : Mem) (ptr : Addr) (size : BitVec 32) (k : ℕ) : Prop :=
  size.toNat < 4 * k + if m.read32 (ptr + addr (4 * k)) = MULTIBOOT_MAGIC then 12 else 4

instance : DecidablePred (ReadsBehind m ptr size) := fun _ ↦ inferInstanceAs (Decidable (_ < _))

/-- Without a header the loop comes to a round that reads behind the end of the file, if there is
one in the window. -/
theorem not_searchExact_of_readsBehind {fuel : ℕ} {header : Addr} (hfile : FilePlaced ptr size)
    (hno : ∀ k, ¬ HeaderAt m ptr size (4 * k)) (hk : k ≤ 2046)
    (hin : 4 * k ≤ 8180 ∨ size.toNat ≤ 4 * k) (hbehind : ReadsBehind m ptr size k)
    (hfirst : ∀ j < k, ¬ ReadsBehind m ptr size j) : ¬ SearchExact m ptr size fuel header := by
  intro hexact
  have hw := hfile.window
  have hnone : ∀ j < k, ¬ isMultibootHeader m (ptr + addr (4 * j)) := by
    intro j hj h
    have hj' := hfirst j hj
    rw [ReadsBehind, if_pos h.1] at hj'
    exact hno j (headerAt_iff.mpr ⟨by omega, by omega, h⟩)
  have hptr : ptr + addr (4 * 0) = ptr := by simp
  have hrun : Loop.run (headerSearchStep m ptr size) fuel (ptr + addr (4 * 0)) = some header := by
    rw [hptr]
    exact hexact.returns
  have hmem := Loop.mem_states_of_path (header_path hfile hk hnone) hrun
  rw [hptr] at hmem
  -- the last byte read in this round
  obtain ⟨l, hlt, hl⟩ :
      ∃ l < 12, (if m.read32 (ptr + addr (4 * k)) = MULTIBOOT_MAGIC then 12 else 4) = l + 1 := by
    split
    · exact ⟨11, by omega, rfl⟩
    · exact ⟨3, by omega, rfl⟩
  rw [ReadsBehind, hl] at hbehind
  have hread : ptr + addr (4 * k) + addr l ∈ headerReads m ptr size (ptr + addr (4 * k)) := by
    rw [headerReads, if_pos ((header_condition_iff hfile (by omega)).mpr hin), hl]
    exact List.mem_map_of_mem (List.mem_range.mpr (Nat.lt_succ_self l))
  have hlast := hexact.reads _ hmem _ hread
  rw [add_addr_addr, add_ofNat_sub ptr (by omega)] at hlast
  omega

/-- **When the search is exact.**  For a file anywhere in memory: when it has a header, or when it
is longer than 8184 bytes and, should it end before the window does, no magic number stands where
only the beginning of a header has room. -/
theorem multibootHeaderSearch_exact_iff (hfile : FilePlaced ptr size) :
    (∃ fuel header, SearchExact m ptr size fuel header) ↔
      (∃ o, HeaderAt m ptr size o) ∨ 8184 < size.toNat ∧ ∀ o, 4 ∣ o → o ≤ 8180 →
        size.toNat < o + 12 → m.read32 (ptr + addr o) ≠ MULTIBOOT_MAGIC := by
  by_cases hsome : ∃ k, HeaderAt m ptr size (4 * k)
  · refine iff_of_true ?_ (.inl ?_)
    · exact ⟨_, _, searchExact_of_header hfile (Nat.find_spec hsome) fun j hj ↦
        Nat.find_min hsome hj⟩
    · obtain ⟨k, hk⟩ := hsome
      exact ⟨4 * k, hk⟩
  · have hno : ∀ k, ¬ HeaderAt m ptr size (4 * k) := fun k hk ↦ hsome ⟨k, hk⟩
    constructor
    · rintro ⟨fuel, header, hexact⟩
      -- otherwise a first round reads behind the end of the file
      have hinside : ∀ k ≤ 2046, (4 * k ≤ 8180 ∨ size.toNat ≤ 4 * k) →
          ¬ ReadsBehind m ptr size k := by
        intro k hk hin hbehind
        have hfind : ∃ k, ReadsBehind m ptr size k := ⟨k, hbehind⟩
        have hle := Nat.find_min' hfind hbehind
        exact not_searchExact_of_readsBehind hfile hno (Nat.le_trans hle hk) (by omega)
          (Nat.find_spec hfind) (fun j hj ↦ Nat.find_min hfind hj) hexact
      refine .inr ⟨?_, ?_⟩
      · by_contra hshort
        refine hinside (size.toNat / 4) (by omega) (by omega) ?_
        rw [ReadsBehind]
        split <;> omega
      · rintro o ⟨k, rfl⟩ hk hsize hmagic
        refine hinside k (by omega) (.inl hk) ?_
        rw [ReadsBehind, if_pos hmagic]
        exact hsize
    · rintro (⟨o, ho⟩ | ⟨hlong, hpart⟩)
      · obtain ⟨k, rfl⟩ := ho.1
        exact absurd ho (hno k)
      · exact ⟨_, _, searchExact_of_none hfile hno hlong fun k hk hsize ↦
          hpart (4 * k) ⟨k, rfl⟩ hk hsize⟩

/-- A file of 16 bytes that is a header. -/
def tinyKernel : Mem :=
  Mem.write32 (Mem.write32 (fun _ ↦ 0) 0x20000 MULTIBOOT_MAGIC) 0x20008 (-MULTIBOOT_MAGIC)

/-- Its header is found. -/
theorem multibootHeaderSearch_exact_iff_tinyKernel :
    FilePlaced 0x20000 16 ∧
      ∃ fuel header, SearchExact tinyKernel 0x20000 16 fuel header :=
  have hfile : FilePlaced 0x20000 16 := ⟨by decide, by decide, by decide⟩
  ⟨hfile, (multibootHeaderSearch_exact_iff hfile).mpr (.inl ⟨0, by decide +kernel⟩)⟩

/-- A file of 100 zeros in a memory of zeros: the search reads what is behind it. -/
theorem multibootHeaderSearch_not_exact :
    ¬ ∃ fuel header, SearchExact (fun _ ↦ 0) 0x20000 100 fuel header := by
  rintro ⟨fuel, header, hexact⟩
  have hno : ∀ k, ¬ HeaderAt (fun _ ↦ 0) 0x20000 100 (4 * k) := by
    rintro k ⟨-, -, hmagic, -⟩
    have hzero : Mem.read32 (fun _ ↦ 0) (0x20000 + addr (4 * k)) = Mem.read32 (fun _ ↦ 0) 0 :=
      Mem.readLE_congr fun _ _ ↦ rfl
    rw [hzero] at hmagic
    exact absurd hmagic (by decide)
  exact not_searchExact_of_readsBehind (k := 25) ⟨by decide, by decide, by decide⟩ hno (by decide)
    (by decide) (by decide +kernel) (by decide +kernel) hexact

end RainbowOS
