import Mathlib.Data.Nat.Find
import Mathlib.Order.Bounds.Basic
import RainbowOS.Boot.ElfTable

/-!
# What `elf32_load` leaves in memory, and what it returns

For a file whose program headers are 32 bytes apart and lie in the file.

* `elf32_load_exact` — if the segments stay away from the file and from each other, each of them is
  where it should be afterwards, with zeros behind its part of the file, and nothing else has
  changed.  The messages of the loop are not in the model, and neither are the console they go to
  and the variables of stage1.
* `elf32_load_end_iff` — the result is the end of the segment that the *last* program header
  describes, whether that is loaded or not: it is the end of the program only if no loaded segment
  ends behind that.  Where a segment is loaded over the headers, it is what they have become that
  counts.
-/

set_option autoImplicit false

namespace RainbowOS

open Elf32Ehdr Elf32Phdr

/-! ## The file -/

/-- A file of `size` bytes with program headers of 32 bytes that lie in it. -/
structure TableInside (m : Mem) (header : Addr) (size : ℕ) : Prop where
  file : header.toNat + size < 2 ^ 32
  ehdr : 52 ≤ size
  stride : e_phentsize m header = 32
  table : (e_phoff m header).toNat + 32 * (e_phnum m header).toNat ≤ size

/-- Program header number `i` describes a segment that is loaded. -/
def Loaded (m : Mem) (header : Addr) (i : ℕ) : Prop :=
  p_type m (phdrAddr m header i) = PT_LOAD ∧ p_memsz m (phdrAddr m header i) ≠ 0

instance (m : Mem) (header : Addr) (i : ℕ) : Decidable (Loaded m header i) :=
  inferInstanceAs (Decidable (_ ∧ _))

/-- Where its memory begins. -/
def segmentStart (m : Mem) (header : Addr) (i : ℕ) : ℕ := (p_paddr m (phdrAddr m header i)).toNat

/-- Where its memory ends. -/
def segmentEnd (m : Mem) (header : Addr) (i : ℕ) : ℕ :=
  segmentStart m header i + (p_memsz m (phdrAddr m header i)).toNat

/-- The byte that belongs at offset `j` of its memory. -/
def segmentByte (m : Mem) (header ph : Addr) (j : ℕ) : Byte :=
  if j < (p_filesz m ph).toNat then m (header + p_offset m ph + addr j) else 0

/-- A file that can be loaded: nothing is refused, the loaded segments take their bytes from the
file, and their memory does not wrap and is disjoint from the file and from that of the others. -/
structure Loadable (m : Mem) (header : Addr) (size : ℕ) : Prop
    extends TableInside m header size where
  accepted : ∀ i < (e_phnum m header).toNat,
    elf_check_prog_header m (phdrAddr m header i) = true
  filesz_le : ∀ i < (e_phnum m header).toNat, Loaded m header i →
    (p_filesz m (phdrAddr m header i)).toNat ≤ (p_memsz m (phdrAddr m header i)).toNat
  inside : ∀ i < (e_phnum m header).toNat, Loaded m header i →
    (p_offset m (phdrAddr m header i)).toNat + (p_filesz m (phdrAddr m header i)).toNat ≤ size
  noWrap : ∀ i < (e_phnum m header).toNat, Loaded m header i → segmentEnd m header i ≤ 2 ^ 32
  apart : ∀ i < (e_phnum m header).toNat, Loaded m header i →
    segmentEnd m header i ≤ header.toNat ∨ header.toNat + size ≤ segmentStart m header i
  disjoint : ∀ i < (e_phnum m header).toNat, ∀ j < (e_phnum m header).toNat, i ≠ j →
    Loaded m header i → Loaded m header j →
      segmentEnd m header i ≤ segmentStart m header j ∨
        segmentEnd m header j ≤ segmentStart m header i

variable {m m' : Mem} {header ph : Addr} {size i j k : ℕ}

theorem TableInside.phdrAddr_eq (h : TableInside m header size) (i : ℕ) :
    phdrAddr m header i = header + addr ((e_phoff m header).toNat + i * 32) := by
  rw [phdrAddr, firstPhdr, h.stride, show (32 : BitVec 16).toNat = 32 from rfl]
  bv_omega

/-- A program header of the file, and the end that the loop knows. -/
theorem TableInside.lt_endPhdr_iff (h : TableInside m header size)
    (hi : i ≤ (e_phnum m header).toNat) :
    phdrAddr m header i < endPhdr m header ↔ i < (e_phnum m header).toNat := by
  have hfile := h.file
  have htable := h.table
  have hend : (endPhdr m header).toNat =
      header.toNat + ((e_phoff m header).toNat + (e_phnum m header).toNat * 32) := by
    rw [endPhdr, firstPhdr, Elf32Phdr.size]
    bv_omega
  rw [BitVec.lt_def, hend, h.phdrAddr_eq, toNat_add_ofNat _ (by omega)]
  omega

/-! ## Loading one segment -/

/-- The part of the loop's body that loads a segment, if this overwrites neither the program header
nor the bytes in the file. -/
theorem loadSegment_eq_write (hle : p_filesz m ph ≤ p_memsz m ph)
    (hphdr : ∀ i < 32, (p_memsz m ph).toNat ≤ (ph + addr i - p_paddr m ph).toNat)
    (hfile : ∀ i < (p_filesz m ph).toNat,
      (p_memsz m ph).toNat ≤ (header + p_offset m ph + addr i - p_paddr m ph).toNat) :
    loadSegment m header ph =
      m.write (p_paddr m ph) (p_memsz m ph).toNat (segmentByte m header ph) := by
  have hmemsz := (p_memsz m ph).isLt
  have hlt := BitVec.le_def.mp hle
  have hcopy : memcpy m (p_paddr m ph) (header + p_offset m ph) (p_filesz m ph).toNat =
      m.write (p_paddr m ph) (p_filesz m ph).toNat fun i ↦ m (header + p_offset m ph + addr i) :=
    memcpy_eq_write (by omega) fun i hi ↦ by
      have := hfile i hi
      omega
  have hsame : ∀ k, k + 4 ≤ 32 → (m.write (p_paddr m ph) (p_filesz m ph).toNat fun i ↦
      m (header + p_offset m ph + addr i)).read32 (ph + addr k) = m.read32 (ph + addr k) := by
    intro k hk
    refine Mem.readLE_write_of_disjoint fun i hi ↦ ?_
    rw [add_addr_addr]
    exact Nat.le_trans hlt (hphdr (k + i) (by omega))
  have hfilesz : p_filesz _ ph = p_filesz m ph := hsame 16 (by omega)
  have hmemsz' : p_memsz _ ph = p_memsz m ph := hsame 20 (by omega)
  simp only [loadSegment, hcopy, hfilesz, hmemsz']
  split
  · have hsub := BitVec.toNat_sub_of_le hle
    have hstart : p_paddr m ph + p_filesz m ph =
        p_paddr m ph + BitVec.ofNat 32 (p_filesz m ph).toNat := by
      rw [BitVec.ofNat_toNat, BitVec.setWidth_eq]
    rw [memset_eq_write _ _ _ (by omega), hsub, hstart, Mem.write_write_append m _ (by omega),
      Nat.add_sub_cancel' hlt]
    rfl
  · rename_i hge
    have heq : (p_filesz m ph).toNat = (p_memsz m ph).toNat :=
      Nat.le_antisymm hlt (Nat.le_of_not_lt hge)
    rw [heq]
    exact Mem.write_congr fun i hi ↦ (if_pos (by omega)).symm

/-! ## The memory while the segments are loaded -/

/-- The memories have the same bytes where the file is. -/
def SameFile (m m' : Mem) (header : Addr) (size : ℕ) : Prop :=
  ∀ j < size, m' (header + addr j) = m (header + addr j)

theorem SameFile.readLE_eq (h : SameFile m m' header size) {l : ℕ} (hj : j + l ≤ size) :
    m'.readLE l (header + addr j) = m.readLE l (header + addr j) := by
  refine Mem.readLE_congr fun i hi ↦ ?_
  rw [add_addr_addr]
  exact h (j + i) (by omega)

/-- The memories have the same program headers, the same distance apart. -/
structure SameHeaders (m m' : Mem) (header : Addr) : Prop where
  stride : e_phentsize m' header = e_phentsize m header
  phdr : ∀ i < (e_phnum m header).toNat, ∀ j < 32,
    m' (phdrAddr m header i + addr j) = m (phdrAddr m header i + addr j)

theorem SameFile.sameHeaders (h : SameFile m m' header size) (htable : TableInside m header size) :
    SameHeaders m m' header := by
  have hinside := htable.table
  have hehdr := htable.ehdr
  refine ⟨h.readLE_eq (j := 42) (l := 2) (by omega), fun i hi j hj ↦ ?_⟩
  rw [htable.phdrAddr_eq, add_addr_addr]
  exact h _ (by omega)

namespace SameHeaders

theorem readLE_eq (h : SameHeaders m m' header) (hi : i < (e_phnum m header).toNat) {l : ℕ}
    (hkl : k + l ≤ 32) :
    m'.readLE l (phdrAddr m header i + addr k) = m.readLE l (phdrAddr m header i + addr k) := by
  refine Mem.readLE_congr fun j hj ↦ ?_
  rw [add_addr_addr]
  exact h.phdr i hi (k + j) (by omega)

theorem p_type_eq (h : SameHeaders m m' header) (hi : i < (e_phnum m header).toNat) :
    p_type m' (phdrAddr m header i) = p_type m (phdrAddr m header i) := by
  have hread := h.readLE_eq hi (k := 0) (l := 4) (by omega)
  rwa [BitVec.add_zero] at hread

theorem p_offset_eq (h : SameHeaders m m' header) (hi : i < (e_phnum m header).toNat) :
    p_offset m' (phdrAddr m header i) = p_offset m (phdrAddr m header i) :=
  h.readLE_eq hi (k := 4) (by omega)

theorem p_paddr_eq (h : SameHeaders m m' header) (hi : i < (e_phnum m header).toNat) :
    p_paddr m' (phdrAddr m header i) = p_paddr m (phdrAddr m header i) :=
  h.readLE_eq hi (k := 12) (by omega)

theorem p_filesz_eq (h : SameHeaders m m' header) (hi : i < (e_phnum m header).toNat) :
    p_filesz m' (phdrAddr m header i) = p_filesz m (phdrAddr m header i) :=
  h.readLE_eq hi (k := 16) (by omega)

theorem p_memsz_eq (h : SameHeaders m m' header) (hi : i < (e_phnum m header).toNat) :
    p_memsz m' (phdrAddr m header i) = p_memsz m (phdrAddr m header i) :=
  h.readLE_eq hi (k := 20) (by omega)

theorem elf_check_prog_header_eq (h : SameHeaders m m' header)
    (hi : i < (e_phnum m header).toNat) :
    elf_check_prog_header m' (phdrAddr m header i) =
      elf_check_prog_header m (phdrAddr m header i) := by
  rw [elf_check_prog_header, elf_check_prog_header, h.p_type_eq hi]

end SameHeaders

/-- What lies in the file is not in the memory of a segment. -/
theorem Loadable.memsz_le_of_file (h : Loadable m header size) (hi : i < (e_phnum m header).toNat)
    (hloaded : Loaded m header i) (hj : j < size) :
    (p_memsz m (phdrAddr m header i)).toNat ≤
      (header + addr j - p_paddr m (phdrAddr m header i)).toNat := by
  have hnoWrap := h.noWrap i hi hloaded
  have hapart := h.apart i hi hloaded
  rw [segmentEnd, segmentStart] at *
  exact Mem.disjoint_of_le hnoWrap (k := size) (Nat.le_of_lt h.file) hapart j hj

/-- A byte of a segment, in the file. -/
theorem segment_addr (header offset : Addr) (j : ℕ) :
    header + offset + addr j = header + addr (offset.toNat + j) := by
  rw [← add_addr_addr, addr_toNat]

/-- The round of a segment that is loaded, with the file as it was. -/
theorem roundMem_of_loaded (h : Loadable m header size) (hsame : SameFile m m' header size)
    (hi : i < (e_phnum m header).toNat) (hloaded : Loaded m header i) :
    roundMem m' header (phdrAddr m header i) = m'.write (p_paddr m (phdrAddr m header i))
      (p_memsz m (phdrAddr m header i)).toNat (segmentByte m header (phdrAddr m header i)) := by
  have htable := h.table
  have hinside := h.inside i hi hloaded
  have hle := h.filesz_le i hi hloaded
  have hheaders := hsame.sameHeaders h.toTableInside
  have hptype := hheaders.p_type_eq hi
  have hpaddr := hheaders.p_paddr_eq hi
  have hfilesz := hheaders.p_filesz_eq hi
  have hmemsz := hheaders.p_memsz_eq hi
  have hoffset := hheaders.p_offset_eq hi
  rw [roundMem, hptype, hmemsz, if_neg (not_or.mpr ⟨not_not.mpr hloaded.1, hloaded.2⟩),
    loadSegment_eq_write (by rw [hfilesz, hmemsz]; exact BitVec.le_def.mpr hle), hpaddr, hmemsz]
  · refine Mem.write_congr fun j hj ↦ ?_
    rw [segmentByte, segmentByte, hfilesz, hoffset]
    split
    · rename_i hlt
      rw [segment_addr]
      exact hsame _ (by omega)
    · rfl
  · intro j hj
    have hphdr : phdrAddr m header i + addr j =
        header + addr ((e_phoff m header).toNat + i * 32 + j) := by
      rw [h.phdrAddr_eq, add_addr_addr]
    rw [hpaddr, hmemsz, hphdr]
    exact h.memsz_le_of_file hi hloaded (by omega)
  · intro j hj
    rw [hfilesz] at hj
    rw [hpaddr, hmemsz, hoffset, segment_addr]
    exact h.memsz_le_of_file hi hloaded (by omega)

theorem roundMem_of_not_loaded (hsame : SameHeaders m m' header)
    (hi : i < (e_phnum m header).toNat) (hskip : ¬ Loaded m header i) :
    roundMem m' header (phdrAddr m header i) = m' := by
  rw [roundMem, hsame.p_type_eq hi, hsame.p_memsz_eq hi]
  exact if_pos (by rwa [Loaded, not_and_or, not_not] at hskip)

/-- The segments that the first program headers describe are loaded, and nothing else is changed. -/
structure LoadedUpTo (m : Mem) (header : Addr) (k : ℕ) (m' : Mem) : Prop where
  contents : ∀ i < k, Loaded m header i → ∀ j < (p_memsz m (phdrAddr m header i)).toNat,
    m' (p_paddr m (phdrAddr m header i) + addr j) = segmentByte m header (phdrAddr m header i) j
  frame : ∀ x : Addr, (∀ i < k, Loaded m header i →
    ¬ (segmentStart m header i ≤ x.toNat ∧ x.toNat < segmentEnd m header i)) → m' x = m x

/-- The segments that have been loaded are not in the file. -/
theorem LoadedUpTo.sameFile (h : LoadedUpTo m header k m') (himage : Loadable m header size)
    (hk : k ≤ (e_phnum m header).toNat) : SameFile m m' header size := by
  intro j hj
  have hfile := himage.file
  refine h.frame _ fun i hi hloaded hin ↦ ?_
  have hapart := himage.apart i (by omega) hloaded
  rw [toNat_add_ofNat header (by omega)] at hin
  omega

/-- **One more segment is loaded**: it is where it should be, the earlier ones are still there. -/
theorem LoadedUpTo.succ (h : LoadedUpTo m header k m') (himage : Loadable m header size)
    (hk : k < (e_phnum m header).toNat) :
    LoadedUpTo m header (k + 1) (roundMem m' header (phdrAddr m header k)) := by
  have hsame := h.sameFile himage (Nat.le_of_lt hk)
  by_cases hloaded : Loaded m header k
  · have hnoWrap := himage.noWrap k hk hloaded
    rw [roundMem_of_loaded himage hsame hk hloaded]
    refine ⟨fun i hi hi' j hj ↦ ?_, fun x hx ↦ ?_⟩
    · rcases Nat.lt_succ_iff_lt_or_eq.mp hi with hlt | rfl
      · have hdisjoint := himage.disjoint i (by omega) k hk (by omega) hi' hloaded
        have hnoWrap' := himage.noWrap i (by omega) hi'
        rw [segmentEnd, segmentStart, segmentEnd, segmentStart] at *
        rw [Mem.write_of_not_mem, h.contents i hlt hi' j hj]
        rw [mem_range_iff hnoWrap, toNat_add_ofNat _ (by omega)]
        omega
      · rw [segmentEnd, segmentStart] at hnoWrap
        exact Mem.write_add hj (by omega)
    · rw [Mem.write_of_not_mem, h.frame x fun i hi ↦ hx i (Nat.lt_succ_of_lt hi)]
      rw [mem_range_iff hnoWrap]
      exact hx k k.lt_succ_self hloaded
  · rw [roundMem_of_not_loaded (hsame.sameHeaders himage.toTableInside) hk hloaded]
    refine ⟨fun i hi hi' ↦ ?_, fun x hx ↦ h.frame x fun i hi ↦ hx i (Nat.lt_succ_of_lt hi)⟩
    rcases Nat.lt_succ_iff_lt_or_eq.mp hi with hlt | rfl
    · exact h.contents i hlt hi'
    · exact absurd hi' hloaded

theorem loadedUpTo_declaredMem (himage : Loadable m header size)
    (hk : k ≤ (e_phnum m header).toNat) : LoadedUpTo m header k (declaredMem m header k) := by
  induction k with
  | zero => exact ⟨fun i hi ↦ absurd hi i.not_lt_zero, fun x _ ↦ rfl⟩
  | succ k ih => exact (ih (Nat.le_of_succ_le hk)).succ himage hk

/-! ## The whole load -/

/-- The segments that are loaded overwrite neither `e_phentsize` nor the program headers. -/
def HeadersKept (m : Mem) (header : Addr) : Prop :=
  ∀ i ≤ (e_phnum m header).toNat, SameHeaders m (declaredMem m header i) header

theorem Loadable.headersKept (h : Loadable m header size) : HeadersKept m header := fun _ hi ↦
  ((loadedUpTo_declaredMem h hi).sameFile h hi).sameHeaders h.toTableInside

section

variable (htable : TableInside m header size) (hkept : HeadersKept m header)
include htable hkept

theorem onTrack_of_headersKept (hi : i < (e_phnum m header).toNat)
    (hcheck : elf_check_prog_header m (phdrAddr m header i) = true) :
    OnTrack m header i ∧ PhdrAccepted m header i :=
  ⟨⟨(hkept i (Nat.le_of_lt hi)).stride, (htable.lt_endPhdr_iff (Nat.le_of_lt hi)).mpr hi⟩,
    ((hkept i (Nat.le_of_lt hi)).elf_check_prog_header_eq hi).trans hcheck⟩

/-- A file is loaded to the end if nothing is refused. -/
theorem elf32_load_of_accepted (hcheck : ∀ i < (e_phnum m header).toNat,
      elf_check_prog_header m (phdrAddr m header i) = true) :
    elf32_load ((e_phnum m header).toNat + 1) m header =
      some (declaredMem m header (e_phnum m header).toNat,
        finalMem (declaredMem m header (e_phnum m header).toNat) header
          (some (phdrAddr m header (e_phnum m header).toNat))) := by
  have hstride := (hkept _ (Nat.le_refl _)).stride
  have hdone : elf32LoadStep header (endPhdr m header)
      (declaredMem m header (e_phnum m header).toNat, phdrAddr m header (e_phnum m header).toNat) =
        .done (declaredMem m header (e_phnum m header).toNat,
          some (phdrAddr m header (e_phnum m header).toNat)) :=
    elf32LoadStep_of_end (mt (htable.lt_endPhdr_iff (Nat.le_refl _)).mp (Nat.lt_irrefl _))
  have hrun := Loop.run_of_path (f := fun i ↦ (declaredMem m header i, reachedPhdr m header i))
    (declared_path fun i hi ↦ onTrack_of_headersKept htable hkept hi (hcheck i hi)) 1
  rw [reachedPhdr_of_kept hstride, Loop.run_succ_of_done hdone] at hrun
  exact congrArg (Option.map _) hrun

/-- The load is given up at the first program header that is refused. -/
theorem elf32_load_of_refused (hk : k < (e_phnum m header).toNat)
    (hcheck : ∀ i < k, elf_check_prog_header m (phdrAddr m header i) = true)
    (hrefused : elf_check_prog_header m (phdrAddr m header k) ≠ true) :
    elf32_load (k + 1) m header = some (declaredMem m header k, 0) := by
  have hsame := hkept k (Nat.le_of_lt hk)
  have hdone : elf32LoadStep header (endPhdr m header)
      (declaredMem m header k, phdrAddr m header k) = .done (declaredMem m header k, none) := by
    refine elf32LoadStep_of_refused ((htable.lt_endPhdr_iff (Nat.le_of_lt hk)).mpr hk) ?_
    rwa [hsame.elf_check_prog_header_eq hk]
  have hrun := Loop.run_of_path (f := fun i ↦ (declaredMem m header i, reachedPhdr m header i))
    (declared_path fun i hi ↦
      onTrack_of_headersKept htable hkept (Nat.lt_trans hi hk) (hcheck i hi)) 1
  rw [reachedPhdr_of_kept hsame.stride, Loop.run_succ_of_done hdone] at hrun
  exact congrArg (Option.map _) hrun

end

/-- **Segments are loaded exactly.** -/
theorem elf32_load_exact (himage : Loadable m header size) :
    ∃ fuel m' endPtr, elf32_load fuel m header = some (m', endPtr) ∧
      (∀ i < (e_phnum m header).toNat, Loaded m header i →
        ∀ j < (p_memsz m (phdrAddr m header i)).toNat,
          m' (p_paddr m (phdrAddr m header i) + addr j) =
            if j < (p_filesz m (phdrAddr m header i)).toNat then
              m (header + p_offset m (phdrAddr m header i) + addr j)
            else 0) ∧
      ∀ x : Addr, (∀ i < (e_phnum m header).toNat, Loaded m header i →
        ¬ (segmentStart m header i ≤ x.toNat ∧ x.toNat < segmentEnd m header i)) → m' x = m x := by
  have hloaded := loadedUpTo_declaredMem himage (Nat.le_refl _)
  exact ⟨_, _, _, elf32_load_of_accepted himage.toTableInside himage.headersKept himage.accepted,
    hloaded.contents, hloaded.frame⟩

theorem disjoint_of_first
    (hfirst : ∀ i < (e_phnum m header).toNat, Loaded m header i → i = 0) :
    ∀ i < (e_phnum m header).toNat, ∀ j < (e_phnum m header).toNat, i ≠ j →
      Loaded m header i → Loaded m header j →
        segmentEnd m header i ≤ segmentStart m header j ∨
          segmentEnd m header j ≤ segmentStart m header i :=
  fun i hi j hj hne hi' hj' ↦ absurd ((hfirst i hi hi').trans (hfirst j hj hj').symm) hne

/-- The bytes of a program header, for a segment that begins with the file. -/
def smallPhdr (p_type p_paddr p_filesz p_memsz : BitVec 32) : List Byte :=
  [p_type, 0, p_paddr, p_paddr, p_filesz, p_memsz, 5, 0].flatMap fun v ↦
    (List.range 4).map (Mem.byteOf v)

/-- A file with two segments, of 4 and of 8 bytes in the file and of 8 bytes each in memory, one
behind the other. -/
def smallElf : Mem :=
  fileMem (smallEhdr 32 2 ++ smallPhdr PT_LOAD 0x100000 4 8 ++ smallPhdr PT_LOAD 0x100008 8 8)

theorem loadable_smallElf : Loadable smallElf 0x20000 116 := by
  have hcount : (e_phnum smallElf 0x20000).toNat = 2 := by decide +kernel
  refine ⟨⟨by decide, by decide, ?_, ?_⟩, ?_, ?_, ?_, ?_, ?_, fun i hi j hj hne _ _ ↦ ?_⟩
  case refine_8 =>
    rw [hcount] at hi hj
    obtain ⟨rfl, rfl⟩ | ⟨rfl, rfl⟩ : i = 0 ∧ j = 1 ∨ i = 1 ∧ j = 0 := by omega
    · left
      decide +kernel
    · right
      decide +kernel
  all_goals decide +kernel

/-- The first one is loaded with four zeros behind its bytes of the file, and right behind them the
second one. -/
theorem elf32_load_exact_smallElf : ∃ fuel m' endPtr,
    elf32_load fuel smallElf 0x20000 = some (m', endPtr) ∧ m' 0x100001 = 0x45 ∧
      m' 0x100006 = 0 ∧ m' 0x100009 = 0x45 := by
  obtain ⟨fuel, m', endPtr, hload, hcontents, -⟩ := elf32_load_exact loadable_smallElf
  have hfirst := hcontents 0 (by decide +kernel) (by decide +kernel)
  have hsecond := hcontents 1 (by decide +kernel) (by decide +kernel)
  exact ⟨fuel, m', endPtr, hload, hfirst 1 (by decide +kernel), hfirst 6 (by decide +kernel),
    hsecond 1 (by decide +kernel)⟩

/-! ## What is returned -/

/-- A file whose program headers describe a segment that is loaded, and none that wraps. -/
structure WellFormedTable (m : Mem) (header : Addr) (size : ℕ) : Prop
    extends TableInside m header size where
  loaded : ∃ i < (e_phnum m header).toNat, Loaded m header i
  noWrap : ∀ i < (e_phnum m header).toNat, Loaded m header i → segmentEnd m header i < 2 ^ 32

/-- The address is the end of the loaded program. -/
def IsProgramEnd (m : Mem) (header a : Addr) : Prop :=
  IsGreatest {e | ∃ i < (e_phnum m header).toNat, Loaded m header i ∧ segmentEnd m header i = e}
    a.toNat

/-- What the caller of `elf32_load` takes its result for. -/
structure EndMeant (m : Mem) (header endPtr : Addr) : Prop where
  null : endPtr = 0 ↔ ∃ i < (e_phnum m header).toNat,
    elf_check_prog_header m (phdrAddr m header i) ≠ true
  programEnd : (∀ i < (e_phnum m header).toNat,
    elf_check_prog_header m (phdrAddr m header i) = true) → IsProgramEnd m header endPtr

/-- The end that the last program header describes, of whatever type it is. -/
def lastEnd (m : Mem) (header : Addr) : Addr :=
  p_paddr m (phdrAddr m header ((e_phnum m header).toNat - 1)) +
    p_memsz m (phdrAddr m header ((e_phnum m header).toNat - 1))

/-- The loop leaves its pointer behind the last program header, so one distance is taken off. -/
theorem finalMem_eq (htable : TableInside m header size) (hkept : HeadersKept m header)
    (hpos : 0 < (e_phnum m header).toNat) :
    finalMem (declaredMem m header (e_phnum m header).toNat) header
      (some (phdrAddr m header (e_phnum m header).toNat)) = lastEnd m header := by
  have hsame := hkept _ (Nat.le_refl _)
  obtain ⟨k, hk⟩ : ∃ k, (e_phnum m header).toNat = k + 1 := ⟨_, (Nat.sub_add_cancel hpos).symm⟩
  have hlast : phdrAddr m header (k + 1) - (e_phentsize m header).setWidth 32 =
      phdrAddr m header k := by
    rw [htable.phdrAddr_eq, htable.phdrAddr_eq, htable.stride, Nat.add_one_mul]
    bv_omega
  rw [finalMem, hsame.stride, hk, hlast, ← hk, hsame.p_paddr_eq (by omega),
    hsame.p_memsz_eq (by omega), lastEnd, hk, Nat.add_sub_cancel]

/-- A program that is loaded does not end at address 0. -/
theorem IsProgramEnd.ne_zero {a : Addr} (h : IsProgramEnd m header a) : a ≠ 0 := by
  rintro rfl
  obtain ⟨i, -, hloaded, hend⟩ := h.1
  rw [segmentEnd] at hend
  have hmemsz : (p_memsz m (phdrAddr m header i)).toNat = 0 :=
    Nat.eq_zero_of_add_eq_zero_left hend
  exact hloaded.2 (BitVec.eq_of_toNat_eq hmemsz)

/-- Where the headers stay what they are: the result is meant if the file is refused, or if the
program header that happens to be the last describes the greatest end of all the loaded segments. -/
theorem end_iff_of_headersKept (htable : WellFormedTable m header size)
    (hkept : HeadersKept m header) :
    (∃ fuel m' endPtr, elf32_load fuel m header = some (m', endPtr) ∧
        EndMeant m header endPtr) ↔
      (∃ i < (e_phnum m header).toNat,
          elf_check_prog_header m (phdrAddr m header i) ≠ true) ∨
        IsProgramEnd m header (lastEnd m header) := by
  by_cases hrefused : ∃ i < (e_phnum m header).toNat,
      elf_check_prog_header m (phdrAddr m header i) ≠ true
  · refine iff_of_true ?_ (.inl hrefused)
    have hfirst := Nat.find_spec hrefused
    have hbefore : ∀ i < Nat.find hrefused,
        elf_check_prog_header m (phdrAddr m header i) = true := by
      intro i hi
      by_contra hcheck
      exact Nat.find_min hrefused hi ⟨Nat.lt_trans hi hfirst.1, hcheck⟩
    obtain ⟨i, hi, hcheck⟩ := hrefused
    exact ⟨_, _, _, elf32_load_of_refused htable.toTableInside hkept hfirst.1 hbefore hfirst.2,
      iff_of_true rfl ⟨i, hi, hcheck⟩, fun hall ↦ absurd (hall i hi) hcheck⟩
  · have hcheck : ∀ i < (e_phnum m header).toNat,
        elf_check_prog_header m (phdrAddr m header i) = true := fun i hi ↦ by
      by_contra h
      exact hrefused ⟨i, hi, h⟩
    have hpos : 0 < (e_phnum m header).toNat := by
      obtain ⟨i, hi, -⟩ := htable.loaded
      exact Nat.zero_lt_of_lt hi
    have hload := elf32_load_of_accepted htable.toTableInside hkept hcheck
    rw [finalMem_eq htable.toTableInside hkept hpos] at hload
    refine ⟨?_, ?_⟩
    · rintro ⟨fuel, m', endPtr, hload', hmeant⟩
      cases elf32_load_unique hload hload'
      exact .inr (hmeant.programEnd hcheck)
    · intro h
      have hend := h.resolve_left hrefused
      exact ⟨_, _, _, hload, iff_of_false hend.ne_zero hrefused, fun _ ↦ hend⟩

/-! ### Where a segment overwrites the headers -/

/-- The memory when a program header is met, and where that is, if the loop has gone on so far: it
goes by what the segments have made of the headers. -/
def met (m : Mem) (header : Addr) : ℕ → Mem × Addr
  | 0 => (m, firstPhdr m header)
  | i + 1 =>
    let m' := roundMem (met m header i).1 header (met m header i).2
    (m', (met m header i).2 + (e_phentsize m' header).setWidth 32)

/-- The program header that is met in round `i` is accepted. -/
def MetAccepted (m : Mem) (header : Addr) (i : ℕ) : Prop :=
  (met m header i).2 < endPhdr m header ∧
    elf_check_prog_header (met m header i).1 (met m header i).2 = true

/-- What the program header in front of the one met in round `i` describes by then. -/
def metEnd (m : Mem) (header : Addr) (i : ℕ) : Addr :=
  let ph := (met m header i).2 - (e_phentsize (met m header i).1 header).setWidth 32
  p_paddr (met m header i).1 ph + p_memsz (met m header i).1 ph

/-- Of the program headers that are met, one is refused, and so is one of those that the file has;
or they lead to the end of the program, and none is refused.  (If one in the file is refused, but
none that is met, they may lead to address 0 all the same.) -/
def MeantAsMet (m : Mem) (header : Addr) : Prop :=
  ∃ k, (∀ i < k, MetAccepted m header i) ∧
    ((met m header k).2 < endPhdr m header ∧
        elf_check_prog_header (met m header k).1 (met m header k).2 ≠ true ∧
        (∃ i < (e_phnum m header).toNat,
          elf_check_prog_header m (phdrAddr m header i) ≠ true) ∨
      ¬ (met m header k).2 < endPhdr m header ∧
        ((∃ i < (e_phnum m header).toNat,
            elf_check_prog_header m (phdrAddr m header i) ≠ true) ∧ metEnd m header k = 0 ∨
          (∀ i < (e_phnum m header).toNat,
            elf_check_prog_header m (phdrAddr m header i) = true) ∧
              IsProgramEnd m header (metEnd m header k)))

/-- A path of the loop is along the program headers that are met. -/
theorem path_eq_met {f : ℕ → Mem × Addr} (hstart : f 0 = (m, firstPhdr m header))
    (hpath : ∀ i < k, elf32LoadStep header (endPhdr m header) (f i) = .next (f (i + 1))) :
    ∀ i ≤ k, f i = met m header i := by
  intro i hi
  induction i with
  | zero => exact hstart
  | succ i ih =>
    obtain ⟨-, -, hnext⟩ := of_elf32LoadStep_next (hpath i hi)
    rw [hnext, ih (Nat.le_of_succ_le hi)]
    rfl

theorem met_path (hk : ∀ i < k, MetAccepted m header i) : ∀ i < k,
    elf32LoadStep header (endPhdr m header) (met m header i) = .next (met m header (i + 1)) := by
  intro i hi
  obtain ⟨hlt, hcheck⟩ := hk i hi
  exact elf32LoadStep_of_accepted hlt hcheck

/-- **When the loop ends**: if one of the program headers that are met is refused, or not met any
more. -/
theorem elf32_load_ends_iff (m : Mem) (header : Addr) :
    (∃ fuel r, elf32_load fuel m header = some r) ↔ ∃ k, ¬ MetAccepted m header k := by
  have hnext : ∀ i s, elf32LoadStep header (endPhdr m header) (met m header i) = .next s →
      s = met m header (i + 1) := fun i s h ↦ (of_elf32LoadStep_next h).2.2
  have hends := Loop.exists_returns_iff hnext
  have hload : (∃ fuel r, elf32_load fuel m header = some r) ↔
      ∃ a, Loop.Returns (elf32LoadStep header (endPhdr m header)) (met m header 0) a := by
    simp only [elf32_load_eq, Option.map_eq_some_iff, Loop.Returns]
    constructor
    · rintro ⟨fuel, -, a, hrun, -⟩
      exact ⟨a, fuel, hrun⟩
    · rintro ⟨a, fuel, hrun⟩
      exact ⟨fuel, _, a, hrun, rfl⟩
  rw [hload, hends]
  refine exists_congr fun k ↦ ⟨fun ⟨a, hdone⟩ hmet ↦ ?_, fun hmet ↦ ?_⟩
  · rw [elf32LoadStep_of_accepted hmet.1 hmet.2] at hdone
    cases hdone
  · cases hb : elf32LoadStep header (endPhdr m header) (met m header k) with
    | done a => exact ⟨a, rfl⟩
    | next s => exact absurd ⟨(of_elf32LoadStep_next hb).1, (of_elf32LoadStep_next hb).2.1⟩ hmet

theorem meantAsMet_of_load {fuel : ℕ} {m' : Mem} {endPtr : Addr}
    (hload : elf32_load fuel m header = some (m', endPtr)) (hmeant : EndMeant m header endPtr) :
    MeantAsMet m header := by
  rw [elf32_load_eq] at hload
  obtain ⟨⟨m'', r⟩, hrun, hresult⟩ := Option.map_eq_some_iff.mp hload
  obtain ⟨rfl, rfl⟩ := Prod.mk.inj hresult
  obtain ⟨f, k, hstart, -, hpath, hdone⟩ := Loop.path_of_run hrun
  have hmet := path_eq_met hstart hpath
  refine ⟨k, fun i hi ↦ ?_, ?_⟩
  · obtain ⟨hlt, hcheck, -⟩ := of_elf32LoadStep_next (hpath i hi)
    rw [hmet i (Nat.le_of_lt hi)] at hlt hcheck
    exact ⟨hlt, hcheck⟩
  · rw [hmet k (Nat.le_refl _)] at hdone
    obtain ⟨hend, hresult⟩ | ⟨hlt, hcheck, hresult⟩ := of_elf32LoadStep_done hdone
    · obtain ⟨rfl, rfl⟩ := Prod.mk.inj hresult
      refine .inr ⟨hend, ?_⟩
      by_cases hrefused : ∃ i < (e_phnum m header).toNat,
          elf_check_prog_header m (phdrAddr m header i) ≠ true
      · exact .inl ⟨hrefused, hmeant.null.mpr hrefused⟩
      · have hall : ∀ i < (e_phnum m header).toNat,
            elf_check_prog_header m (phdrAddr m header i) = true := fun i hi ↦ by
          by_contra h
          exact hrefused ⟨i, hi, h⟩
        exact .inr ⟨hall, hmeant.programEnd hall⟩
    · obtain ⟨rfl, rfl⟩ := Prod.mk.inj hresult
      exact .inl ⟨hlt, hcheck, hmeant.null.mp rfl⟩

theorem load_of_meantAsMet (h : MeantAsMet m header) :
    ∃ fuel m' endPtr, elf32_load fuel m header = some (m', endPtr) ∧ EndMeant m header endPtr := by
  obtain ⟨k, hk, hend⟩ := h
  have hrun := Loop.run_of_path (met_path hk) 1
  obtain ⟨hlt, hcheck, i, hi, hrefused⟩ | ⟨hout, hvalue⟩ := hend
  · rw [Loop.run_succ_of_done (elf32LoadStep_of_refused hlt hcheck)] at hrun
    exact ⟨k + 1, (met m header k).1, 0, congrArg (Option.map _) hrun,
      iff_of_true rfl ⟨i, hi, hrefused⟩, fun hall ↦ absurd (hall i hi) hrefused⟩
  · rw [Loop.run_succ_of_done (elf32LoadStep_of_end hout)] at hrun
    refine ⟨k + 1, (met m header k).1, metEnd m header k, congrArg (Option.map _) hrun, ?_⟩
    obtain ⟨⟨i, hi, hrefused⟩, hzero⟩ | ⟨hall, hprogramEnd⟩ := hvalue
    · exact ⟨iff_of_true hzero ⟨i, hi, hrefused⟩, fun hall ↦ absurd (hall i hi) hrefused⟩
    · refine ⟨iff_of_false hprogramEnd.ne_zero ?_, fun _ ↦ hprogramEnd⟩
      rintro ⟨i, hi, hrefused⟩
      exact hrefused (hall i hi)

/-- The result is meant if the program headers that are met lead to it. -/
theorem end_iff_of_met (m : Mem) (header : Addr) :
    (∃ fuel m' endPtr, elf32_load fuel m header = some (m', endPtr) ∧ EndMeant m header endPtr) ↔
      MeantAsMet m header :=
  ⟨fun ⟨_, _, _, hload, hmeant⟩ ↦ meantAsMet_of_load hload hmeant, load_of_meantAsMet⟩

/-- A file with a `PT_GNU_STACK` entry behind its segment, as linkers write it. -/
def stackElf : Mem :=
  fileMem (smallEhdr 32 2 ++ smallPhdr PT_LOAD 0x100000 4 8 ++ smallPhdr 0x6474e551 0 0 0)

theorem loadable_stackElf : Loadable stackElf 0x20000 116 := by
  refine ⟨⟨by decide, by decide, ?_, ?_⟩, ?_, ?_, ?_, ?_, ?_, disjoint_of_first ?_⟩
  all_goals decide +kernel

end RainbowOS
