import RainbowOS.Lib.Loop
import RainbowOS.StdlibC.Memmove

/-!
# Loading an ELF file: `elf_check_file` and `elf32_load`

The file lies in memory as a whole.  `elf32_load` goes through the program headers and copies the
loadable segments to their physical addresses; it does so in the memory that the headers are in, so
it reads every member anew, as the source does.

Neither function is protected from the file.  The header says how far apart the program headers are,
and with a distance of 0 the loop over them does not end (`elf32_load_diverges`).
-/

set_option autoImplicit false

namespace RainbowOS

/-! ## The headers -/

namespace Elf32Ehdr

/-- `e_ident[i]`. -/
def e_ident (m : Mem) (header : Addr) (i : ℕ) : Byte := m (header + addr i)

/-- `e_type`. -/
def e_type (m : Mem) (header : Addr) : BitVec 16 := m.read16 (header + 16)

/-- `e_machine`. -/
def e_machine (m : Mem) (header : Addr) : BitVec 16 := m.read16 (header + 18)

/-- `e_entry`. -/
def e_entry (m : Mem) (header : Addr) : BitVec 32 := m.read32 (header + 24)

/-- `e_phoff`. -/
def e_phoff (m : Mem) (header : Addr) : BitVec 32 := m.read32 (header + 28)

/-- `e_phentsize`. -/
def e_phentsize (m : Mem) (header : Addr) : BitVec 16 := m.read16 (header + 42)

/-- `e_phnum`. -/
def e_phnum (m : Mem) (header : Addr) : BitVec 16 := m.read16 (header + 44)

end Elf32Ehdr

namespace Elf32Phdr

/-- `sizeof(elf32_Phdr)`. -/
def size : BitVec 32 := 32

/-- `p_type`. -/
def p_type (m : Mem) (ph : Addr) : BitVec 32 := m.read32 ph

/-- `p_offset`. -/
def p_offset (m : Mem) (ph : Addr) : BitVec 32 := m.read32 (ph + 4)

/-- `p_paddr`. -/
def p_paddr (m : Mem) (ph : Addr) : BitVec 32 := m.read32 (ph + 12)

/-- `p_filesz`. -/
def p_filesz (m : Mem) (ph : Addr) : BitVec 32 := m.read32 (ph + 16)

/-- `p_memsz`. -/
def p_memsz (m : Mem) (ph : Addr) : BitVec 32 := m.read32 (ph + 20)

end Elf32Phdr

open Elf32Ehdr Elf32Phdr

/-- `PT_LOAD`. -/
def PT_LOAD : BitVec 32 := 1

/-- `PT_DYNAMIC`. -/
def PT_DYNAMIC : BitVec 32 := 2

/-- `PT_INTERP`. -/
def PT_INTERP : BitVec 32 := 3

/-! ## The checks -/

/-- `elf_check_file(header)`. -/
def elf_check_file (m : Mem) (header : Addr) : Bool :=
  header ≠ 0 &&
  -- the magic number
  e_ident m header 0 = 0x7f && e_ident m header 1 = 0x45 &&
  e_ident m header 2 = 0x4c && e_ident m header 3 = 0x46 &&
  -- 32 bits, little endian, i386, version 1, executable
  e_ident m header 4 = 1 && e_ident m header 5 = 1 &&
  e_machine m header = 3 && e_ident m header 6 = 1 && e_type m header = 2

/-- `elf_check_prog_header(header)`. -/
def elf_check_prog_header (m : Mem) (ph : Addr) : Bool :=
  p_type m ph ≠ PT_DYNAMIC && p_type m ph ≠ PT_INTERP

/-! ## Loading -/

/-- The part of the loop's body for a segment that is loaded. -/
def loadSegment (m : Mem) (header ph : Addr) : Mem :=
  let dest := p_paddr m ph
  let m := memcpy m dest (header + p_offset m ph) (p_filesz m ph).toNat
  if p_filesz m ph < p_memsz m ph then
    memset m (dest + p_filesz m ph) 0 (p_memsz m ph - p_filesz m ph).toNat
  else m

/-- One round of the loop over the program headers, up to `eph`. -/
def elf32LoadStep (header eph : Addr) :
    Mem × Addr → LoopStep (Mem × Addr) (Mem × Option Addr)
  | (m, ph) =>
    if ph < eph then
      if ¬ elf_check_prog_header m ph then .done (m, none)
      else if p_type m ph ≠ PT_LOAD ∨ p_memsz m ph = 0 then
        .next (m, ph + (e_phentsize m header).setWidth 32)
      else
        let m := loadSegment m header ph
        .next (m, ph + (e_phentsize m header).setWidth 32)
    else .done (m, some ph)

/-- What `elf32_load` returns for the result of its loop: null, or the end of the segment that the
last program header describes. -/
def finalMem (m : Mem) (header : Addr) : Option Addr → Addr
  | none => 0
  | some ph =>
    let ph := ph - (e_phentsize m header).setWidth 32
    p_paddr m ph + p_memsz m ph

/-- `elf32_load(header)`. -/
def elf32_load (fuel : ℕ) (m : Mem) (header : Addr) : Option (Mem × Addr) :=
  let ph := header + e_phoff m header
  let eph := ph + (e_phnum m header).setWidth 32 * Elf32Phdr.size
  (Loop.run (elf32LoadStep header eph) fuel (m, ph)).map fun (m, r) ↦ (m, finalMem m header r)

theorem mono_load {m : Mem} {header : Addr} ⦃i j : ℕ⦄ (hij : i ≤ j) ⦃r : Mem × Addr⦄
    (hi : elf32_load i m header = some r) : elf32_load j m header = some r := by
  obtain ⟨a, ha, rfl⟩ := Option.map_eq_some_iff.mp hi
  exact Option.map_eq_some_iff.mpr ⟨a, Loop.run_mono hij ha, rfl⟩

theorem elf32_load_unique {m : Mem} {header : Addr} {i j : ℕ} {r s : Mem × Addr}
    (hi : elf32_load i m header = some r) (hj : elf32_load j m header = some s) : r = s := by
  have hr := mono_load (Nat.le_max_left i j) hi
  rw [mono_load (Nat.le_max_right i j) hj] at hr
  exact (Option.some.inj hr).symm

/-- **The loop over the program headers need not end**: it does not if the headers are 0 bytes apart
and the first one is of a kind that is skipped. -/
theorem elf32_load_diverges {m : Mem} {header : Addr} (hsize : e_phentsize m header = 0)
    (hlt : header + e_phoff m header <
      header + e_phoff m header + (e_phnum m header).setWidth 32 * Elf32Phdr.size)
    (hcheck : elf_check_prog_header m (header + e_phoff m header) = true)
    (hskip : p_type m (header + e_phoff m header) ≠ PT_LOAD) (fuel : ℕ) :
    elf32_load fuel m header = none := by
  rw [elf32_load, Option.map_eq_none_iff]
  by_contra hne
  obtain ⟨r, hr⟩ := Option.ne_none_iff_exists'.mp hne
  have hround : ∀ s, s = (m, header + e_phoff m header) → ∃ s', elf32LoadStep header
      (header + e_phoff m header + (e_phnum m header).setWidth 32 * Elf32Phdr.size) s = .next s' ∧
        s' = (m, header + e_phoff m header) := by
    rintro s rfl
    refine ⟨_, ?_, rfl⟩
    rw [elf32LoadStep, if_pos hlt, if_neg (by simp [hcheck]), if_pos (.inl hskip), hsize]
    simp
  exact Loop.not_returns_of_invariant hround rfl r ⟨fuel, hr⟩

end RainbowOS
