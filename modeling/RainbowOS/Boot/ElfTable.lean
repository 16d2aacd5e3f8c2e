import RainbowOS.Boot.Elf

/-!
# The walk of `elf32_load` over the program headers

The header of the file declares `e_phnum` program headers, `e_phentsize` bytes apart.  The loop goes
from one to the next by `e_phentsize`, as it is in memory at the time, but its end is computed with
`sizeof(elf32_Phdr)`, which is 32.

`visitsDeclared_iff` says when the loop examines the declared program headers all the same, and
`visitsDeclared_iff_stride` what this comes to for a file that is in nobody's way: there are no
headers at all, or the distance is at least 32 and so close to it that the last header begins before
the end that is computed.

A segment may be loaded over the headers, and then the loop goes by what has become of them.  It may
not be loaded over the code that loads it, or over its stack: the segments keep clear of stage1, as
in every file that can be booted.
-/

set_option autoImplicit false

namespace RainbowOS

open Elf32Ehdr Elf32Phdr

/-! ## The declared program headers -/

/-- The `ph` with which the loop begins. -/
def firstPhdr (m : Mem) (header : Addr) : Addr := header + e_phoff m header

/-- The `eph` of the loop. -/
def endPhdr (m : Mem) (header : Addr) : Addr :=
  firstPhdr m header + (e_phnum m header).setWidth 32 * Elf32Phdr.size

/-- Where program header number `i` is, according to the header of the file. -/
def phdrAddr (m : Mem) (header : Addr) (i : ℕ) : Addr :=
  firstPhdr m header + addr (i * (e_phentsize m header).toNat)

/-- The memory after the round for the program header at `ph`. -/
def roundMem (m : Mem) (header ph : Addr) : Mem :=
  if p_type m ph ≠ PT_LOAD ∨ p_memsz m ph = 0 then m else loadSegment m header ph

/-- The memory after the rounds for the first declared program headers. -/
def declaredMem (m : Mem) (header : Addr) : ℕ → Mem
  | 0 => m
  | i + 1 => roundMem (declaredMem m header i) header (phdrAddr m header i)

/-- Where the loop is after these rounds. -/
def reachedPhdr (m : Mem) (header : Addr) : ℕ → Addr
  | 0 => firstPhdr m header
  | i + 1 => phdrAddr m header i + (e_phentsize (declaredMem m header (i + 1)) header).setWidth 32

/-- The program headers that are examined in the first rounds. -/
def examined (m : Mem) (header : Addr) (fuel : ℕ) : List Addr :=
  ((Loop.states (elf32LoadStep header (endPhdr m header)) fuel (m, firstPhdr m header)).map
    Prod.snd).filter (· < endPhdr m header)

/-- The loop ends, and it has examined the declared program headers, each once and in order: all of
them, or those up to the one at which it stops early. -/
structure VisitsDeclared (m : Mem) (header : Addr) (fuel : ℕ) (result : Mem × Option Addr) :
    Prop where
  returns : Loop.run (elf32LoadStep header (endPhdr m header)) fuel (m, firstPhdr m header) =
    some result
  all : result.2 ≠ none →
    examined m header fuel = (List.range (e_phnum m header).toNat).map (phdrAddr m header)
  early : result.2 = none → ∃ k < (e_phnum m header).toNat,
    examined m header fuel = (List.range (k + 1)).map (phdrAddr m header)

/-- The loop is at program header number `i`, if it was at those before: the loaded segments have
left `e_phentsize` as it was, and the program header is before the end that the loop knows. -/
structure OnTrack (m : Mem) (header : Addr) (i : ℕ) : Prop where
  kept : e_phentsize (declaredMem m header i) header = e_phentsize m header
  lt : phdrAddr m header i < endPhdr m header

/-- Program header number `i` is not refused. -/
def PhdrAccepted (m : Mem) (header : Addr) (i : ℕ) : Prop :=
  elf_check_prog_header (declaredMem m header i) (phdrAddr m header i) = true

variable {m : Mem} {header ph eph : Addr} {k : ℕ}

theorem elf32_load_eq (fuel : ℕ) (m : Mem) (header : Addr) : elf32_load fuel m header =
    (Loop.run (elf32LoadStep header (endPhdr m header)) fuel (m, firstPhdr m header)).map
      fun (m, r) ↦ (m, finalMem m header r) :=
  rfl

/-! ## The rounds of the loop -/

theorem elf32LoadStep_of_end (hend : ¬ ph < eph) :
    elf32LoadStep header eph (m, ph) = .done (m, some ph) := by
  rw [elf32LoadStep, if_neg hend]

theorem elf32LoadStep_of_refused (hlt : ph < eph) (hcheck : elf_check_prog_header m ph ≠ true) :
    elf32LoadStep header eph (m, ph) = .done (m, none) := by
  rw [elf32LoadStep, if_pos hlt, if_pos hcheck]

theorem elf32LoadStep_of_accepted (hlt : ph < eph) (hcheck : elf_check_prog_header m ph = true) :
    elf32LoadStep header eph (m, ph) = .next (roundMem m header ph,
      ph + (e_phentsize (roundMem m header ph) header).setWidth 32) := by
  rw [elf32LoadStep, if_pos hlt, if_neg (not_not.mpr hcheck), roundMem]
  split <;> rfl

/-- A round goes on only from a program header that is accepted. -/
theorem of_elf32LoadStep_next {s s' : Mem × Addr} (h : elf32LoadStep header eph s = .next s') :
    s.2 < eph ∧ elf_check_prog_header s.1 s.2 = true ∧ s' = (roundMem s.1 header s.2,
      s.2 + (e_phentsize (roundMem s.1 header s.2) header).setWidth 32) := by
  obtain ⟨m, ph⟩ := s
  by_cases hlt : ph < eph
  · by_cases hcheck : elf_check_prog_header m ph = true
    · rw [elf32LoadStep_of_accepted hlt hcheck] at h
      exact ⟨hlt, hcheck, (LoopStep.next.inj h).symm⟩
    · rw [elf32LoadStep_of_refused hlt hcheck] at h
      cases h
  · rw [elf32LoadStep_of_end hlt] at h
    cases h

/-- The loop is left at its end, or at a program header that is refused. -/
theorem of_elf32LoadStep_done {s : Mem × Addr} {r : Mem × Option Addr}
    (h : elf32LoadStep header eph s = .done r) :
    ¬ s.2 < eph ∧ r = (s.1, some s.2) ∨
      s.2 < eph ∧ elf_check_prog_header s.1 s.2 ≠ true ∧ r = (s.1, none) := by
  obtain ⟨m, ph⟩ := s
  by_cases hlt : ph < eph
  · by_cases hcheck : elf_check_prog_header m ph = true
    · rw [elf32LoadStep_of_accepted hlt hcheck] at h
      cases h
    · rw [elf32LoadStep_of_refused hlt hcheck] at h
      exact .inr ⟨hlt, hcheck, (LoopStep.done.inj h).symm⟩
  · rw [elf32LoadStep_of_end hlt] at h
    exact .inl ⟨hlt, (LoopStep.done.inj h).symm⟩

theorem reachedPhdr_of_kept {i : ℕ}
    (hkept : e_phentsize (declaredMem m header i) header = e_phentsize m header) :
    reachedPhdr m header i = phdrAddr m header i := by
  cases i with
  | zero => simp [reachedPhdr, phdrAddr]
  | succ i =>
    rw [reachedPhdr, hkept, phdrAddr, phdrAddr, Nat.add_one_mul]
    bv_omega

theorem kept_of_reachedPhdr {i : ℕ} (h : reachedPhdr m header i = phdrAddr m header i) :
    e_phentsize (declaredMem m header i) header = e_phentsize m header := by
  cases i with
  | zero => rfl
  | succ i =>
    rw [reachedPhdr, phdrAddr, phdrAddr, Nat.add_one_mul] at h
    bv_omega

/-! ## The walk -/

/-- The loop goes along the declared program headers, as long as it is on track. -/
theorem declared_path (hk : ∀ i < k, OnTrack m header i ∧ PhdrAccepted m header i) : ∀ i < k,
    elf32LoadStep header (endPhdr m header) (declaredMem m header i, reachedPhdr m header i) =
      .next (declaredMem m header (i + 1), reachedPhdr m header (i + 1)) := by
  intro i hi
  obtain ⟨htrack, haccepted⟩ := hk i hi
  rw [reachedPhdr_of_kept htrack.kept, elf32LoadStep_of_accepted htrack.lt haccepted]
  rfl

/-- A path along the declared program headers is the walk over them. -/
theorem path_eq_declared {f : ℕ → Mem × Addr} (hstart : f 0 = (m, firstPhdr m header))
    (hpath : ∀ i < k, elf32LoadStep header (endPhdr m header) (f i) = .next (f (i + 1)))
    (hdeclared : ∀ i < k, (f i).2 = phdrAddr m header i) :
    ∀ i ≤ k, f i = (declaredMem m header i, reachedPhdr m header i) := by
  intro i hi
  induction i with
  | zero => exact hstart
  | succ i ih =>
    obtain ⟨-, -, hnext⟩ := of_elf32LoadStep_next (hpath i hi)
    have hphdr := hdeclared i hi
    rw [ih (Nat.le_of_succ_le hi)] at hnext hphdr
    rw [hnext, hphdr]
    rfl

/-- The last state of the loop is at a program header only if it is refused. -/
theorem examined_of_path {f : ℕ → Mem × Addr} {fuel : ℕ} {r : Mem × Option Addr}
    (hstart : f 0 = (m, firstPhdr m header)) (hlt : k < fuel)
    (hpath : ∀ i < k, elf32LoadStep header (endPhdr m header) (f i) = .next (f (i + 1)))
    (hdone : elf32LoadStep header (endPhdr m header) (f k) = .done r) :
    examined m header fuel =
      (List.range (if r.2 = none then k + 1 else k)).map fun i ↦ (f i).2 := by
  have hbefore : ((List.range k).map fun i ↦ (f i).2).filter (· < endPhdr m header) =
      (List.range k).map fun i ↦ (f i).2 := by
    refine List.filter_eq_self.mpr fun ph hph ↦ ?_
    obtain ⟨i, hi, rfl⟩ := List.mem_map.mp hph
    exact decide_eq_true (of_elf32LoadStep_next (hpath i (List.mem_range.mp hi))).1
  rw [examined, ← hstart, Loop.states_of_path_done hpath hdone hlt, List.map_map, List.range_succ,
    List.map_append, List.filter_append]
  rcases of_elf32LoadStep_done hdone with ⟨hend, rfl⟩ | ⟨hin, -, rfl⟩
  · rw [if_neg (Option.some_ne_none _)]
    refine (congrArg₂ (· ++ ·) hbefore ?_).trans (List.append_nil _)
    simp [hend]
  · rw [if_pos rfl, List.range_succ, List.map_append]
    refine congrArg₂ (· ++ ·) hbefore ?_
    simp [hin]

/-- Lists of program headers that agree with the declared ones. -/
theorem phdrs_eq_declared {f : ℕ → Addr} {j k : ℕ}
    (h : (List.range j).map f = (List.range k).map (phdrAddr m header)) :
    j = k ∧ ∀ i < j, f i = phdrAddr m header i := by
  obtain rfl : j = k := by simpa using congrArg List.length h
  exact ⟨rfl, fun i hi ↦ List.map_inj_left.mp h i (List.mem_range.mpr hi)⟩

/-! ## When it is the declared one -/

/-- A loop that stays on track ends behind the last program header. -/
theorem visitsDeclared_of_end
    (htrack : ∀ i < (e_phnum m header).toNat, OnTrack m header i ∧ PhdrAccepted m header i)
    (hend : ¬ reachedPhdr m header (e_phnum m header).toNat < endPhdr m header) :
    ∃ fuel result, VisitsDeclared m header fuel result := by
  have hpath := declared_path htrack
  have hdone :=
    @elf32LoadStep_of_end (declaredMem m header (e_phnum m header).toNat) header _ _ hend
  have hexamined := examined_of_path (f := fun i ↦ (declaredMem m header i, reachedPhdr m header i))
    rfl (Nat.lt_succ_self _) hpath hdone
  have hrun := Loop.run_of_path (f := fun i ↦ (declaredMem m header i, reachedPhdr m header i))
    hpath 1
  rw [Loop.run_succ_of_done hdone] at hrun
  refine ⟨_, _, hrun, fun _ ↦ hexamined.trans (List.map_congr_left fun i hi ↦ ?_), nofun⟩
  exact reachedPhdr_of_kept (htrack i (List.mem_range.mp hi)).1.kept

/-- A loop that stays on track ends at the first program header that is refused. -/
theorem visitsDeclared_of_refused (hk : k < (e_phnum m header).toNat)
    (htrack : ∀ i < k, OnTrack m header i ∧ PhdrAccepted m header i) (hat : OnTrack m header k)
    (hrefused : ¬ PhdrAccepted m header k) :
    ∃ fuel result, VisitsDeclared m header fuel result := by
  have hpath := declared_path htrack
  have hreached : ∀ i < k + 1, reachedPhdr m header i = phdrAddr m header i := by
    intro i hi
    rcases Nat.lt_succ_iff_lt_or_eq.mp hi with hlt | rfl
    · exact reachedPhdr_of_kept (htrack i hlt).1.kept
    · exact reachedPhdr_of_kept hat.kept
  have hdone : elf32LoadStep header (endPhdr m header)
      (declaredMem m header k, reachedPhdr m header k) = .done (declaredMem m header k, none) := by
    rw [hreached k k.lt_succ_self]
    exact elf32LoadStep_of_refused hat.lt hrefused
  have hexamined := examined_of_path (f := fun i ↦ (declaredMem m header i, reachedPhdr m header i))
    rfl k.lt_succ_self hpath hdone
  have hrun := Loop.run_of_path (f := fun i ↦ (declaredMem m header i, reachedPhdr m header i))
    hpath 1
  rw [Loop.run_succ_of_done hdone] at hrun
  refine ⟨_, _, hrun, fun h ↦ absurd rfl h, fun _ ↦ ⟨k, hk, ?_⟩⟩
  exact hexamined.trans (List.map_congr_left fun i hi ↦ hreached i (List.mem_range.mp hi))

/-- Where the loop has been, it was on track, if that were declared program headers. -/
theorem onTrack_of_path {f : ℕ → Mem × Addr} (hstart : f 0 = (m, firstPhdr m header))
    (hpath : ∀ i < k, elf32LoadStep header (endPhdr m header) (f i) = .next (f (i + 1)))
    (hdeclared : ∀ i < k, (f i).2 = phdrAddr m header i) :
    ∀ i < k, OnTrack m header i ∧ PhdrAccepted m header i := by
  intro i hi
  obtain ⟨hlt, hcheck, -⟩ := of_elf32LoadStep_next (hpath i hi)
  have hphdr := hdeclared i hi
  rw [path_eq_declared hstart hpath hdeclared i (Nat.le_of_lt hi)] at hlt hcheck hphdr
  rw [hphdr] at hlt hcheck
  exact ⟨⟨kept_of_reachedPhdr hphdr, hlt⟩, hcheck⟩

/-- **When the loop visits the declared program headers.**  It is on track at every one of them that
it comes to; and it is at its end behind the last one, or stops early at one that is refused.  (The
loop itself is taken to be out of the way of the segments.) -/
theorem visitsDeclared_iff (m : Mem) (header : Addr) :
    (∃ fuel result, VisitsDeclared m header fuel result) ↔
      (∀ i < (e_phnum m header).toNat, OnTrack m header i ∧ PhdrAccepted m header i) ∧
          ¬ reachedPhdr m header (e_phnum m header).toNat < endPhdr m header ∨
        ∃ k < (e_phnum m header).toNat,
          (∀ i < k, OnTrack m header i ∧ PhdrAccepted m header i) ∧
            OnTrack m header k ∧ ¬ PhdrAccepted m header k := by
  constructor
  · rintro ⟨fuel, result, hvisits⟩
    obtain ⟨f, k, hstart, hlt, hpath, hdone⟩ := Loop.path_of_run hvisits.returns
    have hexamined := examined_of_path hstart hlt hpath hdone
    rcases of_elf32LoadStep_done hdone with ⟨hend, rfl⟩ | ⟨hin, hcheck, rfl⟩
    · have hall := hvisits.all (Option.some_ne_none _)
      rw [hexamined, if_neg (Option.some_ne_none _)] at hall
      obtain ⟨rfl, hdeclared⟩ := phdrs_eq_declared hall
      rw [path_eq_declared hstart hpath hdeclared _ (Nat.le_refl _)] at hend
      exact .inl ⟨onTrack_of_path hstart hpath hdeclared, hend⟩
    · obtain ⟨j, hj, hearly⟩ := hvisits.early rfl
      rw [hexamined, if_pos rfl] at hearly
      obtain ⟨hjk, hdeclared⟩ := phdrs_eq_declared hearly
      obtain rfl : k = j := Nat.succ.inj hjk
      have hbefore : ∀ i < k, (f i).2 = phdrAddr m header i := fun i hi ↦
        hdeclared i (Nat.lt_succ_of_lt hi)
      have hphdr := hdeclared k k.lt_succ_self
      rw [path_eq_declared hstart hpath hbefore k (Nat.le_refl k)] at hin hcheck hphdr
      rw [hphdr] at hin hcheck
      exact .inr ⟨k, hj, onTrack_of_path hstart hpath hbefore,
        ⟨kept_of_reachedPhdr hphdr, hin⟩, hcheck⟩
  · rintro (⟨htrack, hend⟩ | ⟨k, hk, htrack, hat, hrefused⟩)
    · exact visitsDeclared_of_end htrack hend
    · exact visitsDeclared_of_refused hk htrack hat hrefused

/-- What this comes to if nothing is refused and the header is left alone by the segments: the
distance is 32, or so little above that the last program header still begins before `eph`. -/
theorem visitsDeclared_iff_stride
    (hplaced : (firstPhdr m header).toNat +
      ((e_phnum m header).toNat * (e_phentsize m header).toNat + (e_phnum m header).toNat * 32) <
        2 ^ 32)
    (hkept : ∀ i ≤ (e_phnum m header).toNat,
      e_phentsize (declaredMem m header i) header = e_phentsize m header)
    (haccepted : ∀ i < (e_phnum m header).toNat, PhdrAccepted m header i) :
    (∃ fuel result, VisitsDeclared m header fuel result) ↔
      ∀ i < (e_phnum m header).toNat, 32 ≤ (e_phentsize m header).toNat ∧
        i * (e_phentsize m header).toNat < (e_phnum m header).toNat * 32 := by
  have hphdr : ∀ i ≤ (e_phnum m header).toNat, (phdrAddr m header i).toNat =
      (firstPhdr m header).toNat + i * (e_phentsize m header).toNat := by
    intro i hi
    have hle := Nat.mul_le_mul_right (e_phentsize m header).toNat hi
    exact toNat_add_ofNat _ (by omega)
  have hend : (endPhdr m header).toNat =
      (firstPhdr m header).toNat + (e_phnum m header).toNat * 32 := by
    rw [endPhdr, Elf32Phdr.size]
    bv_omega
  have hlt : ∀ i ≤ (e_phnum m header).toNat, (phdrAddr m header i < endPhdr m header ↔
      i * (e_phentsize m header).toNat < (e_phnum m header).toNat * 32) := by
    intro i hi
    rw [BitVec.lt_def, hphdr i hi, hend]
    omega
  rw [visitsDeclared_iff, reachedPhdr_of_kept (hkept _ (Nat.le_refl _)), hlt _ (Nat.le_refl _)]
  constructor
  · rintro (⟨htrack, hlast⟩ | ⟨k, hk, -, -, hrefused⟩) i hi
    · refine ⟨?_, (hlt i (Nat.le_of_lt hi)).mp (htrack i hi).1.lt⟩
      exact Nat.le_of_mul_le_mul_left (Nat.le_of_not_lt hlast) (by omega)
    · exact absurd (haccepted k hk) hrefused
  · refine fun h ↦ .inl ⟨fun i hi ↦ ⟨⟨hkept i (Nat.le_of_lt hi), ?_⟩, haccepted i hi⟩,
      fun hlast ↦ ?_⟩
    · exact (hlt i (Nat.le_of_lt hi)).mpr (h i hi).2
    · have hpos : 0 < (e_phnum m header).toNat := by omega
      exact absurd (Nat.lt_of_mul_lt_mul_left hlast) (Nat.not_lt.mpr (h 0 hpos).1)

/-! ## A small file -/

/-- The header of an ELF file with `phnum` program headers behind it, `phentsize` bytes apart. -/
def smallEhdr (phentsize phnum : Byte) : List Byte :=
  [0x7f, 0x45, 0x4c, 0x46, 1, 1, 1, 0] ++ List.replicate 8 0 ++ [2, 0, 3, 0, 1, 0, 0, 0] ++
    [0, 0, 0x10, 0, 52, 0, 0, 0] ++ List.replicate 8 0 ++ [52, 0, phentsize, 0, phnum, 0] ++
    List.replicate 6 0

/-- A memory with a file at `0x20000`. -/
def fileMem (file : List Byte) : Mem := fun a ↦ file.getD (a - 0x20000).toNat 0

/-- With program headers that are 0 bytes apart, the loop does not end. -/
theorem elf32_load_zero_stride :
    elf_check_file (fileMem (smallEhdr 0 1)) 0x20000 = true ∧
      ¬ ∃ fuel result, VisitsDeclared (fileMem (smallEhdr 0 1)) 0x20000 fuel result := by
  refine ⟨by decide +kernel, ?_⟩
  rintro ⟨fuel, result, hvisits⟩
  have hnone := @elf32_load_diverges (fileMem (smallEhdr 0 1)) 0x20000
    (by decide +kernel) (by decide +kernel) (by decide +kernel) (by decide +kernel) fuel
  rw [elf32_load_eq, hvisits.returns] at hnone
  cases hnone

end RainbowOS
