import RainbowOS.Fat32.DirectoryList
import RainbowOS.Fat32.Lookup

/-!
# The buffer of `nameFromEntry`

`nameFromEntry` writes a name character by character into a block of 13 bytes, and `strcmp` reads it
from there.  Here are the stores one by one, each of them checked against the block, and the names
as arrays with a terminator in them.

* `writeName_eq` — the stores stay in the block, and leave in it what the second decoder leaves in
  its array.
* `nameFromEntry_eq_nameObject`, `strcmp_append` — the strings of `nameFromEntry` and the `strcmp`
  of the search are those of the arrays.
* `nameFromEntry_injective` — the strings of two files are the same exactly if their entries have
  the same eleven bytes.
-/

set_option autoImplicit false

namespace RainbowOS
namespace Fat32

variable {σ : Type} {A : Allocator σ} {h h' : Heap σ} {e e' b cs : Bytes} {i : ℕ}

/-! ## The stores -/

/-- `fileName[i] = c`. -/
def storeChar (fileName : Bytes) (i : ℕ) (c : Byte) : Exec Bytes :=
  if i < fileName.length then .ok (fileName.set i c) else .error .outOfBounds

/-- A loop that copies characters into the block from index `i` on, up to one at which it stops: the
block and the index afterwards. -/
def storeChars (stop : Byte → Bool) : (cs : Bytes) → (i : ℕ) → (fileName : Bytes) →
    Exec (Bytes × ℕ)
  | [], i, fileName => .ok (fileName, i)
  | c :: cs, i, fileName =>
    if stop c then .ok (fileName, i)
    else do
      let fileName ← storeChar fileName i c
      storeChars stop cs (i + 1) fileName

/-- `nameFromEntry` from the first loop on: what is in the block afterwards. -/
def writeName (e : Bytes) : (fileName : Option Bytes) → Exec Bytes
  | none => .error .nullPointer
  | some fileName => do
    let (fileName, i) ← storeChars (· = 0x20) (DirEntry.fileName e) 0 fileName
    if DirEntry.attributes e ≠ DirEntry.SUBDIRECTORY then
      let fileName ← storeChar fileName i 0x2e
      let (fileName, i) ← storeChars (fun _ ↦ false) (DirEntry.fileExtension e) (i + 1) fileName
      storeChar fileName i 0
    else storeChar fileName i 0

/-- `nameFromEntry(ptr)`, as the object it points to. -/
def nameObject (A : Allocator σ) (e : Bytes) : Op σ Bytes := do
  if DirEntry.attributes e = DirEntry.LFN then return [0x4c, 0x46, 0x4e, 0]
  let fileName ← Op.new A FAT_NAME_SIZE
  Op.ofExec (writeName e fileName)

theorem storeChar_of_lt {c : Byte} (hi : i < b.length) : storeChar b i c = .ok (b.set i c) :=
  if_pos hi

theorem length_copyChars (stop : Byte → Bool) (cs : Bytes) (i : ℕ) (b : Bytes) :
    (copyChars stop cs i b).1.length = b.length := by
  induction cs generalizing i b with
  | nil => rfl
  | cons c cs ih =>
    rw [copyChars]
    split
    · rfl
    · rw [ih, List.length_set]

theorem snd_copyChars_le (stop : Byte → Bool) (cs : Bytes) (i : ℕ) (b : Bytes) :
    (copyChars stop cs i b).2 ≤ i + cs.length := by
  induction cs generalizing i b with
  | nil => exact Nat.le_refl i
  | cons c cs ih =>
    rw [copyChars, List.length_cons]
    split
    · exact Nat.le_add_right i _
    · exact Nat.le_trans (ih (i + 1) _) (by omega)

/-- A loop with room for all its characters makes the stores of the unchecked one. -/
theorem storeChars_eq (stop : Byte → Bool) (hfits : i + cs.length ≤ b.length) :
    storeChars stop cs i b = .ok (copyChars stop cs i b) := by
  induction cs generalizing i b with
  | nil => rfl
  | cons c cs ih =>
    rw [List.length_cons] at hfits
    rw [storeChars, copyChars]
    split
    · rfl
    · rw [storeChar_of_lt (by omega)]
      exact ih (by rw [List.length_set]; omega)

/-- **The stores stay in the block**: eight characters, a dot, three characters and the
terminator. -/
theorem writeName_eq (e : Bytes) (hb : b.length = 13) :
    writeName e (some b) = .ok (decodeName e b) := by
  have hname := length_fileName_le e
  have hext := length_fileExtension_le e
  have hlen := length_copyChars (· = 0x20) (DirEntry.fileName e) 0 b
  have hsnd := snd_copyChars_le (· = 0x20) (DirEntry.fileName e) 0 b
  rw [writeName, storeChars_eq _ (by omega), decodeName]
  generalize copyChars (· = 0x20) (DirEntry.fileName e) 0 b = r at *
  obtain ⟨b', i⟩ := r
  dsimp only at hlen hsnd ⊢
  simp only [bind, Except.bind]
  by_cases hdir : DirEntry.attributes e ≠ DirEntry.SUBDIRECTORY
  · have hset : (b'.set i 0x2e).length = b'.length := List.length_set
    have hlen' :=
      length_copyChars (fun _ ↦ false) (DirEntry.fileExtension e) (i + 1) (b'.set i 0x2e)
    have hsnd' :=
      snd_copyChars_le (fun _ ↦ false) (DirEntry.fileExtension e) (i + 1) (b'.set i 0x2e)
    simp only [if_pos hdir]
    rw [storeChar_of_lt (by omega)]
    dsimp only
    rw [storeChars_eq _ (by omega)]
    exact storeChar_of_lt (by omega)
  · simp only [if_neg hdir]
    exact storeChar_of_lt (by omega)

/-! ## The strings in the block -/

/-- What the array of the second decoder says is the name. -/
theorem cString_decodeName (e : Bytes) (hb : b.length = 13) :
    (decodeName e b).cString = entryName e := by
  obtain ⟨rest, hrest⟩ := decodeName_eq e hb
  rw [hrest, Bytes.cString_append_zero, entryName_eq]

theorem zero_mem_decodeName (e : Bytes) (hb : b.length = 13) : 0 ∈ decodeName e b := by
  obtain ⟨rest, hrest⟩ := decodeName_eq e hb
  rw [hrest]
  exact List.mem_append_right _ List.mem_cons_self

theorem length_decodeName (e b : Bytes) : (decodeName e b).length = b.length := by
  have hlen := length_copyChars (· = 0x20) (DirEntry.fileName e) 0 b
  rw [decodeName]
  generalize copyChars (· = 0x20) (DirEntry.fileName e) 0 b = r at *
  obtain ⟨b', i⟩ := r
  by_cases hdir : DirEntry.attributes e ≠ DirEntry.SUBDIRECTORY
  · simp only [if_pos hdir]
    rw [List.length_set, length_copyChars, List.length_set]
    exact hlen
  · simp only [if_neg hdir]
    rw [List.length_set]
    exact hlen

/-- `nameFromEntry` returns the string that is in the object. -/
theorem nameFromEntry_eq_nameObject (A : Allocator σ) (e : Bytes) :
    nameFromEntry A e = do
      let name ← nameObject A e
      return Bytes.cString name := by
  funext h
  rw [nameFromEntry, nameObject]
  by_cases hlfn : DirEntry.attributes e = DirEntry.LFN
  · rw [if_pos hlfn, if_pos hlfn]
    rfl
  · rw [if_neg hlfn, if_neg hlfn]
    cases hnew : (A.alloc h.state FAT_NAME_SIZE).1 with
    | none =>
      rw [Run.bind_of_ok (Op.new_of_none hnew),
        Run.bind_of_error (Run.bind_of_ok (Op.new_of_none hnew))]
      rfl
    | some b =>
      have hb : b.length = 13 := A.length_alloc hnew
      have hname := writeName_eq e hb
      rw [Run.bind_of_ok (Op.new_of_some hnew),
        Run.bind_of_ok ((Run.bind_of_ok (Op.new_of_some hnew)).trans (by rw [hname]; rfl)),
        cString_decodeName e hb]
      rfl

/-- The `strcmp` of the search is that of the arrays. -/
theorem strcmp_append {s t : Bytes} (hs : 0 ∉ s) (ht : 0 ∉ t) (rest rest' : Bytes) :
    RainbowOS.strcmp (s ++ 0 :: rest) (t ++ 0 :: rest') = .ok (strcmp s t) := by
  have h := Lexicographic.compared hs ht
  rw [strcmp_of_compared h, strcmp_eq_elim h]

/-! ## Files with different names -/

/-- The entry of a file, with a name that has spaces at the end of its fields only. -/
structure ShortNamed (e : Bytes) : Prop where
  length : e.length = DirEntry.size
  notLFN : DirEntry.attributes e ≠ DirEntry.LFN
  notSubdirectory : DirEntry.attributes e ≠ DirEntry.SUBDIRECTORY
  nonzero : 0 ∉ e.take 11
  padded : 0x20 ∉ trim (DirEntry.fileName e)

/-- A padded field is determined by what is in front of the padding. -/
theorem eq_of_trim_eq {f g : Bytes} (hlen : f.length = g.length) (h : trim f = trim g) : f = g := by
  have hfield : ∀ f : Bytes,
      f = trim f ++ List.replicate (f.length - (trim f).length) 0x20 := by
    intro f
    have hsplit : trim f ++ f.rtakeWhile (· = 0x20) = f := List.rdropWhile_append_rtakeWhile
    have hpad : f.rtakeWhile (· = 0x20) =
        List.replicate (f.length - (trim f).length) 0x20 := by
      refine List.eq_replicate_iff.mpr ⟨?_, fun c hc ↦ ?_⟩
      · rw [← congrArg List.length hsplit]
        simp
      · simpa using List.mem_rtakeWhile_imp hc
    rw [← hpad, hsplit]
  rw [hfield f, hfield g, hlen, h]

/-- In a padded field, the first space begins the padding. -/
theorem takeWhile_eq_trim {f : Bytes} (h : 0x20 ∉ trim f) : f.takeWhile (· ≠ 0x20) = trim f := by
  obtain ⟨u, hu, rfl | ⟨u', rfl⟩⟩ := trim_eq_takeWhile_append f
  · rw [hu, List.append_nil]
  · rw [hu] at h
    exact absurd (List.mem_append_right _ List.mem_cons_self) h

/-- The names of two files are the same exactly if their entries have the same eleven bytes. -/
theorem nameOf_eq_iff (he : ShortNamed e) (he' : ShortNamed e') :
    nameOf e = nameOf e' ↔ e.take 11 = e'.take 11 := by
  have hbase : (DirEntry.fileName e).length = (DirEntry.fileName e').length := by
    rw [DirEntry.fileName, DirEntry.fileName, List.length_take, List.length_take, he.length,
      he'.length]
  have hext : (DirEntry.fileExtension e).length = (DirEntry.fileExtension e').length := by
    rw [length_fileExtension he.length, length_fileExtension he'.length]
  rw [nameOf_of_file he.nonzero he.notLFN he.notSubdirectory,
    nameOf_of_file he'.nonzero he'.notLFN he'.notSubdirectory, takeWhile_eq_trim he.padded,
    takeWhile_eq_trim he'.padded, take_eleven, take_eleven]
  constructor
  · intro h
    obtain ⟨htrim, hcons⟩ := List.append_inj' h (by simp [hext])
    rw [eq_of_trim_eq hbase htrim, (List.cons.inj hcons).2]
  · intro h
    obtain ⟨hname, hrest⟩ := List.append_inj h hbase
    rw [hname, hrest]

/-- The string that `nameFromEntry` writes into the block `b`. -/
def nameInBlock (e b : Bytes) (hb : b.length = 13) : CStr :=
  ⟨decodeName e b, zero_mem_decodeName e hb⟩

theorem nameObject_of_some (hfile : DirEntry.attributes e ≠ DirEntry.LFN)
    (hnew : (A.alloc h.state FAT_NAME_SIZE).1 = some b) (hb : b.length = 13) :
    nameObject A e h = some (.ok (nameInBlock e b hb).array,
      ⟨(A.alloc h.state FAT_NAME_SIZE).2, h.refused⟩) := by
  rw [nameObject, if_neg hfile, Run.bind_of_ok (Op.new_of_some hnew), writeName_eq e hb]
  rfl

theorem chars_nameInBlock (hfile : DirEntry.attributes e ≠ DirEntry.LFN) (hb : b.length = 13) :
    (nameInBlock e b hb).chars = nameOf e := by
  rw [nameOf, if_neg hfile]
  exact cString_decodeName e hb

/-- **Different files have different names.**  For two files whose names have spaces at the end
only, `nameFromEntry` writes strings into its blocks of 13 bytes, terminators included, and `strcmp`
finds them equal exactly if the entries have the same eleven bytes; so two such files that match the
same name have the same one.  It makes no difference whether there are dots in the fields. -/
theorem nameFromEntry_injective (he : ShortNamed e) (he' : ShortNamed e')
    (hgrant : (A.alloc h.state FAT_NAME_SIZE).1.isSome = true)
    (hgrant' : (A.alloc h'.state FAT_NAME_SIZE).1.isSome = true) :
    ∃ (s s' : CStr) (t t' : Heap σ), nameObject A e h = some (.ok s.array, t) ∧
      nameObject A e' h' = some (.ok s'.array, t') ∧ s.array.length = 13 ∧ s'.array.length = 13 ∧
      (RainbowOS.strcmp s.array s'.array = .ok 0 ↔ e.take 11 = e'.take 11) ∧
      ∀ file : CStr, RainbowOS.strcmp s.array file.array = .ok 0 →
        RainbowOS.strcmp s'.array file.array = .ok 0 → e.take 11 = e'.take 11 := by
  obtain ⟨b, hb⟩ := Option.isSome_iff_exists.mp hgrant
  obtain ⟨b', hb'⟩ := Option.isSome_iff_exists.mp hgrant'
  have hlen : b.length = 13 := A.length_alloc hb
  have hlen' : b'.length = 13 := A.length_alloc hb'
  refine ⟨nameInBlock e b hlen, nameInBlock e' b' hlen', _, _, nameObject_of_some he.notLFN hb hlen,
    nameObject_of_some he'.notLFN hb' hlen', (length_decodeName e b).trans hlen,
    (length_decodeName e' b').trans hlen', ?_, fun file hfile hfile' ↦ ?_⟩
  · rw [CStr.strcmp_eq_zero_iff, chars_nameInBlock he.notLFN, chars_nameInBlock he'.notLFN,
      nameOf_eq_iff he he']
  · rw [CStr.strcmp_eq_zero_iff, chars_nameInBlock he.notLFN] at hfile
    rw [CStr.strcmp_eq_zero_iff, chars_nameInBlock he'.notLFN] at hfile'
    exact (nameOf_eq_iff he he').mp (hfile.trans hfile'.symm)

/-- `KERNEL.BIN`, and a file whose name begins with a byte above 0x7f. -/
theorem nameFromEntry_injective_kernel :
    let e := kernelEntry 600
    let e' := [0x82, 0x20, 0x20, 0x20, 0x20, 0x20, 0x20, 0x20, 0x54, 0x58, 0x20, 0x20] ++
      List.replicate 20 0
    let A := Allocator.bump
    ∃ (s s' : CStr) (t t' : Heap ℕ), nameObject A e ⟨4000, false⟩ = some (.ok s.array, t) ∧
      nameObject A e' ⟨3987, false⟩ = some (.ok s'.array, t') ∧ s.array.length = 13 ∧
      s'.array.length = 13 ∧ (RainbowOS.strcmp s.array s'.array = .ok 0 ↔ e.take 11 = e'.take 11) ∧
      ∀ file : CStr, RainbowOS.strcmp s.array file.array = .ok 0 →
        RainbowOS.strcmp s'.array file.array = .ok 0 → e.take 11 = e'.take 11 :=
  nameFromEntry_injective ⟨by decide, by decide, by decide, by decide, by decide⟩
    ⟨by decide, by decide, by decide, by decide, by decide⟩ (by decide) (by decide)

end Fat32
end RainbowOS
