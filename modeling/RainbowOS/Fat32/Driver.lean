import Mathlib.Data.Int.Notation
import RainbowOS.Lib.Loop
import RainbowOS.Op

/-!
# `fs::fat32`: mounting a volume and reading a file of the root directory

The functions of `lib/fs/fat32.cpp`, in the order of their effects.  None of them looks at whether
the heap has refused a request, but for `init`.

The loop over the clusters of a file ends only if the FAT says so.  It is a loop in the sense of
`Lib/Loop.lean`, and `getRootFile` has the number of rounds as an argument.
-/

set_option autoImplicit false

namespace RainbowOS

namespace Fat32

variable {σ : Type}

/-- `clusterMask`. -/
def clusterMask : BitVec 32 := 0xFFFFFFF

/-- The object after `init` has returned 0: `*_vbr`, the FAT at `_FATptr`, and `_partitionLBA`. -/
structure Volume where
  vbr : Bytes
  fat : Bytes
  partitionLBA : BitVec 32

/-- `init(partitionLBA)`: the object, or the return code if it is not 0. -/
def init (A : Allocator σ) (disk : Disk) (partitionLBA : BitVec 32) :
    Op σ (Except ℤ Volume) := do
  let some vbr ← Op.new A VBR.size | return .error 99
  let some vbr ← Op.ofExec (disk.readInto partitionLBA (some vbr) 0 1) | return .error 1
  let FATsectors := VBR.sectorsPerFAT vbr
  let some fat ← Op.new A (FATsectors * BitVec.ofNat 32 sectorSize / 4 * 4) | return .error 99
  let fatLBA := partitionLBA + (VBR.reservedSectors vbr).setWidth 32
  let some fat ← Op.ofExec (disk.readInto fatLBA (some fat) 0 FATsectors.toNat) | return .error 2
  return .ok ⟨vbr, fat, partitionLBA⟩

/-- `_FATptr[clusterNum]`. -/
def Volume.fatEntry (this : Volume) (clusterNum : BitVec 32) : Exec (BitVec 32) :=
  if 4 * clusterNum.toNat + 4 ≤ this.fat.length then .ok (this.fat.read32 (4 * clusterNum.toNat))
  else .error .outOfBounds

/-- The first sector of a cluster, in 32-bit arithmetic. -/
def Volume.clusterLBA (this : Volume) (clusterNum : BitVec 32) : BitVec 32 :=
  (clusterNum - 2) * (VBR.sectorsPerCluster this.vbr).setWidth 32 + VBR.firstDataSector this.vbr
    + this.partitionLBA

/-! ## Directories -/

/-- The members of `readDirResult` besides the return code, which is always 0. -/
structure ReadDirResult where
  numEntries : ℕ
  entries : Bytes

/-- The loop that counts the entries up to the first byte 0, from entry `n` on. -/
def countEntries (dir : Bytes) (n : ℕ) : Exec ℕ :=
  if DirEntry.size * n < dir.length then
    if dir.read8 (DirEntry.size * n) = 0 then .ok n else countEntries dir (n + 1)
  else .error .outOfBounds
termination_by dir.length - DirEntry.size * n
decreasing_by simp only [DirEntry.size] at *; omega

/-- The test that a directory has no second cluster. -/
def checkSingleCluster (cluster : BitVec 32) : Exec Unit :=
  if cluster &&& 0xFFFFFF0 ≠ 0xFFFFFF0 ∧ cluster &&& 0xF < 8 then
    .error (.earlyPanic "readDir(): No support for multiclusters right now")
  else .ok ()

/-- The size of the buffer for a directory. -/
def Volume.dirSize (this : Volume) : BitVec 32 :=
  (VBR.sectorsPerCluster this.vbr).setWidth 32 * (VBR.bytesPerSector this.vbr).setWidth 32

/-- `readDir` from the call of the disk on: the directory and the number of its entries. -/
def loadDir (disk : Disk) (this : Volume) (clusterNumber : BitVec 32) (dirPtr : Option Bytes) :
    Exec ReadDirResult := do
  let some dir ← disk.readInto (this.clusterLBA clusterNumber) dirPtr 0
      (VBR.sectorsPerCluster this.vbr).toNat
    | throw (.earlyPanic "readDir(): Disk read failure!")
  let numEntries ← countEntries dir 0
  return ⟨numEntries, dir⟩

/-- Fill in a result structure: a store through the pointer that `new` returned. -/
def storeResult {α : Type} (ptr : Option Bytes) (a : α) : Exec α :=
  if ptr.isSome then .ok a else .error .nullPointer

/-- `readDir(clusterNumber)`. -/
def readDir (A : Allocator σ) (disk : Disk) (this : Volume) (clusterNumber : BitVec 32) :
    Op σ ReadDirResult := do
  let entry ← Op.ofExec (this.fatEntry clusterNumber)
  Op.ofExec (checkSingleCluster (entry &&& clusterMask))
  let dirPtr ← Op.new A this.dirSize
  let dir ← Op.ofExec (loadDir disk this clusterNumber dirPtr)
  let returnStruct ← Op.new A 12
  Op.ofExec (storeResult returnStruct dir)

/-! ## Names -/

/-- `FAT_NAME_SIZE`. -/
def FAT_NAME_SIZE : BitVec 32 := 13

/-- The C string that `nameFromEntry` writes for an entry that is not an LFN one.  The base name
ends at a space or at eight bytes; the extension is taken whole. -/
def entryName (e : Bytes) : Bytes :=
  Bytes.cString ((DirEntry.fileName e).takeWhile (· ≠ 0x20) ++
    if DirEntry.attributes e ≠ DirEntry.SUBDIRECTORY then 0x2e :: DirEntry.fileExtension e else [])

/-- `nameFromEntry(ptr)`, as the C string it points to. -/
def nameFromEntry (A : Allocator σ) (e : Bytes) : Op σ Bytes := do
  if DirEntry.attributes e = DirEntry.LFN then return [0x4c, 0x46, 0x4e]
  let fileName ← Op.new A FAT_NAME_SIZE
  Op.ofExec (storeResult fileName (entryName e))

/-- `strcmp(str1, str2)` on the characters before the terminators. -/
def strcmp : Bytes → Bytes → ℤ
  | [], [] => 0
  | c :: _, [] => c.toInt
  | [], d :: _ => -d.toInt
  | c :: cs, d :: ds => if c ≠ d then c.toInt - d.toInt else strcmp cs ds

/-! ## Files -/

/-- `fat32_fileResult`. -/
structure FileResult where
  returnCode : ℤ
  size : BitVec 32
  ptr : Option Bytes

/-- `isClusterEnd(clusterNum)`. -/
def isClusterEnd (clusterNum : BitVec 32) : Bool :=
  let clusterNum := clusterNum &&& 0xFFFFFFF
  decide (0xFFFFFF8 ≤ clusterNum) && decide (clusterNum ≤ 0xFFFFFFF)

/-- The variables of the loop over the clusters. -/
structure ClusterState where
  clusterNum : BitVec 32
  j : BitVec 32
  buffer : Option Bytes

/-- One round of the loop over the clusters of a file. -/
def clusterStep (disk : Disk) (this : Volume) (s : ClusterState) :
    LoopStep ClusterState (Exec (Option Bytes)) :=
  if isClusterEnd s.clusterNum then .done (.ok s.buffer)
  else
    let offset := s.j * BitVec.ofNat 32 sectorSize
    match disk.readInto (this.clusterLBA s.clusterNum) s.buffer offset.toNat 1 with
    | .error stop => .done (.error stop)
    | .ok none => .done (.error (.earlyPanic "getRootFile(): Failure on read!"))
    | .ok (some buffer) =>
      match this.fatEntry s.clusterNum with
      | .error stop => .done (.error stop)
      | .ok entry => .next ⟨entry &&& clusterMask, s.j + 1, some buffer⟩

/-- `numSectors`, for the size field of an entry. -/
def numSectors (size : BitVec 32) : BitVec 32 := size / BitVec.ofNat 32 sectorSize + 1

/-- The size of the buffer for a file. -/
def bufferSize (e : Bytes) : BitVec 32 :=
  numSectors (DirEntry.fileSize e) * BitVec.ofNat 32 sectorSize

/-- The loop over the clusters of the file whose entry is `e`. -/
def clusterLoop (disk : Disk) (this : Volume) (fuel : ℕ) (e : Bytes) (buffer : Option Bytes) :
    Option (Exec (Option Bytes)) :=
  Loop.run (clusterStep disk this) fuel ⟨DirEntry.firstCluster e, 0, buffer⟩

/-- `getRootFile` once the entry `e` has matched. -/
def readFile (A : Allocator σ) (disk : Disk) (this : Volume) (fuel : ℕ)
    (returnStruct : Option Bytes) (e : Bytes) : Op σ FileResult := do
  let buffer ← Op.new A (bufferSize e)
  let buffer ← Op.ofLoop (clusterLoop disk this fuel e buffer)
  Op.ofExec (storeResult returnStruct ⟨0, DirEntry.fileSize e, buffer⟩)

/-- `&directory->entries[i]`, as far as it lies inside the directory's block. -/
def entryAt (dir : Bytes) (i : ℕ) : Exec Bytes :=
  if DirEntry.size * i + DirEntry.size ≤ dir.length then
    .ok ((dir.drop (DirEntry.size * i)).take DirEntry.size)
  else .error .outOfBounds

/-- The loop over the entries of the root directory, with `k` entries left from number `i` on. -/
def searchEntries (A : Allocator σ) (disk : Disk) (this : Volume) (fuel : ℕ) (file dir : Bytes)
    (returnStruct : Option Bytes) : (k : ℕ) → (i : ℕ) → Op σ FileResult
  | 0, _ => Op.ofExec (storeResult returnStruct ⟨1, 0, none⟩)
  | k + 1, i => do
    let e ← Op.ofExec (entryAt dir i)
    let testFilename ← nameFromEntry A e
    if strcmp testFilename file = 0 then readFile A disk this fuel returnStruct e
    else searchEntries A disk this fuel file dir returnStruct k (i + 1)

/-- `getRootFile(file)`, with at most `fuel` rounds of the loop over the clusters.  The return code
of a directory is always 0, so the panic on another one is left out. -/
def getRootFile (A : Allocator σ) (disk : Disk) (this : Volume) (fuel : ℕ) (file : Bytes) :
    Op σ FileResult := do
  let directory ← readDir A disk this (VBR.clusterNumberRoot this.vbr)
  let returnStruct ← Op.new A 12
  searchEntries A disk this fuel file directory.entries returnStruct directory.numEntries 0

/-! ## More rounds -/

variable {disk : Disk} {this : Volume}

theorem mono_clusterLoop (disk : Disk) (this : Volume) (e : Bytes) (buffer : Option Bytes) :
    Run.Mono fun fuel ↦ (Op.ofLoop (clusterLoop disk this fuel e buffer) : Op σ (Option Bytes)) :=
  Op.mono_ofLoop fun _ _ hij _ h ↦ Loop.run_mono hij h

theorem mono_readFile (A : Allocator σ) (disk : Disk) (this : Volume) (returnStruct : Option Bytes)
    (e : Bytes) : Run.Mono fun fuel ↦ readFile A disk this fuel returnStruct e := by
  refine Run.mono_bind (Run.mono_const _) fun buffer ↦ ?_
  exact Run.mono_bind (mono_clusterLoop disk this e buffer) fun _ ↦ Run.mono_const _

theorem mono_searchEntries (A : Allocator σ) (disk : Disk) (this : Volume) (file dir : Bytes)
    (returnStruct : Option Bytes) (k i : ℕ) :
    Run.Mono fun fuel ↦ searchEntries A disk this fuel file dir returnStruct k i := by
  induction k generalizing i with
  | zero => exact Run.mono_const _
  | succ k ih =>
    refine Run.mono_bind (Run.mono_const _) fun e ↦ Run.mono_bind (Run.mono_const _) fun name ↦ ?_
    by_cases hname : strcmp name file = 0
    · simp only [if_pos hname]
      exact mono_readFile A disk this returnStruct e
    · simp only [if_neg hname]
      exact ih (i + 1)

theorem mono_searchDirectory (A : Allocator σ) (disk : Disk) (this : Volume) (file : Bytes)
    (directory : ReadDirResult) : Run.Mono fun fuel ↦ (do
      let returnStruct ← Op.new A 12
      searchEntries A disk this fuel file directory.entries returnStruct directory.numEntries 0
        : Op σ FileResult) :=
  Run.mono_bind (Run.mono_const _) fun _ ↦
    mono_searchEntries A disk this file directory.entries _ directory.numEntries 0

/-- `getRootFile` has at most one result. -/
theorem mono_getRootFile (A : Allocator σ) (disk : Disk) (this : Volume) (file : Bytes) :
    Run.Mono fun fuel ↦ getRootFile A disk this fuel file :=
  Run.mono_bind (Run.mono_const _) (mono_searchDirectory A disk this file)

end Fat32

end RainbowOS
