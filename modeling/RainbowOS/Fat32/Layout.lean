import Mathlib.Data.List.Basic
import Mathlib.Data.List.GetD
import RainbowOS.Exec
import RainbowOS.Lib.Memory

/-!
# What the FAT32 driver works on

The driver reads sectors into heap blocks and looks at the blocks as C structures.  Here a block is
the list of its bytes, a pointer to a block is an `Option`, and a structure's member is read at its
offset.

The heap and the disk are parameters, because nothing that is said about the driver depends on how
they work: an `Allocator` hands out blocks of the size asked for or refuses, and a `Disk` is the
driver's callback, which delivers whole sectors or fails.
-/

set_option autoImplicit false

namespace RainbowOS

/-- The size of a sector. -/
def sectorSize : ℕ := 512

/-- The bytes of a block or of some sectors. -/
abbrev Bytes := List Byte

namespace Bytes

/-- The byte at an offset. -/
def read8 (bs : Bytes) (i : ℕ) : Byte := bs.getD i 0

/-- The 16-bit value at an offset. -/
def read16 (bs : Bytes) (i : ℕ) : BitVec 16 := bs.read8 (i + 1) ++ bs.read8 i

/-- The 32-bit value at an offset. -/
def read32 (bs : Bytes) (i : ℕ) : BitVec 32 := bs.read16 (i + 2) ++ bs.read16 i

/-- Overwrite the bytes from `offset` on. -/
def overwrite (b : Bytes) (offset : ℕ) (bs : Bytes) : Bytes :=
  b.take offset ++ bs ++ b.drop (offset + bs.length)

/-- The C string that starts here. -/
def cString (bs : Bytes) : Bytes := bs.takeWhile (· ≠ 0)

theorem read8_append_left {a b : Bytes} {i : ℕ} (h : i < a.length) :
    read8 (a ++ b) i = a.read8 i :=
  List.getD_append a b 0 i h

theorem read8_append_right {a b : Bytes} {i : ℕ} (h : a.length ≤ i) :
    read8 (a ++ b) i = b.read8 (i - a.length) :=
  List.getD_append_right a b 0 i h

/-- A sector that begins with the given bytes. -/
def padded (bs : Bytes) : Bytes := (bs ++ List.replicate sectorSize 0).take sectorSize

theorem length_padded (bs : Bytes) : bs.padded.length = sectorSize := by
  simp [padded]

theorem read8_padded (bs : Bytes) {i : ℕ} (hi : i < sectorSize) :
    bs.padded.read8 i = bs.read8 i := by
  rw [read8, read8, padded, List.getD_eq_getElem?_getD, List.getElem?_take_of_lt hi,
    List.getD_eq_getElem?_getD]
  rcases Nat.lt_or_ge i bs.length with hlt | hge
  · rw [List.getElem?_append_left hlt]
  · rw [List.getElem?_append_right hge, List.getElem?_eq_none hge, List.getElem?_replicate]
    split <;> rfl

theorem read16_padded (bs : Bytes) {i : ℕ} (hi : i + 1 < sectorSize) :
    bs.padded.read16 i = bs.read16 i := by
  rw [read16, read8_padded bs hi, read8_padded bs (by omega), read16]

theorem read32_padded (bs : Bytes) {i : ℕ} (hi : i + 3 < sectorSize) :
    bs.padded.read32 i = bs.read32 i := by
  rw [read32, read16_padded bs hi, read16_padded bs (by omega), read32]

theorem overwrite_append (front rest bs : Bytes) :
    (front ++ rest).overwrite front.length bs = front ++ bs ++ rest.drop bs.length := by
  simp [overwrite]

theorem length_overwrite {b bs : Bytes} {offset : ℕ} (h : offset + bs.length ≤ b.length) :
    (b.overwrite offset bs).length = b.length := by
  rw [overwrite, List.length_append, List.length_append, List.length_take, List.length_drop]
  omega

end Bytes

/-! ## The heap and the disk -/

/-- A heap as its users see it: a block of the size asked for, or a null pointer. -/
structure Allocator (σ : Type) where
  /-- `new uint8_t[size]`. -/
  alloc : σ → BitVec 32 → Option Bytes × σ
  /-- A block has the size that was asked for. -/
  length_alloc : ∀ {s : σ} {n : BitVec 32} {b : Bytes}, (alloc s n).1 = some b → b.length = n.toNat

namespace Allocator

variable {σ : Type}

/-- The answers to a series of requests, each made in the state the last one left. -/
def answers (A : Allocator σ) : σ → List (BitVec 32) → List Bool
  | _, [] => []
  | s, n :: ns => (A.alloc s n).1.isSome :: A.answers (A.alloc s n).2 ns

/-- Every request of the series is granted. -/
def Grants (A : Allocator σ) (s : σ) (ns : List (BitVec 32)) : Prop :=
  ∀ b ∈ A.answers s ns, b = true

instance (A : Allocator σ) (s : σ) (ns : List (BitVec 32)) : Decidable (A.Grants s ns) :=
  inferInstanceAs (Decidable (∀ b ∈ _, b = true))

/-- The state after a series of requests. -/
def after (A : Allocator σ) : σ → List (BitVec 32) → σ
  | s, [] => s
  | s, n :: ns => A.after (A.alloc s n).2 ns

@[simp] theorem after_nil (A : Allocator σ) (s : σ) : A.after s [] = s := rfl

@[simp] theorem after_cons (A : Allocator σ) (s : σ) (n : BitVec 32) (ns : List (BitVec 32)) :
    A.after s (n :: ns) = A.after (A.alloc s n).2 ns := rfl

theorem after_append (A : Allocator σ) (s : σ) (ns ks : List (BitVec 32)) :
    A.after s (ns ++ ks) = A.after (A.after s ns) ks := by
  induction ns generalizing s with
  | nil => rfl
  | cons n ns ih => exact ih _

@[simp] theorem answers_nil (A : Allocator σ) (s : σ) : A.answers s [] = [] := rfl

@[simp] theorem answers_cons (A : Allocator σ) (s : σ) (n : BitVec 32) (ns : List (BitVec 32)) :
    A.answers s (n :: ns) = (A.alloc s n).1.isSome :: A.answers (A.alloc s n).2 ns := rfl

@[simp] theorem grants_nil (A : Allocator σ) (s : σ) : A.Grants s [] := by simp [Grants]

@[simp] theorem grants_cons (A : Allocator σ) (s : σ) (n : BitVec 32) (ns : List (BitVec 32)) :
    A.Grants s (n :: ns) ↔ (A.alloc s n).1.isSome = true ∧ A.Grants (A.alloc s n).2 ns := by
  simp [Grants]

theorem grants_append (A : Allocator σ) (s : σ) (ns ks : List (BitVec 32)) :
    A.Grants s (ns ++ ks) ↔ A.Grants s ns ∧ A.Grants (A.after s ns) ks := by
  induction ns generalizing s with
  | nil => simp
  | cons n ns ih => simp [ih, and_assoc]

/-- A heap of zeros that never gets anything back; its state is the number of bytes left. -/
def bump : Allocator ℕ where
  alloc s n := if n.toNat ≤ s then (some (List.replicate n.toNat 0), s - n.toNat) else (none, s)
  length_alloc {s n b} h := by
    split at h
    · rw [← Option.some.inj h, List.length_replicate]
    · cases h

end Allocator

/-- The driver's `_diskReadFunc(LBA, buffer, sectors)`: the sectors read, or a failure. -/
structure Disk where
  /-- What is read. -/
  read : BitVec 32 → ℕ → Option Bytes
  /-- How a failure ends: the callback returns 0, or it panics with a message. -/
  panic : Option String
  /-- Whole sectors are read. -/
  length_read : ∀ {lba : BitVec 32} {n : ℕ} {bs : Bytes}, read lba n = some bs →
    bs.length = n * sectorSize

/-- A call of `_diskReadFunc` that fails. -/
def Disk.failure (disk : Disk) : Exec (Option Bytes) :=
  match disk.panic with
  | none => .ok none
  | some msg => .error (.earlyPanic msg)

/-- A call of `_diskReadFunc` with a pointer `offset` bytes into the object `buffer`: the object
afterwards, or `none` if the callback returned 0. -/
def Disk.readInto (disk : Disk) (lba : BitVec 32) (buffer : Option Bytes) (offset sectors : ℕ) :
    Exec (Option Bytes) :=
  match buffer with
  | none => .error .nullPointer
  | some b =>
    match disk.read lba sectors with
    | none => disk.failure
    | some bs =>
      if offset + bs.length ≤ b.length then .ok (some (b.overwrite offset bs))
      else .error .outOfBounds

/-- The contents of a disk without unreadable sectors. -/
structure Image where
  /-- A sector. -/
  sector : BitVec 32 → Bytes
  /-- A sector is a whole one. -/
  length_sector : ∀ lba, (sector lba).length = sectorSize

namespace Image

/-- `n` sectors from `lba` on. -/
def sectors (image : Image) (lba : BitVec 32) (n : ℕ) : Bytes :=
  (List.range n).flatMap fun i ↦ image.sector (lba + BitVec.ofNat 32 i)

theorem length_sectors (image : Image) (lba : BitVec 32) (n : ℕ) :
    (image.sectors lba n).length = n * sectorSize := by
  simp [sectors, List.length_flatMap, image.length_sector, List.map_const']

theorem sectors_one (image : Image) (lba : BitVec 32) : image.sectors lba 1 = image.sector lba := by
  simp [sectors]

theorem sectors_succ (image : Image) (lba : BitVec 32) (n : ℕ) :
    image.sectors lba (n + 1) = image.sector lba ++ image.sectors (lba + 1) n := by
  rw [sectors, List.range_succ_eq_map, List.flatMap_cons, List.flatMap_map, sectors]
  congr 1
  · simp
  · refine List.flatMap_congr fun i _ ↦ congrArg image.sector ?_
    rw [Nat.succ_eq_add_one, BitVec.ofNat_add, BitVec.add_assoc]
    exact congrArg (lba + ·) (BitVec.add_comm _ _)

/-- The disk with another sector at `x`. -/
def patch (image : Image) (x : BitVec 32) (bs : Bytes) (h : bs.length = sectorSize) : Image where
  sector lba := if lba = x then bs else image.sector lba
  length_sector lba := by
    split
    · exact h
    · exact image.length_sector lba

theorem sector_patch_self (image : Image) (x : BitVec 32) {bs : Bytes}
    (h : bs.length = sectorSize) : (image.patch x bs h).sector x = bs :=
  if_pos rfl

theorem sector_patch_of_ne (image : Image) {x lba : BitVec 32} {bs : Bytes}
    (h : bs.length = sectorSize) (hne : lba ≠ x) :
    (image.patch x bs h).sector lba = image.sector lba :=
  if_neg hne

theorem sectors_patch_of_ne (image : Image) {x lba : BitVec 32} {n : ℕ} {bs : Bytes}
    (h : bs.length = sectorSize) (hne : ∀ i < n, lba + BitVec.ofNat 32 i ≠ x) :
    (image.patch x bs h).sectors lba n = image.sectors lba n :=
  List.flatMap_congr fun i hi ↦ image.sector_patch_of_ne h (hne i (List.mem_range.mp hi))

/-- The callback that reads the disk faithfully. -/
def disk (image : Image) : Disk where
  read lba n := some (image.sectors lba n)
  panic := none
  length_read h := by
    rw [← Option.some.inj h]
    exact image.length_sectors _ _

/-- The disk that starts with the given sectors, each filled up with zeros, and is zero after
them. -/
def ofSectors (sectors : List Bytes) : Image where
  sector lba := (sectors.getD lba.toNat []).padded
  length_sector _ := Bytes.length_padded _

@[simp] theorem read_disk (image : Image) (lba : BitVec 32) (n : ℕ) :
    image.disk.read lba n = some (image.sectors lba n) := rfl

end Image

/-! ## The volume boot record -/

namespace VBR

/-- `sizeof(VBR)`. -/
def size : BitVec 32 := 512

/-- `bpd.bytesPerSector`. -/
def bytesPerSector (vbr : Bytes) : BitVec 16 := vbr.read16 11

/-- `bpd.sectorsPerCluster`. -/
def sectorsPerCluster (vbr : Bytes) : Byte := vbr.read8 13

/-- `bpd.reservedSectors`. -/
def reservedSectors (vbr : Bytes) : BitVec 16 := vbr.read16 14

/-- `bpd.numberOfFATs`. -/
def numberOfFATs (vbr : Bytes) : Byte := vbr.read8 16

/-- `bpd.sectorsPerFAT`. -/
def sectorsPerFAT (vbr : Bytes) : BitVec 32 := vbr.read32 36

/-- `bpd.clusterNumberRoot`. -/
def clusterNumberRoot (vbr : Bytes) : BitVec 32 := vbr.read32 44

/-- `firstDataSector`, in 32-bit arithmetic. -/
def firstDataSector (vbr : Bytes) : BitVec 32 :=
  (reservedSectors vbr).setWidth 32 + (numberOfFATs vbr).setWidth 32 * sectorsPerFAT vbr

end VBR

/-! ## Directory entries -/

namespace DirEntry

/-- `sizeof(fat32_dirEntry)`. -/
def size : ℕ := 32

/-- `fat32_dirEntry_attributes::LFN`. -/
def LFN : Byte := 0x0f

/-- `fat32_dirEntry_attributes::SUBDIRECTORY`. -/
def SUBDIRECTORY : Byte := 0x10

/-- `fileName`. -/
def fileName (e : Bytes) : Bytes := e.take 8

/-- `fileExtension`. -/
def fileExtension (e : Bytes) : Bytes := (e.drop 8).take 3

/-- `attributes`. -/
def attributes (e : Bytes) : Byte := e.read8 11

/-- `highClusterNumber`. -/
def highClusterNumber (e : Bytes) : BitVec 16 := e.read16 20

/-- `lowClusterNumber`. -/
def lowClusterNumber (e : Bytes) : BitVec 16 := e.read16 26

/-- `size`. -/
def fileSize (e : Bytes) : BitVec 32 := e.read32 28

/-- `highClusterNumber << 16 | lowClusterNumber`. -/
def firstCluster (e : Bytes) : BitVec 32 :=
  (highClusterNumber e).setWidth 32 <<< 16 ||| (lowClusterNumber e).setWidth 32

end DirEntry

end RainbowOS
