import RainbowOS.Fat32.Driver

/-!
# Mounting a volume

`init` is the one function of the driver that looks at what its allocations return.  `init_cases`
lists everything it can do: the callers' proofs cite it and never open `init` again.
-/

set_option autoImplicit false

namespace RainbowOS

variable {σ : Type} {A : Allocator σ} {disk : Disk} {lba : BitVec 32} {h h' : Heap σ}

namespace Disk

theorem failure_cases (disk : Disk) :
    disk.failure = .ok none ∨ ∃ msg, disk.failure = .error (.earlyPanic msg) := by
  rw [failure]
  cases disk.panic with
  | none => exact .inl rfl
  | some msg => exact .inr ⟨msg, rfl⟩

variable {b bs : Bytes} {offset sectors : ℕ}

theorem readInto_of_failure (hread : disk.read lba sectors = none) :
    disk.readInto lba (some b) offset sectors = disk.failure := by
  rw [readInto, hread]

theorem readInto_of_fits (hread : disk.read lba sectors = some bs)
    (hfits : offset + sectors * sectorSize ≤ b.length) :
    disk.readInto lba (some b) offset sectors = .ok (some (b.overwrite offset bs)) := by
  rw [readInto, hread]
  exact if_pos (disk.length_read hread ▸ hfits)

theorem readInto_of_not_fits (hread : disk.read lba sectors = some bs)
    (hfits : ¬ offset + sectors * sectorSize ≤ b.length) :
    disk.readInto lba (some b) offset sectors = .error .outOfBounds := by
  rw [readInto, hread]
  exact if_neg (disk.length_read hread ▸ hfits)

end Disk

/-- A block that is overwritten as a whole. -/
theorem Bytes.overwrite_zero_of_length {b bs : Bytes} (hlen : b.length = bs.length) :
    b.overwrite 0 bs = bs := by
  simp [Bytes.overwrite, hlen]

namespace Fat32

/-- The number of bytes that `init` allocates for the FAT, in 32-bit arithmetic. -/
def fatBytes (vbr : Bytes) : BitVec 32 :=
  VBR.sectorsPerFAT vbr * BitVec.ofNat 32 sectorSize / 4 * 4

/-- The first sector of the FAT. -/
def fatLBA (partitionLBA : BitVec 32) (vbr : Bytes) : BitVec 32 :=
  partitionLBA + (VBR.reservedSectors vbr).setWidth 32

/-- The object `this` is what `init` makes of the partition at `lba`. -/
structure Mounted (disk : Disk) (lba : BitVec 32) (this : Volume) : Prop where
  partitionLBA : this.partitionLBA = lba
  vbr : disk.read lba 1 = some this.vbr
  fat_length : this.fat.length = (fatBytes this.vbr).toNat
  fat : ∃ bs, disk.read (fatLBA lba this.vbr) (VBR.sectorsPerFAT this.vbr).toNat = some bs ∧
    ∃ b : Bytes, this.fat = b.overwrite 0 bs

/-! ### The runs of `init` -/

section Runs

variable {b vbr fat : Bytes}

theorem init_vbr_refused (hb : (A.alloc h.state VBR.size).1 = none) :
    init A disk lba h = some (.ok (.error 99), ⟨(A.alloc h.state VBR.size).2, true⟩) := by
  rw [init, Run.bind_of_ok (Op.new_of_none hb)]
  rfl

theorem init_vbr_unreadable (hb : (A.alloc h.state VBR.size).1 = some b)
    (hread : disk.read lba 1 = none) :
    init A disk lba h = some (disk.failure.map fun _ ↦ .error 1,
      ⟨(A.alloc h.state VBR.size).2, h.refused⟩) := by
  rw [init, Run.bind_of_ok (Op.new_of_some hb)]
  dsimp only
  rw [Disk.readInto_of_failure hread]
  rcases disk.failure_cases with hfail | ⟨msg, hfail⟩
  · rw [hfail, Run.bind_of_ok (Op.ofExec_apply _)]
    rfl
  · rw [hfail, Run.bind_of_error (Op.ofExec_apply _)]
    rfl

/-- Once the boot record has been read, `init` asks for the FAT. -/
theorem init_vbr_read (hb : (A.alloc h.state VBR.size).1 = some b)
    (hread : disk.read lba 1 = some vbr) :
    init A disk lba h = (do
      let some fat ← Op.new A (fatBytes vbr) | return .error 99
      let some fat ← Op.ofExec (disk.readInto (fatLBA lba vbr) (some fat) 0
        (VBR.sectorsPerFAT vbr).toNat) | return .error 2
      return .ok ⟨vbr, fat, lba⟩ : Op σ (Except ℤ Volume))
        ⟨(A.alloc h.state VBR.size).2, h.refused⟩ := by
  have hlen : b.length = sectorSize := A.length_alloc hb
  have hover : b.overwrite 0 vbr = vbr :=
    Bytes.overwrite_zero_of_length (by rw [hlen, disk.length_read hread, Nat.one_mul])
  rw [init, Run.bind_of_ok (Op.new_of_some hb)]
  dsimp only
  rw [Disk.readInto_of_fits hread (by simp [hlen]), hover, Run.bind_of_ok (Op.ofExec_apply _)]
  rfl

theorem init_fat_refused (hb : (A.alloc h.state VBR.size).1 = some b)
    (hread : disk.read lba 1 = some vbr)
    (hfat : (A.alloc (A.alloc h.state VBR.size).2 (fatBytes vbr)).1 = none) :
    init A disk lba h = some (.ok (.error 99),
      ⟨(A.alloc (A.alloc h.state VBR.size).2 (fatBytes vbr)).2, true⟩) := by
  rw [init_vbr_read hb hread, Run.bind_of_ok (Op.new_of_none hfat)]
  rfl

theorem init_fat_granted (hb : (A.alloc h.state VBR.size).1 = some b)
    (hread : disk.read lba 1 = some vbr)
    (hfat : (A.alloc (A.alloc h.state VBR.size).2 (fatBytes vbr)).1 = some fat) :
    init A disk lba h = some ((disk.readInto (fatLBA lba vbr) (some fat) 0
        (VBR.sectorsPerFAT vbr).toNat).map fun
          | none => .error 2
          | some fat => .ok ⟨vbr, fat, lba⟩,
      ⟨(A.alloc (A.alloc h.state VBR.size).2 (fatBytes vbr)).2, h.refused⟩) := by
  rw [init_vbr_read hb hread, Run.bind_of_ok (Op.new_of_some hfat)]
  dsimp only
  cases disk.readInto (fatLBA lba vbr) (some fat) 0 (VBR.sectorsPerFAT vbr).toNat with
  | error stop => exact Run.bind_of_error (Op.ofExec_apply _)
  | ok fat =>
    rw [Run.bind_of_ok (Op.ofExec_apply _)]
    cases fat <;> rfl

end Runs

/-- Everything that `init` can do. -/
theorem init_cases (A : Allocator σ) (disk : Disk) (lba : BitVec 32) (h : Heap σ) :
    (∃ s, init A disk lba h = some (.ok (.error 99), ⟨s, true⟩)) ∨
    ∃ s, (disk.read lba 1 = none ∧
        init A disk lba h = some (disk.failure.map fun _ ↦ .error 1, ⟨s, h.refused⟩)) ∨
      ∃ vbr fat, disk.read lba 1 = some vbr ∧ fat.length = (fatBytes vbr).toNat ∧
        init A disk lba h = some ((disk.readInto (fatLBA lba vbr) (some fat) 0
          (VBR.sectorsPerFAT vbr).toNat).map fun
            | none => .error 2
            | some fat => .ok ⟨vbr, fat, lba⟩, ⟨s, h.refused⟩) := by
  cases hb : (A.alloc h.state VBR.size).1 with
  | none => exact .inl ⟨_, init_vbr_refused hb⟩
  | some b =>
    cases hread : disk.read lba 1 with
    | none => exact .inr ⟨_, .inl ⟨rfl, init_vbr_unreadable hb hread⟩⟩
    | some vbr =>
      cases hfat : (A.alloc (A.alloc h.state VBR.size).2 (fatBytes vbr)).1 with
      | none => exact .inl ⟨_, init_fat_refused hb hread hfat⟩
      | some fat =>
        exact .inr ⟨_, .inr ⟨vbr, fat, rfl, A.length_alloc hfat, init_fat_granted hb hread hfat⟩⟩

/-- An object that `init` has returned is mounted. -/
theorem mounted_of_init {this : Volume} (hinit : init A disk lba h = some (.ok (.ok this), h')) :
    Mounted disk lba this := by
  obtain ⟨s, heq⟩ | ⟨s, ⟨-, heq⟩ | ⟨vbr, b, hvbr, hlen, heq⟩⟩ := init_cases A disk lba h
  · simp [heq] at hinit
  · rcases disk.failure_cases with hfail | ⟨msg, hfail⟩
    · simp [heq, hfail, Except.map] at hinit
    · simp [heq, hfail, Except.map] at hinit
  · rw [heq] at hinit
    cases hread : disk.read (fatLBA lba vbr) (VBR.sectorsPerFAT vbr).toNat with
    | none =>
      rcases disk.failure_cases with hfail | ⟨msg, hfail⟩
      · simp [Disk.readInto_of_failure hread, hfail, Except.map] at hinit
      · simp [Disk.readInto_of_failure hread, hfail, Except.map] at hinit
    | some bs =>
      by_cases hfits : 0 + (VBR.sectorsPerFAT vbr).toNat * sectorSize ≤ b.length
      · simp only [Disk.readInto_of_fits hread hfits, Except.map, Option.some.injEq, Prod.mk.injEq,
          Except.ok.injEq] at hinit
        obtain ⟨rfl, -⟩ := hinit
        have hbs := disk.length_read hread
        exact ⟨rfl, hvbr, (Bytes.length_overwrite (hbs ▸ hfits)).trans hlen, bs, hread, b, rfl⟩
      · simp [Disk.readInto_of_not_fits hread hfits, Except.map] at hinit

/-- What `init` does when nothing goes wrong. -/
theorem init_of_grants {vbr fat : Bytes} (hgrants : A.Grants h.state [VBR.size, fatBytes vbr])
    (hvbr : disk.read lba 1 = some vbr)
    (hfat : disk.read (fatLBA lba vbr) (VBR.sectorsPerFAT vbr).toNat = some fat)
    (hlen : fat.length = (fatBytes vbr).toNat) :
    init A disk lba h = some (.ok (.ok ⟨vbr, fat, lba⟩),
      ⟨A.after h.state [VBR.size, fatBytes vbr], h.refused⟩) := by
  simp only [Allocator.grants_cons, Option.isSome_iff_exists] at hgrants
  obtain ⟨⟨b, hb⟩, ⟨b', hb'⟩, -⟩ := hgrants
  have hlen' : b'.length = fat.length := by rw [A.length_alloc hb', hlen]
  rw [init_fat_granted hb hvbr hb',
    Disk.readInto_of_fits hfat (by simp [hlen', disk.length_read hfat]),
    Bytes.overwrite_zero_of_length hlen']
  rfl

/-! ## Small volumes

The concrete volumes of the examples and the counterexamples start at sector 0 and have one FAT of
one sector, right after the boot record.  Their root directory is cluster 2. -/

/-- The boot record of a small volume. -/
def smallVBR (sectorsPerCluster : Byte) : Bytes :=
  List.replicate 11 0 ++ [0, 2, sectorsPerCluster, 1, 0, 1] ++ List.replicate 19 0 ++
    [1, 0, 0, 0] ++ List.replicate 4 0 ++ [2, 0, 0, 0]

/-- A small volume with the given FAT and data sectors. -/
def smallImage (sectorsPerCluster : Byte) (fat : Bytes) (data : List Bytes) : Image :=
  .ofSectors (smallVBR sectorsPerCluster :: fat :: data)

/-- What `init` makes of a small volume. -/
def smallVolume (sectorsPerCluster : Byte) (fat : Bytes) (data : List Bytes) : Volume :=
  let image := smallImage sectorsPerCluster fat data
  ⟨image.sector 0, image.sector 1, 0⟩

theorem reservedSectors_small (sectorsPerCluster : Byte) :
    VBR.reservedSectors (smallVBR sectorsPerCluster).padded = 1 := by
  rw [VBR.reservedSectors, Bytes.read16_padded _ (by decide)]
  simp [Bytes.read16, Bytes.read8, smallVBR]

theorem sectorsPerFAT_small (sectorsPerCluster : Byte) :
    VBR.sectorsPerFAT (smallVBR sectorsPerCluster).padded = 1 := by
  rw [VBR.sectorsPerFAT, Bytes.read32_padded _ (by decide)]
  simp [Bytes.read32, Bytes.read16, Bytes.read8, smallVBR]

theorem mounted_small (sectorsPerCluster : Byte) (fat : Bytes) (data : List Bytes) :
    Mounted (smallImage sectorsPerCluster fat data).disk 0
      (smallVolume sectorsPerCluster fat data) := by
  have hspf := sectorsPerFAT_small sectorsPerCluster
  have hlba : fatLBA 0 (smallVBR sectorsPerCluster).padded = 1 := by
    rw [fatLBA, reservedSectors_small]
    rfl
  refine ⟨rfl, congrArg some (Image.sectors_one _ _), ?_, _, rfl, [], ?_⟩
  · change fat.padded.length = (fatBytes (smallVBR sectorsPerCluster).padded).toNat
    rw [fatBytes, hspf]
    exact Bytes.length_padded fat
  · change fat.padded = (Bytes.overwrite [] 0 ((smallImage sectorsPerCluster fat data).sectors
      (fatLBA 0 (smallVBR sectorsPerCluster).padded)
      (VBR.sectorsPerFAT (smallVBR sectorsPerCluster).padded).toNat))
    rw [hlba, hspf, show (1 : BitVec 32).toNat = 1 from rfl, Image.sectors_one]
    simp [Bytes.overwrite, smallImage, Image.ofSectors, Bytes.padded]

/-- The directory entry of `KERNEL.BIN`, a file of `size` bytes that starts at cluster 3. -/
def kernelEntry (size : BitVec 16) : Bytes :=
  [0x4b, 0x45, 0x52, 0x4e, 0x45, 0x4c, 0x20, 0x20, 0x42, 0x49, 0x4e, 0x20,
    0, 0, 0, 0, 0, 0, 0, 0, 0, 0, 0, 0, 0, 0,
    3, 0, size.setWidth 8, (size >>> 8).setWidth 8, 0, 0]

/-- The string `KERNEL.BIN`. -/
def kernelName : Bytes := [0x4b, 0x45, 0x52, 0x4e, 0x45, 0x4c, 0x2e, 0x42, 0x49, 0x4e]

end Fat32
end RainbowOS
