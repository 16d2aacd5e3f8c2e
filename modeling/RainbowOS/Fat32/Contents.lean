import RainbowOS.Fat32.ClusterLoop
import RainbowOS.Fat32.Search

/-!
# What is on a volume

This file says what a FAT32 volume contains, in the terms of the format and not of the driver: the
place of a cluster as a natural number, the contents of a cluster as all of its sectors, the chain
of clusters of a file as a list, and the content of the file as what is on these clusters.

`Volume.WellFormed` and `Volume.RootFile` are the assumptions under which the format gives a file
of the root directory a content at all; they depend on the boot record, the FAT and the root
directory only, never on the data of files.
-/

set_option autoImplicit false

namespace RainbowOS
namespace Fat32

/-! ## Clusters -/

/-- The number of the first sector of a cluster. -/
def Volume.firstSector (this : Volume) (c : BitVec 32) : ℕ :=
  this.partitionLBA.toNat + (VBR.reservedSectors this.vbr).toNat +
    (VBR.numberOfFATs this.vbr).toNat * (VBR.sectorsPerFAT this.vbr).toNat +
    (c.toNat - 2) * (VBR.sectorsPerCluster this.vbr).toNat

/-- The contents of a cluster. -/
def Volume.cluster (this : Volume) (image : Image) (c : BitVec 32) : Bytes :=
  image.sectors (BitVec.ofNat 32 (this.firstSector c)) (VBR.sectorsPerCluster this.vbr).toNat

/-- The boot record and the FAT of the partition at `lba`. -/
def volumeAt (image : Image) (lba : BitVec 32) : Volume :=
  let vbr := image.sector lba
  let fat := BitVec.ofNat 32 (lba.toNat + (VBR.reservedSectors vbr).toNat)
  ⟨vbr, image.sectors fat (VBR.sectorsPerFAT vbr).toNat, lba⟩

/-- The root directory. -/
def Volume.rootDir (this : Volume) (image : Image) : Bytes :=
  this.cluster image (VBR.clusterNumberRoot this.vbr)

/-- The driver computes the place of a cluster in 32-bit arithmetic, which is right as long as the
number of the cluster is not one of the two reserved ones. -/
theorem Volume.clusterLBA_eq (this : Volume) {c : BitVec 32} (hc : 2 ≤ c.toNat) :
    this.clusterLBA c = BitVec.ofNat 32 (this.firstSector c) := by
  have hsub : (c - 2).toNat = c.toNat - 2 := by bv_omega
  have hcast : ∀ {w : ℕ} (x : BitVec w), BitVec.ofNat 32 x.toNat = x.setWidth 32 :=
    fun x ↦ BitVec.ofNat_toNat 32 x
  simp only [Volume.firstSector, BitVec.ofNat_add, BitVec.ofNat_mul, ← hsub, hcast,
    BitVec.setWidth_eq, Volume.clusterLBA, VBR.firstDataSector]
  ac_rfl

/-- Different clusters have different sectors. -/
theorem Volume.firstSector_add_inj {this : Volume} {c d : BitVec 32} {k l : ℕ} (hc : 2 ≤ c.toNat)
    (hd : 2 ≤ d.toNat) (hk : k < (VBR.sectorsPerCluster this.vbr).toNat)
    (hl : l < (VBR.sectorsPerCluster this.vbr).toNat)
    (h : this.firstSector c + k = this.firstSector d + l) : c = d ∧ k = l := by
  rw [Volume.firstSector, Volume.firstSector, Nat.add_assoc, Nat.add_assoc _ _ l,
    Nat.add_left_cancel_iff] at h
  generalize (VBR.sectorsPerCluster this.vbr).toNat = m at *
  have hdiv : ∀ a k, k < m → (a * m + k) / m = a := by
    intro a k hk
    rw [Nat.mul_comm, Nat.mul_add_div (by omega), Nat.div_eq_of_lt hk, Nat.add_zero]
  have hcd : c.toNat - 2 = d.toNat - 2 := by
    rw [← hdiv (c.toNat - 2) k hk, h, hdiv _ l hl]
  rw [hcd] at h
  exact ⟨BitVec.eq_of_toNat_eq (by omega), by omega⟩

/-! ## Chains -/

/-- The clusters of a chain, from `c` to an end mark. -/
def Volume.Chain (this : Volume) : (c : BitVec 32) → List (BitVec 32) → Prop
  | c, [] => isClusterEnd c = true
  | c, d :: ds =>
    d = c ∧ isClusterEnd c = false ∧ 2 ≤ c.toNat ∧ this.InFat c ∧ this.Chain (this.next c) ds

instance instDecidableChain (this : Volume) :
    (c : BitVec 32) → (cs : List (BitVec 32)) → Decidable (this.Chain c cs)
  | c, [] => inferInstanceAs (Decidable (isClusterEnd c = true))
  | c, d :: ds =>
    have _ := instDecidableChain this (this.next c) ds
    inferInstanceAs (Decidable (d = c ∧ isClusterEnd c = false ∧ 2 ≤ c.toNat ∧ this.InFat c ∧
      this.Chain (this.next c) ds))

/-- The contents of a chain. -/
def Volume.chainData (this : Volume) (image : Image) (cs : List (BitVec 32)) : Bytes :=
  cs.flatMap (this.cluster image)

/-! ## Well-formed volumes and the files of the root directory -/

/-- A volume with sectors of 512 bytes whose root directory is a single cluster. -/
structure Volume.WellFormed (this : Volume) : Prop where
  bytesPerSector : VBR.bytesPerSector this.vbr = 512
  sectorsPerCluster : 1 ≤ (VBR.sectorsPerCluster this.vbr).toNat
  /-- The boot record is one of the reserved sectors. -/
  reservedSectors : 1 ≤ (VBR.reservedSectors this.vbr).toNat
  numberOfFATs : 1 ≤ (VBR.numberOfFATs this.vbr).toNat
  /-- The size of a FAT in bytes is a 32-bit number. -/
  sectorsPerFAT : (VBR.sectorsPerFAT this.vbr).toNat * sectorSize < 2 ^ 32
  /-- The root directory is a chain of one cluster. -/
  root : this.Chain (VBR.clusterNumberRoot this.vbr) [VBR.clusterNumberRoot this.vbr]
  /-- It lies on a part of the disk that has sector numbers. -/
  root_inside : this.firstSector (VBR.clusterNumberRoot this.vbr) +
    (VBR.sectorsPerCluster this.vbr).toNat ≤ 2 ^ 32

/-- The entry number `i`, of `n`, of the directory `dir` is that of a file on the clusters `cs`, and
the first one of its name. -/
structure Volume.RootFile (this : Volume) (dir : Bytes) (n i : ℕ) (cs : List (BitVec 32)) :
    Prop where
  ends : EndsAt dir 0 n
  lt : i < n
  first : ∀ j < i, nameOf (nthEntry dir j) ≠ nameOf (nthEntry dir i)
  /-- An empty file has no cluster, and 0 in the place of its number. -/
  chain : this.Chain (DirEntry.firstCluster (nthEntry dir i)) cs ∨
    DirEntry.firstCluster (nthEntry dir i) = 0 ∧ cs = []
  /-- There are as many clusters as the size needs. -/
  length : cs.length = ((DirEntry.fileSize (nthEntry dir i)).toNat +
    (sectorSize * (VBR.sectorsPerCluster this.vbr).toNat - 1)) /
      (sectorSize * (VBR.sectorsPerCluster this.vbr).toNat)
  /-- The clusters are not those of the root directory. -/
  root : VBR.clusterNumberRoot this.vbr ∉ cs
  inside : ∀ c ∈ cs, this.firstSector c + (VBR.sectorsPerCluster this.vbr).toNat ≤ 2 ^ 32

/-! ## Small volumes -/

theorem volumeAt_small (sectorsPerCluster : Byte) (fat : Bytes) (data : List Bytes) :
    volumeAt (smallImage sectorsPerCluster fat data) 0 =
      smallVolume sectorsPerCluster fat data := by
  have hfat : (smallImage sectorsPerCluster fat data).sectors
      (BitVec.ofNat 32 (0 + (VBR.reservedSectors (smallVBR sectorsPerCluster).padded).toNat))
      (VBR.sectorsPerFAT (smallVBR sectorsPerCluster).padded).toNat
        = (smallImage sectorsPerCluster fat data).sector 1 := by
    rw [reservedSectors_small, sectorsPerFAT_small]
    exact Image.sectors_one _ _
  exact congrArg (Volume.mk (smallVBR sectorsPerCluster).padded · 0) hfat

end Fat32
end RainbowOS
