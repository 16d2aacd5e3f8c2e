import Mathlib.Order.CompletePartialOrder
import Mathlib.Order.Interval.Set.Disjoint
import RainbowOS.Fat32.Contents

/-!
# The addresses of clusters

`readDir` and `getRootFile` compute the first sector of a cluster by the same formula, from members
of 8, 16 and 32 bits.  On a partition that lies below sector `2 ^ 32` as a whole, none of the sums
and products wraps.

* `callsOnly_init`, `callsOnly_readDir`, `callsOnly_clusterStep` — which sectors the functions of
  the driver pass to the callback.
* `Volume.DataCluster.clusterLBA_toNat` — the formula, for the clusters of the partition.
* `clusters_addressed` — so different clusters are different sectors, and none of these is a
  reserved one or one of a FAT.
-/

set_option autoImplicit false
-- The boot record of the concrete volume is evaluated byte by byte.
set_option maxRecDepth 8000

namespace RainbowOS

universe u

variable {α : Type u} {σ : Type} {disk disk' : Disk} {lba : BitVec 32}

/-! ## Calls of the callback -/

/-- A call of `_diskReadFunc`: the number of the first sector, and how many there are. -/
structure DiskCall where
  lba : BitVec 32
  sectors : ℕ

/-- The sectors of a call. -/
def DiskCall.range (call : DiskCall) : Set ℕ :=
  Set.Ico call.lba.toNat (call.lba.toNat + call.sectors)

/-- The function `f` makes no other calls than these: it cannot tell callbacks apart that answer
them alike. -/
def CallsOnly (f : Disk → α) (calls : Disk → List DiskCall) : Prop :=
  ∀ ⦃disk disk' : Disk⦄, disk.panic = disk'.panic →
    (∀ call ∈ calls disk, disk.read call.lba call.sectors = disk'.read call.lba call.sectors) →
      f disk = f disk'

theorem Disk.readInto_congr {n : ℕ} (hpanic : disk.panic = disk'.panic)
    (hread : disk.read lba n = disk'.read lba n) (buffer : Option Bytes) (offset : ℕ) :
    disk.readInto lba buffer offset n = disk'.readInto lba buffer offset n := by
  simp only [Disk.readInto, Disk.failure, hpanic, hread]

namespace Fat32

variable {this : Volume} {c d : BitVec 32} {size : ℕ}

/-- The calls of `init`: the boot record, and the FAT that it describes. -/
def initCalls (lba : BitVec 32) (disk : Disk) : List DiskCall :=
  ⟨lba, 1⟩ ::
    match disk.read lba 1 with
    | none => []
    | some vbr => [⟨fatLBA lba vbr, (VBR.sectorsPerFAT vbr).toNat⟩]

/-- The call of `readDir`: all the sectors of the cluster. -/
def readDirCall (this : Volume) (clusterNumber : BitVec 32) : DiskCall :=
  ⟨this.clusterLBA clusterNumber, (VBR.sectorsPerCluster this.vbr).toNat⟩

/-- The call of a round of the loop over the clusters in `getRootFile`: one sector. -/
def clusterCall (this : Volume) (clusterNum : BitVec 32) : DiskCall :=
  ⟨this.clusterLBA clusterNum, 1⟩

theorem callsOnly_init (A : Allocator σ) (lba : BitVec 32) (h : Heap σ) :
    CallsOnly (fun disk ↦ init A disk lba h) (initCalls lba) := by
  intro disk disk' hpanic hcalls
  obtain ⟨hvbr, hfat⟩ := List.forall_mem_cons.mp hcalls
  dsimp only at hvbr ⊢
  cases hb : (A.alloc h.state VBR.size).1 with
  | none => rw [init_vbr_refused hb, init_vbr_refused hb]
  | some b =>
    cases hread : disk.read lba 1 with
    | none =>
      rw [init_vbr_unreadable hb hread, init_vbr_unreadable hb (hvbr.symm.trans hread),
        Disk.failure, Disk.failure, hpanic]
    | some vbr =>
      rw [hread] at hfat
      have hinto := Disk.readInto_congr hpanic (hfat _ List.mem_cons_self)
      rw [init_vbr_read hb hread, init_vbr_read hb (hvbr.symm.trans hread)]
      simp only [hinto]

theorem callsOnly_readDir (A : Allocator σ) (this : Volume) (c : BitVec 32) (h : Heap σ) :
    CallsOnly (fun disk ↦ readDir A disk this c h) fun _ ↦ [readDirCall this c] := by
  intro disk disk' hpanic hcalls
  have hread : disk.read (this.clusterLBA c) (VBR.sectorsPerCluster this.vbr).toNat =
      disk'.read (this.clusterLBA c) (VBR.sectorsPerCluster this.vbr).toNat :=
    hcalls _ List.mem_cons_self
  have hload : ∀ dirPtr, loadDir disk this c dirPtr = loadDir disk' this c dirPtr := by
    intro dirPtr
    rw [loadDir, loadDir, Disk.readInto_congr hpanic hread]
  simp only [readDir, hload]

theorem callsOnly_clusterStep (this : Volume) (c j : BitVec 32) (buffer : Option Bytes) :
    CallsOnly (fun disk ↦ clusterStep disk this ⟨c, j, buffer⟩) fun _ ↦ [clusterCall this c] := by
  intro disk disk' hpanic hcalls
  have hread : disk.read (this.clusterLBA c) 1 = disk'.read (this.clusterLBA c) 1 :=
    hcalls _ List.mem_cons_self
  simp only [clusterStep, Disk.readInto_congr hpanic hread]

/-! ## The clusters of a partition -/

/-- A partition of `size` sectors, all of which have 32-bit numbers. -/
structure Volume.Fits (this : Volume) (size : ℕ) : Prop where
  sectorsPerCluster : 1 ≤ (VBR.sectorsPerCluster this.vbr).toNat
  reservedSectors : 1 ≤ (VBR.reservedSectors this.vbr).toNat
  numberOfFATs : 1 ≤ (VBR.numberOfFATs this.vbr).toNat
  inside : this.partitionLBA.toNat + size ≤ 2 ^ 32

/-- A cluster of the data region, with all its sectors in the partition. -/
structure Volume.DataCluster (this : Volume) (size : ℕ) (c : BitVec 32) : Prop where
  two_le : 2 ≤ c.toNat
  inside : this.firstSector c + (VBR.sectorsPerCluster this.vbr).toNat ≤
    this.partitionLBA.toNat + size

/-- The sectors of a cluster, as `readDir` and `getRootFile` count them. -/
def Volume.clusterSectors (this : Volume) (c : BitVec 32) : Set ℕ :=
  Set.Ico (this.clusterLBA c).toNat
    ((this.clusterLBA c).toNat + (VBR.sectorsPerCluster this.vbr).toNat)

/-- The reserved sectors and the FATs. -/
def Volume.systemSectors (this : Volume) : Set ℕ :=
  Set.Ico this.partitionLBA.toNat (this.partitionLBA.toNat + (VBR.reservedSectors this.vbr).toNat +
    (VBR.numberOfFATs this.vbr).toNat * (VBR.sectorsPerFAT this.vbr).toNat)

/-- **The formula does not wrap.** -/
theorem Volume.DataCluster.clusterLBA_toNat (hc : this.DataCluster size c)
    (hfits : this.Fits size) : (this.clusterLBA c).toNat = this.firstSector c := by
  have hspc := hfits.sectorsPerCluster
  have hin := hfits.inside
  have hcin := hc.inside
  rw [this.clusterLBA_eq hc.two_le, BitVec.toNat_ofNat, Nat.mod_eq_of_lt (by omega)]

theorem Volume.DataCluster.clusterSectors_eq (hc : this.DataCluster size c)
    (hfits : this.Fits size) : this.clusterSectors c = Set.Ico (this.firstSector c)
      (this.firstSector c + (VBR.sectorsPerCluster this.vbr).toNat) := by
  rw [Volume.clusterSectors, hc.clusterLBA_toNat hfits]

/-- Different clusters have no sector in common. -/
theorem Volume.DataCluster.disjoint (hc : this.DataCluster size c) (hd : this.DataCluster size d)
    (hfits : this.Fits size) (hcd : c ≠ d) :
    Disjoint (this.clusterSectors c) (this.clusterSectors d) := by
  rw [hc.clusterSectors_eq hfits, hd.clusterSectors_eq hfits, Set.disjoint_left]
  rintro x ⟨hcx, hxc⟩ ⟨hdx, hxd⟩
  have hsame : this.firstSector c + (x - this.firstSector c) =
      this.firstSector d + (x - this.firstSector d) := by omega
  exact hcd (Volume.firstSector_add_inj hc.two_le hd.two_le (by omega) (by omega) hsame).1

/-- The data region begins behind the FATs. -/
theorem Volume.DataCluster.disjoint_systemSectors (hc : this.DataCluster size c)
    (hfits : this.Fits size) : Disjoint (this.clusterSectors c) this.systemSectors := by
  rw [hc.clusterSectors_eq hfits, Set.disjoint_left]
  rintro x ⟨hcx, -⟩ ⟨-, hx⟩
  rw [Volume.firstSector] at hcx
  omega

/-- What `init` reads is the boot record, which is reserved, and the first FAT. -/
theorem initCalls_subset (hfits : this.Fits size) (hc : this.DataCluster size c)
    (hvbr : disk.read this.partitionLBA 1 = some this.vbr) {call : DiskCall}
    (hcall : call ∈ initCalls this.partitionLBA disk) : call.range ⊆ this.systemSectors := by
  have hspc := hfits.sectorsPerCluster
  have hres := hfits.reservedSectors
  have hin := hfits.inside
  have hcin := hc.inside
  have hfats := Nat.mul_le_mul_right (VBR.sectorsPerFAT this.vbr).toNat hfits.numberOfFATs
  have hlt := (VBR.reservedSectors this.vbr).isLt
  rw [Volume.firstSector] at hcin
  rw [initCalls, hvbr] at hcall
  rcases List.mem_cons.mp hcall with rfl | hcall
  · exact Set.Ico_subset_Ico_right (by dsimp only; omega)
  · obtain rfl := List.mem_singleton.mp hcall
    have hlba : (fatLBA this.partitionLBA this.vbr).toNat =
        this.partitionLBA.toNat + (VBR.reservedSectors this.vbr).toNat := by
      rw [fatLBA, BitVec.toNat_add, BitVec.toNat_setWidth]
      omega
    change Set.Ico (fatLBA this.partitionLBA this.vbr).toNat
      ((fatLBA this.partitionLBA this.vbr).toNat + (VBR.sectorsPerFAT this.vbr).toNat) ⊆ _
    rw [hlba]
    exact Set.Ico_subset_Ico (by omega) (by omega)

/-- **The addresses of clusters neither wrap nor collide.**  For every boot record and every
partition below sector `2 ^ 32`: `readDir` and the loop of `getRootFile` read a cluster of the
partition from the sector that the format says, different clusters have different sectors, and
none of these is a reserved one, one of a FAT, or one that `init` reads. -/
theorem clusters_addressed (hfits : this.Fits size) (hc : this.DataCluster size c)
    (hd : this.DataCluster size d) :
    (this.clusterLBA c).toNat = this.partitionLBA.toNat + (VBR.reservedSectors this.vbr).toNat +
        (VBR.numberOfFATs this.vbr).toNat * (VBR.sectorsPerFAT this.vbr).toNat +
        (c.toNat - 2) * (VBR.sectorsPerCluster this.vbr).toNat ∧
      (∀ (σ : Type) (A : Allocator σ) (h : Heap σ),
        CallsOnly (fun disk ↦ readDir A disk this c h)
          fun _ ↦ [⟨this.clusterLBA c, (VBR.sectorsPerCluster this.vbr).toNat⟩]) ∧
      (∀ (j : BitVec 32) (buffer : Option Bytes),
        CallsOnly (fun disk ↦ clusterStep disk this ⟨c, j, buffer⟩)
          fun _ ↦ [⟨this.clusterLBA c, 1⟩]) ∧
      (∀ (σ : Type) (A : Allocator σ) (h : Heap σ),
        CallsOnly (fun disk ↦ init A disk this.partitionLBA h) (initCalls this.partitionLBA)) ∧
      (c ≠ d → Disjoint (this.clusterSectors c) (this.clusterSectors d)) ∧
      Disjoint (this.clusterSectors c) this.systemSectors ∧
      ∀ disk : Disk, disk.read this.partitionLBA 1 = some this.vbr →
        ∀ call ∈ initCalls this.partitionLBA disk,
          Disjoint (this.clusterSectors c) call.range :=
  ⟨hc.clusterLBA_toNat hfits, fun _ A h ↦ callsOnly_readDir A this c h,
    callsOnly_clusterStep this c, fun _ A h ↦ callsOnly_init A this.partitionLBA h,
    hc.disjoint hd hfits, hc.disjoint_systemSectors hfits,
    fun _ hvbr _ hcall ↦ (hc.disjoint_systemSectors hfits).mono_right
      (initCalls_subset hfits hc hvbr hcall)⟩

/-- A volume of ten sectors with clusters of two. -/
theorem clusters_addressed_small :
    let this := smallVolume 2 [] []
    (this.clusterLBA 3).toNat = this.partitionLBA.toNat + (VBR.reservedSectors this.vbr).toNat +
        (VBR.numberOfFATs this.vbr).toNat * (VBR.sectorsPerFAT this.vbr).toNat +
        ((3 : BitVec 32).toNat - 2) * (VBR.sectorsPerCluster this.vbr).toNat ∧
      Disjoint (this.clusterSectors 3) (this.clusterSectors 2) ∧
      Disjoint (this.clusterSectors 3) this.systemSectors := by
  intro this
  have hfits : this.Fits 10 := ⟨by decide, by decide, by decide, by decide⟩
  have hc : this.DataCluster 10 3 := ⟨by decide, by decide⟩
  have hd : this.DataCluster 10 2 := ⟨by decide, by decide⟩
  obtain ⟨hlba, -, -, -, hdisjoint, hsystem, -⟩ := clusters_addressed hfits hc hd
  exact ⟨hlba, hdisjoint (by decide), hsystem⟩

end Fat32
end RainbowOS
