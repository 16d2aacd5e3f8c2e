import RainbowOS.Fat32.Contents
import RainbowOS.Fat32.ReadDir

/-!
# Reading a file of a well-formed volume

`getRootFile` reads one sector for every cluster and puts the sectors one behind the other, whereas
`readDir` reads all the sectors of its cluster.

* `readsFile_iff` — on a well-formed volume with no request refused, everything up to the loop over
  the clusters goes right, and the result is that of the loop.
* `clusterLoop_of_chain` — the loop fills the buffer with the first sectors of the clusters and
  leaves the rest of it as the heap had it.
* `getRootFile_faithful_iff` — so the content of the file is what is read, whatever it is, exactly
  if the clusters have one sector or the file has at most one.
-/

set_option autoImplicit false
-- The sectors of the concrete volumes are evaluated byte by byte.
set_option maxRecDepth 8000

namespace RainbowOS
namespace Fat32

variable {σ : Type} {A : Allocator σ} {disk : Disk} {image : Image} {lba c j : BitVec 32}
  {this : Volume} {cs : List (BitVec 32)} {dir e b : Bytes} {n i : ℕ}

/-! ## Up to the loop -/

/-- `getRootFile`, after `init`, returns `r`. -/
def ReadsFile (A : Allocator σ) (s : σ) (image : Image) (lba : BitVec 32) (file : Bytes)
    (r : FileResult) : Prop :=
  ∃ fuel this h h', init A image.disk lba ⟨s, false⟩ = some (.ok (.ok this), h) ∧
    getRootFile A image.disk this fuel file h = some (.ok r, h')

/-- `getRootFile`, after `init`, returns `r` and leaves the heap in the state `t`. -/
def ReadsFileTo (A : Allocator σ) (s : σ) (image : Image) (lba : BitVec 32) (file : Bytes)
    (r : FileResult) (t : σ) : Prop :=
  ∃ fuel this h h', init A image.disk lba ⟨s, false⟩ = some (.ok (.ok this), h) ∧
    getRootFile A image.disk this fuel file h = some (.ok r, h') ∧ h'.state = t

/-- What `init` and `getRootFile` ask of the heap. -/
def Volume.fileRequests (this : Volume) (dir : Bytes) (n : ℕ) (file : Bytes) : List (BitVec 32) :=
  [VBR.size, fatBytes this.vbr] ++ ([this.dirSize, 12] ++ 12 :: searchRequests file dir n 0)

theorem Volume.WellFormed.fatBytes_toNat (hwf : this.WellFormed) :
    (fatBytes this.vbr).toNat = (VBR.sectorsPerFAT this.vbr).toNat * sectorSize := by
  have hlt := hwf.sectorsPerFAT
  rw [sectorSize] at hlt
  rw [fatBytes, sectorSize]
  simp only [BitVec.toNat_mul, BitVec.toNat_udiv, BitVec.toNat_ofNat,
    show (4 : BitVec 32).toNat = 4 from rfl]
  omega

theorem init_wellFormed {s : σ} (hwf : (volumeAt image lba).WellFormed)
    (hgrants : A.Grants s [VBR.size, fatBytes (volumeAt image lba).vbr]) :
    init A image.disk lba ⟨s, false⟩ = some (.ok (.ok (volumeAt image lba)),
      ⟨A.after s [VBR.size, fatBytes (volumeAt image lba).vbr], false⟩) := by
  have hfat : fatLBA lba (image.sector lba) =
      BitVec.ofNat 32 (lba.toNat + (VBR.reservedSectors (image.sector lba)).toNat) := by
    simp [fatLBA, BitVec.ofNat_add]
  refine init_of_grants hgrants ?_ ?_ ?_
  · rw [Image.read_disk, Image.sectors_one]
  · rw [Image.read_disk, hfat]
  · exact (image.length_sectors _ _).trans hwf.fatBytes_toNat.symm

/-- The root directory is loaded as it is on the disk. -/
theorem Volume.WellFormed.singleClusterRoot (hwf : this.WellFormed)
    (hends : EndsAt (this.rootDir image) 0 n) :
    this.SingleClusterRoot image.disk (this.rootDir image) n := by
  refine ⟨hwf.bytesPerSector, ⟨_, Volume.fatEntry_of_inFat hwf.root.2.2.2.1,
    isClusterEnd_and_clusterMask.symm.trans hwf.root.2.2.2.2⟩, ?_, hends⟩
  rw [Image.read_disk, this.clusterLBA_eq hwf.root.2.2.1]
  rfl

theorem readFile_eq_ok_iff {h h' : Heap σ} {fuel : ℕ} {p : Bytes} {r : FileResult}
    (hb : (A.alloc h.state (bufferSize e)).1 = some b) :
    readFile A disk this fuel (some p) e h = some (.ok r, h') ↔
      ∃ buffer, clusterLoop disk this fuel e (some b) = some (.ok buffer) ∧
        r = ⟨0, DirEntry.fileSize e, buffer⟩ ∧
        h' = ⟨(A.alloc h.state (bufferSize e)).2, h.refused⟩ := by
  rw [readFile, Run.bind_of_ok (Op.new_of_some hb)]
  cases hloop : clusterLoop disk this fuel e (some b) with
  | none =>
    rw [Run.bind_of_none rfl]
    simp
  | some r' =>
    cases r' with
    | error stop =>
      rw [Run.bind_of_error rfl]
      simp
    | ok buffer =>
      rw [Run.bind_of_ok rfl, storeResult_some]
      simp [eq_comm]

/-- `getRootFile` comes to the entry of the file, and only the request for it is left. -/
theorem getRootFile_eq_readFile {s : σ} (hwf : this.WellFormed) (hfile : this.RootFile dir n i cs)
    (hgrants : A.Grants s
      ([this.dirSize, 12] ++ 12 :: searchRequests (nameOf (nthEntry dir i)) dir n 0)) :
    ∃ t p, (A.alloc t (bufferSize (nthEntry dir i))).1.isSome = true ∧
      (A.alloc t (bufferSize (nthEntry dir i))).2 = A.after s
        ([this.dirSize, 12] ++ 12 :: searchRequests (nameOf (nthEntry dir i)) dir n 0) ∧
      ∀ image, this.rootDir image = dir → ∀ fuel,
        getRootFile A image.disk this fuel (nameOf (nthEntry dir i)) ⟨s, false⟩ =
          readFile A image.disk this fuel (some p) (nthEntry dir i) ⟨t, false⟩ := by
  obtain ⟨t, p, hsearch, hafter, hrun⟩ := getRootFile_eq_search (h := ⟨s, false⟩) hgrants
  have hmatch := searchMatch_of_first (j := 0) (k := n) (Nat.zero_le i) (by simpa using hfile.lt)
    (by simpa using Nat.le_of_lt hfile.ends.2.1) hfile.first
  obtain ⟨t', ht', hafter', hread⟩ := searchEntries_of_match (h := ⟨t, false⟩) hsearch hmatch
  refine ⟨t', p, ht', hafter'.trans hafter, ?_⟩
  rintro image rfl fuel
  rw [hrun image.disk (hwf.singleClusterRoot hfile.ends)]
  exact hread _ _ _ _

/-- **Everything up to the loop over the clusters goes right.**  The block `b` that the loop is to
fill does not depend on the data of files, and the heap is left as the requests leave it. -/
theorem readsFileTo_iff {s : σ} (hwf : this.WellFormed) (hfile : this.RootFile dir n i cs)
    (hgrants : A.Grants s (this.fileRequests dir n (nameOf (nthEntry dir i)))) :
    ∃ b : Bytes, b.length = (bufferSize (nthEntry dir i)).toNat ∧
      ∀ image lba, volumeAt image lba = this → this.rootDir image = dir →
        ∀ r t, ReadsFileTo A s image lba (nameOf (nthEntry dir i)) r t ↔
          (∃ fuel buffer, clusterLoop image.disk this fuel (nthEntry dir i) (some b)
              = some (.ok buffer) ∧ r = ⟨0, DirEntry.fileSize (nthEntry dir i), buffer⟩) ∧
            t = A.after s (this.fileRequests dir n (nameOf (nthEntry dir i))) := by
  rw [Volume.fileRequests, A.grants_append] at hgrants
  obtain ⟨hinit, hrest⟩ := hgrants
  obtain ⟨u, p, hu, hafter, hget⟩ := getRootFile_eq_readFile hwf hfile hrest
  rw [← A.after_append] at hafter
  obtain ⟨b, hb⟩ := Option.isSome_iff_exists.mp hu
  refine ⟨b, A.length_alloc hb, ?_⟩
  rintro image lba rfl hdir r t
  have hmount := init_wellFormed hwf hinit
  constructor
  · rintro ⟨fuel, this, h, h', hinit', hget', rfl⟩
    rw [hmount, Option.some.injEq, Prod.mk.injEq, Except.ok.injEq, Except.ok.injEq] at hinit'
    obtain ⟨rfl, rfl⟩ := hinit'
    rw [hget image hdir fuel, readFile_eq_ok_iff hb] at hget'
    obtain ⟨buffer, hloop, hr, rfl⟩ := hget'
    exact ⟨⟨fuel, buffer, hloop, hr⟩, hafter⟩
  · rintro ⟨⟨fuel, buffer, hloop, hr⟩, rfl⟩
    have hread := (readFile_eq_ok_iff (h := ⟨u, false⟩) (p := p) hb).mpr ⟨buffer, hloop, hr, rfl⟩
    exact ⟨fuel, _, _, _, hmount, (hget image hdir fuel).trans hread, hafter⟩

theorem readsFile_iff {s : σ} (hwf : this.WellFormed) (hfile : this.RootFile dir n i cs)
    (hgrants : A.Grants s (this.fileRequests dir n (nameOf (nthEntry dir i)))) :
    ∃ b : Bytes, b.length = (bufferSize (nthEntry dir i)).toNat ∧
      ∀ image lba, volumeAt image lba = this → this.rootDir image = dir →
        ∀ r, ReadsFile A s image lba (nameOf (nthEntry dir i)) r ↔
          ∃ fuel buffer, clusterLoop image.disk this fuel (nthEntry dir i) (some b)
              = some (.ok buffer) ∧ r = ⟨0, DirEntry.fileSize (nthEntry dir i), buffer⟩ := by
  obtain ⟨b, hb, hreads⟩ := readsFileTo_iff hwf hfile hgrants
  refine ⟨b, hb, fun image lba hthis hdir r ↦ ?_⟩
  have hstate : ReadsFile A s image lba (nameOf (nthEntry dir i)) r ↔
      ∃ t, ReadsFileTo A s image lba (nameOf (nthEntry dir i)) r t := by
    constructor
    · rintro ⟨fuel, this, h, h', hinit, hget⟩
      exact ⟨_, fuel, this, h, h', hinit, hget, rfl⟩
    · rintro ⟨_, fuel, this, h, h', hinit, hget, -⟩
      exact ⟨fuel, this, h, h', hinit, hget⟩
  rw [hstate]
  simp only [hreads image lba hthis hdir, exists_and_left, exists_eq, and_true]

/-! ## The loop -/

/-- The first sectors of the clusters. -/
def Volume.firstSectors (this : Volume) (image : Image) (cs : List (BitVec 32)) : Bytes :=
  cs.flatMap fun c ↦ image.sector (BitVec.ofNat 32 (this.firstSector c))

theorem readable_image (c : BitVec 32) : this.Readable image.disk c := rfl

/-- The walk along a chain comes to its end mark. -/
theorem Volume.Chain.walk_eq (hchain : this.Chain c cs) :
    this.walk image.disk cs.length c = .endMark := by
  induction cs generalizing c with
  | nil => exact if_pos hchain
  | cons d ds ih =>
    obtain ⟨rfl, hend, -, hin, hnext⟩ := hchain
    rw [List.length_cons, Volume.walk, if_neg (by simp [hend]), if_pos (readable_image d),
      if_pos hin]
    exact ih hnext

/-- It passes the first sectors of the clusters. -/
theorem Volume.Chain.walkData_eq (hchain : this.Chain c cs) :
    this.walkData image.disk cs.length c = this.firstSectors image cs := by
  induction cs generalizing c with
  | nil => rfl
  | cons d ds ih =>
    obtain ⟨rfl, hend, htwo, -, hnext⟩ := hchain
    have hread : image.disk.read (this.clusterLBA d) 1 =
        some (image.sector (BitVec.ofNat 32 (this.firstSector d))) := by
      rw [Image.read_disk, Image.sectors_one, this.clusterLBA_eq htwo]
    rw [List.length_cons, Volume.walkData_of_next hend hread, ih hnext]
    rfl

theorem Volume.length_firstSectors (this : Volume) (image : Image) (cs : List (BitVec 32)) :
    (this.firstSectors image cs).length = cs.length * sectorSize := by
  simp [Volume.firstSectors, List.length_flatMap, image.length_sector, List.map_const']

/-! ## Sizes -/

theorem bufferSize_toNat (e : Bytes) :
    (bufferSize e).toNat = ((DirEntry.fileSize e).toNat / 512 + 1) * 512 % 2 ^ 32 := by
  rw [bufferSize, numSectors, sectorSize]
  generalize DirEntry.fileSize e = x
  simp only [BitVec.toNat_mul, BitVec.toNat_add, BitVec.toNat_udiv,
    show (1 : BitVec 32).toNat = 1 from rfl, show (BitVec.ofNat 32 512).toNat = 512 from rfl]
  omega

/-- The buffer has room for one sector of every cluster. -/
theorem Volume.RootFile.length_le (hwf : this.WellFormed) (hfile : this.RootFile dir n i cs) :
    cs.length ≤ (DirEntry.fileSize (nthEntry dir i)).toNat / 512 + 1 := by
  have hspc := hwf.sectorsPerCluster
  rw [hfile.length, sectorSize]
  generalize (DirEntry.fileSize (nthEntry dir i)).toNat = x
  generalize (VBR.sectorsPerCluster this.vbr).toNat = k at *
  have hmul : 512 * (x / 512 + 1) ≤ 512 * k * (x / 512 + 1) := Nat.mul_le_mul_right _ (by omega)
  refine Nat.le_of_lt_succ (Nat.div_lt_of_lt_mul ?_)
  rw [Nat.mul_succ]
  omega

theorem Volume.RootFile.eq_nil_iff (hwf : this.WellFormed) (hfile : this.RootFile dir n i cs) :
    cs = [] ↔ (DirEntry.fileSize (nthEntry dir i)).toNat = 0 := by
  have hspc := hwf.sectorsPerCluster
  rw [← List.length_eq_zero_iff, hfile.length, sectorSize]
  generalize (DirEntry.fileSize (nthEntry dir i)).toNat = x
  generalize (VBR.sectorsPerCluster this.vbr).toNat = k at *
  rw [Nat.div_eq_zero_iff]
  omega

/-! ## Which files are read faithfully -/

/-- The content of the file with entry `e` on the clusters `cs` is read. -/
def ReadsFaithfully (A : Allocator σ) (s : σ) (image : Image) (lba : BitVec 32) (e : Bytes)
    (cs : List (BitVec 32)) : Prop :=
  ∃ r buffer, ReadsFile A s image lba (nameOf e) r ∧ r.returnCode = 0 ∧
    r.size = DirEntry.fileSize e ∧ r.ptr = some buffer ∧
    buffer.take (DirEntry.fileSize e).toNat =
      ((volumeAt image lba).chainData image cs).take (DirEntry.fileSize e).toNat

/-- Every chain of clusters is read, as far as the first sectors go. -/
theorem clusterLoop_of_chain (image : Image) (hwf : this.WellFormed)
    (hfile : this.RootFile dir n i cs)
    (hchain : this.Chain (DirEntry.firstCluster (nthEntry dir i)) cs)
    (hsize : (DirEntry.fileSize (nthEntry dir i)).toNat < 2 ^ 32 - 512)
    (hb : b.length = (bufferSize (nthEntry dir i)).toNat) :
    ∃ fuel, clusterLoop image.disk this fuel (nthEntry dir i) (some b)
      = some (.ok (some (this.firstSectors image cs ++ b.drop (cs.length * sectorSize)))) := by
  have hle := hfile.length_le hwf
  rw [bufferSize_toNat] at hb
  have hwalk : this.walk image.disk cs.length (DirEntry.firstCluster (nthEntry dir i)) = .endMark :=
    hchain.walk_eq
  have hloop := clusterLoop_of_endMark (b := b) hwalk (by rw [sectorSize]; omega) (by omega)
  rwa [hchain.walkData_eq, this.length_firstSectors] at hloop

theorem Volume.firstSectors_cons (this : Volume) (image : Image) (c : BitVec 32)
    (cs : List (BitVec 32)) : this.firstSectors image (c :: cs) =
      image.sector (BitVec.ofNat 32 (this.firstSector c)) ++ this.firstSectors image cs :=
  List.flatMap_cons

/-- A cluster begins with its first sector. -/
theorem Volume.chainData_cons (image : Image) (cs : List (BitVec 32)) {k : ℕ}
    (hk : (VBR.sectorsPerCluster this.vbr).toNat = k + 1) :
    this.chainData image (c :: cs) = image.sector (BitVec.ofNat 32 (this.firstSector c)) ++
      (image.sectors (BitVec.ofNat 32 (this.firstSector c) + 1) k ++ this.chainData image cs) := by
  rw [Volume.chainData, List.flatMap_cons, Volume.cluster, hk, Image.sectors_succ,
    List.append_assoc]
  rfl

/-- The first sectors are enough if there are no others, or if the file has only one. -/
theorem take_firstSectors (hwf : this.WellFormed) (hfile : this.RootFile dir n i cs) (rest : Bytes)
    (hsmall : (VBR.sectorsPerCluster this.vbr).toNat = 1 ∨
      (DirEntry.fileSize (nthEntry dir i)).toNat ≤ 512) :
    (this.firstSectors image cs ++ rest).take (DirEntry.fileSize (nthEntry dir i)).toNat =
      (this.chainData image cs).take (DirEntry.fileSize (nthEntry dir i)).toNat := by
  rcases hsmall with hone | hsize
  · have hall : this.firstSectors image cs = this.chainData image cs := by
      refine List.flatMap_congr fun c _ ↦ ?_
      rw [Volume.cluster, hone, Image.sectors_one]
    have hlen := hfile.length
    rw [hone, sectorSize] at hlen
    rw [List.take_append_of_le_length, hall]
    rw [this.length_firstSectors, sectorSize]
    omega
  · cases cs with
    | nil => rw [(hfile.eq_nil_iff hwf).mp rfl, List.take_zero, List.take_zero]
    | cons c ds =>
      obtain ⟨k, hk⟩ := Nat.exists_eq_add_of_lt hwf.sectorsPerCluster
      have hlen := image.length_sector (BitVec.ofNat 32 (this.firstSector c))
      rw [sectorSize] at hlen
      rw [this.firstSectors_cons, Volume.chainData_cons (k := k) image ds (by omega),
        List.append_assoc, List.take_append_of_le_length (by omega),
        List.take_append_of_le_length (by omega)]

/-! ## The sectors that are skipped

The second sector of a cluster is part of the data only: with another one in its place the volume
has the same boot record, FAT and root directory, and the loop reads the same. -/

theorem Volume.Chain.two_le {d : BitVec 32} (hchain : this.Chain c cs) (hd : d ∈ cs) :
    2 ≤ d.toNat := by
  induction cs generalizing c with
  | nil => cases hd
  | cons f fs ih =>
    obtain ⟨rfl, -, htwo, -, hnext⟩ := hchain
    rcases List.mem_cons.mp hd with rfl | hd
    · exact htwo
    · exact ih hnext hd

section Patch

variable {bs : Bytes} (hbs : bs.length = sectorSize)

/-- The disk with `bs` in the place of the second sector of `c`. -/
def patchSecond (image : Image) (this : Volume) (c : BitVec 32) (bs : Bytes)
    (hbs : bs.length = sectorSize) : Image :=
  image.patch (BitVec.ofNat 32 (this.firstSector c + 1)) bs hbs

theorem ofNat_ne {k l : ℕ} (hk : k < 2 ^ 32) (hl : l < 2 ^ 32) (hkl : k ≠ l) :
    BitVec.ofNat 32 k ≠ BitVec.ofNat 32 l := by
  intro h
  have := congrArg BitVec.toNat h
  rw [BitVec.toNat_ofNat, BitVec.toNat_ofNat, Nat.mod_eq_of_lt hk, Nat.mod_eq_of_lt hl] at this
  exact hkl this

theorem volumeAt_patchSecond (hwf : (volumeAt image lba).WellFormed)
    (hinside : (volumeAt image lba).firstSector c + 1 < 2 ^ 32) :
    volumeAt (patchSecond image (volumeAt image lba) c bs hbs) lba = volumeAt image lba := by
  have hres := hwf.reservedSectors
  have hfats := Nat.mul_le_mul_right (VBR.sectorsPerFAT (volumeAt image lba).vbr).toNat
    hwf.numberOfFATs
  obtain ⟨x, hx⟩ : ∃ x, x = (volumeAt image lba).firstSector c + 1 := ⟨_, rfl⟩
  have hpatch :
      patchSecond image (volumeAt image lba) c bs hbs = image.patch (BitVec.ofNat 32 x) bs hbs := by
    rw [patchSecond, hx]
  rw [← hx] at hinside
  rw [Volume.firstSector] at hx
  dsimp only [volumeAt] at hres hfats hx
  have hvbr : (image.patch (BitVec.ofNat 32 x) bs hbs).sector lba = image.sector lba := by
    refine image.sector_patch_of_ne hbs fun h ↦ ?_
    rw [← BitVec.toNat_inj, BitVec.toNat_ofNat, Nat.mod_eq_of_lt hinside] at h
    omega
  have hfat : (image.patch (BitVec.ofNat 32 x) bs hbs).sectors
      (BitVec.ofNat 32 (lba.toNat + (VBR.reservedSectors (image.sector lba)).toNat))
      (VBR.sectorsPerFAT (image.sector lba)).toNat = (volumeAt image lba).fat := by
    refine image.sectors_patch_of_ne hbs fun i hi ↦ ?_
    rw [← BitVec.ofNat_add]
    exact ofNat_ne (by omega) hinside (by omega)
  rw [hpatch, volumeAt, hvbr, hfat]
  rfl

theorem rootDir_patchSecond (hwf : this.WellFormed) (hc : 2 ≤ c.toNat)
    (hroot : c ≠ VBR.clusterNumberRoot this.vbr)
    (hspc : 1 < (VBR.sectorsPerCluster this.vbr).toNat)
    (hinside : this.firstSector c + 1 < 2 ^ 32) :
    this.rootDir (patchSecond image this c bs hbs) = this.rootDir image := by
  have hlt := hwf.root_inside
  refine image.sectors_patch_of_ne hbs fun i hi ↦ ?_
  rw [← BitVec.ofNat_add]
  refine ofNat_ne (by omega) hinside fun h ↦ hroot ?_
  exact (Volume.firstSector_add_inj hwf.root.2.2.1 hc hi hspc h).1.symm

theorem firstSectors_patchSecond (hc : 2 ≤ c.toNat)
    (hspc : 1 < (VBR.sectorsPerCluster this.vbr).toNat) (hinside : this.firstSector c + 1 < 2 ^ 32)
    (hcs : ∀ d ∈ cs, 2 ≤ d.toNat ∧ this.firstSector d < 2 ^ 32) :
    this.firstSectors (patchSecond image this c bs hbs) cs = this.firstSectors image cs := by
  refine List.flatMap_congr fun d hd ↦ image.sector_patch_of_ne hbs ?_
  refine ofNat_ne (hcs d hd).2 hinside fun h ↦ ?_
  have := Volume.firstSector_add_inj (k := 0) (hcs d hd).1 hc (by omega) hspc h
  omega

end Patch

/-! ## Which files are read faithfully, whatever their data -/

/-- An empty file without a cluster: the loop starts at the reserved entry 0 of the FAT. -/
theorem fileWalk_of_zero (hwf : this.WellFormed) (hsize : (DirEntry.fileSize e).toNat = 0)
    (hfirst : DirEntry.firstCluster e = 0) :
    this.fileWalk image.disk e =
      if isClusterEnd (this.next 0) = true then .endMark else .noRoom := by
  have hbuffer : (bufferSize e).toNat / sectorSize = 1 := by
    rw [bufferSize_toNat, hsize]
    decide
  have hin : this.InFat 0 := by
    have := hwf.root.2.2.2.1
    rw [Volume.InFat] at this ⊢
    have h0 : (0 : BitVec 32).toNat = 0 := rfl
    omega
  rw [Volume.fileWalk, hbuffer, hfirst, Volume.walk, if_neg (by decide), if_pos (readable_image 0),
    if_pos hin, Volume.walk, if_pos (readable_image _)]

/-- For a size close to the end of the 32-bit numbers the size of the buffer wraps to 0. -/
theorem fileWalk_of_large (hsize : 2 ^ 32 - 512 ≤ (DirEntry.fileSize e).toNat)
    (hend : isClusterEnd (DirEntry.firstCluster e) = false) :
    this.fileWalk image.disk e = .noRoom := by
  have hbuffer : (bufferSize e).toNat / sectorSize = 0 := by
    rw [bufferSize_toNat, sectorSize]
    omega
  rw [Volume.fileWalk, hbuffer, Volume.walk, if_neg (by simp [hend]), if_pos (readable_image _)]

variable {s : σ}

theorem readsFaithfully_iff (hfat : volumeAt image lba = this)
    (hreads : ∀ r, ReadsFile A s image lba (nameOf e) r ↔ ∃ fuel buffer,
      clusterLoop image.disk this fuel e (some b) = some (.ok buffer) ∧
        r = ⟨0, DirEntry.fileSize e, buffer⟩) :
    ReadsFaithfully A s image lba e cs ↔ ∃ fuel buffer,
      clusterLoop image.disk this fuel e (some b) = some (.ok (some buffer)) ∧
        buffer.take (DirEntry.fileSize e).toNat =
          (this.chainData image cs).take (DirEntry.fileSize e).toNat := by
  rw [ReadsFaithfully, hfat]
  constructor
  · rintro ⟨r, buffer, hr, -, -, hptr, htake⟩
    obtain ⟨fuel, _, hloop, rfl⟩ := (hreads r).mp hr
    obtain rfl : _ = some buffer := hptr
    exact ⟨fuel, buffer, hloop, htake⟩
  · rintro ⟨fuel, buffer, hloop, htake⟩
    exact ⟨_, buffer, (hreads _).mpr ⟨fuel, _, hloop, rfl⟩, rfl, rfl, rfl, htake⟩

theorem read8_take {l : Bytes} {k : ℕ} (hik : i < k) : Bytes.read8 (l.take k) i = l.read8 i := by
  rw [Bytes.read8, Bytes.read8, List.getD_eq_getElem?_getD, List.getElem?_take_of_lt hik,
    List.getD_eq_getElem?_getD]

/-- Behind the first sector of a chain comes the second sector of its first cluster. -/
theorem read8_chainData (image : Image) (cs : List (BitVec 32))
    (hspc : 1 < (VBR.sectorsPerCluster this.vbr).toNat) :
    (this.chainData image (c :: cs)).read8 512 =
      (image.sector (BitVec.ofNat 32 (this.firstSector c + 1))).read8 0 := by
  obtain ⟨k, hk⟩ := Nat.exists_eq_add_of_lt hspc
  have hfirst := image.length_sector (BitVec.ofNat 32 (this.firstSector c))
  have hsecond := image.length_sector (BitVec.ofNat 32 (this.firstSector c + 1))
  rw [sectorSize] at hfirst hsecond
  have hlba : BitVec.ofNat 32 (this.firstSector c) + 1 = BitVec.ofNat 32 (this.firstSector c + 1) :=
    (BitVec.ofNat_add _ _).symm
  rw [Volume.chainData_cons (k := k + 1) image cs (by omega), Bytes.read8_append_right (by omega),
    hfirst, Image.sectors_succ, List.append_assoc, hlba, Bytes.read8_append_left (by omega)]

theorem fileSize_lt_of_endMark (hwf : this.WellFormed) (hfile : this.RootFile dir n i cs)
    (hwalk : this.fileWalk image.disk (nthEntry dir i) = .endMark) :
    (DirEntry.fileSize (nthEntry dir i)).toNat < 2 ^ 32 - 512 := by
  by_contra hlarge
  cases cs with
  | nil =>
    have hzero := (hfile.eq_nil_iff hwf).mp rfl
    omega
  | cons c ds =>
    obtain ⟨-, hend, -⟩ | ⟨-, hcs⟩ := hfile.chain
    · rw [fileWalk_of_large (by omega) hend] at hwalk
      cases hwalk
    · cases hcs

theorem isClusterEnd_zero_of_endMark (hwf : this.WellFormed) (hfile : this.RootFile dir n i cs)
    (hwalk : this.fileWalk image.disk (nthEntry dir i) = .endMark)
    (hfirst : DirEntry.firstCluster (nthEntry dir i) = 0) : isClusterEnd (this.next 0) = true := by
  by_contra hend
  cases cs with
  | nil =>
    rw [fileWalk_of_zero hwf ((hfile.eq_nil_iff hwf).mp rfl) hfirst, if_neg hend] at hwalk
    cases hwalk
  | cons c ds =>
    obtain ⟨-, -, htwo, -⟩ | ⟨-, hcs⟩ := hfile.chain
    · rw [hfirst] at htwo
      exact absurd htwo (by decide)
    · cases hcs

/-- Where a file is read faithfully, the byte behind its first sector is. -/
theorem read8_firstSectors_of_faithful (hwf : this.WellFormed) (hfile : this.RootFile dir n i cs)
    (hchain : this.Chain (DirEntry.firstCluster (nthEntry dir i)) cs)
    (hsize : (DirEntry.fileSize (nthEntry dir i)).toNat < 2 ^ 32 - 512)
    (hb : b.length = (bufferSize (nthEntry dir i)).toNat)
    (hlong : 512 < (DirEntry.fileSize (nthEntry dir i)).toNat)
    (hread : ∃ fuel buffer, clusterLoop image.disk this fuel (nthEntry dir i) (some b)
      = some (.ok (some buffer)) ∧ buffer.take (DirEntry.fileSize (nthEntry dir i)).toNat =
        (this.chainData image cs).take (DirEntry.fileSize (nthEntry dir i)).toNat) :
    Bytes.read8 (this.firstSectors image cs ++ b.drop (cs.length * sectorSize)) 512 =
      (this.chainData image cs).read8 512 := by
  obtain ⟨fuel, buffer, hloop, htake⟩ := hread
  obtain ⟨k, hk⟩ := clusterLoop_of_chain image hwf hfile hchain hsize hb
  have heq := clusterLoop_unique hloop hk
  rw [Except.ok.injEq, Option.some.injEq] at heq
  rw [← heq, ← read8_take hlong, htake, read8_take hlong]

/-- A file that goes on in the second sector of a cluster is not read faithfully for all data:
what the loop reads does not depend on that sector. -/
theorem exists_not_faithful (hthis : volumeAt image lba = this) (hdir : this.rootDir image = dir)
    (hwf : this.WellFormed) (hfile : this.RootFile dir n i cs)
    (hb : b.length = (bufferSize (nthEntry dir i)).toNat)
    (hsize : (DirEntry.fileSize (nthEntry dir i)).toNat < 2 ^ 32 - 512)
    (hspc : 1 < (VBR.sectorsPerCluster this.vbr).toNat)
    (hlong : 512 < (DirEntry.fileSize (nthEntry dir i)).toNat)
    (hall : ∀ image', volumeAt image' lba = this → this.rootDir image' = dir →
      ∃ fuel buffer, clusterLoop image'.disk this fuel (nthEntry dir i) (some b)
          = some (.ok (some buffer)) ∧ buffer.take (DirEntry.fileSize (nthEntry dir i)).toNat =
            (this.chainData image' cs).take (DirEntry.fileSize (nthEntry dir i)).toNat) :
    False := by
  cases cs with
  | nil =>
    have hzero := (hfile.eq_nil_iff hwf).mp rfl
    omega
  | cons c ds =>
    have hchain : this.Chain (DirEntry.firstCluster (nthEntry dir i)) (c :: ds) :=
      hfile.chain.resolve_right fun h ↦ by cases h.2
    have hcs : ∀ d ∈ c :: ds, 2 ≤ d.toNat ∧ this.firstSector d + 1 < 2 ^ 32 := by
      intro d hd
      have := hfile.inside d hd
      exact ⟨hchain.two_le hd, by omega⟩
    obtain ⟨htwo, hinside⟩ := hcs c List.mem_cons_self
    obtain ⟨second, hsecond⟩ : ∃ bs, bs = image.sector (BitVec.ofNat 32 (this.firstSector c + 1)) :=
      ⟨_, rfl⟩
    have hbs : (second.map (· + 1)).length = sectorSize := by
      rw [List.length_map, hsecond, image.length_sector]
    have htake : ∀ image', volumeAt image' lba = this → this.rootDir image' = dir →
        Bytes.read8 (this.firstSectors image' (c :: ds) ++
            b.drop ((c :: ds).length * sectorSize)) 512 =
          (this.chainData image' (c :: ds)).read8 512 := fun image' hthis' hdir' ↦
      read8_firstSectors_of_faithful hwf hfile hchain hsize hb hlong (hall image' hthis' hdir')
    have hpatch := htake (patchSecond image this c (second.map (· + 1)) hbs)
      (by subst hthis; exact volumeAt_patchSecond hbs hwf hinside)
      ((rootDir_patchSecond hbs hwf htwo (fun h ↦ hfile.root (h ▸ List.mem_cons_self)) hspc
        hinside).trans hdir)
    rw [firstSectors_patchSecond hbs htwo hspc hinside fun d hd ↦
      ⟨(hcs d hd).1, Nat.lt_of_succ_lt (hcs d hd).2⟩, htake image hthis hdir,
      read8_chainData image ds hspc, read8_chainData _ ds hspc, patchSecond,
      Image.sector_patch_self, ← hsecond] at hpatch
    cases second with
    | nil => simp [sectorSize] at hbs
    | cons x xs =>
      change x = x + 1 at hpatch
      bv_omega

/-- **Which files are read faithfully, whatever their data.**  For a well-formed volume and a file
of its root directory: `getRootFile` returns the file, for all data that the volume may have in
the place of its own, exactly if the clusters have one sector or the file has at most one, the size
does not overflow, and, for an empty file without a cluster, the reserved entry 0 of the FAT is an
end mark. -/
theorem getRootFile_faithful_iff (hthis : volumeAt image lba = this)
    (hdir : this.rootDir image = dir) (he : nthEntry dir i = e) (hwf : this.WellFormed)
    (hfile : this.RootFile dir n i cs)
    (hgrants : A.Grants s (this.fileRequests dir n (nameOf e))) :
    (∀ image', volumeAt image' lba = this → this.rootDir image' = dir →
        ReadsFaithfully A s image' lba e cs) ↔
      (DirEntry.fileSize e).toNat < 2 ^ 32 - 512 ∧
        (DirEntry.firstCluster e = 0 → isClusterEnd (this.next 0) = true) ∧
        ((VBR.sectorsPerCluster this.vbr).toNat = 1 ∨ (DirEntry.fileSize e).toNat ≤ 512) := by
  subst he
  obtain ⟨b, hb, hreads⟩ := readsFile_iff hwf hfile hgrants
  have hnil := hfile.eq_nil_iff hwf
  constructor
  · intro hall
    have himage := hall image hthis hdir
    rw [readsFaithfully_iff hthis (hreads image lba hthis hdir)] at himage
    obtain ⟨fuel, buffer, hloop, htake⟩ := himage
    have hwalk := fileWalk_of_ok hb hloop
    refine ⟨fileSize_lt_of_endMark hwf hfile hwalk,
      isClusterEnd_zero_of_endMark hwf hfile hwalk, ?_⟩
    by_contra hsmall
    rw [not_or] at hsmall
    have hspc := hwf.sectorsPerCluster
    refine exists_not_faithful hthis hdir hwf hfile hb (fileSize_lt_of_endMark hwf hfile hwalk)
      (by omega) (by omega) fun image' hthis' hdir' ↦ ?_
    exact (readsFaithfully_iff hthis' (hreads image' lba hthis' hdir')).mp
      (hall image' hthis' hdir')
  · rintro ⟨hsize, hzero, hsmall⟩ image' hthis' hdir'
    rw [readsFaithfully_iff hthis' (hreads image' lba hthis' hdir')]
    rcases hfile.chain with hchain | ⟨hfirst, rfl⟩
    · obtain ⟨fuel, hloop⟩ := clusterLoop_of_chain image' hwf hfile hchain hsize hb
      exact ⟨fuel, _, hloop, take_firstSectors hwf hfile _ hsmall⟩
    · obtain ⟨fuel, r, hr, hout⟩ := clusterLoop_spec image'.disk this (nthEntry dir i) hb
      rw [fileWalk_of_zero hwf (hnil.mp rfl) hfirst, if_pos (hzero hfirst)] at hout
      obtain ⟨buffer, rfl⟩ := hout
      exact ⟨fuel, buffer, hr, by rw [hnil.mp rfl, List.take_zero, List.take_zero]⟩

/-- The FAT with the root directory on cluster 2 and a file on the clusters 3 and 4. -/
def twoClusterFat : Bytes :=
  List.replicate 8 0 ++ [0xff, 0xff, 0xff, 0x0f, 4, 0, 0, 0, 0xff, 0xff, 0xff, 0x0f]

/-- What is on the data sectors does not matter. -/
theorem wellFormed_twoCluster (data : List Bytes) :
    (smallVolume 1 twoClusterFat data).WellFormed := by
  change (smallVolume 1 twoClusterFat []).WellFormed
  refine ⟨?_, ?_, ?_, ?_, ?_, ?_, ?_⟩ <;> decide

theorem rootFile_kernel (data : List Bytes) :
    (smallVolume 1 twoClusterFat data).RootFile (kernelEntry 600).padded 1 0 [3, 4] := by
  change (smallVolume 1 twoClusterFat []).RootFile (kernelEntry 600).padded 1 0 [3, 4]
  exact ⟨endsAt_one (by decide) (by decide) (by decide), by decide, by simp,
    .inl (by decide), by decide, by decide,
    List.forall_mem_cons.mpr ⟨by decide,
      List.forall_mem_cons.mpr ⟨by decide, by simp⟩⟩⟩

/-- A kernel of 600 bytes, on clusters of one sector. -/
theorem getRootFile_faithful_iff_kernel :
    let data : List Bytes := [kernelEntry 600, [1, 2, 3], [4, 5, 6]]
    ReadsFaithfully Allocator.bump 4000 (smallImage 1 twoClusterFat data) 0 (kernelEntry 600)
      [3, 4] := by
  intro data
  have hdir : (smallVolume 1 twoClusterFat data).rootDir (smallImage 1 twoClusterFat data)
      = (kernelEntry 600).padded := by decide
  exact (getRootFile_faithful_iff (volumeAt_small 1 twoClusterFat data) hdir (by decide)
    (wellFormed_twoCluster data) (rootFile_kernel data) (by decide)).mpr
      ⟨by decide, by decide, .inl (by decide)⟩ _
        (volumeAt_small 1 twoClusterFat data) hdir

/-- A kernel of 1100 bytes, on clusters of two sectors: the second sector of the first cluster is
left out. -/
theorem getRootFile_skips :
    let data : List Bytes := [kernelEntry 1100, [], [], [42]]
    let image := smallImage 2 twoClusterFat data
    let this := smallVolume 2 twoClusterFat data
    let dir := (kernelEntry 1100).padded ++ Bytes.padded []
    volumeAt image 0 = this ∧ this.rootDir image = dir ∧ this.WellFormed ∧
      this.RootFile dir 1 0 [3, 4] ∧
      Allocator.bump.Grants 4000 (this.fileRequests dir 1 (nameOf (kernelEntry 1100))) ∧
      ¬ ReadsFaithfully Allocator.bump 4000 image 0 (kernelEntry 1100) [3, 4] := by
  intro data image this dir
  have hdir : this.rootDir image = dir := by decide
  have he : nthEntry dir 0 = kernelEntry 1100 := by decide
  have hwf : this.WellFormed := by
    refine ⟨?_, ?_, ?_, ?_, ?_, ?_, ?_⟩ <;> decide
  have hchain : this.Chain (DirEntry.firstCluster (nthEntry dir 0)) [3, 4] := by decide
  have hfile : this.RootFile dir 1 0 [3, 4] := by
    exact ⟨endsAt_one (by decide) (by decide) (by decide), by decide,
      by simp, .inl hchain, by decide, by decide,
      List.forall_mem_cons.mpr ⟨by decide,
        List.forall_mem_cons.mpr ⟨by decide, by simp⟩⟩⟩
  have hgrants :
      Allocator.bump.Grants 4000 (this.fileRequests dir 1 (nameOf (kernelEntry 1100))) := by
    decide
  refine ⟨volumeAt_small 2 twoClusterFat data, hdir, hwf, hfile, hgrants, ?_⟩
  rw [← he] at hgrants ⊢
  obtain ⟨b, hb, hreads⟩ := readsFile_iff hwf hfile hgrants
  rw [readsFaithfully_iff (volumeAt_small 2 twoClusterFat data)
    (hreads image 0 (volumeAt_small 2 twoClusterFat data) hdir)]
  rintro ⟨fuel, buffer, hloop, htake⟩
  obtain ⟨k, hk⟩ := clusterLoop_of_chain image hwf hfile hchain (by decide) hb
  have heq := clusterLoop_unique hloop hk
  rw [Except.ok.injEq, Option.some.injEq] at heq
  have hlong : 512 < (DirEntry.fileSize (nthEntry dir 0)).toNat := by decide
  have hread : (this.firstSectors image [3, 4]).read8 512 = 0 := by decide
  have hdata : (this.chainData image [3, 4]).read8 512 = 42 := by decide
  have hbyte : Bytes.read8 buffer 512 = 42 := by
    rw [← read8_take hlong, htake, read8_take hlong, hdata]
  rw [heq, Bytes.read8_append_left (by decide), hread] at hbyte
  exact absurd hbyte (by decide)

end Fat32
end RainbowOS
