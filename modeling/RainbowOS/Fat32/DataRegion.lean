import RainbowOS.Fat32.ReadFile

/-!
# Which sectors are read for a file

`clusterReads` lists the sector numbers that the loop over the clusters of a file hands to the
callback, whatever becomes of the loop, and `ReadsSector` puts this in the place where
`getRootFile` has the loop.

On a well-formed volume every sector belongs to a cluster of the file as long as the file has one
(`clusterReads_subset`).  An empty file has 0 in the place of its first cluster, which is not an end
mark: the loop begins with a cluster that does not exist, and the sector that is read for it lies
before the data region.
-/

set_option autoImplicit false
-- The sectors of the concrete volumes are evaluated byte by byte.
set_option maxRecDepth 8000

namespace RainbowOS
namespace Fat32

variable {σ : Type} {A : Allocator σ} {disk : Disk} {image : Image} {lba c x : BitVec 32}
  {this : Volume} {cs : List (BitVec 32)} {dir e : Bytes} {buffer : Option Bytes} {n i fuel : ℕ}

/-- The sector numbers that the first rounds of the loop over the clusters of the file with entry
`e` pass to the callback: one in every round that does not begin at an end mark. -/
def clusterReads (disk : Disk) (this : Volume) (fuel : ℕ) (e : Bytes) (buffer : Option Bytes) :
    List (BitVec 32) :=
  ((Loop.states (clusterStep disk this) fuel ⟨DirEntry.firstCluster e, 0, buffer⟩).filter
    fun s ↦ !isClusterEnd s.clusterNum).map fun s ↦ this.clusterLBA s.clusterNum

/-- `getRootFile(file)`, after `init`, passes the number `x` to the callback while it reads the file
that it has found. -/
def ReadsSector (A : Allocator σ) (s : σ) (image : Image) (lba : BitVec 32) (file : Bytes)
    (x : BitVec 32) : Prop :=
  ∃ this h directory h' e fuel b, init A image.disk lba ⟨s, false⟩ = some (.ok (.ok this), h) ∧
    readDir A image.disk this (VBR.clusterNumberRoot this.vbr) h = some (.ok directory, h') ∧
    searchMatch file directory.entries directory.numEntries 0 = some e ∧
    b.length = (bufferSize e).toNat ∧ x ∈ clusterReads image.disk this fuel e (some b)

/-- The sector `x` is one of a cluster of the data region. -/
def Volume.InCluster (this : Volume) (x c : BitVec 32) : Prop :=
  2 ≤ c.toNat ∧ this.firstSector c ≤ x.toNat ∧
    x.toNat < this.firstSector c + (VBR.sectorsPerCluster this.vbr).toNat

theorem mem_clusterReads : x ∈ clusterReads disk this fuel e buffer ↔
    ∃ s ∈ Loop.states (clusterStep disk this) fuel ⟨DirEntry.firstCluster e, 0, buffer⟩,
      isClusterEnd s.clusterNum = false ∧ this.clusterLBA s.clusterNum = x := by
  simp [clusterReads, and_assoc]

/-- A round that goes on has followed the FAT. -/
theorem clusterNum_of_next {s s' : ClusterState} (h : clusterStep disk this s = .next s') :
    isClusterEnd s.clusterNum = false ∧ s'.clusterNum = this.next s.clusterNum := by
  obtain ⟨c, j, buffer⟩ := s
  by_cases hend : isClusterEnd c = true
  · rw [clusterStep_of_end hend] at h
    cases h
  · rw [clusterStep, if_neg hend] at h
    rw [Bool.not_eq_true] at hend
    dsimp only at h
    cases hread : disk.readInto (this.clusterLBA c) buffer
        (j * BitVec.ofNat 32 sectorSize).toNat 1 with
    | error stop =>
      rw [hread] at h
      cases h
    | ok r =>
      rw [hread] at h
      cases r with
      | none => cases h
      | some b =>
        by_cases hin : this.InFat c
        · simp only [Volume.fatEntry_of_inFat hin, LoopStep.next.injEq] at h
          exact ⟨hend, (congrArg ClusterState.clusterNum h).symm⟩
        · simp only [Volume.fatEntry_of_not_inFat hin, reduceCtorEq] at h

/-- Along a chain, the loop comes to the clusters of the chain only. -/
theorem mem_of_mem_states (hchain : this.Chain c cs) {j : BitVec 32} {s : ClusterState}
    (hs : s ∈ Loop.states (clusterStep disk this) fuel ⟨c, j, buffer⟩)
    (hend : isClusterEnd s.clusterNum = false) : s.clusterNum ∈ cs := by
  have hinv : ∀ t ∈ Loop.states (clusterStep disk this) fuel ⟨c, j, buffer⟩,
      ∃ ds, this.Chain t.clusterNum ds ∧ ds ⊆ cs := by
    refine Loop.forall_states ?_ fuel ⟨cs, hchain, List.Subset.refl cs⟩
    rintro t t' ⟨ds, hds, hsub⟩ hstep
    obtain ⟨hgo, hnext⟩ := clusterNum_of_next hstep
    cases ds with
    | nil => simp [Volume.Chain, hgo] at hds
    | cons d ds => exact ⟨ds, hnext ▸ hds.2.2.2.2, fun y hy ↦ hsub (List.mem_cons_of_mem d hy)⟩
  obtain ⟨ds, hds, hsub⟩ := hinv s hs
  cases ds with
  | nil => simp [Volume.Chain, hend] at hds
  | cons d ds => exact hsub (hds.1 ▸ List.mem_cons_self)

/-- Along a chain, only sectors of its clusters are read. -/
theorem clusterReads_subset (hchain : this.Chain (DirEntry.firstCluster e) cs)
    (hinside : ∀ c ∈ cs, this.firstSector c + (VBR.sectorsPerCluster this.vbr).toNat ≤ 2 ^ 32)
    (hspc : 1 ≤ (VBR.sectorsPerCluster this.vbr).toNat)
    (hx : x ∈ clusterReads disk this fuel e buffer) : ∃ c ∈ cs, this.InCluster x c := by
  obtain ⟨s, hs, hend, rfl⟩ := mem_clusterReads.mp hx
  have hmem := mem_of_mem_states hchain hs hend
  have htwo := hchain.two_le hmem
  have hsector : (this.clusterLBA s.clusterNum).toNat = this.firstSector s.clusterNum := by
    have hle := hinside _ hmem
    rw [this.clusterLBA_eq htwo, BitVec.toNat_ofNat, Nat.mod_eq_of_lt (by omega)]
  exact ⟨_, hmem, htwo, Nat.le_of_eq hsector.symm, by omega⟩

/-- A file whose first cluster is 0 is read from the place where that cluster would be. -/
theorem clusterReads_of_zero (hzero : DirEntry.firstCluster e = 0) :
    this.clusterLBA 0 ∈ clusterReads disk this 1 e buffer := by
  refine mem_clusterReads.mpr ⟨⟨DirEntry.firstCluster e, 0, buffer⟩, List.mem_cons_self, ?_, ?_⟩
  · exact hzero ▸ (by decide : isClusterEnd 0 = false)
  · rw [hzero]

/-- The file that is found on a well-formed volume, and the loop over its clusters. -/
theorem readsSector_iff {s : σ} (hthis : volumeAt image lba = this)
    (hdir : this.rootDir image = dir) (hwf : this.WellFormed) (hfile : this.RootFile dir n i cs)
    (hgrants : A.Grants s (this.fileRequests dir n (nameOf (nthEntry dir i)))) :
    ReadsSector A s image lba (nameOf (nthEntry dir i)) x ↔
      ∃ fuel b, b.length = (bufferSize (nthEntry dir i)).toNat ∧
        x ∈ clusterReads image.disk this fuel (nthEntry dir i) (some b) := by
  subst hthis hdir
  rw [Volume.fileRequests, A.grants_append, A.grants_append] at hgrants
  obtain ⟨hinit, hread, -⟩ := hgrants
  have hmount := init_wellFormed hwf hinit
  have hroot := (hwf.singleClusterRoot hfile.ends).readDir
    (h := ⟨A.after s [VBR.size, fatBytes (volumeAt image lba).vbr], false⟩) hread
  have hmatch := searchMatch_of_first (j := 0) (k := n) (Nat.zero_le i) (by simpa using hfile.lt)
    (by simpa using Nat.le_of_lt hfile.ends.2.1) hfile.first
  constructor
  · rintro ⟨this, h, directory, h', e, fuel, b, hinit', hroot', hmatch', hb, hx⟩
    rw [hmount, Option.some.injEq, Prod.mk.injEq, Except.ok.injEq, Except.ok.injEq] at hinit'
    obtain ⟨rfl, rfl⟩ := hinit'
    rw [hroot, Option.some.injEq, Prod.mk.injEq, Except.ok.injEq] at hroot'
    obtain ⟨rfl, -⟩ := hroot'
    rw [hmatch, Option.some.injEq] at hmatch'
    subst hmatch'
    exact ⟨fuel, b, hb, hx⟩
  · rintro ⟨fuel, b, hb, hx⟩
    exact ⟨_, _, _, _, _, fuel, b, hmount, hroot, hmatch, hb, hx⟩

/-- **Which files are read from the data region only.**  For a well-formed volume and a file of its
root directory: every sector that `getRootFile` reads for the file belongs to one of the clusters of
the file exactly if its first cluster is not 0, that is, unless it is an empty file. -/
theorem getRootFile_reads_iff {s : σ} (hthis : volumeAt image lba = this)
    (hdir : this.rootDir image = dir) (he : nthEntry dir i = e) (hwf : this.WellFormed)
    (hfile : this.RootFile dir n i cs)
    (hgrants : A.Grants s (this.fileRequests dir n (nameOf e))) :
    (∀ x, ReadsSector A s image lba (nameOf e) x → ∃ c ∈ cs, this.InCluster x c) ↔
      DirEntry.firstCluster e ≠ 0 := by
  subst he
  simp only [readsSector_iff hthis hdir hwf hfile hgrants]
  constructor
  · intro hall hzero
    have hnil : cs = [] := by
      rcases hfile.chain with hchain | ⟨-, hnil⟩
      · rw [hzero] at hchain
        cases cs with
        | nil => exact absurd hchain (by decide : isClusterEnd 0 ≠ true)
        | cons d ds => exact absurd hchain.2.2.1 (by decide)
      · exact hnil
    obtain ⟨c, hc, -⟩ := hall _ ⟨1, List.replicate _ 0, List.length_replicate,
      clusterReads_of_zero hzero⟩
    rw [hnil] at hc
    cases hc
  · rintro hfirst x ⟨fuel, b, -, hx⟩
    have hchain := hfile.chain.resolve_right fun h ↦ hfirst h.1
    exact clusterReads_subset hchain hfile.inside hwf.sectorsPerCluster hx

/-- The directory entry of `KERNEL.BIN` as an empty file. -/
def emptyEntry : Bytes :=
  [0x4b, 0x45, 0x52, 0x4e, 0x45, 0x4c, 0x20, 0x20, 0x42, 0x49, 0x4e, 0x20] ++ List.replicate 20 0

/-- A kernel of 600 bytes. -/
theorem getRootFile_reads_iff_kernel :
    let data : List Bytes := [kernelEntry 600, [1, 2, 3], [4, 5, 6]]
    ∀ x, ReadsSector Allocator.bump 4000 (smallImage 1 twoClusterFat data) 0
        (nameOf (kernelEntry 600)) x →
      ∃ c ∈ [3, 4], (smallVolume 1 twoClusterFat data).InCluster x c := by
  intro data
  have hdir : (smallVolume 1 twoClusterFat data).rootDir (smallImage 1 twoClusterFat data)
      = (kernelEntry 600).padded := by decide
  exact (getRootFile_reads_iff (volumeAt_small 1 twoClusterFat data) hdir (by decide)
    (wellFormed_twoCluster data) (rootFile_kernel data) (by decide)).mpr (by decide)

/-- An empty kernel: the boot record of the volume is read in its place. -/
theorem getRootFile_reads_outside :
    let image := smallImage 1 twoClusterFat [emptyEntry]
    let this := smallVolume 1 twoClusterFat [emptyEntry]
    volumeAt image 0 = this ∧ this.rootDir image = emptyEntry.padded ∧ this.WellFormed ∧
      this.RootFile emptyEntry.padded 1 0 [] ∧
      ¬ ∀ x, ReadsSector Allocator.bump 4000 image 0 (nameOf emptyEntry) x →
        ∃ c ∈ ([] : List (BitVec 32)), this.InCluster x c := by
  intro image this
  have hdir : this.rootDir image = emptyEntry.padded := by decide
  have he : nthEntry emptyEntry.padded 0 = emptyEntry := by decide
  have hwf : this.WellFormed := wellFormed_twoCluster _
  have hfile : this.RootFile emptyEntry.padded 1 0 [] := by
    exact ⟨endsAt_one (by decide) (by decide) (by decide), by decide,
      by simp, .inr ⟨by decide, rfl⟩, by decide, by simp, by simp⟩
  have hread : ReadsSector Allocator.bump 4000 image 0 (nameOf emptyEntry) 0 := by
    rw [← he, readsSector_iff (volumeAt_small 1 twoClusterFat _) hdir hwf hfile (by decide)]
    exact ⟨1, List.replicate _ 0, List.length_replicate, by decide⟩
  refine ⟨volumeAt_small 1 twoClusterFat _, hdir, hwf, hfile, fun hall ↦ ?_⟩
  obtain ⟨c, hc, -⟩ := hall 0 hread
  cases hc

end Fat32
end RainbowOS
