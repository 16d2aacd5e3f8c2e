import RainbowOS.Fat32.Search

/-!
# Which directories `readDir` accepts

`readDir` can read one cluster of a directory and no more, and it takes two things for granted: that
its test for a second cluster is the one that `isClusterEnd` makes, and that the cluster has an
entry that begins with a zero byte.

* `readDir_refuses_iff` — the test agrees with `isClusterEnd` on the FAT words that pass both of its
  halves or neither.
* `readDir_scan_iff` — the loop that counts the entries stays inside the cluster exactly if some
  entry of it begins with a zero byte.
-/

set_option autoImplicit false
-- The sectors of the concrete volumes are evaluated byte by byte.
set_option maxRecDepth 8000

namespace RainbowOS
namespace Fat32

variable {σ : Type} {A : Allocator σ} {disk : Disk} {this : Volume} {c w entry : BitVec 32}
  {h : Heap σ} {dir : Bytes} {i n : ℕ}

/-! ## The two tests for the end of a chain -/

/-- The message of the panic on a directory of several clusters. -/
def multiclusterMessage : String := "readDir(): No support for multiclusters right now"

/-- The upper 24 bits of a cluster number are all set. -/
theorem and_high_eq_iff :
    w &&& 0xFFFFFF0 = 0xFFFFFF0 ↔ 0xFFFFFF0 ≤ w.toNat % 2 ^ 28 := by
  have hshift : (w &&& 0xFFFFFF0) >>> 4 = (w >>> 4) &&& 0xFFFFFF :=
    BitVec.ushiftRight_and_distrib w _ 4
  have hdiv : (w &&& 0xFFFFFF0).toNat / 2 ^ 4 = w.toNat / 2 ^ 4 % 2 ^ 24 := by
    rw [← Nat.shiftRight_eq_div_pow, ← BitVec.toNat_ushiftRight, hshift, BitVec.toNat_and,
      BitVec.toNat_ushiftRight, Nat.shiftRight_eq_div_pow]
    exact Nat.and_two_pow_sub_one_eq_mod _ 24
  have hlow : (w &&& 0xFFFFFF0) &&& 0xF = 0 := by
    rw [BitVec.and_assoc]
    exact BitVec.and_zero
  have hmod : (w &&& 0xFFFFFF0).toNat % 2 ^ 4 = 0 := by
    rw [← Nat.and_two_pow_sub_one_eq_mod]
    exact congrArg BitVec.toNat hlow
  rw [← BitVec.toNat_inj, show (0xFFFFFF0 : BitVec 32).toNat = 0xFFFFFF0 from rfl]
  omega

/-- The lower four bits of a cluster number. -/
theorem and_low_lt_iff : w &&& 0xF < 8 ↔ w.toNat % 16 < 8 := by
  rw [BitVec.lt_def, BitVec.toNat_and]
  exact iff_of_eq (congrArg (· < 8) (Nat.and_two_pow_sub_one_eq_mod _ 4))

theorem isClusterEnd_iff : isClusterEnd w = true ↔ 0xFFFFFF8 ≤ w.toNat % 2 ^ 28 := by
  rw [isClusterEnd, Bool.and_eq_true, decide_eq_true_iff, decide_eq_true_iff, BitVec.le_def,
    BitVec.le_def, BitVec.toNat_and, show (0xFFFFFFF : BitVec 32).toNat = 2 ^ 28 - 1 from rfl,
    Nat.and_two_pow_sub_one_eq_mod, show (0xFFFFFF8 : BitVec 32).toNat = 0xFFFFFF8 from rfl]
  omega

/-- In terms of the masks of `readDir`, an end mark has all of the upper bits and one of the
upper half of the lower ones. -/
theorem isClusterEnd_iff_masks :
    isClusterEnd w = true ↔ w &&& 0xFFFFFF0 = 0xFFFFFF0 ∧ ¬ w &&& 0xF < 8 := by
  rw [isClusterEnd_iff, and_high_eq_iff, and_low_lt_iff]
  omega

/-- Nothing looks at the upper four bits of a FAT word. -/
theorem isClusterEnd_and_clusterMask : isClusterEnd (w &&& clusterMask) = isClusterEnd w := by
  rw [isClusterEnd, isClusterEnd, BitVec.and_assoc]
  rfl

theorem checkSingleCluster_eq_error_iff {stop : Stop} :
    checkSingleCluster w = .error stop ↔
      (w &&& 0xFFFFFF0 ≠ 0xFFFFFF0 ∧ w &&& 0xF < 8) ∧ stop = .earlyPanic multiclusterMessage := by
  rw [checkSingleCluster]
  by_cases hmulti : w &&& 0xFFFFFF0 ≠ 0xFFFFFF0 ∧ w &&& 0xF < 8
  · rw [if_pos hmulti, Except.error.injEq, and_iff_right hmulti, multiclusterMessage, eq_comm]
  · rw [if_neg hmulti]
    exact iff_of_false (by simp) fun h ↦ hmulti h.1

/-- An end mark passes the test for a second cluster. -/
theorem checkSingleCluster_of_end (hend : isClusterEnd (entry &&& clusterMask) = true) :
    checkSingleCluster (entry &&& clusterMask) = .ok () := by
  rw [isClusterEnd_iff_masks] at hend
  exact if_neg fun h ↦ h.1 hend.1

/-- `readDir` refuses the directory at `c` because of a second cluster. -/
def RefusesMulticluster (A : Allocator σ) (disk : Disk) (this : Volume) (c : BitVec 32)
    (h : Heap σ) : Prop :=
  ∃ h', readDir A disk this c h = some (.error (.earlyPanic multiclusterMessage), h')

/-- How the call of the callback can fail. -/
theorem Disk.readInto_error {lba : BitVec 32} {p : Option Bytes} {offset sectors : ℕ} {stop : Stop}
    (herror : disk.readInto lba p offset sectors = .error stop) :
    stop = .nullPointer ∨ stop = .outOfBounds ∨ disk.failure = .error stop := by
  cases p with
  | none => exact .inl (Except.error.inj herror).symm
  | some b =>
    cases hread : disk.read lba sectors with
    | none =>
      rw [Disk.readInto_of_failure hread] at herror
      exact .inr (.inr herror)
    | some bs =>
      by_cases hfits : offset + sectors * sectorSize ≤ b.length
      · rw [Disk.readInto_of_fits hread hfits] at herror
        cases herror
      · rw [Disk.readInto_of_not_fits hread hfits] at herror
        exact .inr (.inl (Except.error.inj herror).symm)

/-- After the test, the panic on a second cluster is not reached any more. -/
theorem loadDir_ne_multicluster (hdisk : disk.panic ≠ some multiclusterMessage)
    {dirPtr : Option Bytes} :
    loadDir disk this c dirPtr ≠ .error (.earlyPanic multiclusterMessage) := by
  intro herror
  rw [loadDir] at herror
  cases hread : disk.readInto (this.clusterLBA c) dirPtr 0
      (VBR.sectorsPerCluster this.vbr).toNat with
  | error stop =>
    rw [hread] at herror
    obtain rfl : stop = .earlyPanic multiclusterMessage := Except.error.inj herror
    obtain hstop | hstop | hfail := Disk.readInto_error hread
    · cases hstop
    · cases hstop
    · rw [Disk.failure] at hfail
      cases hpanic : disk.panic with
      | none => simp [hpanic] at hfail
      | some msg =>
        simp only [hpanic, Except.error.injEq, Stop.earlyPanic.injEq] at hfail
        exact hdisk (hfail ▸ hpanic)
  | ok buffer =>
    rw [hread] at herror
    cases buffer with
    | none =>
      simp [bind, Except.bind, throw, throwThe, MonadExceptOf.throw, multiclusterMessage] at herror
    | some dir =>
      cases hcount : countEntries dir 0 with
      | error stop =>
        obtain rfl := countEntries_error hcount
        simp [bind, Except.bind, hcount] at herror
      | ok n => simp [bind, Except.bind, hcount, pure, Except.pure] at herror

/-- A directory is refused if and only if the word that the FAT has for its cluster fails the
test. -/
theorem refusesMulticluster_iff (hentry : this.fatEntry c = .ok entry)
    (hdisk : disk.panic ≠ some multiclusterMessage) :
    RefusesMulticluster A disk this c h ↔
      entry &&& clusterMask &&& 0xFFFFFF0 ≠ 0xFFFFFF0 ∧ entry &&& clusterMask &&& 0xF < 8 := by
  constructor
  · rintro ⟨h', hrun⟩
    rw [readDir, hentry, Run.bind_of_ok (Op.ofExec_apply _), Run.bind_eq_error] at hrun
    obtain hcheck | ⟨-, t, -, hrun⟩ := hrun
    · rw [Op.ofExec_apply, Option.some.injEq, Prod.mk.injEq] at hcheck
      exact (checkSingleCluster_eq_error_iff.mp hcheck.1).1
    rw [Run.bind_eq_error] at hrun
    obtain hnew | ⟨dirPtr, t, -, hrun⟩ := hrun
    · cases hnew
    rw [Run.bind_eq_error] at hrun
    obtain hload | ⟨dir, t, -, hrun⟩ := hrun
    · rw [Op.ofExec_apply, Option.some.injEq, Prod.mk.injEq] at hload
      exact absurd hload.1 (loadDir_ne_multicluster hdisk)
    rw [Run.bind_eq_error] at hrun
    obtain hnew | ⟨p, t, -, hrun⟩ := hrun
    · cases hnew
    · cases p with
      | none => cases hrun
      | some b => cases hrun
  · intro hmulti
    refine ⟨h, ?_⟩
    rw [readDir, hentry, Run.bind_of_ok (Op.ofExec_apply _),
      checkSingleCluster_eq_error_iff.mpr ⟨hmulti, rfl⟩, Run.bind_of_error (Op.ofExec_apply _)]

/-- **When `readDir` and `isClusterEnd` agree.**  Whatever the cluster and the word that the FAT has
for it: that `readDir` refuses the directory as one of several clusters is the same as that the word
is not an end mark, exactly if the upper 24 of its 28 bits are all set and the lower four are at
least 8, or neither.  The callback's own panic, if it has one, has another message. -/
theorem readDir_refuses_iff (hentry : this.fatEntry c = .ok entry)
    (hdisk : disk.panic ≠ some multiclusterMessage) :
    (RefusesMulticluster A disk this c h ↔ isClusterEnd entry = false) ↔
      (entry &&& clusterMask &&& 0xFFFFFF0 = 0xFFFFFF0 ↔ ¬ entry &&& clusterMask &&& 0xF < 8) := by
  rw [refusesMulticluster_iff hentry hdisk, ← isClusterEnd_and_clusterMask, ← Bool.not_eq_true,
    isClusterEnd_iff_masks]
  tauto

/-- A root directory on the clusters 2 and 3 is refused. -/
theorem readDir_refuses_iff_next :
    let fat : Bytes := List.replicate 8 0 ++ [3, 0, 0, 0]
    (RefusesMulticluster Allocator.bump (smallImage 1 fat []).disk (smallVolume 1 fat []) 2
      ⟨4000, false⟩ ↔ isClusterEnd 3 = false) := by
  intro fat
  exact (readDir_refuses_iff (by decide) (by decide)).mpr (by decide)

/-- A root directory on the clusters 2 and 8 is not refused. -/
theorem readDir_truncates :
    let fat : Bytes := List.replicate 8 0 ++ [8, 0, 0, 0]
    let this := smallVolume 1 fat []
    this.fatEntry 2 = .ok 8 ∧
      ¬ (RefusesMulticluster Allocator.bump (smallImage 1 fat []).disk this 2 ⟨4000, false⟩ ↔
        isClusterEnd 8 = false) := by
  intro fat this
  have hentry : this.fatEntry 2 = .ok 8 := by decide
  refine ⟨hentry, fun hiff ↦ ?_⟩
  rw [refusesMulticluster_iff hentry (by decide)] at hiff
  exact absurd (hiff.mpr (by decide)).2 (by decide)

/-! ## The scan for the terminating entry -/

/-- The number of entries before the first one that begins with a zero byte, or of all that fit if
there is none. -/
def entryCount (dir : Bytes) : ℕ :=
  ((List.range (dir.length / DirEntry.size)).find? fun i ↦
    dir.read8 (DirEntry.size * i) = 0).getD (dir.length / DirEntry.size)

/-- Some entry of the directory begins with a zero byte. -/
def Terminated (dir : Bytes) : Prop :=
  ∃ i, DirEntry.size * i < dir.length ∧ dir.read8 (DirEntry.size * i) = 0

theorem entryCount_le (dir : Bytes) : entryCount dir ≤ dir.length / DirEntry.size := by
  rw [entryCount]
  cases hfind : (List.range (dir.length / DirEntry.size)).find? fun i ↦
      dir.read8 (DirEntry.size * i) = 0 with
  | none => exact Nat.le_refl _
  | some i => exact Nat.le_of_lt (List.mem_range.mp (List.mem_of_find?_eq_some hfind))

/-- The entries that are counted lie inside the directory. -/
theorem entryAt_of_lt_entryCount (hi : i < entryCount dir) :
    entryAt dir i = .ok (nthEntry dir i) := by
  have hle : i + 1 ≤ dir.length / DirEntry.size := Nat.lt_of_lt_of_le hi (entryCount_le dir)
  refine entryAt_eq ?_
  rw [← Nat.mul_succ]
  exact Nat.le_trans (Nat.mul_le_mul_left _ hle) (Nat.mul_div_le _ _)

theorem endsAt_entryCount (hlen : DirEntry.size ∣ dir.length) (hterm : Terminated dir) :
    EndsAt dir 0 (entryCount dir) := by
  have hlt : ∀ k, DirEntry.size * k < dir.length ↔ k < dir.length / DirEntry.size := fun k ↦ by
    rw [Nat.lt_div_iff_mul_lt' hlen]
  cases hfind : (List.range (dir.length / DirEntry.size)).find? fun i ↦
      dir.read8 (DirEntry.size * i) = 0 with
  | none =>
    obtain ⟨i, hi, hzero⟩ := hterm
    rw [List.find?_range_eq_none] at hfind
    exact absurd hzero (by simpa using hfind i ((hlt i).mp hi))
  | some k =>
    rw [entryCount, hfind, Option.getD_some]
    obtain ⟨hzero, hmem, hfirst⟩ := List.find?_range_eq_some.mp hfind
    refine ⟨k.zero_le, (hlt k).mpr (List.mem_range.mp hmem), of_decide_eq_true hzero, ?_⟩
    rintro i - hik
    simpa using hfirst i hik

theorem Volume.dirSize_toNat (hbytes : VBR.bytesPerSector this.vbr = 512) :
    this.dirSize.toNat = (VBR.sectorsPerCluster this.vbr).toNat * sectorSize := by
  rw [Volume.dirSize, hbytes, sectorSize]
  simp only [BitVec.toNat_mul, BitVec.toNat_setWidth, show (512 : BitVec 16).toNat = 512 from rfl]
  omega

/-- What `readDir` does on a directory that fits into its buffer and has a terminating entry. -/
theorem readDir_of_endsAt (hbytes : VBR.bytesPerSector this.vbr = 512)
    (hentry : this.fatEntry c = .ok entry)
    (hsingle : checkSingleCluster (entry &&& clusterMask) = .ok ())
    (hgrants : A.Grants h.state [this.dirSize, 12])
    (hread : disk.read (this.clusterLBA c) (VBR.sectorsPerCluster this.vbr).toNat = some dir)
    (hends : EndsAt dir 0 n) : readDir A disk this c h = some (.ok ⟨n, dir⟩,
      ⟨A.after h.state [this.dirSize, 12], h.refused⟩) := by
  refine readDir_of_grants hentry hsingle hgrants fun block hblock ↦ ?_
  have hlen : block.length = dir.length := by
    rw [hblock, disk.length_read hread, Volume.dirSize_toNat hbytes]
  exact ⟨⟨dir, hread, Nat.le_of_eq hlen.symm, (Bytes.overwrite_zero_of_length hlen).symm⟩, hends⟩

/-- A root directory on one cluster, with `n` entries in front of the terminating one. -/
structure Volume.SingleClusterRoot (this : Volume) (disk : Disk) (dir : Bytes) (n : ℕ) : Prop where
  bytesPerSector : VBR.bytesPerSector this.vbr = 512
  entry : ∃ entry, this.fatEntry (VBR.clusterNumberRoot this.vbr) = .ok entry ∧
    isClusterEnd entry = true
  read : disk.read (this.clusterLBA (VBR.clusterNumberRoot this.vbr))
    (VBR.sectorsPerCluster this.vbr).toNat = some dir
  ends : EndsAt dir 0 n

theorem Volume.SingleClusterRoot.readDir (hroot : this.SingleClusterRoot disk dir n)
    (hgrants : A.Grants h.state [this.dirSize, 12]) :
    readDir A disk this (VBR.clusterNumberRoot this.vbr) h =
      some (.ok ⟨n, dir⟩, ⟨A.after h.state [this.dirSize, 12], h.refused⟩) := by
  obtain ⟨entry, hentry, hend⟩ := hroot.entry
  exact readDir_of_endsAt hroot.bytesPerSector hentry
    (checkSingleCluster_of_end (isClusterEnd_and_clusterMask.trans hend)) hgrants hroot.read
    hroot.ends

/-- Up to the search, everything goes right in `getRootFile`, and the same on every disk. -/
theorem getRootFile_eq_search {file : Bytes}
    (hgrants : A.Grants h.state ([this.dirSize, 12] ++ 12 :: searchRequests file dir n 0)) :
    ∃ t p, A.Grants t (searchRequests file dir n 0) ∧
      A.after t (searchRequests file dir n 0) =
        A.after h.state ([this.dirSize, 12] ++ 12 :: searchRequests file dir n 0) ∧
      ∀ disk, this.SingleClusterRoot disk dir n → ∀ fuel, getRootFile A disk this fuel file h =
        searchEntries A disk this fuel file dir (some p) n 0 ⟨t, h.refused⟩ := by
  rw [A.grants_append] at hgrants
  obtain ⟨hread, hrest⟩ := hgrants
  obtain ⟨hstruct, hsearch⟩ := (A.grants_cons _ _ _).mp hrest
  obtain ⟨p, hp⟩ := Option.isSome_iff_exists.mp hstruct
  refine ⟨_, p, hsearch, rfl, fun disk hroot fuel ↦ ?_⟩
  rw [getRootFile, Run.bind_of_ok (hroot.readDir hread), Run.bind_of_ok (Op.new_of_some hp)]

/-- A directory that `readDir` returns has an entry at which the count ends. -/
theorem endsAt_of_readDir {h' : Heap σ} {r : ReadDirResult}
    (hrun : readDir A disk this c h = some (.ok r, h')) : EndsAt r.entries 0 r.numEntries := by
  obtain ⟨entry, _, -, hrun⟩ := Run.bind_eq_ok.mp hrun
  obtain ⟨_, _, -, hrun⟩ := Run.bind_eq_ok.mp hrun
  obtain ⟨dirPtr, _, -, hrun⟩ := Run.bind_eq_ok.mp hrun
  obtain ⟨dir, _, hload, hrun⟩ := Run.bind_eq_ok.mp hrun
  obtain ⟨p, _, -, hrun⟩ := Run.bind_eq_ok.mp hrun
  obtain rfl := eq_of_storeResult_eq_ok (Op.ofExec_eq_ok.mp hrun).1
  have hdir := (Op.ofExec_eq_ok.mp hload).1
  cases dirPtr with
  | none => cases hdir
  | some block => exact (loadDir_eq_ok_iff.mp hdir).ends

/-- `readDir` counts the entries of the directory `dir` without leaving it, and so do the loops over
the entries that it has counted. -/
def ScansDir (A : Allocator σ) (disk : Disk) (this : Volume) (c : BitVec 32) (h : Heap σ)
    (dir : Bytes) : Prop :=
  (∃ h', readDir A disk this c h = some (.ok ⟨entryCount dir, dir⟩, h')) ∧
    ∀ i < entryCount dir, ∃ e, entryAt dir i = .ok e

/-- **When the scan stays in the cluster.**  Whatever is on the sectors of a directory that passes
the test for a second cluster: `readDir` counts the entries up to the terminating one, or all if
there is none, without leaving the cluster, exactly if there is a terminating one. -/
theorem readDir_scan_iff (hbytes : VBR.bytesPerSector this.vbr = 512)
    (hentry : this.fatEntry c = .ok entry)
    (hsingle : checkSingleCluster (entry &&& clusterMask) = .ok ())
    (hgrants : A.Grants h.state [this.dirSize, 12])
    (hread : disk.read (this.clusterLBA c) (VBR.sectorsPerCluster this.vbr).toNat = some dir) :
    ScansDir A disk this c h dir ↔ Terminated dir := by
  constructor
  · rintro ⟨⟨h', hrun⟩, -⟩
    obtain ⟨-, hlt, hzero, -⟩ := endsAt_of_readDir hrun
    exact ⟨_, hlt, hzero⟩
  · intro hterm
    have hdvd : DirEntry.size ∣ dir.length := by
      rw [disk.length_read hread]
      exact Nat.dvd_mul_left_of_dvd (by decide) _
    have hends := endsAt_entryCount hdvd hterm
    exact ⟨⟨_, readDir_of_endsAt hbytes hentry hsingle hgrants hread hends⟩,
      fun i hi ↦ ⟨_, entryAt_of_lt_entryCount hi⟩⟩

/-- The FAT of a small volume with nothing on it but the root directory. -/
def rootFat : Bytes := List.replicate 8 0 ++ [0xff, 0xff, 0xff, 0x0f]

/-- A directory of one entry. -/
theorem readDir_scan_iff_kernel :
    let data : List Bytes := [kernelEntry 600]
    ScansDir Allocator.bump (smallImage 1 rootFat data).disk (smallVolume 1 rootFat data) 2
      ⟨4000, false⟩ (kernelEntry 600).padded := by
  intro data
  have hentry : (smallVolume 1 rootFat data).fatEntry 2 = .ok 0x0fffffff := by decide
  exact (readDir_scan_iff (by decide) hentry (by decide) (by decide)
    (by decide)).mpr ⟨1, by decide, by decide⟩

/-- A directory with as many entries as fit: the scan runs out of the cluster. -/
theorem readDir_overruns :
    let dir : Bytes := List.replicate 512 0x41
    let this := smallVolume 1 rootFat [dir]
    let image := smallImage 1 rootFat [dir]
    VBR.bytesPerSector this.vbr = 512 ∧ this.fatEntry 2 = .ok 0x0fffffff ∧
      checkSingleCluster (0x0fffffff &&& clusterMask) = .ok () ∧
      Allocator.bump.Grants 4000 [this.dirSize, 12] ∧
      image.disk.read (this.clusterLBA 2) (VBR.sectorsPerCluster this.vbr).toNat = some dir ∧
      entryCount dir = 16 ∧ ¬ ScansDir Allocator.bump image.disk this 2 ⟨4000, false⟩ dir := by
  intro dir this image
  refine ⟨by decide, by decide, by decide, by decide, by decide,
    by decide, ?_⟩
  rintro ⟨⟨h', hrun⟩, -⟩
  obtain ⟨-, hlt, hzero, -⟩ := endsAt_of_readDir hrun
  have hfull : ∀ i < 16, dir.read8 (DirEntry.size * i) ≠ 0 := by decide
  have hlen : dir.length = 512 := List.length_replicate
  rw [hlen, DirEntry.size] at hlt
  exact hfull _ (by omega) hzero

/-- The root directory of a small volume is the first of its data sectors. -/
theorem singleClusterRoot_small {bs : Bytes} (fat : Bytes) (rest : List Bytes)
    (hfat : (smallVolume 1 fat []).fatEntry 2 = .ok 0x0fffffff) (hends : EndsAt bs.padded 0 n) :
    (smallVolume 1 fat (bs :: rest)).SingleClusterRoot (smallImage 1 fat (bs :: rest)).disk
      bs.padded n := by
  have hroot : VBR.clusterNumberRoot (smallVolume 1 fat (bs :: rest)).vbr = 2 := by
    change VBR.clusterNumberRoot (smallVolume 1 [] []).vbr = 2
    decide
  refine ⟨?_, ⟨0x0fffffff, ?_, by decide⟩, ?_, hends⟩
  · change VBR.bytesPerSector (smallVolume 1 [] []).vbr = 512
    decide
  · rw [hroot]
    exact hfat
  · have hlba : (smallVolume 1 fat (bs :: rest)).clusterLBA 2 = 2 := by
      change (smallVolume 1 [] []).clusterLBA 2 = 2
      decide
    have hspc : (VBR.sectorsPerCluster (smallVolume 1 fat (bs :: rest)).vbr).toNat = 1 := by
      change (VBR.sectorsPerCluster (smallVolume 1 [] []).vbr).toNat = 1
      decide
    rw [hroot, hlba, hspc, Image.read_disk, Image.sectors_one]
    rfl

end Fat32
end RainbowOS
