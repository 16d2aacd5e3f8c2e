import RainbowOS.Fat32.ClusterLoop
import RainbowOS.Fat32.Search

/-!
# What the driver asks of the heap and of the volume

An operation of the driver ends well if it ends at all, and in a value or in a panic: without an
access through a null pointer or out of bounds.  The driver does little to see to that.  This file
says for each operation what must be true of the heap and of the volume for it to end well.

`MountReady`, `DirReady`, `FileReady` and `SearchReady` are preconditions.  What is asked of the
rest of the program is their last argument `P`, so that they can be put one into the other, and the
theorem about each of them is a rule for `Run.Ends`.
-/

set_option autoImplicit false

namespace RainbowOS
namespace Fat32

variable {σ : Type} {A : Allocator σ} {disk : Disk} {this : Volume} {lba c : BitVec 32} {s : σ}
  {h : Heap σ} {file dir e : Bytes} {returnStruct : Option Bytes}

/-! ## `init` -/

/-- The heap has room for the boot record and, if that can be read, for the FAT. -/
def MountReady (A : Allocator σ) (disk : Disk) (lba : BitVec 32) (s : σ)
    (P : Volume → σ → Prop) : Prop :=
  (A.alloc s VBR.size).1.isSome = true ∧ ∀ vbr, disk.read lba 1 = some vbr →
    ∃ block, (A.alloc (A.alloc s VBR.size).2 (fatBytes vbr)).1 = some block ∧
      ∀ fat, disk.read (fatLBA lba vbr) (VBR.sectorsPerFAT vbr).toNat = some fat →
        fat.length ≤ block.length ∧ P ⟨vbr, block.overwrite 0 fat, lba⟩
          (A.alloc (A.alloc s VBR.size).2 (fatBytes vbr)).2

/-- The rule for `init`, for a caller that does not go on after a failure, and a callback that does
not return one. -/
theorem ends_init {msg : String} (hpanic : disk.panic = some msg)
    {Q : Except ℤ Volume → Heap σ → Prop} (hQ : ∀ code k, ¬ Q (.error code) k) :
    Run.Ends Stop.IsPanic Q (fun _ ↦ init A disk lba) h ↔
      MountReady A disk lba h.state fun this s ↦ Q (.ok this) ⟨s, h.refused⟩ := by
  have hfail : disk.failure = .error (.earlyPanic msg) := by rw [Disk.failure, hpanic]
  rw [MountReady]
  cases hb : (A.alloc h.state VBR.size).1 with
  | none =>
    rw [Run.ends_of_ok (i := 0) (Run.mono_const _) (init_vbr_refused hb)]
    exact iff_of_false (hQ _ _) fun hready ↦ Bool.false_ne_true hready.1
  | some b =>
    cases hvbr : disk.read lba 1 with
    | none =>
      have hrun := init_vbr_unreadable (A := A) (h := h) hb hvbr
      rw [hfail] at hrun
      rw [Run.ends_of_error (i := 0) (Run.mono_const _) hrun]
      exact iff_of_true trivial ⟨rfl, fun vbr hvbr' ↦ absurd hvbr' (by simp)⟩
    | some vbr =>
      simp only [Option.isSome_some, Option.some.injEq, forall_eq', true_and]
      cases hfat : (A.alloc (A.alloc h.state VBR.size).2 (fatBytes vbr)).1 with
      | none =>
        rw [Run.ends_of_ok (i := 0) (Run.mono_const _) (init_fat_refused hb hvbr hfat)]
        exact iff_of_false (hQ _ _) (by simp)
      | some block =>
        have hrun := init_fat_granted hb hvbr hfat
        cases hread : disk.read (fatLBA lba vbr) (VBR.sectorsPerFAT vbr).toNat with
        | none =>
          rw [Disk.readInto_of_failure hread, hfail] at hrun
          rw [Run.ends_of_error (i := 0) (Run.mono_const _) hrun]
          exact iff_of_true trivial ⟨block, rfl, fun fat hfat' ↦ absurd hfat' (by simp)⟩
        | some fat =>
          have hlen := disk.length_read hread
          simp only [Option.some.injEq, exists_eq_left', forall_eq']
          by_cases hfits : fat.length ≤ block.length
          · rw [Disk.readInto_of_fits hread (by omega)] at hrun
            rw [Run.ends_of_ok (i := 0) (Run.mono_const _) hrun]
            exact (and_iff_right hfits).symm
          · rw [Disk.readInto_of_not_fits hread (by omega)] at hrun
            rw [Run.ends_of_error (i := 0) (Run.mono_const _) hrun]
            exact iff_of_false id fun hready ↦ hfits hready.1

/-! ## `readDir` -/

/-- The directory's cluster has an entry in the FAT; and if that says that there is no second
cluster, the heap has room for the directory, whose entries end inside its block if it can be read,
and for the result structure. -/
def DirReady (A : Allocator σ) (disk : Disk) (this : Volume) (c : BitVec 32) (s : σ)
    (P : Bytes → ℕ → σ → Prop) : Prop :=
  this.InFat c ∧ (checkSingleCluster (this.next c) = .ok () →
    ∃ block, (A.alloc s this.dirSize).1 = some block ∧
      ((disk.read (this.clusterLBA c) (VBR.sectorsPerCluster this.vbr).toNat).isSome = true →
        ∃ dir n, this.HasDir disk c block dir n ∧
          (A.alloc (A.alloc s this.dirSize).2 12).1.isSome = true ∧
            P dir n (A.alloc (A.alloc s this.dirSize).2 12).2))

theorem checkSingleCluster_cases (cluster : BitVec 32) :
    checkSingleCluster cluster = .ok () ∨
      ∃ msg, checkSingleCluster cluster = .error (.earlyPanic msg) := by
  rw [checkSingleCluster]
  split
  · exact .inr ⟨_, rfl⟩
  · exact .inl rfl

/-- A directory that cannot be read ends in a panic. -/
theorem loadDir_of_unreadable (block : Bytes)
    (hread : disk.read (this.clusterLBA c) (VBR.sectorsPerCluster this.vbr).toNat = none) :
    ∃ msg, loadDir disk this c (some block) = .error (.earlyPanic msg) := by
  rw [loadDir, Disk.readInto_of_failure hread]
  rcases disk.failure_cases with hfail | ⟨msg, hfail⟩
  · exact ⟨_, by rw [hfail]; rfl⟩
  · exact ⟨msg, by rw [hfail]; rfl⟩

/-- A directory that can be read is loaded, or an access is out of bounds. -/
theorem loadDir_of_readable (block : Bytes)
    (hread : (disk.read (this.clusterLBA c) (VBR.sectorsPerCluster this.vbr).toNat).isSome = true) :
    (∃ dir, loadDir disk this c (some block) = .ok dir) ∨
      loadDir disk this c (some block) = .error .outOfBounds := by
  obtain ⟨bs, hbs⟩ := Option.isSome_iff_exists.mp hread
  have hlen := disk.length_read hbs
  rw [loadDir]
  by_cases hfits : bs.length ≤ block.length
  · rw [Disk.readInto_of_fits hbs (by omega)]
    cases hcount : countEntries (block.overwrite 0 bs) 0 with
    | ok n => exact .inl ⟨_, by simp only [bind, Except.bind, hcount]; rfl⟩
    | error stop =>
      rw [countEntries_error hcount] at hcount
      exact .inr (by simp only [bind, Except.bind, hcount])
  · rw [Disk.readInto_of_not_fits hbs (by omega)]
    exact .inr rfl

/-- The rule for the rest of `readDir`, when it has the block for the directory. -/
theorem ends_loadDir {block : Bytes} {Q : ReadDirResult → Heap σ → Prop} :
    Run.Ends Stop.IsPanic Q (fun _ ↦ do
        let dir ← Op.ofExec (loadDir disk this c (some block))
        let returnStruct ← Op.new A 12
        Op.ofExec (storeResult returnStruct dir)) h ↔
      ((disk.read (this.clusterLBA c) (VBR.sectorsPerCluster this.vbr).toNat).isSome = true →
        ∃ dir n, this.HasDir disk c block dir n ∧ (A.alloc h.state 12).1.isSome = true ∧
          Q ⟨n, dir⟩ ⟨(A.alloc h.state 12).2, h.refused⟩) := by
  cases hread : disk.read (this.clusterLBA c) (VBR.sectorsPerCluster this.vbr).toNat with
  | none =>
    obtain ⟨msg, hload⟩ := loadDir_of_unreadable block hread
    rw [hload, Run.ends_bind_of_error (Op.ofExec_apply _)]
    exact iff_of_true trivial (by simp)
  | some bs =>
    rw [Option.isSome_some, forall_prop_of_true rfl]
    rcases loadDir_of_readable block (Option.isSome_of_eq_some hread) with
      ⟨⟨n, dir⟩, hload⟩ | hload
    · rw [hload, Run.ends_bind_of_ok (Op.ofExec_apply _)]
      have hdir := loadDir_eq_ok_iff.mp hload
      cases hresult : (A.alloc h.state 12).1 with
      | none =>
        rw [Run.ends_bind_of_ok (Op.new_of_none hresult), storeResult_none, Op.ends_ofExec]
        exact iff_of_false id (by simp)
      | some result =>
        rw [Run.ends_bind_of_ok (Op.new_of_some hresult), storeResult_some, Op.ends_ofExec,
          Run.outcome_ok]
        constructor
        · intro hQ
          exact ⟨dir, n, hdir, rfl, hQ⟩
        · rintro ⟨dir', n', hdir', -, hQ⟩
          rw [loadDir_eq_ok_iff.mpr hdir', Except.ok.injEq] at hload
          exact hload ▸ hQ
    · rw [hload, Run.ends_bind_of_error (Op.ofExec_apply _)]
      refine iff_of_false id ?_
      rintro ⟨dir, n, hdir, -⟩
      rw [loadDir_eq_ok_iff.mpr hdir] at hload
      cases hload

/-- The rule for `readDir`. -/
theorem ends_readDir {Q : ReadDirResult → Heap σ → Prop} :
    Run.Ends Stop.IsPanic Q (fun _ ↦ readDir A disk this c) h ↔
      DirReady A disk this c h.state fun dir n s ↦ Q ⟨n, dir⟩ ⟨s, h.refused⟩ := by
  simp only [readDir, DirReady]
  by_cases hin : this.InFat c
  · rw [Volume.fatEntry_of_inFat hin, Run.ends_bind_of_ok (Op.ofExec_apply _), and_iff_right hin]
    change Run.Ends _ _ (fun _ ↦ Op.ofExec (checkSingleCluster (this.next c)) >>= _) h ↔ _
    rcases checkSingleCluster_cases (this.next c) with hsingle | ⟨msg, hsingle⟩
    · rw [hsingle, Run.ends_bind_of_ok (Op.ofExec_apply _), forall_prop_of_true rfl]
      cases hblock : (A.alloc h.state this.dirSize).1 with
      | none =>
        rw [Run.ends_bind_of_ok (Op.new_of_none hblock), loadDir_none,
          Run.ends_bind_of_error (Op.ofExec_apply _)]
        exact iff_of_false id (by simp)
      | some block =>
        rw [Run.ends_bind_of_ok (Op.new_of_some hblock)]
        simp only [Option.some.injEq, exists_eq_left']
        exact ends_loadDir
    · rw [hsingle, Run.ends_bind_of_error (Op.ofExec_apply _)]
      exact iff_of_true trivial (by simp)
  · rw [Volume.fatEntry_of_not_inFat hin, Run.ends_bind_of_error (Op.ofExec_apply _)]
    exact iff_of_false id fun hready ↦ hin hready.1

/-! ## `getRootFile` -/

/-- The heap has room for the file, the walk along its clusters ends without damage, and if the
file can be read there is a result structure to put it in. -/
def FileReady (A : Allocator σ) (disk : Disk) (this : Volume) (returnStruct : Option Bytes)
    (P : FileResult → Prop) (e : Bytes) (s : σ) : Prop :=
  ∃ block, (A.alloc s (bufferSize e)).1 = some block ∧ (this.fileWalk disk e).Fits ∧
    ∀ fuel buffer, clusterLoop disk this fuel e (some block) = some (.ok (some buffer)) →
      returnStruct.isSome = true ∧ P ⟨0, DirEntry.fileSize e, some buffer⟩

/-- The heap has room for the names that are made, and the file is ready if one of them matches; if
not, there is a structure to say so. -/
def SearchReady (A : Allocator σ) (disk : Disk) (this : Volume) (file dir : Bytes)
    (returnStruct : Option Bytes) (P : FileResult → Prop) : (k : ℕ) → (i : ℕ) → σ → Prop
  | 0, _, _ => returnStruct.isSome = true ∧ P ⟨1, 0, none⟩
  | k + 1, i, s => ∃ e, entryAt dir i = .ok e ∧ A.Grants s (nameRequests e) ∧
      if strcmp (nameOf e) file = 0 then
        FileReady A disk this returnStruct P e (A.after s (nameRequests e))
      else SearchReady A disk this file dir returnStruct P k (i + 1) (A.after s (nameRequests e))

/-- What `getRootFile` asks for. -/
def RootFileReady (A : Allocator σ) (disk : Disk) (this : Volume) (file : Bytes)
    (P : FileResult → Prop) (s : σ) : Prop :=
  DirReady A disk this (VBR.clusterNumberRoot this.vbr) s fun dir n s ↦
    SearchReady A disk this file dir (A.alloc s 12).1 P n 0 (A.alloc s 12).2

/-- The loop over the clusters, as a computation. -/
theorem ends_clusterLoop_bind {buffer : Option Bytes} {r : Exec (Option Bytes)} {fuel : ℕ}
    {allowed : Stop → Prop} {α : Type} {Q : α → Heap σ → Prop} {f : Option Bytes → Op σ α}
    (hr : clusterLoop disk this fuel e buffer = some r) :
    Run.Ends allowed Q (fun i ↦ Op.ofLoop (clusterLoop disk this i e buffer) >>= f) h ↔
      Run.Outcome allowed (fun b ↦ Run.Ends allowed Q (fun _ ↦ f b) h) r := by
  rw [Run.ends_bind (mono_clusterLoop disk this e buffer) fun b ↦ Run.mono_const (f b),
    Op.ends_ofLoop]
  rw [exists_comm]
  simp only [exists_and_right, exists_clusterLoop_iff hr, exists_eq_left]

section Search

variable {Q : FileResult → Prop}

/-- The rule for the result structure. -/
theorem ends_storeResult {file : FileResult} :
    Run.Ends Stop.IsPanic (fun file _ ↦ Q file)
        (fun _ : ℕ ↦ Op.ofExec (storeResult returnStruct file)) h ↔
      returnStruct.isSome = true ∧ Q file := by
  rw [Op.ends_ofExec]
  cases returnStruct <;> simp [Stop.IsPanic]

/-- The rule for `readFile`, for a caller that has no use for a null pointer. -/
theorem ends_readFile (hnull : ∀ size, ¬ Q ⟨0, size, none⟩) :
    Run.Ends Stop.IsPanic (fun file _ ↦ Q file)
        (fun fuel ↦ readFile A disk this fuel returnStruct e) h ↔
      FileReady A disk this returnStruct Q e h.state := by
  simp only [readFile, FileReady]
  cases hblock : (A.alloc h.state (bufferSize e)).1 with
  | none =>
    rw [Run.ends_bind_of_ok (Op.new_of_none hblock)]
    refine iff_of_false ?_ (by simp)
    rcases clusterLoop_none disk this e with hloop | hloop
    · rw [ends_clusterLoop_bind hloop, Run.outcome_ok, ends_storeResult]
      exact fun hstored ↦ hnull _ hstored.2
    · rw [ends_clusterLoop_bind hloop]
      exact id
  | some block =>
    rw [Run.ends_bind_of_ok (Op.new_of_some hblock)]
    simp only [Option.some.injEq, exists_eq_left']
    obtain ⟨fuel, r, hr, hout⟩ := clusterLoop_spec disk this e (A.length_alloc hblock)
    rw [ends_clusterLoop_bind hr, ← hout.sound_iff, forall_comm]
    simp only [← exists_imp, exists_clusterLoop_iff hr, ends_storeResult]
    cases r with
    | error stop =>
      cases stop <;> simp [Sound, Stop.IsPanic]
    | ok buffer =>
      rw [Run.outcome_ok]
      cases buffer with
      | none => exact iff_of_false (fun hstored ↦ hnull _ hstored.2) (by simp [Sound])
      | some b => simp [Sound]

/-- The rule for the loop over the entries. -/
theorem ends_searchEntries (hnull : ∀ size, ¬ Q ⟨0, size, none⟩) {k i : ℕ} :
    Run.Ends Stop.IsPanic (fun file _ ↦ Q file)
        (fun fuel ↦ searchEntries A disk this fuel file dir returnStruct k i) h ↔
      SearchReady A disk this file dir returnStruct Q k i h.state := by
  induction k generalizing i h with
  | zero =>
    simp only [searchEntries, SearchReady]
    exact ends_storeResult
  | succ k ih =>
    simp only [searchEntries, SearchReady]
    cases hentry : entryAt dir i with
    | error stop =>
      rw [Run.ends_bind_of_error (Op.ofExec_apply _), entryAt_error hentry]
      exact iff_of_false id (by simp)
    | ok e =>
      rw [Run.ends_bind_of_ok (Op.ofExec_apply _)]
      simp only [Except.ok.injEq, exists_eq_left']
      by_cases hgrants : A.Grants h.state (nameRequests e)
      · rw [Run.ends_bind_of_ok (nameFromEntry_of_grants hgrants), and_iff_right hgrants]
        by_cases hmatch : strcmp (nameOf e) file = 0
        · simp only [if_pos hmatch]
          exact ends_readFile hnull
        · simp only [if_neg hmatch]
          exact ih
      · rw [Run.ends_bind_of_error (nameFromEntry_of_not_grants hgrants)]
        exact iff_of_false id fun hready ↦ hgrants hready.1

/-- The rule for `getRootFile`. -/
theorem ends_getRootFile (hnull : ∀ size, ¬ Q ⟨0, size, none⟩) :
    Run.Ends Stop.IsPanic (fun file _ ↦ Q file)
        (fun fuel ↦ getRootFile A disk this fuel file) h ↔
      RootFileReady A disk this file Q h.state := by
  simp only [getRootFile, RootFileReady]
  rw [Run.ends_bind (Run.mono_const _) (mono_searchDirectory A disk this file), ends_readDir]
  refine iff_of_eq (congrArg _ (funext fun dir ↦ funext fun n ↦ funext fun t ↦ propext ?_))
  rw [Run.ends_bind_of_ok rfl]
  exact ends_searchEntries hnull

end Search

end Fat32
end RainbowOS
