import RainbowOS.Fat32.ClusterLoop
import RainbowOS.Fat32.Search

/-!
# The driver when the heap is exhausted

A refused request comes back as a null pointer.  `init` looks at both of its pointers; `readDir`,
`nameFromEntry` and `getRootFile` look at none.  This file says for each operation in which states
of the heap a refusal cannot go unreported, that is, end in anything but a panic or an error code.

For `getRootFile` there is one case besides the obvious one that nothing is refused: the result
structure is written last, so if only its request is refused and the file cannot be read, the panic
comes first.
-/

set_option autoImplicit false
-- The sectors of the concrete volumes are evaluated byte by byte.
set_option maxRecDepth 8000

namespace RainbowOS

variable {σ α β ι : Type}

/-! ## Reporting a refusal -/

/-- The computation ended in a panic, or in an error in the sense of its callers. -/
def Reported (isError : α → Prop) : Exec α → Prop
  | .ok a => isError a
  | .error (.earlyPanic _) => True
  | .error _ => False

namespace Op

/-- However many rounds its loops are given, the operation does not end with a request refused and
nothing reported. -/
def Reports (isError : α → Prop) (x : ι → Op σ α) (h : Heap σ) : Prop :=
  ∀ i r k, x i h = some (r, k) → k.refused = true → Reported isError r

variable {isError : β → Prop} {x : Op σ α} {f : ι → α → Op σ β} {h k : Heap σ}

theorem reports_bind_of_ok {a : α} (hx : x h = some (.ok a, k)) :
    Reports isError (fun i ↦ x >>= f i) h ↔ Reports isError (fun i ↦ f i a) k := by
  simp only [Reports, Run.bind_of_ok hx]

theorem reports_bind_of_error [Nonempty ι] {stop : Stop} (hx : x h = some (.error stop, k)) :
    Reports isError (fun i ↦ x >>= f i) h ↔
      (k.refused = true → Reported isError (.error stop)) := by
  simp only [Reports, Run.bind_of_error hx]
  constructor
  · intro hr hk
    exact hr (Classical.arbitrary ι) _ _ rfl hk
  · rintro hr - r k' heq hk
    rw [Option.some.injEq, Prod.mk.injEq] at heq
    obtain ⟨rfl, rfl⟩ := heq
    exact hr hk

/-- There is nothing to report when it stops without a refusal. -/
theorem reports_bind_of_granted [Nonempty ι] {s t : σ} {stop : Stop}
    (hx : x ⟨s, false⟩ = some (.error stop, ⟨t, false⟩)) :
    Reports isError (fun i ↦ x >>= f i) ⟨s, false⟩ :=
  (reports_bind_of_error hx).mpr fun hk ↦ absurd hk Bool.false_ne_true

theorem reports_ofExec [Nonempty ι] {r : Exec β} :
    Reports isError (fun _ : ι ↦ (ofExec r : Op σ β)) h ↔
      (h.refused = true → Reported isError r) := by
  simp only [Reports, ofExec_apply]
  constructor
  · intro hr hk
    exact hr (Classical.arbitrary ι) _ _ rfl hk
  · rintro hr - r k' heq hk
    rw [Option.some.injEq, Prod.mk.injEq] at heq
    obtain ⟨rfl, rfl⟩ := heq
    exact hr hk

end Op

namespace Fat32

variable {A : Allocator σ} {disk : Disk} {this : Volume} {c lba : BitVec 32} {s : σ} {h : Heap σ}
  {file dir e : Bytes} {returnStruct : Option Bytes}

/-! ## `init` -/

/-- A return code other than 0. -/
def InitFailed (r : Except ℤ Volume) : Prop := ∃ code, code ≠ 0 ∧ r = .error code

/-- **`init` reports every refusal.** -/
theorem init_reports (A : Allocator σ) (disk : Disk) (lba : BitVec 32) (s : σ) :
    Op.Reports InitFailed (fun _ : ℕ ↦ init A disk lba) ⟨s, false⟩ := by
  intro _ r k hr hk
  obtain ⟨t, heq⟩ | ⟨t, ⟨-, heq⟩ | ⟨vbr, b, -, -, heq⟩⟩ := init_cases A disk lba ⟨s, false⟩
  · obtain ⟨rfl, rfl⟩ := Prod.mk.inj (Option.some.inj (heq.symm.trans hr))
    exact ⟨99, by decide, rfl⟩
  · obtain ⟨-, rfl⟩ := Prod.mk.inj (Option.some.inj (heq.symm.trans hr))
    exact absurd hk Bool.false_ne_true
  · obtain ⟨-, rfl⟩ := Prod.mk.inj (Option.some.inj (heq.symm.trans hr))
    exact absurd hk Bool.false_ne_true

/-! ## `readDir` -/

/-- The requests of `readDir` are granted as far as it comes to make them, and `P` holds of what it
has loaded and of the state of the heap after them. -/
def DirGranted (A : Allocator σ) (disk : Disk) (this : Volume) (c : BitVec 32) (s : σ)
    (P : Bytes → ℕ → σ → Prop) : Prop :=
  ∀ entry, this.fatEntry c = .ok entry → checkSingleCluster (entry &&& clusterMask) = .ok () →
    ∃ block, (A.alloc s this.dirSize).1 = some block ∧ ∀ dir n, this.HasDir disk c block dir n →
      (A.alloc (A.alloc s this.dirSize).2 12).1.isSome = true ∧
        P dir n (A.alloc (A.alloc s this.dirSize).2 12).2

theorem dirGranted_iff {P : Bytes → ℕ → σ → Prop} {entry : BitVec 32}
    (hentry : this.fatEntry c = .ok entry)
    (hsingle : checkSingleCluster (entry &&& clusterMask) = .ok ()) :
    DirGranted A disk this c s P ↔
      ∃ block, (A.alloc s this.dirSize).1 = some block ∧ ∀ dir n, this.HasDir disk c block dir n →
        (A.alloc (A.alloc s this.dirSize).2 12).1.isSome = true ∧
          P dir n (A.alloc (A.alloc s this.dirSize).2 12).2 :=
  ⟨fun h ↦ h entry hentry hsingle, fun h _ _ _ ↦ h⟩

/-- A run of `readDir` that is followed by `g`. -/
theorem reports_readDir_bind [Nonempty ι] {isError : β → Prop} {g : ι → ReadDirResult → Op σ β} :
    Op.Reports isError (fun i ↦ readDir A disk this c >>= g i) ⟨s, false⟩ ↔
      DirGranted A disk this c s fun dir n t ↦
        Op.Reports isError (fun i ↦ g i ⟨n, dir⟩) ⟨t, false⟩ := by
  simp only [readDir, bind_assoc]
  cases hentry : this.fatEntry c with
  | error stop =>
    refine iff_of_true (Op.reports_bind_of_granted (Op.ofExec_apply _)) fun entry h ↦ ?_
    simp [hentry] at h
  | ok entry =>
    rw [Op.reports_bind_of_ok (Op.ofExec_apply _)]
    cases hsingle : checkSingleCluster (entry &&& clusterMask) with
    | error stop =>
      refine iff_of_true (Op.reports_bind_of_granted (Op.ofExec_apply _)) fun entry' h h' ↦ ?_
      rw [hentry, Except.ok.injEq] at h
      simp [← h, hsingle] at h'
    | ok u =>
      rw [Op.reports_bind_of_ok (Op.ofExec_apply _), dirGranted_iff hentry hsingle]
      cases hblock : (A.alloc s this.dirSize).1 with
      | none =>
        rw [Op.reports_bind_of_ok (Op.new_of_none hblock), loadDir_none,
          Op.reports_bind_of_error (Op.ofExec_apply _)]
        exact iff_of_false (fun h ↦ h rfl) (by simp)
      | some block =>
        rw [Op.reports_bind_of_ok (Op.new_of_some hblock)]
        simp only [Option.some.injEq, exists_eq_left']
        cases hload : loadDir disk this c (some block) with
        | error stop =>
          refine iff_of_true (Op.reports_bind_of_granted (Op.ofExec_apply _)) fun dir n hdir ↦ ?_
          simp [loadDir_eq_ok_iff.mpr hdir] at hload
        | ok dir =>
          rw [Op.reports_bind_of_ok (Op.ofExec_apply _)]
          have hdir := loadDir_eq_ok_iff.mp hload
          cases hresult : (A.alloc (A.alloc s this.dirSize).2 12).1 with
          | none =>
            rw [Op.reports_bind_of_ok (Op.new_of_none hresult), storeResult_none,
              Op.reports_bind_of_error (Op.ofExec_apply _)]
            exact iff_of_false (fun h ↦ h rfl) fun h ↦
              Bool.false_ne_true (h _ _ hdir).1
          | some result =>
            rw [Op.reports_bind_of_ok (Op.new_of_some hresult), storeResult_some,
              Op.reports_bind_of_ok (Op.ofExec_apply _)]
            refine ⟨fun h dir' n hdir' ↦ ⟨rfl, ?_⟩, fun h ↦ (h _ _ hdir).2⟩
            rw [loadDir_eq_ok_iff.mpr hdir', Except.ok.injEq] at hload
            exact hload ▸ h

/-- **`readDir` reports its refusals exactly if it has none.** -/
theorem readDir_reports_iff (A : Allocator σ) (disk : Disk) (this : Volume) (c : BitVec 32)
    (s : σ) :
    Op.Reports (fun _ ↦ False) (fun _ : ℕ ↦ readDir A disk this c) ⟨s, false⟩ ↔
      DirGranted A disk this c s fun _ _ _ ↦ True := by
  have hbind :
      Op.Reports (fun _ ↦ False) (fun _ : ℕ ↦ readDir A disk this c >>= pure) ⟨s, false⟩ ↔ _ :=
    reports_readDir_bind
  simp only [bind_pure] at hbind
  rw [hbind]
  have hpure : ∀ (dir : ReadDirResult) (t : σ),
      Op.Reports (fun _ ↦ False) (fun _ : ℕ ↦ (pure dir : Op σ ReadDirResult)) ⟨t, false⟩ := by
    intro dir t _ r k hr hk
    obtain ⟨-, rfl⟩ := Prod.mk.inj (Option.some.inj hr)
    exact absurd hk Bool.false_ne_true
  simp only [hpure]

/-! ## `getRootFile` -/

/-- A return code other than 0. -/
def FileFailed (r : FileResult) : Prop := r.returnCode ≠ 0

/-- The loop over the clusters can be replaced by its result. -/
theorem reports_clusterLoop_iff {isError : β → Prop} {f : Option Bytes → Op σ β}
    {buffer : Option Bytes} {fuel : ℕ} {r : Exec (Option Bytes)}
    (hr : clusterLoop disk this fuel e buffer = some r) :
    Op.Reports isError (fun i ↦ Op.ofLoop (clusterLoop disk this i e buffer) >>= f) h ↔
      Op.Reports isError (fun _ : ℕ ↦ Op.ofExec r >>= f) h := by
  constructor
  · intro hreports _ r' k hx hk
    refine hreports fuel r' k ?_ hk
    dsimp only at hx ⊢
    rw [hr]
    exact hx
  · intro hreports i r' k hx hk
    dsimp only at hx
    cases hi : clusterLoop disk this i e buffer with
    | none =>
      rw [hi, Run.bind_of_none rfl] at hx
      cases hx
    | some ri =>
      rw [hi, clusterLoop_unique hi hr] at hx
      exact hreports i r' k hx hk

theorem reports_readFile_iff (hstruct : returnStruct.isSome = !h.refused) :
    Op.Reports FileFailed (fun fuel ↦ readFile A disk this fuel returnStruct e) h ↔
      (A.alloc h.state (bufferSize e)).1.isSome = true ∧
        (h.refused = true → this.fileWalk disk e = .unreadable) := by
  simp only [readFile]
  cases hbuffer : (A.alloc h.state (bufferSize e)).1 with
  | none =>
    rw [Op.reports_bind_of_ok (Op.new_of_none hbuffer)]
    refine iff_of_false ?_ (by simp)
    rcases clusterLoop_none disk this e with hloop | hloop
    · rw [reports_clusterLoop_iff hloop, Op.reports_bind_of_ok (Op.ofExec_apply _),
        Op.reports_ofExec]
      cases returnStruct with
      | none => exact fun hr ↦ hr rfl
      | some p => exact fun hr ↦ hr rfl rfl
    · rw [reports_clusterLoop_iff hloop, Op.reports_bind_of_error (Op.ofExec_apply _)]
      exact fun hr ↦ hr rfl
  | some b =>
    rw [Op.reports_bind_of_ok (Op.new_of_some hbuffer)]
    obtain ⟨fuel, r, hr, hout⟩ := clusterLoop_spec disk this e (A.length_alloc hbuffer)
    rw [reports_clusterLoop_iff hr]
    simp only [Option.isSome_some, true_and]
    generalize this.fileWalk disk e = w at hout
    cases w with
    | endMark =>
      obtain ⟨b', rfl⟩ := hout
      rw [Op.reports_bind_of_ok (Op.ofExec_apply _), Op.reports_ofExec]
      cases hrefused : h.refused with
      | false => simp
      | true =>
        rw [hrefused, Bool.not_true, Option.isSome_eq_false_iff,
          Option.isNone_iff_eq_none] at hstruct
        simp [hstruct, Reported]
    | unreadable =>
      obtain ⟨msg, rfl⟩ := hout
      rw [Op.reports_bind_of_error (Op.ofExec_apply _)]
      simp [Reported]
    | noRoom =>
      rw [hout, Op.reports_bind_of_error (Op.ofExec_apply _)]
      simp [Reported]
    | outsideFat =>
      rw [hout, Op.reports_bind_of_error (Op.ofExec_apply _)]
      simp [Reported]

theorem reports_nameFromEntry_bind [Nonempty ι] {isError : β → Prop} {g : ι → Bytes → Op σ β} :
    Op.Reports isError (fun i ↦ nameFromEntry A e >>= g i) h ↔
      A.Grants h.state (nameRequests e) ∧ Op.Reports isError (fun i ↦ g i (nameOf e))
        ⟨A.after h.state (nameRequests e), h.refused⟩ := by
  simp only [nameFromEntry, nameRequests, nameOf]
  by_cases hlfn : DirEntry.attributes e = DirEntry.LFN
  · simp only [if_pos hlfn]
    rw [Op.reports_bind_of_ok (Run.pure_apply _)]
    simp
  · simp only [if_neg hlfn, bind_assoc]
    cases hname : (A.alloc h.state FAT_NAME_SIZE).1 with
    | none =>
      rw [Op.reports_bind_of_ok (Op.new_of_none hname), storeResult_none,
        Op.reports_bind_of_error (Op.ofExec_apply _)]
      exact iff_of_false (fun hr ↦ hr rfl) (by simp [hname])
    | some p =>
      rw [Op.reports_bind_of_ok (Op.new_of_some hname), storeResult_some,
        Op.reports_bind_of_ok (Op.ofExec_apply _)]
      simp [hname]

theorem reports_searchEntries_iff {k i : ℕ} (hstruct : returnStruct.isSome = !h.refused) :
    Op.Reports FileFailed
        (fun fuel ↦ searchEntries A disk this fuel file dir returnStruct k i) h ↔
      A.Grants h.state (searchRequests file dir k i) ∧
        (h.refused = true → ∃ e, searchMatch file dir k i = some e ∧
          this.fileWalk disk e = .unreadable) := by
  induction k generalizing i h with
  | zero =>
    simp only [searchEntries, searchRequests, searchMatch]
    rw [Op.reports_ofExec]
    cases hrefused : h.refused with
    | false => simp
    | true =>
      rw [hrefused, Bool.not_true, Option.isSome_eq_false_iff, Option.isNone_iff_eq_none] at hstruct
      simp [hstruct, Reported]
  | succ k ih =>
    simp only [searchEntries, searchRequests, searchMatch]
    cases hentry : entryAt dir i with
    | error stop =>
      rw [Op.reports_bind_of_error (Op.ofExec_apply _), entryAt_error hentry]
      simp [Reported]
    | ok e =>
      rw [Op.reports_bind_of_ok (Op.ofExec_apply _), reports_nameFromEntry_bind,
        Allocator.grants_append, and_assoc]
      refine and_congr_right fun _ ↦ ?_
      by_cases hmatch : strcmp (nameOf e) file = 0
      · simp only [if_pos hmatch]
        exact (reports_readFile_iff (h := ⟨A.after h.state (nameRequests e), h.refused⟩)
          hstruct).trans (by simp)
      · simp only [if_neg hmatch]
        exact ih (h := ⟨A.after h.state (nameRequests e), h.refused⟩) hstruct

/-- The requests of `getRootFile` after it has loaded the directory `dir` with `n` entries are
granted, or only the one for the result structure is refused and the file cannot be read. -/
def SearchGranted (A : Allocator σ) (disk : Disk) (this : Volume) (file dir : Bytes) (n : ℕ)
    (s : σ) : Prop :=
  A.Grants (A.alloc s 12).2 (searchRequests file dir n 0) ∧
    ((A.alloc s 12).1.isSome = true ∨
      ∃ e, searchMatch file dir n 0 = some e ∧ this.fileWalk disk e = .unreadable)

/-- **`getRootFile` reports its refusals exactly if it has none, or has only the one that comes too
late to matter.** -/
theorem getRootFile_reports_iff (A : Allocator σ) (disk : Disk) (this : Volume) (file : Bytes)
    (s : σ) :
    Op.Reports FileFailed (fun fuel ↦ getRootFile A disk this fuel file) ⟨s, false⟩ ↔
      DirGranted A disk this (VBR.clusterNumberRoot this.vbr) s
        fun dir n t ↦ SearchGranted A disk this file dir n t := by
  simp only [getRootFile]
  rw [reports_readDir_bind]
  refine iff_of_eq (congrArg _ (funext fun dir ↦ funext fun n ↦ funext fun t ↦ propext ?_))
  rw [SearchGranted]
  cases hstruct : (A.alloc t 12).1 with
  | none =>
    rw [Op.reports_bind_of_ok (Op.new_of_none hstruct), reports_searchEntries_iff (by simp)]
    simp
  | some p =>
    rw [Op.reports_bind_of_ok (Op.new_of_some hstruct), reports_searchEntries_iff (by simp)]
    simp

/-- **Which refusals are reported.**  `init` reports all of them; `readDir` and `getRootFile` report
theirs exactly if there are none, but for the request of `getRootFile` that comes too late to
matter. -/
theorem refusals_reported_iff (A : Allocator σ) (disk : Disk) (this : Volume) (lba c : BitVec 32)
    (file : Bytes) (s : σ) :
    Op.Reports InitFailed (fun _ : ℕ ↦ init A disk lba) ⟨s, false⟩ ∧
      (Op.Reports (fun _ ↦ False) (fun _ : ℕ ↦ readDir A disk this c) ⟨s, false⟩ ↔
        DirGranted A disk this c s fun _ _ _ ↦ True) ∧
      (Op.Reports FileFailed (fun fuel ↦ getRootFile A disk this fuel file) ⟨s, false⟩ ↔
        DirGranted A disk this (VBR.clusterNumberRoot this.vbr) s
          fun dir n t ↦ SearchGranted A disk this file dir n t) :=
  ⟨init_reports A disk lba s, readDir_reports_iff A disk this c s,
    getRootFile_reports_iff A disk this file s⟩

/-- A kernel of 600 bytes and a heap of 1000: the buffer is refused, and the null pointer handed to
the callback. -/
theorem getRootFile_kernel_refused :
    let fat : Bytes := List.replicate 8 0 ++
      [0xff, 0xff, 0xff, 0x0f, 4, 0, 0, 0, 0xff, 0xff, 0xff, 0x0f]
    let data : List Bytes := [kernelEntry 600]
    ¬ Op.Reports FileFailed (fun fuel ↦ getRootFile Allocator.bump (smallImage 1 fat data).disk
      (smallVolume 1 fat data) fuel kernelName) ⟨1000, false⟩ := by
  intro fat data
  rw [getRootFile_reports_iff]
  intro hgranted
  have hroot : VBR.clusterNumberRoot (smallVolume 1 fat data).vbr = 2 := by decide
  have hsize : (Allocator.bump.alloc 1000 (smallVolume 1 fat data).dirSize).1
      = some (List.replicate 512 0) := by decide
  rw [hroot] at hgranted
  obtain ⟨block, hblock, hrest⟩ := hgranted 0xFFFFFFF (by decide) (by decide)
  obtain rfl := Option.some.inj (hsize.symm.trans hblock)
  have hdir : (smallVolume 1 fat data).HasDir (smallImage 1 fat data).disk 2 (List.replicate 512 0)
      (kernelEntry 600).padded 1 := by
    refine ⟨⟨_, rfl, by decide, by decide⟩, by decide, by decide,
      by decide, ?_⟩
    rintro i - hi
    obtain rfl : i = 0 := by omega
    decide
  exact absurd (hrest _ _ hdir).2.1 (by decide)

end Fat32
end RainbowOS
