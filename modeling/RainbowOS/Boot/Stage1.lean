import RainbowOS.Boot.Elf
import RainbowOS.Boot.HeaderSearch
import RainbowOS.Boot.Multiboot
import RainbowOS.Fat32.Ready
import RainbowOS.Terminal.Handover

/-!
# The way to the kernel: `_stage1Main`

`_stage1Main` mounts the active partition, reads the kernel's file, looks for the multiboot header,
fills in the multiboot information, checks and loads the ELF file, and jumps to it.  Each step may
fail and each has its own way to say so; the failures that are looked at end in `earlyPanic`.

Two are not looked at.  The return code of `init` is dropped, so that the steps after it work on an
object with a null pointer in it; and the information structure may be null, because the header
asks for a feature that is not supported, in which case the kernel is entered with a null pointer.

`stage1Main_gated_iff` says exactly when the loader is gated: it jumps only if every step before
succeeded, and panics otherwise.
-/

set_option autoImplicit false

namespace RainbowOS

open Elf32Ehdr Fat32

/-! ## What `_stage1Main` finds -/

/-- The machine when `_stage1Main` starts to read the kernel. -/
structure Machine (σ : Type) where
  /-- The master boot record, at `_final_mbr_address`. -/
  mbr : Bytes
  /-- The heap. -/
  A : Allocator σ
  /-- Its state after `heapInitialize`. -/
  heap : σ
  /-- The sectors that `int 13h` reads. -/
  int13 : BitVec 32 → ℕ → Option Bytes
  length_int13 : ∀ {lba : BitVec 32} {n : ℕ} {bs : Bytes}, int13 lba n = some bs →
    bs.length = n * sectorSize
  /-- The memory around the file of the kernel. -/
  mem : Mem
  /-- The address of the block with the file. -/
  filePtr : Addr
  /-- What the heap and the BIOS give to `buildMultibootInfo`. -/
  src : InfoSources
  /-- `disk`, from `%dl`. -/
  disk : Byte
  /-- The terminal after the last message. -/
  terminal : FramebufferTerminal

variable {σ : Type}

/-- `diskReadFunc`: a read that fails does not return. -/
def Machine.diskReadFunc (M : Machine σ) : Disk where
  read := M.int13
  panic := some "diskRead16(): Failure reading"
  length_read := M.length_int13

/-- The memory with the file of the kernel in it. -/
def Machine.withFile (M : Machine σ) (buffer : Bytes) : Mem :=
  M.mem.write M.filePtr buffer.length buffer.read8

/-! ## The steps -/

/-- `getPartitionLBA()`: the first entry of the partition table that is marked as bootable. -/
def getPartitionLBA (mbr : Bytes) : Exec (BitVec 32) :=
  match (List.range 4).find? fun i ↦ (mbr.read8 (0x1be + 16 * i)).getLsbD 7 with
  | some i => .ok (mbr.read32 (0x1be + 16 * i + 8))
  | none => .error (.earlyPanic "getPartitionLBA(): Couldn't get the partition LBA!")

/-- The object after `init`, whose return code is not looked at.  `diskReadFunc` does not return a
failure, so that the only code besides 0 is 99, and a member is a null pointer then. -/
def afterInit : Except ℤ Volume → Exec Volume
  | .ok this => .ok this
  | .error _ => .error .nullPointer

/-! ## `_stage1Main` -/

/-- From `elf_check_file` on. -/
def loadAndJump (M : Machine σ) (fuel : ℕ) (m : Mem) (mbInfo : Addr) : Op σ KernelEntry := do
  Op.panicIf (¬ elf_check_file m M.filePtr)
    "init.bin's ELF header is not recognized, or not supported!"
  let (m, initEndPtr) ← Op.loop (elf32_load fuel m M.filePtr)
  Op.panicIf (initEndPtr = 0) "Problems loading ELF binary kernel.bin"
  return jumpKernel (e_entry m M.filePtr) mbInfo M.terminal.terminalIndex

/-- From `multibootHeaderSearch` on. -/
def bootKernel (M : Machine σ) (fuel : ℕ) (m : Mem) (size : BitVec 32) : Op σ KernelEntry := do
  let mbHeader ← Op.loop (multibootHeaderSearch fuel m M.filePtr size)
  Op.panicIf (mbHeader = 0) "Couldn't find Multiboot Header!"
  let (m, mbInfo) ← Op.ofLoop
    (buildMultibootInfo m (headerFlags m mbHeader) (M.disk.setWidth 32) M.src)
  loadAndJump M fuel m mbInfo

/-- From the test of the return code on. -/
def bootFile (M : Machine σ) (fuel : ℕ) (kernelFile : FileResult) : Op σ KernelEntry := do
  Op.panicIf (kernelFile.returnCode = 1) "Could not find KERNEL.BIN"
  match kernelFile.ptr with
  | none => throw .nullPointer
  | some buffer => bootKernel M fuel (M.withFile buffer) kernelFile.size

/-- `_stage1Main`, from `getPartitionLBA` on. -/
def stage1Main (M : Machine σ) (fuel : ℕ) : Op σ KernelEntry := do
  let activePartitionLBA ← Op.ofExec (getPartitionLBA M.mbr)
  let returnCode ← init M.A M.diskReadFunc activePartitionLBA
  let activePartition ← Op.ofExec (afterInit returnCode)
  let kernelFile ← getRootFile M.A M.diskReadFunc activePartition fuel kernelName
  bootFile M fuel kernelFile

/-! ## A gated loader -/

/-- Every step before `jumpKernel` succeeded, and the kernel is entered with what they gave. -/
inductive Booted (M : Machine σ) : KernelEntry → Prop
  | jump {activePartitionLBA : BitVec 32} {activePartition : Volume} {h h' : Heap σ} {fuel : ℕ}
      {kernelFile : FileResult} {buffer : Bytes} {mbHeader mbInfo initEndPtr : Addr} {m m' : Mem}
      (partition : getPartitionLBA M.mbr = .ok activePartitionLBA)
      (mounted : init M.A M.diskReadFunc activePartitionLBA ⟨M.heap, false⟩ =
        some (.ok (.ok activePartition), h))
      (file : getRootFile M.A M.diskReadFunc activePartition fuel kernelName h =
        some (.ok kernelFile, h'))
      (file_found : kernelFile.returnCode = 0)
      (file_ptr : kernelFile.ptr = some buffer)
      (header : multibootHeaderSearch fuel (M.withFile buffer) M.filePtr kernelFile.size =
        some mbHeader)
      (header_found : mbHeader ≠ 0)
      (header_supported : Supported (headerFlags (M.withFile buffer) mbHeader))
      (info : buildMultibootInfo (M.withFile buffer) (headerFlags (M.withFile buffer) mbHeader)
        (M.disk.setWidth 32) M.src = some (.ok (m, mbInfo)))
      (info_ne_null : mbInfo ≠ 0)
      (elf : elf_check_file m M.filePtr = true)
      (load : elf32_load fuel m M.filePtr = some (m', initEndPtr))
      (load_ne_null : initEndPtr ≠ 0) :
      Booted M (jumpKernel (e_entry m' M.filePtr) mbInfo M.terminal.terminalIndex)

variable {M : Machine σ} {m : Mem} {mbInfo : Addr} {fuel : ℕ} {entry : KernelEntry} {h h' : Heap σ}

/-! ### A run that comes to `jumpKernel` -/

theorem loadAndJump_eq_ok (hrun : loadAndJump M fuel m mbInfo h = some (.ok entry, h')) :
    elf_check_file m M.filePtr = true ∧ ∃ m' initEndPtr,
      elf32_load fuel m M.filePtr = some (m', initEndPtr) ∧ initEndPtr ≠ 0 ∧
        entry = jumpKernel (e_entry m' M.filePtr) mbInfo M.terminal.terminalIndex := by
  obtain ⟨_, _, hcheck, hrun⟩ := Run.bind_eq_ok.mp hrun
  obtain ⟨⟨m', initEndPtr⟩, _, hload, hrun⟩ := Run.bind_eq_ok.mp hrun
  obtain ⟨_, _, hend, hrun⟩ := Run.bind_eq_ok.mp hrun
  obtain ⟨heq, -⟩ := Prod.mk.inj (Option.some.inj hrun)
  exact ⟨not_not.mp (Op.panicIf_eq_ok.mp hcheck).1, m', initEndPtr, (Op.loop_eq_ok.mp hload).1,
    (Op.panicIf_eq_ok.mp hend).1, (Except.ok.inj heq).symm⟩

theorem bootKernel_eq_ok {size : BitVec 32}
    (hrun : bootKernel M fuel m size h = some (.ok entry, h')) :
    ∃ mbHeader m' mbInfo k, multibootHeaderSearch fuel m M.filePtr size = some mbHeader ∧
      mbHeader ≠ 0 ∧ buildMultibootInfo m (headerFlags m mbHeader) (M.disk.setWidth 32) M.src =
        some (.ok (m', mbInfo)) ∧ loadAndJump M fuel m' mbInfo k = some (.ok entry, h') := by
  obtain ⟨mbHeader, _, hheader, hrun⟩ := Run.bind_eq_ok.mp hrun
  obtain ⟨_, _, hfound, hrun⟩ := Run.bind_eq_ok.mp hrun
  obtain ⟨⟨m', mbInfo⟩, k, hinfo, hrun⟩ := Run.bind_eq_ok.mp hrun
  exact ⟨mbHeader, m', mbInfo, k, (Op.loop_eq_ok.mp hheader).1, (Op.panicIf_eq_ok.mp hfound).1,
    (Op.ofLoop_eq_ok.mp hinfo).1, hrun⟩

theorem bootFile_eq_ok {kernelFile : FileResult}
    (hrun : bootFile M fuel kernelFile h = some (.ok entry, h')) :
    kernelFile.returnCode ≠ 1 ∧ ∃ buffer k, kernelFile.ptr = some buffer ∧
      bootKernel M fuel (M.withFile buffer) kernelFile.size k = some (.ok entry, h') := by
  obtain ⟨_, k, hcode, hrun⟩ := Run.bind_eq_ok.mp hrun
  cases hptr : kernelFile.ptr with
  | none =>
    rw [hptr] at hrun
    cases hrun
  | some buffer =>
    rw [hptr] at hrun
    exact ⟨(Op.panicIf_eq_ok.mp hcode).1, buffer, k, rfl, hrun⟩

theorem afterInit_eq_ok {r : Except ℤ Volume} {this : Volume} :
    afterInit r = .ok this ↔ r = .ok this := by
  cases r <;> simp [afterInit]

/-- **All steps have succeeded in a run that comes to `jumpKernel`**, but for the one whose result
is not looked at: the kernel may be given a null pointer. -/
theorem booted_iff_of_run (hrun : stage1Main M fuel ⟨M.heap, false⟩ = some (.ok entry, h')) :
    Booted M entry ↔ entry.ebx ≠ 0 := by
  constructor
  · rintro ⟨⟩
    assumption
  · intro hebx
    obtain ⟨lba, _, hlba, hrun⟩ := Run.bind_eq_ok.mp hrun
    obtain ⟨hpartition, rfl⟩ := Op.ofExec_eq_ok.mp hlba
    obtain ⟨returnCode, h₁, hinit, hrun⟩ := Run.bind_eq_ok.mp hrun
    obtain ⟨this, _, hafter, hrun⟩ := Run.bind_eq_ok.mp hrun
    obtain ⟨hthis, rfl⟩ := Op.ofExec_eq_ok.mp hafter
    rw [afterInit_eq_ok.mp hthis] at hinit
    obtain ⟨kernelFile, h₂, hfile, hrun⟩ := Run.bind_eq_ok.mp hrun
    obtain ⟨hcode, buffer, k, hptr, hrun⟩ := bootFile_eq_ok hrun
    obtain ⟨mbHeader, m', mbInfo, k', hheader, hfound, hinfo, hrun⟩ := bootKernel_eq_ok hrun
    obtain ⟨helf, m'', initEndPtr, hload, hend, rfl⟩ := loadAndJump_eq_ok hrun
    have hsup := (returnedInfo_ne_zero_iff.mp (eq_returnedInfo hinfo ▸ hebx)).1
    exact .jump hpartition hinit hfile (returnCode_of_found hfile hcode) hptr hheader hfound hsup
      hinfo hebx helf hload hend

/-! ### What `_stage1Main` asks for -/

/-- If the file is recognized, `elf32_load` comes to an end; and if it loads the file, the
multiboot header is supported and there is a structure for the information.

This speaks of a run of `elf32_load`, and `KernelReady` of one of `multibootHeaderSearch`.  On which
inputs they end is said by `elf32_load_ends_iff` and `multibootHeaderSearch_ends_iff`. -/
def LoadReady (M : Machine σ) (m : Mem) (headerFlags : BitVec 32) : Prop :=
  elf_check_file m M.filePtr = true → ∃ fuel m' initEndPtr,
    elf32_load fuel m M.filePtr = some (m', initEndPtr) ∧
      (initEndPtr ≠ 0 → Supported headerFlags ∧ M.src.returnStruct ≠ 0)

/-- The search for the multiboot header comes to an end; and if there is a header, so does the
query of the memory map, after which the file can be loaded. -/
def KernelReady (M : Machine σ) (m : Mem) (size : BitVec 32) : Prop :=
  ∃ fuel mbHeader, multibootHeaderSearch fuel m M.filePtr size = some mbHeader ∧
    (mbHeader ≠ 0 → ∃ r, buildMultibootInfo m (headerFlags m mbHeader) (M.disk.setWidth 32) M.src =
      some r ∧ ∀ info, r = .ok info → LoadReady M info.1 (headerFlags m mbHeader))

/-- The file is missing, or it has a buffer and can be booted. -/
def FileBootable (M : Machine σ) (kernelFile : FileResult) : Prop :=
  kernelFile.returnCode ≠ 1 → ∃ buffer, kernelFile.ptr = some buffer ∧
    KernelReady M (M.withFile buffer) kernelFile.size

/-- If there is an active partition, it can be mounted and read as far as it has to be. -/
def BootReady (M : Machine σ) : Prop :=
  ∀ lba, getPartitionLBA M.mbr = .ok lba →
    MountReady M.A M.diskReadFunc lba M.heap fun this s ↦
      RootFileReady M.A M.diskReadFunc this kernelName (FileBootable M) s

/-! ### Gated exactly if ready -/

theorem mono_search {size : BitVec 32} {ptr : Addr} ⦃i j : ℕ⦄ (hij : i ≤ j) ⦃a : Addr⦄
    (hi : multibootHeaderSearch i m ptr size = some a) :
    multibootHeaderSearch j m ptr size = some a :=
  Loop.run_mono hij hi

theorem mono_loadAndJump (M : Machine σ) (m : Mem) (mbInfo : Addr) :
    Run.Mono fun fuel ↦ loadAndJump M fuel m mbInfo :=
  Run.mono_bind (Run.mono_const _) fun _ ↦ Run.mono_bind (Op.mono_loop mono_load) fun _ ↦
    Run.mono_const _

theorem ends_loadAndJump {headerFlags : BitVec 32}
    (hinfo : mbInfo = returnedInfo headerFlags M.src.returnStruct) :
    Run.Ends Stop.IsPanic (fun entry _ ↦ entry.ebx ≠ 0) (fun fuel ↦ loadAndJump M fuel m mbInfo) h ↔
      LoadReady M m headerFlags := by
  rw [LoadReady, ← returnedInfo_ne_zero_iff, ← hinfo]
  simp only [loadAndJump]
  rw [Op.ends_panicIf_bind, not_not]
  refine imp_congr_right fun _ ↦ ?_
  refine Iff.trans (Run.ends_bind (Op.mono_loop mono_load) fun _ ↦ Run.mono_const _) ?_
  rw [Op.ends_loop]
  simp only [Prod.exists]
  refine exists_congr fun fuel ↦ exists_congr fun m' ↦ exists_congr fun initEndPtr ↦
    and_congr_right fun _ ↦ ?_
  rw [Op.ends_panicIf_bind]
  refine imp_congr_right fun _ ↦ ?_
  exact Run.ends_of_ok (i := 0) (Run.mono_const _) (Run.pure_apply _)

theorem ends_bootKernel {size : BitVec 32} : Run.Ends Stop.IsPanic (fun entry _ ↦ entry.ebx ≠ 0)
    (fun fuel ↦ bootKernel M fuel m size) h ↔ KernelReady M m size := by
  simp only [bootKernel, KernelReady]
  refine Iff.trans (Run.ends_bind (Op.mono_loop mono_search) fun _ ↦
    Run.mono_bind (Run.mono_const _) fun _ ↦ Run.mono_bind (Run.mono_const _) fun _ ↦
      mono_loadAndJump M _ _) ?_
  rw [Op.ends_loop]
  refine exists_congr fun fuel ↦ exists_congr fun mbHeader ↦ and_congr_right fun _ ↦ ?_
  rw [Op.ends_panicIf_bind]
  refine imp_congr_right fun _ ↦ ?_
  refine (Run.ends_bind (Run.mono_const _) fun _ ↦ mono_loadAndJump M _ _).trans ?_
  rw [Op.ends_ofLoop]
  constructor
  · rintro ⟨-, r, hr, hout⟩
    refine ⟨r, hr, ?_⟩
    rintro info rfl
    exact (ends_loadAndJump (eq_returnedInfo hr)).mp hout
  · rintro ⟨r, hr, hload⟩
    refine ⟨0, r, hr, ?_⟩
    cases r with
    | error stop => exact buildMultibootInfo_error hr
    | ok info => exact (ends_loadAndJump (eq_returnedInfo hr)).mpr (hload info rfl)

theorem mono_bootKernel (M : Machine σ) (m : Mem) (size : BitVec 32) :
    Run.Mono fun fuel ↦ bootKernel M fuel m size :=
  Run.mono_bind (Op.mono_loop mono_search) fun _ ↦ Run.mono_bind (Run.mono_const _) fun _ ↦
    Run.mono_bind (Run.mono_const _) fun _ ↦ mono_loadAndJump M _ _

theorem mono_bootFile (M : Machine σ) (kernelFile : FileResult) :
    Run.Mono fun fuel ↦ bootFile M fuel kernelFile := by
  refine Run.mono_bind (Run.mono_const _) fun _ ↦ ?_
  cases kernelFile.ptr with
  | none => exact Run.mono_const _
  | some buffer => exact mono_bootKernel M _ _

theorem ends_bootFile {kernelFile : FileResult} :
    Run.Ends Stop.IsPanic (fun entry _ ↦ entry.ebx ≠ 0)
      (fun fuel ↦ bootFile M fuel kernelFile) h ↔ FileBootable M kernelFile := by
  simp only [bootFile, FileBootable]
  rw [Op.ends_panicIf_bind]
  refine imp_congr_right fun _ ↦ ?_
  cases kernelFile.ptr with
  | none =>
    rw [Run.ends_of_error (i := 0) (Run.mono_const _) rfl]
    exact iff_of_false id (by simp)
  | some buffer =>
    simp only [Option.some.injEq, exists_eq_left']
    exact ends_bootKernel

theorem getPartitionLBA_error {mbr : Bytes} {stop : Stop}
    (h : getPartitionLBA mbr = .error stop) : stop.IsPanic := by
  rw [getPartitionLBA] at h
  split at h
  · cases h
  · cases h
    trivial

/-- No use is made of a null pointer to a file that has been found. -/
theorem not_fileBootable_none (M : Machine σ) (size : BitVec 32) :
    ¬ FileBootable M ⟨0, size, none⟩ := by
  intro hready
  obtain ⟨buffer, hbuffer, -⟩ := hready (by simp)
  cases hbuffer

theorem mono_stage1Main (M : Machine σ) : Run.Mono (stage1Main M) :=
  Run.mono_bind (Run.mono_const _) fun _ ↦ Run.mono_bind (Run.mono_const _) fun _ ↦
    Run.mono_bind (Run.mono_const _) fun this ↦
      Run.mono_bind (mono_getRootFile M.A M.diskReadFunc this kernelName) (mono_bootFile M)

theorem ends_stage1Main : Run.Ends Stop.IsPanic (fun entry _ ↦ entry.ebx ≠ 0) (stage1Main M)
    ⟨M.heap, false⟩ ↔ BootReady M := by
  rw [BootReady]
  cases hlba : getPartitionLBA M.mbr with
  | error stop =>
    change Run.Ends _ _ (fun fuel ↦ Op.ofExec (getPartitionLBA M.mbr) >>= _) _ ↔ _
    rw [hlba, Run.ends_bind_of_error (Op.ofExec_apply _)]
    exact iff_of_true (getPartitionLBA_error hlba) (by simp)
  | ok lba =>
    change Run.Ends _ _ (fun fuel ↦ Op.ofExec (getPartitionLBA M.mbr) >>= _) _ ↔ _
    rw [hlba, Run.ends_bind_of_ok (Op.ofExec_apply _)]
    simp only [Except.ok.injEq, forall_eq']
    refine Iff.trans (Run.ends_bind (Run.mono_const _) fun _ ↦ Run.mono_bind (Run.mono_const _)
      fun this ↦ Run.mono_bind (mono_getRootFile M.A M.diskReadFunc this kernelName)
        (mono_bootFile M)) ?_
    rw [ends_init (show M.diskReadFunc.panic = some _ from rfl) fun code k hready ↦
      (Run.ends_bind_of_error (Op.ofExec_apply _)).mp hready]
    refine iff_of_eq (congrArg _ (funext fun this ↦ funext fun s ↦ propext ?_))
    rw [afterInit, Run.ends_bind_of_ok (Op.ofExec_apply _)]
    refine Iff.trans (Run.ends_bind (mono_getRootFile M.A M.diskReadFunc this kernelName)
      (mono_bootFile M)) ?_
    simp only [ends_bootFile]
    exact ends_getRootFile (not_fileBootable_none M)

/-- **When the loader is gated.**  `_stage1Main` comes to `jumpKernel` after the success of every
step, or panics, exactly if it finds what it asks for; and it asks for more than it checks, a heap
that is large enough and a multiboot header that is supported among other things. -/
theorem stage1Main_gated_iff (M : Machine σ) :
    Run.Ends Stop.IsPanic (fun entry _ ↦ Booted M entry) (stage1Main M) ⟨M.heap, false⟩ ↔
      BootReady M := by
  rw [Run.ends_congr fun _ _ _ hrun ↦ booted_iff_of_run hrun]
  exact ends_stage1Main

/-! ## A small machine -/

/-- An ELF file with one segment of 4 bytes, and behind its program header a multiboot header with
the given flags. -/
def smallKernel (flags : Byte) : Bytes :=
  [0x7f, 0x45, 0x4c, 0x46, 1, 1, 1, 0] ++ List.replicate 8 0 ++
    [2, 0, 3, 0, 1, 0, 0, 0, 0, 0, 0x10, 0, 52, 0, 0, 0] ++ List.replicate 10 0 ++ [32, 0, 1, 0] ++
    List.replicate 6 0 ++ [1, 0, 0, 0, 0, 0, 0, 0, 0, 0, 0x10, 0, 0, 0, 0x10, 0, 4, 0, 0, 0,
      4, 0, 0, 0, 5, 0, 0, 0, 0, 0, 0, 0] ++
    [0x02, 0xb0, 0xad, 0x1b, flags, 0, 0, 0, 0xfe - flags, 0x4f, 0x52, 0xe4]

/-- The disk with this kernel on a small volume. -/
def smallKernelImage (flags : Byte) : Image :=
  smallImage 1 (List.replicate 8 0 ++ [0xff, 0xff, 0xff, 0x0f, 0xff, 0xff, 0xff, 0x0f])
    [kernelEntry 96, smallKernel flags]

/-- A machine with this disk, and 4000 bytes of heap. -/
def smallMachine (flags : Byte) : Machine ℕ where
  mbr := List.replicate 0x1be 0 ++ [0x80]
  A := Allocator.bump
  heap := 4000
  int13 := (smallKernelImage flags).disk.read
  length_int13 := (smallKernelImage flags).disk.length_read
  mem := fun _ ↦ 0
  filePtr := 0x20000
  src := ⟨0x30000, 0x31000, 640, []⟩
  disk := 0x80
  terminal := FramebufferTerminal.new

/-- A kernel without wishes is entered with the information it is promised. -/
example : (stage1Main (smallMachine 0) 24 ⟨4000, false⟩).map Prod.fst =
    some (.ok (jumpKernel 0x100000 0x30000 0)) := by decide +kernel

/-- A kernel that wants a video mode is entered with a null pointer. -/
theorem stage1Main_null_info :
    (stage1Main (smallMachine 4) 24 ⟨4000, false⟩).map Prod.fst =
        some (.ok (jumpKernel 0x100000 0 0)) ∧
      ¬ Run.Ends Stop.IsPanic (fun entry _ ↦ Booted (smallMachine 4) entry)
        (stage1Main (smallMachine 4)) ⟨(smallMachine 4).heap, false⟩ := by
  have hrun : (stage1Main (smallMachine 4) 24 ⟨4000, false⟩).map Prod.fst =
      some (.ok (jumpKernel 0x100000 0 0)) := by decide +kernel
  refine ⟨hrun, ?_⟩
  obtain ⟨⟨r, h'⟩, hrun, rfl⟩ := Option.map_eq_some_iff.mp hrun
  change stage1Main (smallMachine 4) 24 ⟨(smallMachine 4).heap, false⟩ = _ at hrun
  rw [Run.ends_of_ok (mono_stage1Main _) hrun, booted_iff_of_run hrun]
  exact not_not.mpr rfl

end RainbowOS
