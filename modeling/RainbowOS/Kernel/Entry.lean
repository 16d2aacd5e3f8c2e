import RainbowOS.EarlyLib.RealMode
import RainbowOS.Kernel.Idt
import RainbowOS.Lib.Segment
import RainbowOS.Terminal.Handover

/-!
# The way into the kernel

`_stage1Main` calls `jumpKernel`, which takes its arguments from the stack and jumps to the kernel's
`_start` with them in registers.  `_start` sets up a stack and a table of descriptors of its own and
calls `kmain`.  The loader's stack pointer is used with 16 bits only, and `%cs` is not loaded again:
the kernel goes on in the segment of the loader.

* `kernel_entered` — `kmain` gets what `_stage1Main` has given to `jumpKernel`, with the kernel's
  own data segments, and in a code segment that is the one of the kernel's table as well.  Besides
  the stack one byte is written: the processor marks the data descriptor as accessed.
-/

set_option autoImplicit false

namespace RainbowOS

open X86

/-! ## The code -/

/-- `DATA32_KSEGMENT`. -/
def DATA32_KSEGMENT : BitVec 16 := 0x10

/-- `jumpKernel` of stage1, and where it jumps to. -/
def jumpKernelCode (s : System) : System × Addr :=
  let s := s.setDi (s.regs.esp.setWidth 16)
  let s := s.setDi (s.di + 4)
  let s := s.setEcx s.loadDi
  let s := s.setDi (s.di + 4)
  let s := s.setEbx s.loadDi
  let s := s.setDi (s.di + 4)
  let s := s.setEdx s.loadDi
  let s := s.setEax 0x2BADB003
  (s, s.regs.ecx)

/-- `.gdt_reload`. -/
def gdt_reload (s : Segmented) : Except SegmentFault Segmented :=
  let s := { s with toSystem := s.toSystem.setEax (DATA32_KSEGMENT.setWidth 32) }
  Segmented.loadAll [.ds, .es, .fs, .gs, .ss] s

/-- `_start` up to `.gdt_reload`.  A write of `%cr0` that sets PE is not refused. -/
def setupKernel (stack_top gdt_desc : Addr) (s : Segmented) : Segmented :=
  let s := { s with interruptFlag := false }
  let s := { s with regs := { s.regs with esp := stack_top, ebp := stack_top } }
  let s := { s with toCpu := s.toCpu.push s.regs.eax }
  let s := { s with toSystem := s.toSystem.setEax gdt_desc }
  let s := { s with gdtr := .read s.mem s.regs.eax }
  let s := { s with toSystem := s.toSystem.setEax s.cr0 }
  let s := { s with toSystem := s.toSystem.setEax (s.regs.eax ||| 1) }
  { s with cr0 := s.regs.eax }

/-- `_start` behind `.gdt_reload`, up to the first instruction of `kmain`. -/
def callKmain (returnAddr : Addr) (s : Segmented) : Segmented :=
  let s := { s with toSystem := s.toSystem.setEax (s.toCpu.top 0) }
  let s := { s with toCpu := s.toCpu.addEsp 4 }
  let s := { s with toCpu := s.toCpu.push s.regs.edx }
  let s := { s with toCpu := s.toCpu.push s.regs.ebx }
  let s := { s with toCpu := s.toCpu.push s.regs.eax }
  { s with toCpu := s.toCpu.push returnAddr }

/-- `_start` of the kernel, up to the first instruction of `kmain`. -/
def kernelStart (stack_top gdt_desc returnAddr : Addr) (s : Segmented) :
    Except SegmentFault Segmented :=
  (gdt_reload (setupKernel stack_top gdt_desc s)).map (callKmain returnAddr)

/-! ## The table -/

/-- The descriptors from `gdt_start` on. -/
def gdtDescriptors : List Descriptor :=
  [0, 0x00CF9A000000FFFF, 0x00CF92000000FFFF, 0x00CFFA000000FFFF, 0x008FF2000000FFFF]

/-- The descriptors `ds` are in memory from `p` on. -/
def TableAt (ds : List Descriptor) (m : Mem) (p : Addr) : Prop :=
  ∀ i (hi : i < ds.length), m.readLE 8 (p + addr (8 * i)) = ds[i]

/-- The table is in memory, and `gdt_desc` says where. -/
structure GdtAt (m : Mem) (gdt_desc gdt_start : Addr) : Prop where
  limit : m.read16 gdt_desc = 39
  base : m.read32 (gdt_desc + 2) = gdt_start
  entries : TableAt gdtDescriptors m gdt_start

variable {m m' : Mem} {gdt_desc gdt_start stack_top returnAddr : Addr} {s t : Segmented}
  {ds : List Descriptor} {i : ℕ}

/-- The table is not touched by what is apart from it. -/
theorem TableAt.congr (h : TableAt ds m gdt_start) (hcount : ds.length = 5)
    (hm : ∀ x, Mem.Range gdt_start 40 x → m' x = m x) : TableAt ds m' gdt_start := by
  intro i hi
  rw [← h i hi]
  refine Mem.readLE_congr fun j hj ↦ ?_
  rw [add_addr_addr]
  exact hm _ (Mem.range_add (by omega) (by decide))

theorem GdtAt.congr (h : GdtAt m gdt_desc gdt_start)
    (hdesc : ∀ x, Mem.Range gdt_desc 6 x → m' x = m x)
    (hentries : ∀ x, Mem.Range gdt_start 40 x → m' x = m x) : GdtAt m' gdt_desc gdt_start := by
  refine ⟨?_, ?_, h.entries.congr rfl hentries⟩
  · rw [← h.limit]
    exact Mem.readLE_congr (n := 2) fun i hi ↦ hdesc _ (Mem.range_add (by omega) (by decide))
  · rw [← h.base]
    refine Mem.readLE_congr (n := 4) fun i hi ↦ ?_
    rw [show (2 : Addr) = addr 2 from rfl, add_addr_addr]
    exact hdesc _ (Mem.range_add (by omega) (by decide))

theorem GdtAt.gdtr (h : GdtAt m gdt_desc gdt_start) : Gdtr.read m gdt_desc = ⟨39, gdt_start⟩ := by
  rw [Gdtr.read, h.limit, h.base]

/-- The selector of the entry number `i`. -/
theorem selector_index (hi : i < 5) : (BitVec.ofNat 16 (8 * i)).getLsbD 2 = false ∧
    (BitVec.ofNat 16 (8 * i) &&& 0xfff8).toNat = 8 * i := by
  obtain rfl | rfl | rfl | rfl | rfl : i = 0 ∨ i = 1 ∨ i = 2 ∨ i = 3 ∨ i = 4 := by omega
  all_goals exact ⟨rfl, rfl⟩

/-- What the processor finds in the table. -/
theorem TableAt.descriptor (h : TableAt ds m gdt_start) (hcount : ds.length = 5)
    (hi : i < ds.length) :
    Gdtr.descriptor ⟨39, gdt_start⟩ m (BitVec.ofNat 16 (8 * i)) = .ok ds[i] := by
  obtain ⟨hlocal, hindex⟩ := selector_index (hcount ▸ hi)
  have hinside : ¬ decide ((39 : BitVec 16).toNat < 8 * i + 7) = true := by
    rw [decide_eq_true_iff, show (39 : BitVec 16).toNat = 39 from rfl]
    omega
  rw [Gdtr.descriptor, hlocal, hindex, h i hi, Bool.false_or, if_neg hinside]

/-- One of the descriptors is marked as accessed. -/
theorem TableAt.mark (h : TableAt ds m gdt_start) (hcount : ds.length = 5) (hi : i < ds.length) :
    TableAt (ds.set i ds[i].access) (m.write8 (gdt_start + addr (8 * i) + 5)
      (m (gdt_start + addr (8 * i) + 5) ||| 1)) gdt_start := by
  intro j hj
  rw [List.length_set] at hj
  by_cases hij : i = j
  · subst hij
    rw [List.getElem_set_self, ← h i hi]
    exact Descriptor.readLE_write_mark m _
  · rw [List.getElem_set_ne hij, ← h j hj]
    refine Mem.readLE_congr fun k hk ↦ Mem.write8_of_ne ?_
    bv_omega

theorem flat_kdata : Descriptor.Flat 0x00CF92000000FFFF :=
  ⟨rfl, rfl, rfl, rfl, rfl, rfl, rfl⟩

/-! ## From stage1 to `kmain` -/

/-- **The arguments are in registers**, as long as the stack is in the lowest 64 KiB. -/
theorem jumpKernelCode_spec {s : System} {ret initAddr mbInfo termIndex : BitVec 32}
    {ws : List (BitVec 32)} (hstack : s.Stack (ret :: initAddr :: mbInfo :: termIndex :: ws))
    (hesp : s.regs.esp.toNat + 16 ≤ 0x10000) : ∃ edi, jumpKernelCode s =
      ({ s with regs := { s.regs with
          eax := 0x2BADB003, ebx := mbInfo, ecx := initAddr, edx := termIndex, edi := edi } },
        initAddr) := by
  have hat : ∀ i ≤ 3, ∀ v : BitVec 16, v.toNat = s.regs.esp.toNat + 4 * i →
      v.setWidth 32 = s.regs.esp + addr (4 * i) := by
    intro i hi v hv
    bv_omega
  have haddr : s.mem.read32 ((s.regs.esp.setWidth 16 + 4).setWidth 32) = initAddr := by
    rw [hat 1 (by decide) _ (by bv_omega)]
    exact hstack.top_eq (i := 1) (by simp)
  have hinfo : s.mem.read32 ((s.regs.esp.setWidth 16 + 4 + 4).setWidth 32) = mbInfo := by
    rw [hat 2 (by decide) _ (by bv_omega)]
    exact hstack.top_eq (i := 2) (by simp)
  have hindex : s.mem.read32 ((s.regs.esp.setWidth 16 + 4 + 4 + 4).setWidth 32) = termIndex := by
    rw [hat 3 (by decide) _ (by bv_omega)]
    exact hstack.top_eq (i := 3) (by simp)
  refine ⟨s.regs.edi.extractLsb' 16 16 ++ (s.regs.esp.setWidth 16 + 4 + 4 + 4), ?_⟩
  simp only [jumpKernelCode, System.loadDi, System.di, System.setDi, System.setEcx, System.setEbx,
    System.setEdx, System.setEax, System.setWidth_append_low, System.extractLsb'_append_high, haddr,
    hinfo, hindex]

/-- Where the processor marks the data descriptor. -/
def kdataMark (gdt_start : Addr) : Addr := gdt_start + addr 16 + 5

/-- The state in which `kmain` begins, from that in which the kernel was entered. -/
structure KernelEntered (s t : Segmented) (entry : KernelEntry)
    (stack_top gdt_start returnAddr : Addr) : Prop where
  stack : t.toCpu.Stack [returnAddr, entry.eax, entry.ebx, entry.edx]
  esp : t.regs.esp = stack_top - 16
  ebp : t.regs.ebp = stack_top
  cr0 : t.cr0 = s.cr0 ||| 1
  interruptFlag : t.interruptFlag = false
  data : ∀ r, r ≠ .cs → t.selector r = DATA32_KSEGMENT ∧
    ∃ d, t.gdtr.descriptor t.mem DATA32_KSEGMENT = .ok d ∧ t.kept r = some d ∧ d.Flat
  code : t.cs = s.cs ∧ t.kept .cs = s.kept .cs
  table : t.gdtr.descriptor t.mem CODE32_KSEGMENT = .ok 0x00CF9A000000FFFF
  mem : Mem.EqOn (fun x ↦ ¬ Mem.Range (stack_top - 16) 16 x ∧ x ≠ kdataMark gdt_start) s.mem t.mem
  marked : t.mem (kdataMark gdt_start) = 0x93

theorem toCpu_callKmain (returnAddr : Addr) (s : Segmented) :
    (callKmain returnAddr s).toCpu =
      ((((⟨{ s.regs with eax := s.toCpu.top 0, esp := s.regs.esp + 4 }, s.mem⟩ : Cpu).push
        s.regs.edx).push s.regs.ebx).push (s.toCpu.top 0)).push returnAddr := rfl

/-- The kernel's stack is apart from its table. -/
structure StackApart (stack_top gdt_desc gdt_start : Addr) : Prop where
  desc : ∀ x, Mem.Range (stack_top - 16) 16 x → ¬ Mem.Range gdt_desc 6 x
  entries : ∀ x, Mem.Range (stack_top - 16) 16 x → ¬ Mem.Range gdt_start 40 x

/-- So the table stays when only the stack is written. -/
theorem GdtAt.of_stack (h : GdtAt m gdt_desc gdt_start)
    (hapart : StackApart stack_top gdt_desc gdt_start)
    (hoff : Mem.EqOn (fun x ↦ ¬ Mem.Range (stack_top - 16) 16 x) m m') :
    GdtAt m' gdt_desc gdt_start :=
  h.congr (fun x hx ↦ hoff x fun hstack ↦ hapart.desc x hstack hx)
    fun x hx ↦ hoff x fun hstack ↦ hapart.entries x hstack hx

/-- The mark is in the table, and so not on the stack. -/
theorem StackApart.mark (hapart : StackApart stack_top gdt_desc gdt_start) :
    ¬ Mem.Range (stack_top - 16) 16 (kdataMark gdt_start) := by
  refine fun hstack ↦ hapart.entries _ hstack ?_
  rw [kdataMark, show (5 : Addr) = addr 5 from rfl, add_addr_addr]
  exact Mem.range_add (by decide) (by decide)

theorem eqOn_setupKernel : Mem.EqOn (fun x ↦ ¬ Mem.Range (stack_top - 16) 16 x) s.mem
    (setupKernel stack_top gdt_desc s).mem := by
  have hlast : ∀ x, Mem.Range (stack_top - 4) 4 x → Mem.Range (stack_top - 16) 16 x := by
    intro x hx
    refine Mem.Range.of_part (j := 12) (k := 4) ?_ (by decide) (by decide)
    rwa [show stack_top - 16 + addr 12 = stack_top - 4 by bv_omega]
  have hmem : (setupKernel stack_top gdt_desc s).mem =
      s.mem.write32 (stack_top - 4) s.regs.eax := rfl
  rw [hmem]
  exact Mem.eqOn_write fun x hx ↦ not_not.mpr (hlast x hx)

/-- `gdt_reload` loads the data segments from the table that `%gdtr` is at, and marks the
descriptor. -/
theorem gdt_reload_spec (hgdt : TableAt gdtDescriptors s.mem gdt_start)
    (hgdtr : s.gdtr = ⟨39, gdt_start⟩) (hcpl : s.cpl = 0) :
    ∃ t, gdt_reload s = .ok t ∧
      Segmented.Reloaded [.ds, .es, .fs, .gs, .ss] DATA32_KSEGMENT 0x00CF93000000FFFF
        { s with
          regs := { s.regs with eax := DATA32_KSEGMENT.setWidth 32 }
          mem := s.mem.write8 (kdataMark gdt_start) (s.mem (kdataMark gdt_start) ||| 1) } t := by
  obtain ⟨w, hw⟩ : ∃ w : Segmented,
    w = { s with toSystem := s.toSystem.setEax (DATA32_KSEGMENT.setWidth 32) } := ⟨_, rfl⟩
  have hsame : w.gdtr = ⟨39, gdt_start⟩ ∧ w.mem = s.mem := by
    rw [hw]
    exact ⟨hgdtr, rfl⟩
  have hdescriptor : w.gdtr.descriptor w.mem DATA32_KSEGMENT = .ok 0x00CF92000000FFFF := by
    rw [hsame.1, hsame.2]
    exact hgdt.descriptor (i := 2) rfl (by decide)
  have hcpl : w.cpl = 0 := by
    rw [hw]
    exact hcpl
  have hax : w.regs.eax.setWidth 16 = DATA32_KSEGMENT := by
    rw [hw]
    rfl
  obtain ⟨t, hrun, ht⟩ := Segmented.loadAll_of_flat .ds [.es, .fs, .gs, .ss] (by decide)
    rfl flat_kdata (by decide) hax hcpl hdescriptor
  have haccess : w.access DATA32_KSEGMENT = { s with
      regs := { s.regs with eax := DATA32_KSEGMENT.setWidth 32 }
      mem := s.mem.write8 (kdataMark gdt_start) (s.mem (kdataMark gdt_start) ||| 1) } := by
    have hmark : w.gdtr.mark DATA32_KSEGMENT = kdataMark gdt_start := by
      rw [hsame.1]
      rfl
    rw [Segmented.access, hmark, hsame.2, hw]
    rfl
  rw [gdt_reload, ← hw, ← haccess]
  exact ⟨t, hrun, ht⟩

/-- `kmain` is called with the registers on the stack; nothing else is written. -/
theorem callKmain_spec (hesp : s.regs.esp = stack_top - 4) (returnAddr : Addr) :
    (callKmain returnAddr s).toCpu.Stack
        [returnAddr, s.toCpu.top 0, s.regs.ebx, s.regs.edx] ∧
      (callKmain returnAddr s).regs.esp = stack_top - 16 ∧
      Mem.EqOn (fun x ↦ ¬ Mem.Range (stack_top - 16) 16 x) s.mem (callKmain returnAddr s).mem := by
  obtain ⟨a, ha⟩ : ∃ a : Cpu,
    a = ⟨{ s.regs with eax := s.toCpu.top 0, esp := s.regs.esp + 4 }, s.mem⟩ := ⟨_, rfl⟩
  have htop : a.regs.esp = stack_top := by
    rw [ha, hesp, BitVec.sub_add_cancel]
  have ht : (callKmain returnAddr s).toCpu =
      (((a.push s.regs.edx).push s.regs.ebx).push (s.toCpu.top 0)).push returnAddr := by
    rw [toCpu_callKmain, ha]
  have hpushed : Cpu.Pushed 16 a (callKmain returnAddr s).toCpu := by
    rw [ht]
    exact (((Cpu.Pushed.push a _).snoc _ (by decide)).snoc _ (by decide)).snoc _ (by decide)
  have haddr : stack_top - addr 16 = stack_top - 16 := rfl
  refine ⟨?_, ?_, fun x hx ↦ ?_⟩
  · rw [ht]
    exact ((((Cpu.Stack.nil a).push (by simp)).push (by simp)).push (by simp)).push (by simp)
  · rw [hpushed.esp, htop, haddr]
  · have hsame := hpushed.mem x
    rw [htop, haddr] at hsame
    rw [hsame hx, ha]

/-- The data descriptor behind its load. -/
def loadedDescriptors : List Descriptor := gdtDescriptors.set 2 0x00CF93000000FFFF

theorem GdtAt.kdata_unmarked (h : GdtAt m gdt_desc gdt_start) : m (kdataMark gdt_start) = 0x92 := by
  have hentry := h.entries 2 (by decide)
  have hfive := Mem.byteOf_readLE m (n := 8) (i := 5) (by decide) (gdt_start + addr (8 * 2))
  rw [hentry] at hfive
  exact hfive.symm

/-- The state between the loads and the call of `kmain`, from that in which the kernel was entered:
the multiboot flag is on top of the stack. -/
structure SegmentsLoaded (s v : Segmented) (stack_top gdt_start : Addr) : Prop where
  regs : v.regs = { s.regs with
    eax := DATA32_KSEGMENT.setWidth 32, esp := stack_top - 4, ebp := stack_top }
  top : v.toCpu.top 0 = s.regs.eax
  system : v.cr0 = s.cr0 ||| 1 ∧ v.interruptFlag = false ∧ v.gdtr = ⟨39, gdt_start⟩
  data : ∀ r, r ≠ .cs → v.selector r = DATA32_KSEGMENT ∧ v.kept r = some 0x00CF93000000FFFF
  code : v.cs = s.cs ∧ v.kept .cs = s.kept .cs
  table : TableAt loadedDescriptors v.mem gdt_start
  mem : Mem.EqOn (fun x ↦ ¬ Mem.Range (stack_top - 16) 16 x ∧ x ≠ kdataMark gdt_start) s.mem v.mem
  marked : v.mem (kdataMark gdt_start) = 0x93

/-- The first push is still there behind the mark in the table. -/
theorem top_of_marked {v : Segmented} (hapart : StackApart stack_top gdt_desc gdt_start)
    (hesp : v.regs.esp = stack_top - 4) {b : Byte} {w : BitVec 32}
    (hmem : v.mem = (m.write32 (stack_top - 4) w).write8 (kdataMark gdt_start) b) :
    v.toCpu.top 0 = w := by
  have hsame : ∀ i < 4, v.mem (stack_top - 4 + addr i) =
      m.write32 (stack_top - 4) w (stack_top - 4 + addr i) := by
    intro i hi
    rw [hmem]
    refine Mem.write8_of_ne fun heq ↦ hapart.mark ?_
    rw [← heq, Mem.Range]
    bv_omega
  rw [Cpu.top, hesp, BitVec.add_zero]
  exact (Mem.readLE_congr (n := 4) hsame).trans (Mem.readLE_writeLE (n := 4) m (by decide) _ _)

/-- `_start` up to the call. -/
theorem segmentsLoaded (hgdt : GdtAt s.mem gdt_desc gdt_start)
    (hapart : StackApart stack_top gdt_desc gdt_start) (hcpl : s.cpl = 0) :
    ∃ v, gdt_reload (setupKernel stack_top gdt_desc s) = .ok v ∧
      SegmentsLoaded s v stack_top gdt_start := by
  obtain ⟨u, hu⟩ : ∃ u, u = setupKernel stack_top gdt_desc s := ⟨_, rfl⟩
  have hoff : Mem.EqOn (fun x ↦ ¬ Mem.Range (stack_top - 16) 16 x) s.mem u.mem :=
    hu ▸ eqOn_setupKernel
  -- the table is read behind the first push
  have hgdt : GdtAt u.mem gdt_desc gdt_start := hgdt.of_stack hapart hoff
  have hgdtr : u.gdtr = ⟨39, gdt_start⟩ := by
    rw [← hgdt.gdtr, hu]
    rfl
  obtain ⟨v, hload, hv⟩ := gdt_reload_spec hgdt.entries hgdtr (hu ▸ hcpl)
  have hregs : v.regs = { s.regs with
      eax := DATA32_KSEGMENT.setWidth 32, esp := stack_top - 4, ebp := stack_top } := by
    rw [hv.toCpu, hu]
    rfl
  have hmark : v.mem = u.mem.write8 (kdataMark gdt_start) (u.mem (kdataMark gdt_start) ||| 1) := by
    rw [hv.toCpu]
  have hpushed : u.mem = s.mem.write32 (stack_top - 4) s.regs.eax := hu ▸ rfl
  rw [← hu]
  refine ⟨v, hload, hregs, top_of_marked (m := s.mem) hapart (by rw [hregs]) (hpushed ▸ hmark),
    ⟨hv.cr0.trans (hu ▸ rfl), hv.interruptFlag.trans (hu ▸ rfl), hv.gdtr.trans hgdtr⟩,
    fun r hr ↦ hv.loaded r ?_, ?_, ?_, fun x hx ↦ ?_, ?_⟩
  · cases r <;> simp at hr ⊢
  · obtain ⟨hloaded, hsame⟩ := hv.others .cs (by decide)
    exact ⟨hloaded.trans (hu ▸ rfl), hsame.trans (hu ▸ rfl)⟩
  · rw [hmark]
    exact hgdt.entries.mark (i := 2) rfl (by decide)
  · rw [hmark, Mem.write8_of_ne hx.2, hoff x hx.1]
  · rw [hmark, Mem.write8_self, hgdt.kdata_unmarked]
    rfl

/-- `_start` gets to `kmain`, with the registers on the stack. -/
theorem kernelStart_spec (hgdt : GdtAt s.mem gdt_desc gdt_start)
    (hapart : StackApart stack_top gdt_desc gdt_start) (hcpl : s.cpl = 0) (returnAddr : Addr) :
    ∃ t, kernelStart stack_top gdt_desc returnAddr s = .ok t ∧
      KernelEntered s t ⟨s.regs.eax, s.regs.ebx, s.regs.ecx, s.regs.edx⟩ stack_top gdt_start
        returnAddr := by
  obtain ⟨v, hload, hv⟩ := segmentsLoaded hgdt hapart hcpl
  obtain ⟨hstack, hesp, hoff⟩ := callKmain_spec (s := v) (by rw [hv.regs]) returnAddr
  rw [hv.top, hv.regs] at hstack
  -- the call changes the registers and the stack
  have hsegments : ∀ r, (callKmain returnAddr v).selector r = v.selector r ∧
      (callKmain returnAddr v).kept r = v.kept r := by
    intro r
    cases r <;> exact ⟨rfl, rfl⟩
  have htable : TableAt loadedDescriptors (callKmain returnAddr v).mem gdt_start :=
    hv.table.congr rfl fun x hx ↦ hoff x fun hstack ↦ hapart.entries x hstack hx
  have hgdtr : (callKmain returnAddr v).gdtr = ⟨39, gdt_start⟩ :=
    (show _ = v.gdtr from rfl).trans hv.system.2.2
  refine ⟨callKmain returnAddr v, ?_, hstack, hesp, congrArg Regs.ebp hv.regs, hv.system.1,
    hv.system.2.1, fun r hr ↦ ?_, hv.code, ?_, fun x hx ↦ ?_, ?_⟩
  · rw [kernelStart, hload]
    rfl
  · obtain ⟨hselector, hkept⟩ := hsegments r
    obtain ⟨hloaded, hdescriptor⟩ := hv.data r hr
    refine ⟨hselector.trans hloaded, _, ?_, hkept.trans hdescriptor, flat_kdata.access⟩
    rw [hgdtr]
    exact htable.descriptor (i := 2) rfl (by decide)
  · rw [hgdtr]
    exact htable.descriptor (i := 1) rfl (by decide)
  · rw [hoff x hx.1, hv.mem x hx]
  · rw [hoff _ hapart.mark, hv.marked]

/-- **From `jumpKernel` to `kmain`.**  From every state in which `_stage1Main` calls `jumpKernel`
with its stack in the lowest 64 KiB and in the code segment that stage1 has entered, and for every
kernel with its table in memory: it is jumped to `initAddr`, and `_start` calls `kmain` with the
arguments that `jumpKernel` stands for, with interrupts off and with flat data segments of the
kernel's table; the code segment is still stage1's, and is the one of the kernel's table, but that
it is marked as accessed.  The terminal of `kmain` has the cursor of stage1's. -/
theorem kernel_entered {s : Segmented} {ret initAddr mbInfo : BitVec 32}
    {terminal : FramebufferTerminal} (hterminal : terminal.Valid) {ws : List (BitVec 32)}
    (hstack : s.toCpu.Stack (ret :: initAddr :: mbInfo :: terminal.terminalIndex :: ws))
    (hesp : s.regs.esp.toNat + 16 ≤ 0x10000) (hcs : s.cs = CODE32_SEGMENT)
    (hcode : s.kept .cs = some 0x00CF9B000000FFFF) (hgdt : GdtAt s.mem gdt_desc gdt_start)
    (hapart : StackApart stack_top gdt_desc gdt_start) (returnAddr : Addr) :
    let jump := jumpKernelCode s.toSystem
    let entry := jumpKernel initAddr mbInfo terminal.terminalIndex
    jump.2 = initAddr ∧
      ∃ t, kernelStart stack_top gdt_desc returnAddr { s with toSystem := jump.1 } = .ok t ∧
        KernelEntered s t entry stack_top gdt_start returnAddr ∧
        (∃ d, t.gdtr.descriptor t.mem t.cs = .ok d ∧ t.kept .cs = some d.access) ∧
        kmainTerminal t.mem entry =
          (t.mem, { terminal with color := 0x07, fullLine := false }) := by
  intro jump entry
  obtain ⟨edi, hjump⟩ := jumpKernelCode_spec hstack hesp
  have hjump : jump = ({ s.toSystem with regs := { s.regs with
      eax := 0x2BADB003, ebx := mbInfo, ecx := initAddr, edx := terminal.terminalIndex
      edi := edi } }, initAddr) := hjump
  obtain ⟨r, hr⟩ : ∃ r : Segmented, r = { s with toSystem := jump.1 } := ⟨_, rfl⟩
  have hregs : r.regs.eax = entry.eax ∧ r.regs.ebx = entry.ebx ∧ r.regs.edx = entry.edx := by
    rw [hr, hjump]
    exact ⟨rfl, rfl, rfl⟩
  have hmem : r.mem = s.mem := by
    rw [hr, hjump]
  have hsame : r.cs = s.cs ∧ r.cr0 = s.cr0 ∧ r.kept = s.kept := by
    rw [hr, hjump]
    exact ⟨rfl, rfl, rfl⟩
  have hcpl : r.cpl = 0 := by
    rw [Segmented.cpl, hsame.1, hcs]
    rfl
  have hgdt : GdtAt r.mem gdt_desc gdt_start := hmem ▸ hgdt
  obtain ⟨t, hrun, ht⟩ := kernelStart_spec hgdt hapart hcpl returnAddr
  have hcs' : t.cs = CODE32_KSEGMENT := ht.code.1.trans (hsame.1.trans hcs)
  have hkept : t.kept .cs = some 0x00CF9B000000FFFF := by
    rw [ht.code.2, hsame.2.2, hcode]
  rw [← hr]
  refine ⟨by rw [hjump], t, hrun, ?_, ⟨0x00CF9A000000FFFF, hcs' ▸ ht.table, hkept⟩, ?_⟩
  · obtain ⟨heax, hebx, hedx⟩ := hregs
    refine ⟨?_, ht.esp, ht.ebp, ?_, ht.interruptFlag, ht.data, ?_, ht.table, hmem ▸ ht.mem,
      ht.marked⟩
    · rw [← heax, ← hebx, ← hedx]
      exact ht.stack
    · rw [ht.cr0, hsame.2.1]
    · rw [ht.code.1, ht.code.2, hsame.1, hsame.2.2]
      exact ⟨rfl, rfl⟩
  · exact kmain_restore t.mem hterminal initAddr mbInfo

/-- A call with the stack at `0x700`, and a kernel with its table at 2 MiB. -/
theorem kernel_entered_low :
    let m : Mem := (((((Mem.write16 (fun _ ↦ 0) 0x200100 39).write32 0x200102 0x200000).writeLE 8
      0x200008 0x00CF9A000000FFFF).writeLE 8 0x200010 0x00CF92000000FFFF).writeLE 8
      0x200018 0x00CFFA000000FFFF).writeLE 8 0x200020 0x008FF2000000FFFF
    let m := ((m.write32 0x704 0x100000).write32 0x708 0x8000).write32 0x70c 82
    let s : Segmented :=
      ⟨⟨⟨⟨0, 0, 0, 0, 0x700, 0, 0, 0⟩, m⟩, 1, 0x08, 0x10, 0x10, 0x10, 0x10, 0x10⟩,
        ⟨39, 0x1000⟩, fun _ ↦ some 0x00CF9B000000FFFF, true⟩
    ∃ t, kernelStart 0x204000 0x200100 0x100050
        { s with toSystem := (jumpKernelCode s.toSystem).1 } = .ok t ∧
      t.toCpu.Stack [0x100050, 0x2BADB003, 0x8000, 82] ∧ t.mem 0x200015 = 0x93 := by
  intro m m' s
  have hstack : s.toCpu.Stack [0, 0x100000, 0x8000, 82] := by
    rw [Cpu.Stack, words_cons, words_cons, words_cons, words_cons]
    exact ⟨by decide, by decide, by decide, by decide, words_nil _ _⟩
  have hgdt : GdtAt s.mem 0x200100 0x200000 := by
    have hentries : ∀ i : Fin 5, s.mem.readLE 8 (0x200000 + addr (8 * i)) = gdtDescriptors[i] := by
      decide
    exact ⟨by decide, by decide, fun i hi ↦ hentries ⟨i, hi⟩⟩
  have hapart : StackApart 0x204000 0x200100 0x200000 := by
    refine ⟨fun x hx hx' ↦ ?_, fun x hx hx' ↦ ?_⟩
    all_goals
      rw [Mem.Range] at hx hx'
      bv_omega
  have hterminal : FramebufferTerminal.Valid ⟨1, 2, 0x07, false, FRAMEBUFFER_LOCATION⟩ :=
    ⟨by decide, by decide, rfl⟩
  obtain ⟨-, t, hrun, ht, -⟩ := kernel_entered hterminal hstack (by decide) rfl rfl hgdt hapart
    0x100050
  exact ⟨t, hrun, ht.stack, ht.marked⟩

end RainbowOS
