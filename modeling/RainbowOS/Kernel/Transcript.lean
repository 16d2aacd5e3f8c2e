import RainbowOS.Kernel.Kmain

/-!
# The parts of `kmain`

`kmain` against its `transcript`: what it prints depends on the memory as it was when the kernel was
entered, for what it writes is apart from what it reads.

* `KernelMap` — the assumptions on the memory.
* `follows_print`, `follows_reading`, `follows_panic` and so on — what a part of `kmain` is made of
  does what the transcript says of it.
* `follows_createHeap`, `follows_checkCpuid`, `follows_findTables`, `follows_enableLocalApic`,
  `follows_raise`, `said_greet`, `said_initIdt` — the parts.
-/

set_option autoImplicit false

namespace RainbowOS

open X86 FramebufferTerminal Acpi Apic Telling

/-! ## The memory -/

/-- The string literals. -/
def kernelStrings : List String :=
  ["Entering RainbowOS 32-bit protected mode kernel.bin\n", "Creating a temporary heap at 0x",
    " of size 4k\n", "CPUID is supported\n", "Error: CPUID is not supported, aborting!",
    "In kernel::acpi::apicHeader() constructor: Error: Could not find the XSDP, aborting",
    "We have a type 2 ACPI table\n", "We have a type 1 ACPI table\n",
    "In kernel::acpi::apicHeader::findEntry(): Error: Input string has invalid size",
    "In kernel::acpi::acpiMadt constructor: Error: No MADT was found", "Found type 1 MADT @ ", "\n",
    "In kernel::cpu::io_apic constructor: Error: Couldn't find a MADT type 1 entry!",
    "IO APIC is good\n", "In kernel::cpu::l_apic constructor: Error: No APIC present!",
    "Enabled local APIC\n", "Attempting to enable interrupts\n", "Are they enabled?...\n",
    "Warning: Spurious interrupt caught\n", " INFO: Interrupt called with vector 0x",
    "earlyPanic(): "]

/-- The messages of the panics in `kmain` and in the constructors. -/
def kernelPanics : List String :=
  ["Error: CPUID is not supported, aborting!",
    "In kernel::acpi::apicHeader() constructor: Error: Could not find the XSDP, aborting",
    "In kernel::acpi::acpiMadt constructor: Error: No MADT was found",
    "In kernel::cpu::io_apic constructor: Error: Couldn't find a MADT type 1 entry!",
    "In kernel::cpu::l_apic constructor: Error: No APIC present!"]

theorem mem_strings_of_mem_panics {message : String} (h : message ∈ kernelPanics) :
    message ∈ kernelStrings := by
  simp only [kernelPanics, List.mem_cons, List.not_mem_nil, or_false] at h
  rcases h with rfl | rfl | rfl | rfl | rfl <;> simp [kernelStrings]

/-- How the constructors may stop. -/
def Stop.Expected : Stop → Prop
  | .earlyPanic message => message ∈ kernelPanics
  | .nullPointer => True
  | .outOfBounds => False

/-- How the kernel may end. -/
def Verdict.Expected : Verdict → Prop
  | .panic message =>
    ∃ t, (t ∈ kernelPanics ∨ t = "Interrupt called with vector 34") ∧ message = ascii t
  | .stopped stop => stop = .nullPointer

/-- Where things are in memory, and that they are apart from each other: besides the screen, the
kernel writes to its arrays, its stack, the headers of its heap and its table of interrupts, and two
bytes that it takes for a register of the local APIC; the strings and the tables of the firmware are
not among them. -/
structure KernelMap (fuel : ℕ) (image : KernelImage) (processor : Processor)
    (touched : Addr → Prop) (m : Mem) : Prop where
  fuel_gt : 64 < fuel
  writable : Writable processor.writable
  strings : ∀ t ∈ kernelStrings, Literal fuel touched m (image.lit t) (ascii t)
  tables : TablesApart (fun x ↦ touched x ∨ ¬ OffScreen x) m
  array : InScratch touched image.array MAX_NUM_STR_SIZE
  arrays : Arrays touched image.msg image.tempNum image.numArray
  firstHeader : InScratch touched image.endSymbol 8
  lastHeader : InScratch touched (heapEnd image.endSymbol (4 * 1024)) 8
  checkStack : InScratch touched (image.checkRegs.esp - 4) 4
  intStack : InScratch touched (image.intRegs.esp - addr 56) 56
  gates : ∀ v, InScratch touched (descriptorAddr image.idt v) 8
  /-- The word that is taken for the base register of the local APIC. -/
  base : ∀ i < 4, OffScreen ((processor.cpuid 1).eax + addr i) ∧
    ¬ touched ((processor.cpuid 1).eax + addr i)
  register : InScratch touched (regPtr m (processor.cpuid 1).eax) 2
  handlerAt : image.handlerAt (image.label 0x34) = handlerOf 0x34

variable {fuel : ℕ} {image : KernelImage} {processor : Processor} {touched : Addr → Prop}
  {m₀ : Mem} {sht : Sheet.Grid (BitVec 16)} {Keep : Kernel → Prop}

/-- The lines are on the screen, behind what was there. -/
def Said (touched : Addr → Prop) (m₀ : Mem) (sht : Sheet.Grid (BitVec 16)) (Keep : Kernel → Prop)
    (log : List Byte) (s : Kernel) : Prop :=
  Printing touched m₀ lineColor (layOut lineColor log sht) 16 s.console ∧ Keep s

/-- The kernel has ended, in the right way. -/
def Ended (sht : Sheet.Grid (BitVec 16)) (log : List Byte) :
    Verdict → KernelStop → Kernel → Prop
  | .panic message, stop, s => stop = .hung ∧
      Shows s.mem s.console.2.backEnd (panicSheet lineColor message (layOut lineColor log sht))
  | .stopped stop', stop, s => stop = stop' ∧
      Shows s.mem s.console.2.backEnd (layOut lineColor log sht)

/-- Nothing in particular. -/
def Anything : Kernel → Prop := fun _ ↦ True

/-! ## The parts -/

/-- Scratch memory may be written at any time. -/
theorem Said.write {log : List Byte} {s t : Kernel} {Keep' : Kernel → Prop}
    (hs : Said touched m₀ sht Keep log s) (hout : t.console.2 = s.console.2)
    (hm : ∀ x, ¬ (touched x ∧ OffScreen x) → t.mem x = s.mem x) (hkeep : Keep' t) :
    Said touched m₀ sht Keep' log t := by
  have hprinting := hs.1.write hm
  rw [← hout] at hprinting
  exact ⟨hprinting, hkeep⟩

theorem follows_print {ops : List Insertion} {ps : List Piece} (hfuel : 64 < fuel)
    (hops : List.Forall₂ (Denotes fuel touched m₀) ops ps)
    (hbase : ps.foldl Piece.baseAfter 16 = 16) :
    Run.Follows (Said touched m₀ sht Anything) (Said touched m₀ sht Anything) (Ended sht)
      (print fuel ops) (tell (rendered 16 ps)) := by
  intro log s hs
  obtain ⟨c, hrun, hc⟩ := hs.1.insertAll hops hfuel
  rw [← layOut_append, hbase] at hc
  exact ⟨{ s with console := c }, by rw [print, hrun]; rfl, hc, trivial⟩

/-- A literal is printed, and nothing is written but the screen. -/
theorem printLine_eq {color : Byte} {s : Kernel} {line : String}
    (hs : Printing touched m₀ color sht 16 s.console)
    (hline : Literal fuel touched m₀ (image.lit line) (ascii line)) :
    ∃ t, printLine fuel image line s = some (.ok (), t) ∧
      Printing touched m₀ color (layOut color (ascii line) sht) 16 t.console ∧
      t.platform = { s.platform with mem := t.mem } ∧ ∀ x, OffScreen x → t.mem x = s.mem x := by
  have hexec := writeString_eq hs.shows.valid (hs.literal hline)
    (fun i hi ↦ hline.offScreen i (Nat.le_of_lt hi)) hline.length_lt
  have hsaid := hs.writeString hline.legible
  have hoff := eqOff_writeString s.console.1 hs.shows.valid (ascii line)
  generalize FramebufferTerminal.writeString s.console.1 s.console.2.backEnd (ascii line) = r
    at hexec hsaid hoff
  refine ⟨{ s with console := (r.1, { s.console.2 with backEnd := r.2 }) }, ?_, hsaid, rfl, hoff⟩
  rw [printLine, print, insertAll]
  change Option.map _ ((Outstream.writeString fuel _ s.console).bind _) = _
  rw [hexec]
  rfl

theorem follows_printLine (hmap : KernelMap fuel image processor touched m₀) {line : String}
    (hline : line ∈ kernelStrings) :
    Run.Follows (Said touched m₀ sht Anything) (Said touched m₀ sht Anything) (Ended sht)
      (printLine fuel image line) (tell (ascii line)) := by
  intro log s hs
  obtain ⟨t, hrun, hsaid, -⟩ := printLine_eq hs.1 (hmap.strings line hline)
  rw [← layOut_append] at hsaid
  exact ⟨t, hrun, hsaid, trivial⟩

theorem follows_panic {α : Type} {After : List Byte → Kernel → Prop}
    (hmap : KernelMap fuel image processor touched m₀) {message : String}
    (hmessage : message ∈ kernelStrings) :
    Run.Follows (Said touched m₀ sht Keep) After (Ended sht) (panic (α := α) fuel image message)
      (some ([], .error (.panic (ascii message)))) := by
  intro log s hs
  have hliteral := hmap.strings message hmessage
  obtain ⟨c, hrun, hc⟩ := hs.1.earlyPanic (hmap.strings "earlyPanic(): " (by simp [kernelStrings]))
    (hs.1.literal hliteral) hliteral.legible hliteral.offScreen hliteral.length_lt
  refine ⟨.hung, { s with console := c }, by rw [panic, hrun]; rfl, rfl, ?_⟩
  rw [List.append_nil]
  exact hc.shows

/-- **What is read** is what was there in the beginning. -/
theorem follows_reading {α : Type} (hmap : KernelMap fuel image processor touched m₀)
    {f : Mem → Option (Exec α)}
    (hf : ∀ m, (∀ x, ¬ (touched x ∨ ¬ OffScreen x) → m x = m₀ x) → f m = f m₀)
    (hstop : ∀ stop, f m₀ = some (.error stop) → stop.Expected) :
    Run.Follows (Said touched m₀ sht Anything) (Said touched m₀ sht Anything) (Ended sht)
      (reading fuel image f) (asked (f m₀)) := by
  intro log s hs
  have hsame : f s.mem = f m₀ := hf s.mem fun x hx ↦ by
    obtain ⟨htouched, hoff⟩ := not_or.mp hx
    exact hs.1.frame x ⟨not_not.mp hoff, htouched⟩
  cases hread : f m₀ with
  | none =>
    change reading fuel image f s = none
    rw [reading, hsame, hread]
  | some r =>
    cases r with
    | ok a =>
      refine ⟨s, by rw [reading, hsame, hread], ?_⟩
      rw [List.append_nil]
      exact hs
    | error stop =>
      cases stop with
      | earlyPanic message =>
        have hpanic : Run.Follows (Said touched m₀ sht Anything) (Said touched m₀ sht Anything)
            (Ended sht) (panic (α := α) fuel image message)
            (some ([], .error (.panic (ascii message)))) :=
          follows_panic hmap (mem_strings_of_mem_panics (hstop _ hread))
        have hpanic := hpanic log s hs
        have hrun : reading fuel image f s = panic fuel image message s := by
          rw [reading, hsame, hread]
        rw [← hrun] at hpanic
        exact hpanic
      | nullPointer =>
        refine ⟨.nullPointer, s, by rw [reading, hsame, hread], rfl, ?_⟩
        rw [List.append_nil]
        exact hs.1.shows
      | outOfBounds => exact (hstop _ hread).elim

/-! ## The heap -/

theorem eqOn_heapEntry_init (m : Mem) (this p : Addr) :
    Mem.EqOn (fun x ↦ ¬ Mem.Range this 8 x) m (HeapEntry.init m this p) := by
  have hflags : ∀ x, Mem.Range (this + 4) 1 x → Mem.Range this 8 x := fun x hx ↦
    Mem.Range.of_part (j := 4) hx (by decide) (by decide)
  have hnext : ∀ x, Mem.Range this 4 x → Mem.Range this 8 x := fun x hx ↦
    Nat.lt_of_lt_of_le hx (by decide)
  have hreserved : Mem.EqOn (fun x ↦ ¬ Mem.Range this 8 x) m
      (HeapEntry.setReserved m this (p == 0)) := by
    rw [HeapEntry.setReserved]
    exact Mem.eqOn_write fun x hx ↦ not_not.mpr (hflags x hx)
  rw [HeapEntry.init, HeapEntry.setNext]
  exact hreserved.trans (Mem.eqOn_write fun x hx ↦ not_not.mpr (hnext x hx))

theorem eqOn_heapInitialize (m : Mem) (p : Addr) (maxSize : BitVec 32) :
    Mem.EqOn (fun x ↦ ¬ (Mem.Range p 8 x ∨ Mem.Range (heapEnd p maxSize) 8 x)) m
      (heapInitialize m p maxSize) :=
  ((eqOn_heapEntry_init m p _).mono fun _ hx h ↦ hx (.inl h)).trans
    ((eqOn_heapEntry_init _ _ _).mono fun _ hx h ↦ hx (.inr h))

theorem follows_createHeap (hmap : KernelMap fuel image processor touched m₀) :
    Run.Follows (Said touched m₀ sht Anything) (Said touched m₀ sht Anything) (Ended sht)
      (createHeap fuel image) (heapTold image.endSymbol) := by
  refine Run.follows_then_silent (follows_print hmap.fuel_gt
    (.cons (.str (hmap.strings "Creating a temporary heap at 0x" (by simp [kernelStrings])))
      (.cons (.ptr image.endSymbol hmap.array)
        (.cons (.str (hmap.strings " of size 4k\n" (by simp [kernelStrings]))) .nil))) rfl)
    fun log s hs ↦ ⟨_, rfl, hs.write rfl (fun x hx ↦ ?_) trivial⟩
  refine eqOn_heapInitialize s.mem image.endSymbol (4 * 1024) x fun h ↦ hx ?_
  exact h.elim (hmap.firstHeader x) (hmap.lastHeader x)

/-! ## CPUID -/

theorem follows_checkCpuid (hmap : KernelMap fuel image processor touched m₀) :
    Run.Follows (Said touched m₀ sht Anything) (Said touched m₀ sht Anything) (Ended sht)
      (checkCpuid fuel image processor) (cpuidTold processor) := by
  intro log s hs
  obtain ⟨t, ht⟩ : ∃ t, t = check_CPUID_available processor.writable
    ⟨⟨image.checkRegs, s.mem⟩, image.checkFlags⟩ := ⟨_, rfl⟩
  obtain ⟨hanswer, -, hbalanced⟩ := check_CPUID_available_spec hmap.writable
    ⟨⟨image.checkRegs, s.mem⟩, image.checkFlags⟩
  rw [← ht] at hanswer hbalanced
  have hsaid : Said touched m₀ sht Anything log (s.setMem t.mem) :=
    hs.write rfl (fun x hx ↦ hbalanced.mem x fun h ↦ hx (hmap.checkStack x h)) trivial
  have hrun : checkCpuid fuel image processor s =
      (if t.regs.eax ≠ 0 then printLine fuel image "CPUID is supported\n"
        else panic fuel image "Error: CPUID is not supported, aborting!") (s.setMem t.mem) := by
    rw [ht]
    rfl
  rw [hrun, hanswer, cpuidTold]
  cases processor.writable.getLsbD 21 with
  | true =>
    have hline : "CPUID is supported\n" ∈ kernelStrings := by simp [kernelStrings]
    exact follows_printLine hmap hline log _ hsaid
  | false =>
    have hmessage : "Error: CPUID is not supported, aborting!" ∈ kernelStrings := by
      simp [kernelStrings]
    exact follows_panic hmap hmessage log _ hsaid

/-! ## The tables -/

theorem expected_of_acpi_header {stop : Stop} (h : acpi_header m₀ = .error stop) :
    stop.Expected := by
  rw [acpi_header] at h
  obtain ⟨f, hfirst, hsearch⟩ | ⟨-, hnull⟩ := searchRSDPDesc_spec m₀
  · obtain ⟨b, hb, -⟩ := checkRSDPDesc_spec (ne_zero_of_searched hfirst.searched) hfirst.signature
    have hfind : findRSDPDesc m₀ = .ok (if !b then 0 else f) := by
      rw [findRSDPDesc, hsearch, hb]
      rfl
    rw [hfind] at h
    generalize (if !b then 0 else f) = p at h
    have h : (if p = 0 then .error (.earlyPanic _) else .ok ⟨p, revision m₀ p == 2⟩ :
      Exec AcpiHeader) = .error stop := h
    split at h
    · obtain rfl := Except.error.inj h
      simp [Stop.Expected, kernelPanics]
    · cases h
  · rw [findRSDPDesc_of_null hnull] at h
    obtain rfl : Stop.nullPointer = stop := Except.error.inj h
    trivial

/-- The search for the MADT does not stop. -/
theorem findEntry_ok {this : AcpiHeader} {found : Exec Addr}
    (h : findEntry fuel m₀ this [0x41, 0x50, 0x49, 0x43, 0] = some found) : ∃ r, found = .ok r := by
  have hname : strlen [0x41, 0x50, 0x49, 0x43, 0] = .ok 4 := rfl
  obtain ⟨r, -, hrun⟩ := findEntry_run m₀ this hname
  have hlarge := hrun _ (Nat.lt_succ_self _)
  rw [findEntry_eq_run hname] at h hlarge
  have hsame := Loop.Returns.unique ⟨fuel, h⟩ ⟨_, hlarge⟩
  exact ⟨r, hsame⟩

theorem expected_of_acpi_madt {this : AcpiHeader} {stop : Stop}
    (h : acpi_madt fuel m₀ this = some (.error stop)) : stop.Expected := by
  rw [acpi_madt] at h
  obtain ⟨found, hfound, hmadt⟩ := Option.map_eq_some_iff.mp h
  obtain ⟨r, rfl⟩ := findEntry_ok hfound
  have hmadt : (if r = 0 then .error (.earlyPanic _) else .ok r : Exec Addr) = .error stop := hmadt
  split at hmadt
  · obtain rfl := Except.error.inj hmadt
    simp [Stop.Expected, kernelPanics]
  · cases hmadt

theorem expected_of_io_apic {madt : Addr} {stop : Stop}
    (h : io_apic fuel m₀ madt = some (.error stop)) : stop.Expected := by
  rw [io_apic] at h
  obtain ⟨entry, -, hentry⟩ := Option.map_eq_some_iff.mp h
  cases entry with
  | none =>
    obtain rfl := Except.error.inj hentry
    simp [Stop.Expected, kernelPanics]
  | some entry => cases hentry

theorem expected_of_l_apic {cpuid : BitVec 32 → CpuidAnswer} {stop : Stop}
    (h : l_apic cpuid = .error stop) : stop.Expected := by
  rw [l_apic] at h
  split at h
  · obtain rfl := Except.error.inj h
    simp [Stop.Expected, kernelPanics]
  · cases h

/-- There is an entry or there is none. -/
theorem ne_error_of_getEntry {madt : Addr} {stop : Stop} :
    (getEntry fuel m₀ madt 1).map Except.ok ≠ some (.error stop) := by
  intro h
  obtain ⟨entry, -, hentry⟩ := Option.map_eq_some_iff.mp h
  cases hentry

theorem ok_of_asked {α : Type} {r : Option (Exec α)} {a : α} {log : List Byte}
    (h : asked r = some (log, .ok a)) : r = some (.ok a) := by
  obtain _ | ((_ | _ | _) | a') := r
  · cases h
  · cases h
  · cases h
  · cases h
  · obtain ⟨-, ha⟩ := Prod.mk.inj (Option.some.inj h)
    rw [Except.ok.inj ha]

theorem follows_findTables (hmap : KernelMap fuel image processor touched m₀) :
    Run.Follows (Said touched m₀ sht Anything) (Said touched m₀ sht Anything) (Ended sht)
      (findTables fuel image) (tablesTold fuel m₀) := by
  rw [findTables, tablesTold]
  refine Run.follows_bind (follows_reading hmap (fun m hm ↦ ?_) fun _ hstop ↦
    expected_of_acpi_header (Option.some.inj hstop))
    fun _ this hthis ↦ ?_
  · rw [(hmap.tables.congr hm).1]
  have hheader : acpi_header m₀ = .ok this := Option.some.inj (ok_of_asked hthis)
  refine Run.follows_bind (follows_printLine hmap ?_) fun _ _ _ ↦ ?_
  · split
    · simp [kernelStrings]
    · simp [kernelStrings]
  refine Run.follows_bind (follows_reading hmap (fun m hm ↦ ?_) fun _ ↦ expected_of_acpi_madt)
    fun _ madt hmadt ↦ ?_
  · exact ((hmap.tables.congr hm).2 this hheader fuel).1
  have hentry : ∀ m, (∀ x, ¬ (touched x ∨ ¬ OffScreen x) → m x = m₀ x) →
      getEntry fuel m madt 1 = getEntry fuel m₀ madt 1 := fun m hm ↦
    ((hmap.tables.congr hm).2 this hheader fuel).2 madt (ok_of_asked hmadt)
  refine Run.follows_bind (follows_reading hmap (fun m hm ↦ ?_)
    fun _ hstop ↦ absurd hstop ne_error_of_getEntry) fun _ type1 _ ↦ ?_
  · rw [hentry m hm]
  refine Run.follows_bind (follows_print hmap.fuel_gt
    (.cons (.str (hmap.strings "Found type 1 MADT @ " (by simp [kernelStrings])))
      (.cons (.num .uint32 (type1.getD 0) hmap.array)
        (.cons (.str (hmap.strings "\n" (by simp [kernelStrings]))) .nil))) rfl) fun _ _ _ ↦ ?_
  refine Run.follows_bind (follows_reading hmap (fun m hm ↦ ?_) fun _ ↦ expected_of_io_apic)
    fun _ _ _ ↦ ?_
  · rw [io_apic, hentry m hm, ← io_apic]
  · exact follows_printLine hmap (by simp [kernelStrings])

/-! ## The local APIC -/

/-- The register is where it would have been in the beginning. -/
theorem regPtr_congr (hmap : KernelMap fuel image processor touched m₀) {m : Mem}
    (hm : ∀ x, OffScreen x ∧ ¬ touched x → m x = m₀ x) :
    regPtr m (processor.cpuid 1).eax = regPtr m₀ (processor.cpuid 1).eax := by
  have hbase : m.read32 (processor.cpuid 1).eax = m₀.read32 (processor.cpuid 1).eax :=
    Mem.readLE_congr (n := 4) fun i hi ↦ hm _ (hmap.base i hi)
  rw [regPtr, regPtr, lapicReg, lapicReg, hbase]

theorem follows_enableLocalApic (hmap : KernelMap fuel image processor touched m₀) :
    Run.Follows (Said touched m₀ sht Anything) (Said touched m₀ sht Anything) (Ended sht)
      (enableLocalApic fuel image processor) (apicTold processor) := by
  rw [enableLocalApic, apicTold]
  refine Run.follows_bind (follows_reading hmap (fun m hm ↦ rfl) fun _ hstop ↦
    expected_of_l_apic (Option.some.inj hstop)) fun _ reg hreg ↦ ?_
  have hreg : l_apic processor.cpuid = .ok reg := Option.some.inj (ok_of_asked hreg)
  obtain rfl : (processor.cpuid 1).eax = reg := by
    rw [l_apic] at hreg
    split at hreg
    · cases hreg
    · exact Except.ok.inj hreg
  refine Run.follows_bind_of_silent (fun log s hs ↦ ⟨_, rfl, hs.write rfl (fun x hx ↦ ?_) trivial⟩)
    (follows_printLine hmap (by simp [kernelStrings]))
  have hptr : regPtr s.mem (processor.cpuid 1).eax = regPtr m₀ (processor.cpuid 1).eax :=
    regPtr_congr hmap fun x hx ↦ hs.1.frame x hx
  refine enable_frame ⟨s.mem, s.msr⟩ (processor.cpuid 1).eax x fun h ↦ hx ?_
  rw [hptr] at h
  exact hmap.register x h

/-! ## The interrupt -/

/-- The table is installed. -/
def Gated (image : KernelImage) (s : Kernel) : Prop :=
  s.idtr = ⟨0xfff, image.idt⟩ ∧
    GateFor s.mem (descriptorAddr image.idt 0x34) (image.label 0x34) 0

theorem said_initIdt (hmap : KernelMap fuel image processor touched m₀) {log : List Byte}
    {s : Kernel} (hs : Said touched m₀ sht Anything log s) :
    ∃ t, initIdt image s = some (.ok (), t) ∧ Said touched m₀ sht (Gated image) log t := by
  obtain ⟨trace, htrace⟩ : ∃ trace, trace =
    ((InterruptDescriptorTable.new image.idt).init image.label).map Event.kernel := ⟨_, rfl⟩
  have hactions : actions trace = (InterruptDescriptorTable.new image.idt).init image.label := by
    rw [htrace, actions, List.filterMap_map]
    exact List.filterMap_some
  obtain ⟨p, hp⟩ : ∃ p, p = trace.foldl (Event.exec image.idt) s.platform := ⟨_, rfl⟩
  have hfold : ((InterruptDescriptorTable.new image.idt).init image.label).foldl
      (Action.exec image.idt) s.platform = p := by
    rw [hp, htrace, List.foldl_map]
    rfl
  have hmem := foldl_of_owns (owns_mem image.idt) trace s.platform
  have hidtr := foldl_of_owns (owns_idtr image.idt) trace s.platform
  rw [hactions, called_init, ← hp] at hmem
  rw [hactions, loaded_init, ← hp] at hidtr
  have hmem : p.mem = installCalls s.mem image.idt (allCalls image.label) := hmem
  refine ⟨s.setPlatform p, ?_, hs.write rfl (fun x hx ↦ ?_) ⟨hidtr, ?_⟩⟩
  · rw [initIdt, modifyKernel, hfold]
  · change p.mem x = _
    rw [hmem]
    refine eqOn_installCalls (P := fun x ↦ ∀ v, ¬ Mem.Range (descriptorAddr image.idt v) 8 x) s.mem
      image.idt (fun c _ _ hx ↦ hx c.vector) x fun v hv ↦ hx (hmap.gates v x hv)
  · have hgate := gate_installAll image.label s.mem image.idt 0x34
    rw [installAll_eq, stubAddr_eq, ← hmem] at hgate
    exact hgate

/-- A line leaves the table alone. -/
theorem follows_printLine_gated (hmap : KernelMap fuel image processor touched m₀) {line : String}
    (hline : line ∈ kernelStrings) :
    Run.Follows (Said touched m₀ sht (Gated image)) (Said touched m₀ sht (Gated image)) (Ended sht)
      (printLine fuel image line) (tell (ascii line)) := by
  intro log s hs
  obtain ⟨hidtr, hgate⟩ := hs.2
  obtain ⟨t, hrun, hsaid, hplatform, hmem⟩ := printLine_eq hs.1 (hmap.strings line hline)
  rw [← layOut_append] at hsaid
  refine ⟨t, hrun, hsaid, ?_, hgate.congr fun x hx ↦ hmem x (hmap.gates 0x34 x hx).2⟩
  exact (congrArg Platform.idtr hplatform).trans hidtr

/-- **The interrupt** ends in a panic that names it. -/
theorem follows_raise (hmap : KernelMap fuel image processor touched m₀)
    {After : List Byte → Kernel → Prop} :
    Run.Follows (Said touched m₀ sht (Gated image)) After (Ended sht) (raise fuel image 0x34)
      (some (infoLine 16 0x34, .error (.panic (ascii "Interrupt called with vector 34")))) := by
  intro log s hs
  obtain ⟨hidtr, hgate⟩ := hs.2
  have hgate : s.platform.gate 0x34 = some (CODE32_KSEGMENT, image.label 0x34) :=
    gate_of_gateFor hidtr hgate
  have hhandler : (s.platform.gate 0x34).bind (fun gate ↦ image.handlerAt gate.2) =
      some (.noErr, 0x34) := by
    rw [hgate]
    exact hmap.handlerAt.trans (handlerOf_eq 0x34)
  obtain ⟨t, ht⟩ : ∃ t, t = (((⟨image.intRegs, s.mem⟩ : X86.Cpu).interrupt image.intContext
    none).push 0).push 0x34 := ⟨_, rfl⟩
  obtain ⟨run, hrun⟩ : ∃ run, run = handlerStub id image.returnNoErr t := ⟨_, rfl⟩
  have hpushed : X86.Cpu.Pushed 56 ⟨image.intRegs, s.mem⟩ run.called := by
    rw [hrun, ht]
    exact pushed_called id image.returnNoErr (pushed_noErr _ _ _) (by decide)
  have hnumber : (readIsrFrame run.called.mem (run.called.regs.esp + 4)).intNumber = 0x34 := by
    have hentered := stubEntered_noErr ⟨image.intRegs, s.mem⟩ image.intContext 0x34
    rw [← ht] at hentered
    obtain ⟨⟨esp, hframe⟩, -⟩ :=
      @StubEntered.run _ id image.returnNoErr image.intContext t 0x34 0 hentered
    rw [hrun, hframe]
  have hprinting : Printing touched m₀ lineColor (layOut lineColor log sht) 16
      (run.called.mem, s.console.2) :=
    hs.1.write fun x hx ↦ hpushed.mem x fun h ↦ hx (hmap.intStack x h)
  have hhandlerStrings : ∀ t ∈ handlerStrings, Literal fuel touched m₀ (image.lit t) (ascii t) := by
    intro t ht
    refine hmap.strings t ?_
    rw [handlerStrings] at ht
    simp only [List.mem_cons, List.not_mem_nil, or_false] at ht
    rcases ht with rfl | rfl | rfl | rfl <;> simp [kernelStrings]
  obtain ⟨-, hother⟩ := hprinting.interruptHandler hhandlerStrings hmap.arrays hmap.fuel_gt
    (readIsrFrame run.called.mem (run.called.regs.esp + 4))
  rw [hnumber] at hother
  obtain ⟨c, hhung, hc⟩ := hother (by decide)
  have htext : vectorText 0x34 = ascii "Interrupt called with vector 34" := by decide
  rw [htext, ← layOut_append] at hc
  refine ⟨.hung, { s with console := c }, ?_, rfl, hc.shows⟩
  have hcode : handlerCode id image.returnErr image.returnNoErr (.noErr, 0x34)
      ((⟨image.intRegs, s.mem⟩ : X86.Cpu).interrupt image.intContext none) = run := by
    rw [hrun, ht]
    rfl
  rw [raise, hhandler]
  dsimp only
  rw [hcode, hhung]
  rfl

/-! ## The first line -/

theorem shows_kmainTerminal (m : Mem) (entry : KernelEntry) :
    Shows (kmainTerminal m entry).1 (kmainTerminal m entry).2
        (sheet (kmainTerminal m entry).1 (kmainTerminal m entry).2) ∧
      Mem.EqOff m (kmainTerminal m entry).1 0xb8000 0xb8fa0 := by
  rw [kmainTerminal]
  dsimp only
  split
  · exact ⟨shows_sheet _ (valid_setCursor valid_new _ _), .refl _ _ _⟩
  · refine ⟨shows_sheet _ valid_new, ?_⟩
    rw [clear, List.range_eq_range']
    exact eqOff_clearRows m rfl (by decide)

theorem said_greet (hmap : KernelMap fuel image processor touched m₀) (entry : KernelEntry)
    {s : Kernel} (hs : s.mem = m₀) : ∃ t, greet fuel image entry s = some (.ok (), t) ∧
      Said touched m₀ (banner m₀ entry) Anything [] t := by
  obtain ⟨hshows, hoff⟩ := shows_kmainTerminal m₀ entry
  obtain ⟨r, hr⟩ : ∃ r, r = kmainTerminal m₀ entry := ⟨_, rfl⟩
  rw [← hr] at hshows hoff
  have hstart : Printing touched m₀ r.2.color (sheet r.1 r.2) 16 (r.1, (Outstream.init r.2).hex) :=
    ⟨hshows, rfl, rfl, by decide, by decide, fun x hx ↦ hoff x hx.1⟩
  have hblue := hstart.setColor .lightGrey .blue
  obtain ⟨t, ht⟩ : ∃ t : Kernel, t = { s with console :=
    (r.1, { (Outstream.init r.2).hex with backEnd := r.2.setColor .lightGrey .blue }) } := ⟨_, rfl⟩
  have hline : "Entering RainbowOS 32-bit protected mode kernel.bin\n" ∈ kernelStrings := by
    simp [kernelStrings]
  have hblue : Printing touched m₀ bannerColor
      ((sheet r.1 r.2).reblank 25 (cellWord 0x20 bannerColor)) 16 t.console := by
    rw [ht]
    exact hblue
  obtain ⟨u, hrun, hu, -⟩ := printLine_eq hblue (hmap.strings _ hline)
  have hgrey := hu.setColor .lightGrey .black
  refine ⟨{ u with console := (u.mem, { u.console.2 with
    backEnd := u.console.2.backEnd.setColor .lightGrey .black }) }, ?_, ?_, trivial⟩
  · have hfirst : modifyKernel (fun s ↦ { s with console := ((kmainTerminal s.mem entry).1,
        (Outstream.init (kmainTerminal s.mem entry).2).hex) }) s =
        some (.ok (), { s with console := (r.1, (Outstream.init r.2).hex) }) := by
      rw [modifyKernel, hs, hr]
    have hsecond : setTerminalColor .lightGrey .blue
        { s with console := (r.1, (Outstream.init r.2).hex) } = some (.ok (), t) := by
      rw [ht]
      rfl
    rw [greet, Run.bind_of_ok hfirst, Run.bind_of_ok hsecond, Run.bind_of_ok hrun]
    rfl
  · rw [banner, ← hr]
    exact hgrey

end RainbowOS
