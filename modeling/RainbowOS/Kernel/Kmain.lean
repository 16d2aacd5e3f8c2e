import RainbowOS.Heap.Entry
import RainbowOS.Kernel.AcpiReads
import RainbowOS.Kernel.Apic
import RainbowOS.Kernel.CheckCpuid
import RainbowOS.Kernel.IdtInit
import RainbowOS.Kernel.InterruptHandler
import RainbowOS.Lib.Telling

/-!
# The kernel: `kmain`

`kmain` sets up the terminal, a heap, the ACPI tables, the APICs and the interrupts, with a line on
the screen for each, and then interrupts itself.  Whatever it finds, it ends in a panic.

All the time it writes to the memory that it reads from: to the screen, to the headers of the heap,
to the table of interrupts and to its stack, and where the local APIC is thought to be.

`transcript` says what is to be on the screen in the end, from the memory as it was at the start.
-/

set_option autoImplicit false

namespace RainbowOS

open X86 FramebufferTerminal Acpi Apic

/-! ## The machine -/

/-- Why the kernel does not go on. -/
inductive KernelStop where
  /-- `hang()`. -/
  | hung
  /-- A null pointer was read through. -/
  | nullPointer
  /-- An access outside the bounds of an object. -/
  | outOfBounds
  /-- There is no gate for an interrupt, or no handler behind it. -/
  | faulted
  deriving DecidableEq, Repr

/-- The machine as the kernel sees it. -/
structure Kernel where
  console : Console
  msr : BitVec 32 → BitVec 64
  pics : Pic8259.Pair
  idtr : Idtr
  interruptFlag : Bool

/-- The processor. -/
structure Processor where
  cpuid : BitVec 32 → CpuidAnswer
  /-- The flags that can be written. -/
  writable : BitVec 32

/-- Where the compiler and the linker have put things. -/
structure KernelImage where
  /-- The string literals. -/
  lit : String → Addr
  /-- `&_endSymbol`. -/
  endSymbol : Addr
  /-- `__idt_table`. -/
  idt : Addr
  /-- `_handler<n>`. -/
  label : ℕ → Addr
  /-- The handler at an address. -/
  handlerAt : Addr → Option (HandlerMacro × ℕ)
  /-- The array of a number that `kmain` prints. -/
  array : Addr
  /-- The arrays of `interruptHandler`. -/
  msg : Addr
  tempNum : Addr
  numArray : Addr
  /-- The registers when `check_CPUID_available` is called, and the flags. -/
  checkRegs : Regs
  checkFlags : BitVec 32
  /-- The registers at the interrupt, and what it saves. -/
  intRegs : Regs
  intContext : Context
  returnErr : Addr
  returnNoErr : Addr

/-- A part of the kernel. -/
abbrev KernelRun (α : Type) : Type := Run KernelStop Kernel α

namespace Kernel

/-- The memory. -/
def mem (s : Kernel) : Mem := s.console.1

/-- With another memory. -/
def setMem (s : Kernel) (m : Mem) : Kernel := { s with console := (m, s.console.2) }

/-- The part of the machine that `init` works on. -/
def platform (s : Kernel) : Platform := ⟨s.mem, s.pics, s.idtr, s.interruptFlag⟩

/-- The machine with this part. -/
def setPlatform (s : Kernel) (p : Platform) : Kernel :=
  { s with console := (p.mem, s.console.2), pics := p.pics, idtr := p.idtr
           interruptFlag := p.interruptFlag }

end Kernel

/-! ## The functions -/

section

variable (fuel : ℕ) (image : KernelImage) (processor : Processor)

/-- A change of the machine. -/
def modifyKernel (f : Kernel → Kernel) : KernelRun Unit := fun s ↦ some (.ok (), f s)

/-- `out << …`. -/
def print (ops : List Insertion) : KernelRun Unit := fun s ↦
  (insertAll fuel ops s.console).map fun c ↦ (.ok (), { s with console := c })

/-- `out << s`, with a literal. -/
def printLine (line : String) : KernelRun Unit := print fuel [.str (image.lit line)]

/-- `initTerminal.setColor(fg, bg)`. -/
def setTerminalColor (fg bg : VgaColor) : KernelRun Unit :=
  modifyKernel fun s ↦
    { s with console :=
        (s.mem, { s.console.2 with backEnd := s.console.2.backEnd.setColor fg bg }) }

/-- `earlyPanic(message)`. -/
def panic {α : Type} (message : String) : KernelRun α := fun s ↦
  (earlyPanic fuel image.lit (image.lit message) s.console).map fun c ↦
    (.error .hung, { s with console := c })

/-- A part of the kernel that only reads the memory. -/
def reading {α : Type} (f : Mem → Option (Exec α)) : KernelRun α := fun s ↦
  match f s.mem with
  | none => none
  | some (.ok a) => some (.ok a, s)
  | some (.error (.earlyPanic message)) => panic fuel image message s
  | some (.error .nullPointer) => some (.error .nullPointer, s)
  | some (.error .outOfBounds) => some (.error .outOfBounds, s)

/-- The beginning of `kmain`: the terminal, and what is printed first. -/
def greet (entry : KernelEntry) : KernelRun Unit := do
  modifyKernel fun s ↦
    { s with console := ((kmainTerminal s.mem entry).1,
        (Outstream.init (kmainTerminal s.mem entry).2).hex) }
  setTerminalColor .lightGrey .blue
  printLine fuel image "Entering RainbowOS 32-bit protected mode kernel.bin\n"
  setTerminalColor .lightGrey .black

/-- The temporary heap. -/
def createHeap : KernelRun Unit := do
  print fuel [.str (image.lit "Creating a temporary heap at 0x"), .ptr image.endSymbol image.array,
    .str (image.lit " of size 4k\n")]
  modifyKernel fun s ↦ s.setMem (heapInitialize s.mem image.endSymbol (4 * 1024))

/-- The test for CPUID. -/
def checkCpuid : KernelRun Unit := do
  let available ← fun s ↦
    let t := check_CPUID_available processor.writable
      ⟨⟨image.checkRegs, s.mem⟩, image.checkFlags⟩
    some (.ok t.regs.eax, s.setMem t.mem)
  if available ≠ 0 then printLine fuel image "CPUID is supported\n"
  else panic fuel image "Error: CPUID is not supported, aborting!"

/-- The ACPI tables: the MADT, its entry for the I/O APIC, and the constructor of that, which looks
for the entry once more. -/
def findTables : KernelRun Unit := do
  let acpiHeader ← reading fuel image fun m ↦ some (acpi_header m)
  printLine fuel image
    (if acpiHeader.type2 then "We have a type 2 ACPI table\n" else "We have a type 1 ACPI table\n")
  let madt ← reading fuel image fun m ↦ acpi_madt fuel m acpiHeader
  let type1 ← reading fuel image fun m ↦ (getEntry fuel m madt 1).map .ok
  print fuel [.str (image.lit "Found type 1 MADT @ "),
    .num .uint32 (type1.getD 0) image.array, .str (image.lit "\n")]
  let _ ← reading fuel image fun m ↦ io_apic fuel m madt
  printLine fuel image "IO APIC is good\n"

/-- The local APIC. -/
def enableLocalApic : KernelRun Unit := do
  let reg ← reading fuel image fun _ ↦ some (l_apic processor.cpuid)
  modifyKernel fun s ↦
    let t := enable ⟨s.mem, s.msr⟩ reg
    { s.setMem t.mem with msr := t.msr }
  printLine fuel image "Enabled local APIC\n"

/-- `idt.init()`. -/
def initIdt : KernelRun Unit :=
  modifyKernel fun s ↦ s.setPlatform
    (((InterruptDescriptorTable.new image.idt).init image.label).foldl (Action.exec image.idt)
      s.platform)

/-- `int $v`: the way through the gate to `interruptHandler`. -/
def raise (v : BitVec 8) : KernelRun Unit := fun s ↦
  match (s.platform.gate v).bind fun gate ↦ image.handlerAt gate.2 with
  | none => some (.error .faulted, s)
  | some handler =>
    -- the state in which the function is called does not depend on what it does
    let run := handlerCode id image.returnErr image.returnNoErr handler
      ((⟨image.intRegs, s.mem⟩ : X86.Cpu).interrupt image.intContext none)
    (interruptHandler fuel image.lit image.msg image.tempNum image.numArray
        (readIsrFrame run.called.mem (run.called.regs.esp + 4)) (run.called.mem, s.console.2)).map
      fun
      | .returned c => (.ok (), { s with console := c })
      | .hung c => (.error .hung, { s with console := c })

/-- `kmain(multiboot_flag, info, terminalIndex)`, with the arguments in the registers that
`_start` pushes.  It does not return. -/
def kmain (entry : KernelEntry) : KernelRun Empty := do
  greet fuel image entry
  createHeap fuel image
  checkCpuid fuel image processor
  findTables fuel image
  enableLocalApic fuel image processor
  printLine fuel image "Attempting to enable interrupts\n"
  initIdt image
  printLine fuel image "Are they enabled?...\n"
  raise fuel image 0x34
  panic fuel image "Shouldn't be seeing this!!!"

end

/-! ## What it is to show -/

/-- How the kernel ends. -/
inductive Verdict where
  /-- With this message. -/
  | panic (message : List Byte)
  | stopped (stop : KernelStop)

/-- What is read, and how the kernel ends if that is not good. -/
def asked {α : Type} : Option (Exec α) → Telling Byte Verdict α
  | none => none
  | some (.ok a) => some ([], .ok a)
  | some (.error (.earlyPanic message)) => some ([], .error (.panic (ascii message)))
  | some (.error .nullPointer) => some ([], .error (.stopped .nullPointer))
  | some (.error .outOfBounds) => some ([], .error (.stopped .outOfBounds))

open Telling

/-- What `createHeap` tells. -/
def heapTold (endSymbol : Addr) : Telling Byte Verdict Unit :=
  tell (rendered 16 [.text (ascii "Creating a temporary heap at 0x"),
    .num (endSymbol.signExtend 64).toNat, .text (ascii " of size 4k\n")])

/-- What `checkCpuid` tells. -/
def cpuidTold (processor : Processor) : Telling Byte Verdict Unit :=
  if processor.writable.getLsbD 21 then tell (ascii "CPUID is supported\n")
  else verdict (.panic (ascii "Error: CPUID is not supported, aborting!"))

/-- What `findTables` tells, where `m` is the memory as it is found. -/
def tablesTold (fuel : ℕ) (m : Mem) : Telling Byte Verdict Unit := do
  let acpiHeader ← asked (some (acpi_header m))
  tell (ascii
    (if acpiHeader.type2 then "We have a type 2 ACPI table\n" else "We have a type 1 ACPI table\n"))
  let madt ← asked (acpi_madt fuel m acpiHeader)
  let type1 ← asked ((getEntry fuel m madt 1).map .ok)
  tell (rendered 16 [.text (ascii "Found type 1 MADT @ "), .num (type1.getD 0).toNat,
    .text (ascii "\n")])
  let _ ← asked (io_apic fuel m madt)
  tell (ascii "IO APIC is good\n")

/-- What `enableLocalApic` tells. -/
def apicTold (processor : Processor) : Telling Byte Verdict Unit := do
  let _ ← asked (some (l_apic processor.cpuid))
  tell (ascii "Enabled local APIC\n")

/-- What `kmain` prints behind its first line, and how it ends, where `m` is the memory as it is
found. -/
def transcript (fuel : ℕ) (endSymbol : Addr) (processor : Processor) (m : Mem) :
    Telling Byte Verdict Empty := do
  heapTold endSymbol
  cpuidTold processor
  tablesTold fuel m
  apicTold processor
  tell (ascii "Attempting to enable interrupts\n")
  tell (ascii "Are they enabled?...\n")
  some (infoLine 16 0x34, .error (.panic (ascii "Interrupt called with vector 34")))

/-- The colour of the lines: light grey on black. -/
def lineColor : Byte := 0x07

/-- The colour of the first line: light grey on blue. -/
def bannerColor : Byte := 0x17

/-- The sheet behind the first line, which is in a colour of its own. -/
def banner (m : Mem) (entry : KernelEntry) : Sheet.Grid (BitVec 16) :=
  let start := kmainTerminal m entry
  let first := layOut bannerColor (ascii "Entering RainbowOS 32-bit protected mode kernel.bin\n")
    ((sheet start.1 start.2).reblank 25 (cellWord 0x20 bannerColor))
  first.reblank 25 (cellWord 0x20 lineColor)

end RainbowOS
