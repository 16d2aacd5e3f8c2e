import RainbowOS.Exec
import RainbowOS.Lib.Loop
import RainbowOS.Lib.Run
import RainbowOS.Lib.Transition
import RainbowOS.Lib.Memory
import RainbowOS.Lib.FirstFit
import RainbowOS.Lib.Sheet
import RainbowOS.Heap.Entry
import RainbowOS.Heap.Chain
import RainbowOS.Heap.Safety
import RainbowOS.Heap.Fragmentation
import RainbowOS.StdlibC.Memmove
import RainbowOS.Terminal.Basic
import RainbowOS.Terminal.Refinement
import RainbowOS.Terminal.Handover
import RainbowOS.Terminal.Scroll
import RainbowOS.Lib.Traced
import RainbowOS.Terminal.Accesses
import RainbowOS.Terminal.FullLine
import RainbowOS.EarlyLib.MemoryDetection
import RainbowOS.Boot.Multiboot
import RainbowOS.Fat32.Layout
import RainbowOS.Fat32.Driver
import RainbowOS.Fat32.Mount
import RainbowOS.Fat32.ClusterLoop
import RainbowOS.Fat32.Directory
import RainbowOS.Fat32.Search
import RainbowOS.Fat32.OutOfMemory
import RainbowOS.Fat32.Contents
import RainbowOS.Fat32.ReadFile
import RainbowOS.Fat32.LoaderHeap
import RainbowOS.Boot.Elf
import RainbowOS.Boot.Stage1
import RainbowOS.Fat32.Ready
import RainbowOS.Boot.ElfTable
import RainbowOS.Boot.ElfLoad
import RainbowOS.Heap.Calls
import RainbowOS.EarlyLib.DiskRead
import RainbowOS.Kernel.Interrupts
import RainbowOS.EarlyLib.RealMode
import RainbowOS.Fat32.DataRegion
import RainbowOS.Fat32.DirectoryList
import RainbowOS.Fat32.Lookup
import RainbowOS.EarlyLib.UpperMemory
import RainbowOS.Boot.MultibootRequests
import RainbowOS.Kernel.Rsdp
import RainbowOS.EarlyLib.BiosCalls
import RainbowOS.StdlibC.Compare
import RainbowOS.Kernel.AcpiTables
import RainbowOS.Kernel.Madt
import RainbowOS.Lib.BitField
import RainbowOS.Kernel.Idt
import RainbowOS.Kernel.Apic
import RainbowOS.Klib.Xtoa
import RainbowOS.Klib.Decimal
import RainbowOS.Lib.Lexicographic
import RainbowOS.StdlibC.Strcmp
import RainbowOS.Fat32.ShortName
import RainbowOS.Fat32.Addressing
import RainbowOS.Lib.Board
import RainbowOS.Boot.A20
import RainbowOS.Boot.Stage0
import RainbowOS.Boot.Stage1Entry
import RainbowOS.Boot.Startup
import RainbowOS.Terminal.Output
import RainbowOS.Klib.Outstream
import RainbowOS.Kernel.InterruptHandler
import RainbowOS.Lib.Interleave
import RainbowOS.Lib.Pic8259
import RainbowOS.Kernel.IdtInit
import RainbowOS.Kernel.AcpiReads
import RainbowOS.Kernel.CheckCpuid
import RainbowOS.Lib.Telling
import RainbowOS.Kernel.Kmain
import RainbowOS.Kernel.Transcript
import RainbowOS.Kernel.Shown
import RainbowOS.Lib.Segment
import RainbowOS.Kernel.Entry
