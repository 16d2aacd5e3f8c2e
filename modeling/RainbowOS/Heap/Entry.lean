import RainbowOS.Exec
import RainbowOS.Lib.Loop
import RainbowOS.Lib.Memory

/-!
# The early heap: `mem::heapEntry`, `kalloc` and `kfree`

The heap is a chain of headers inside the memory it manages.  A header is eight bytes on i386: the
`_next` pointer and, in the byte behind it, the one-bit field `_flags.reserved`.  What is behind a
header up to the next one is its data.  The functions below read and write these bytes in the
memory of the machine, in the order in which the source does, so a header that is written over
another one damages it here as it does there.

The recursions of `allocate` and `defragment` and the loop of `kfree` follow the chain and end only
if it does, so they are loops in the sense of `Lib/Loop.lean`: `kalloc fuel` and `kfree fuel` give
`none` when `fuel` rounds were not enough.
-/

set_option autoImplicit false

namespace RainbowOS

/-- `sizeof(mem::heapEntry)` on i386: a pointer, a one-bit field and padding. -/
def heapEntry_headerSize : BitVec 32 := 8

namespace HeapEntry

/-! ## The fields of a header -/

/-- `_next`. -/
def next (m : Mem) (this : Addr) : Addr := m.read32 this

/-- `_flags.reserved`, bit 0 of the byte behind `_next`. -/
def reserved (m : Mem) (this : Addr) : Bool := (m (this + 4)).getLsbD 0

/-- `_next = p`. -/
def setNext (m : Mem) (this p : Addr) : Mem := m.write32 this p

/-- `_flags.reserved = r`: the other bits of the byte stay as they are. -/
def setReserved (m : Mem) (this : Addr) (r : Bool) : Mem :=
  m.write8 (this + 4) ((m (this + 4) &&& 0xfe) ||| (BitVec.ofBool r).setWidth 8)

/-- `init(next)`: an entry is reserved exactly if it is the last one. -/
def init (m : Mem) (this p : Addr) : Mem := setNext (setReserved m this (p == 0)) this p

/-- `getSize()`, in the modular arithmetic of `size_t`. -/
def getSize (m : Mem) (this : Addr) : BitVec 32 := next m this - this - heapEntry_headerSize

/-- `getDataPtr()`. -/
def getDataPtr (this : Addr) : Addr := this + heapEntry_headerSize

/-- `isLast()`. -/
def isLast (m : Mem) (this : Addr) : Bool := next m this == 0

/-! ## Allocating and freeing -/

/-- The splitting step of `allocate`: a new header right behind the `size` bytes handed out. -/
def split (m : Mem) (this : Addr) (size : BitVec 32) : Mem :=
  let newEntry := getDataPtr this + size
  init (setNext m this newEntry) newEntry (next m this)

/-- The end of `allocate`, once this entry is known to be free and large enough.  The comparison
is the source's: it subtracts the available size from the requested one. -/
def take (m : Mem) (this : Addr) (size : BitVec 32) : Mem :=
  let m' := if heapEntry_headerSize + 4 < size - getSize m this then split m this size else m
  setReserved m' this true

/-- One activation of `allocate`: give up, hand out this entry, or go on to the next one. -/
def allocateStep (size : BitVec 32) : Mem × Addr → LoopStep (Mem × Addr) (Mem × Addr)
  | (m, this) =>
    if next m this = 0 then .done (m, 0)
    else if reserved m this || decide (getSize m this < size) then .next (m, next m this)
    else .done (take m this size, getDataPtr this)

/-- `heapEntry::allocate(size)`; the pointer is null when no entry is large enough. -/
def allocate (fuel : ℕ) (m : Mem) (this : Addr) (size : BitVec 32) : Option (Mem × Addr) :=
  Loop.run (allocateStep size) fuel (m, this)

/-- One activation of `defragment`: absorb the next entry if it is free. -/
def defragmentStep (this : Addr) (m : Mem) : LoopStep Mem Mem :=
  if reserved m (next m this) then .done m else .next (setNext m this (next m (next m this)))

/-- `heapEntry::defragment()`. -/
def defragment (fuel : ℕ) (m : Mem) (this : Addr) : Option Mem :=
  Loop.run (defragmentStep this) fuel m

/-- `heapEntry::free()`. -/
def free (fuel : ℕ) (m : Mem) (this : Addr) : Option Mem :=
  defragment fuel (setReserved m this false) this

end HeapEntry

open HeapEntry

/-- `kalloc(size)`, for the heap that starts at `heap`. -/
def kalloc (fuel : ℕ) (m : Mem) (heap : Addr) (size : BitVec 32) : Option (Mem × Addr) :=
  allocate fuel m heap size

/-- One round of the search in `kfree`: the entry whose data starts at `ptr`, if there is one. -/
def kfreeStep (m : Mem) (ptr : Addr) (it : Addr) : LoopStep Addr (Option Addr) :=
  if isLast m it then .done none
  else if getDataPtr it = ptr then .done (some it)
  else .next (next m it)

/-- `kfree(ptr)`, for the heap that starts at `heap`, with the memory that it leaves. -/
def kfree (fuel : ℕ) (m : Mem) (heap ptr : Addr) : Option (Exec Unit × Mem) := do
  match ← Loop.run (kfreeStep m ptr) fuel heap with
  | some it => return (.ok (), ← HeapEntry.free fuel m it)
  | none => return (.error (.earlyPanic "kfree: no such memory address!"), m)

/-- The address `heapInitialize` gives to `heapEnd`. -/
def heapEnd (ptr : Addr) (maxSize : BitVec 32) : Addr := ptr + maxSize - heapEntry_headerSize

/-- `mem::heapInitialize(ptr, maxSize)`: one free entry from `ptr` to the end marker. -/
def heapInitialize (m : Mem) (ptr : Addr) (maxSize : BitVec 32) : Mem :=
  init (init m ptr (heapEnd ptr maxSize)) (heapEnd ptr maxSize) 0

end RainbowOS
