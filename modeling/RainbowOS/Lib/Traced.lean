import RainbowOS.Lib.Memory

/-!
# A memory and the accesses made to it

What a program reads cannot be seen in the memory it leaves.  `Traced` is a memory together with the
addresses of all bytes that have been read or written so far; a program is written on it with loads
and stores in the place of the reads and writes of the memory.

`Traced.Accesses P g f` says that `f` is such a form of `g` and accesses bytes of `P` only.  Its
rules follow the way programs are put together: `Accesses.comp`, `Accesses.foldl` for loops, and one
for each kind of access.
-/

set_option autoImplicit false

universe u

/-- A memory, and the addresses of the bytes that have been accessed. -/
structure Traced where
  mem : Mem
  log : List Addr

namespace Traced

/-- Read a byte. -/
def load8 (s : Traced) (a : Addr) : Byte × Traced := (s.mem a, { s with log := a :: s.log })

/-- Store a byte. -/
def store8 (s : Traced) (a : Addr) (v : Byte) : Traced := ⟨s.mem.write8 a v, a :: s.log⟩

/-- Store a 16-bit value. -/
def store16 (s : Traced) (a : Addr) (v : BitVec 16) : Traced :=
  ⟨s.mem.write16 a v, (a + 1) :: a :: s.log⟩

/-- `f` does to the memory what `g` does, and the bytes it accesses are all in `P`. -/
structure Accesses (P : Addr → Prop) (g : Mem → Mem) (f : Traced → Traced) : Prop where
  mem : ∀ s, (f s).mem = g s.mem
  log : ∀ s, (∀ a ∈ s.log, P a) → ∀ a ∈ (f s).log, P a

variable {P : Addr → Prop} {g g' : Mem → Mem} {f f' : Traced → Traced} {a b : Addr}

theorem Accesses.id : Accesses P id id := ⟨fun _ ↦ rfl, fun _ h ↦ h⟩

theorem Accesses.comp (h' : Accesses P g' f') (h : Accesses P g f) :
    Accesses P (fun m ↦ g' (g m)) (fun s ↦ f' (f s)) :=
  ⟨fun s ↦ (h'.mem (f s)).trans (congrArg g' (h.mem s)), fun s hs ↦ h'.log (f s) (h.log s hs)⟩

/-- A loop accesses what its rounds access. -/
theorem Accesses.foldl {ι : Type u} {g : Mem → ι → Mem} {f : Traced → ι → Traced} {l : List ι}
    (h : ∀ i ∈ l, Accesses P (g · i) (f · i)) : Accesses P (l.foldl g) (l.foldl f) := by
  induction l with
  | nil => exact .id
  | cons i l ih =>
    obtain ⟨hi, hl⟩ := List.forall_mem_cons.mp h
    exact (ih hl).comp hi

/-- A byte is copied from `a` to `b`. -/
theorem Accesses.copy8 (ha : P a) (hb : P b) :
    Accesses P (fun m ↦ m.write8 b (m a)) (fun s ↦ (s.load8 a).2.store8 b (s.load8 a).1) :=
  ⟨fun _ ↦ rfl, fun _ hs ↦ List.forall_mem_cons.mpr ⟨hb, List.forall_mem_cons.mpr ⟨ha, hs⟩⟩⟩

theorem Accesses.store16 (ha : P a) (ha' : P (a + 1)) (v : BitVec 16) :
    Accesses P (·.write16 a v) (·.store16 a v) :=
  ⟨fun _ ↦ rfl, fun _ hs ↦ List.forall_mem_cons.mpr ⟨ha', List.forall_mem_cons.mpr ⟨ha, hs⟩⟩⟩

end Traced
