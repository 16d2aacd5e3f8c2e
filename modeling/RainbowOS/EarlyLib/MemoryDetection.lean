import RainbowOS.Exec
import RainbowOS.Lib.Memory

/-!
# The BIOS memory map: `mem::queryUpperMemory`

The loader asks the BIOS for its memory map one record at a time.  Each call of `int 15h` writes a
record of 24 bytes at `%es:%di`, and `queryUpperMemory` points `%es:%di` at the next free element of
an array of `mmap_structure_entry`.  The element begins with a field of its own, `entry_length`,
and has 28 bytes, so the record does not land on the fields it is meant for.

* `queryUpperMemory_spec` — the elements hold the kept records one behind the other, each at the
  very beginning of its element, and nothing is written at offset 24 of an element.
* `mmap_faithful_iff` — an element reads as its record exactly if the record's six words and the
  word that the heap block held behind it are all equal.
-/

set_option autoImplicit false

namespace RainbowOS

/-! ## Layouts -/

/-- A record of the BIOS: 24 bytes. -/
structure E820Record where
  base : BitVec 64
  length : BitVec 64
  type : BitVec 32
  attributes : BitVec 32
  deriving DecidableEq, Repr

/-- The six 32-bit words of a record. -/
def E820Record.word (r : E820Record) : ℕ → BitVec 32
  | 0 => r.base.extractLsb' 0 32
  | 1 => r.base.extractLsb' 32 32
  | 2 => r.length.extractLsb' 0 32
  | 3 => r.length.extractLsb' 32 32
  | 4 => r.type
  | _ => r.attributes

/-- The BIOS writes the 24 bytes of the record at `p`. -/
def E820Record.store (r : E820Record) (m : Mem) (p : Addr) : Mem :=
  m.write p 24 fun i ↦ Mem.byteOf (r.word (i / 4)) (i % 4)

/-- `struct mmap_structure_entry`. -/
structure MmapStructureEntry where
  entry_length : BitVec 32
  base_addr : BitVec 64
  length : BitVec 64
  type : BitVec 32
  acpi_3_0_extended : BitVec 32
  deriving DecidableEq, Repr

/-- `sizeof(mmap_structure_entry)` on i386, where 8-byte integers are aligned to 4. -/
def sizeof_mmap_structure_entry : ℕ := 28

/-- Read the structure at `p`. -/
def readEntry (m : Mem) (p : Addr) : MmapStructureEntry where
  entry_length := m.read32 p
  base_addr := m.read64 (p + 4)
  length := m.read64 (p + 12)
  type := m.read32 (p + 20)
  acpi_3_0_extended := m.read32 (p + 24)

/-! ## The query -/

/-- What a call of `int 15h` with `%eax = 0xE820` gives back. -/
structure Int15Answer where
  /-- The record written at `%es:%di`. -/
  record : E820Record
  eax : BitVec 32
  /-- The continuation value; zero after the last record. -/
  ebx : BitVec 32
  /-- The number of bytes that mean something. -/
  ecx : BitVec 32
  /-- The carry flag. -/
  carry : Bool
  deriving DecidableEq, Repr

/-- The record's place in memory: 16-bit registers, shifted and added by the processor. -/
def realModeAddr (segment offset : BitVec 32) : Addr :=
  (segment.setWidth 16).setWidth 32 * 16 + (offset.setWidth 16).setWidth 32

/-- `asmCall_int15`, as far as memory is concerned. -/
def asmCall_int15 (m : Mem) (offset segment : BitVec 32) (ans : Int15Answer) : Mem :=
  ans.record.store m (realModeAddr segment offset)

/-- `maxSize` of `queryUpperMemory`. -/
def mmapMaxSize : ℕ := 100

/-- `mmapPtr + k`. -/
def mmapElem (mmapPtr : Addr) (k : ℕ) : Addr := mmapPtr + addr (sizeof_mmap_structure_entry * k)

/-- `eaxSignature`. -/
def eaxSignature : BitVec 32 := 0x534D4150

/-- The loop of `queryUpperMemory`, on the answers still to come; `none` when the BIOS goes on
beyond them. -/
def queryUpperMemoryLoop (mmapPtr : Addr) : List Int15Answer → Mem → ℕ → Option (Exec (Mem × ℕ))
  | [], _, _ => none
  | ans :: rest, m, size =>
    let currPtr := mmapElem mmapPtr size
    let offset := currPtr % 16
    let segment := (currPtr - offset) / 16
    let m := asmCall_int15 m offset segment ans
    if ans.carry then some (.error (.earlyPanic "queryUpperMemory(): Failure! Carry was set"))
    else if ans.eax ≠ eaxSignature then
      some (.error (.earlyPanic "queryUpperMemory(): Failure! %eax is different than signature"))
    else
      let keep := decide (ans.ecx ≤ 20) || (readEntry m currPtr).acpi_3_0_extended &&& 1 == 0
      let size := if keep then size + 1 else size
      if mmapMaxSize ≤ size then
        some (.error (.earlyPanic "queryUpperMemory(): Failure! List got a little too big"))
      else if ans.ebx ≠ 0 then queryUpperMemoryLoop mmapPtr rest m size
      else some (.ok (m, size))

/-- `queryUpperMemory()`, for the array that `new` allocated at `mmapPtr`: the memory afterwards
and the number of elements.  Whoever owns the array's block is the heap's business and does not
show here. -/
def queryUpperMemory (m : Mem) (mmapPtr : Addr) (answers : List Int15Answer) :
    Option (Exec (Mem × ℕ)) :=
  queryUpperMemoryLoop mmapPtr answers m 0

/-- `getUpperMemorySize(ptr)`: the lengths of the first `n` elements added up, or 0 if the sum does
not fit. -/
def getUpperMemorySize (m : Mem) (mmapPtr : Addr) (n : ℕ) : BitVec 32 :=
  ((List.range n).foldl (fun finalSize k ↦ finalSize.bind fun s ↦
    let test : BitVec 64 := s.setWidth 64 + (readEntry m (mmapElem mmapPtr k)).length
    if 0xffffffff < test then none else some (test.setWidth 32)) (some (0 : BitVec 32))).getD 0

/-- If the query fails, it panics. -/
theorem queryUpperMemoryLoop_error {mmapPtr : Addr} {answers : List Int15Answer} {m : Mem}
    {size : ℕ} {stop : Stop}
    (h : queryUpperMemoryLoop mmapPtr answers m size = some (.error stop)) : stop.IsPanic := by
  induction answers generalizing m size with
  | nil => cases h
  | cons ans rest ih =>
    rw [queryUpperMemoryLoop] at h
    grind [Stop.IsPanic]

/-! ## Where the records go -/

theorem E820Record.base_eq (r : E820Record) : r.base = r.word 1 ++ r.word 0 :=
  (@BitVec.extractLsb'_append_extractLsb' 32 32 r.base).symm

theorem E820Record.length_eq (r : E820Record) : r.length = r.word 3 ++ r.word 2 :=
  (@BitVec.extractLsb'_append_extractLsb' 32 32 r.length).symm

variable {m m' : Mem} {mmapPtr p : Addr} {r : E820Record}

/-- A stored record, word by word. -/
theorem E820Record.read32_store (r : E820Record) (m : Mem) (p : Addr) {i : ℕ} (hi : i < 6) :
    (r.store m p).read32 (p + addr (4 * i)) = r.word i := by
  refine BitVec.eq_of_getLsbD_eq fun j hj ↦ ?_
  rw [Mem.getLsbD_readLE _ (n := 4) _ hj, add_addr_addr, store,
    Mem.write_add (by omega) (by omega), Mem.getLsbD_byteOf _ _ _ (Nat.mod_lt j (by omega)),
    show (4 * i + j / 8) / 4 = i by omega, show 8 * ((4 * i + j / 8) % 4) + j % 8 = j by omega]

/-- Storing a record changes its 24 bytes only. -/
theorem E820Record.read32_store_of_disjoint (r : E820Record) (m : Mem) {p q : Addr}
    (hp : p.toNat + 24 ≤ 2 ^ 32) (hq : q.toNat + 4 ≤ 2 ^ 32)
    (h : q.toNat + 4 ≤ p.toNat ∨ p.toNat + 24 ≤ q.toNat) :
    (r.store m p).read32 q = m.read32 q :=
  Mem.readLE_write_of_disjoint (n := 24) (k := 4) (Mem.disjoint_of_le hp hq h.symm)

/-- The record goes to the element: below 1 MiB the real-mode address is the pointer. -/
theorem realModeAddr_eq {p : Addr} (hp : p.toNat < 2 ^ 20) :
    realModeAddr ((p - p % 16) / 16) (p % 16) = p := by
  obtain ⟨o, ho⟩ : ∃ o, o = p % 16 := ⟨_, rfl⟩
  have hon : o.toNat = p.toNat % 16 := by rw [ho]; exact BitVec.toNat_umod
  obtain ⟨s, hs⟩ : ∃ s, s = (p - o) / 16 := ⟨_, rfl⟩
  have hsn : s.toNat = p.toNat / 16 := by
    rw [hs, BitVec.toNat_udiv, show (16 : BitVec 32).toNat = 16 from rfl]
    have : (p - o).toNat = p.toNat - p.toNat % 16 := by bv_omega
    omega
  rw [← ho, ← hs, realModeAddr]
  bv_omega

theorem toNat_mmapElem {k : ℕ} (hlow : mmapPtr.toNat + 2800 ≤ 0x70000) (hk : k < 100) :
    (mmapElem mmapPtr k).toNat = mmapPtr.toNat + 28 * k := by
  rw [mmapElem, sizeof_mmap_structure_entry]
  bv_omega

/-- Is the answer kept?  `w` is the word at offset 24 of the element it would go to. -/
def Int15Answer.Kept (ans : Int15Answer) (w : BitVec 32) : Bool :=
  decide (ans.ecx ≤ 20) || w &&& 1 == 0

/-- The records of the answers that are kept, in order; `pad k` is the word at offset 24 of element
`k`, and the next element free is number `size`. -/
def keptRecords (pad : ℕ → BitVec 32) : List Int15Answer → ℕ → List E820Record
  | [], _ => []
  | ans :: rest, size =>
    let more := fun size ↦ if ans.ebx ≠ 0 then keptRecords pad rest size else []
    if ans.Kept (pad size) then ans.record :: more (size + 1) else more size

/-- The word that the heap block holds at offset 24 of element `k`. -/
def padWord (m : Mem) (mmapPtr : Addr) (k : ℕ) : BitVec 32 := m.read32 (mmapElem mmapPtr k + 24)

/-- The call of the BIOS that fills element `size`. -/
theorem asmCall_int15_eq (hlow : mmapPtr.toNat + 2800 ≤ 0x70000) {size : ℕ} (hsize : size < 100)
    (ans : Int15Answer) :
    asmCall_int15 m (mmapElem mmapPtr size % 16)
        ((mmapElem mmapPtr size - mmapElem mmapPtr size % 16) / 16) ans
      = ans.record.store m (mmapElem mmapPtr size) := by
  have helem := toNat_mmapElem hlow hsize
  rw [asmCall_int15, realModeAddr_eq (by omega)]

/-- The words of the other elements, and the word behind the record, are not written. -/
theorem read32_store_elem (hlow : mmapPtr.toNat + 2800 ≤ 0x70000) {size k i : ℕ}
    (hsize : size < 100) (hk : k < 100) (hi : i ≤ 6) (h : k ≠ size ∨ i = 6) (r : E820Record) :
    (r.store m (mmapElem mmapPtr size)).read32 (mmapElem mmapPtr k + addr (4 * i))
      = m.read32 (mmapElem mmapPtr k + addr (4 * i)) := by
  have hs := toNat_mmapElem hlow hsize
  have hk := toNat_mmapElem hlow hk
  have hki : (mmapElem mmapPtr k + addr (4 * i)).toNat = mmapPtr.toNat + 28 * k + 4 * i := by
    bv_omega
  refine r.read32_store_of_disjoint m ?_ ?_ ?_ <;> omega

/-- What a call keeps in the array: the words `pad` behind the records. -/
def PadsAre (m : Mem) (mmapPtr : Addr) (pad : ℕ → BitVec 32) : Prop :=
  ∀ k < mmapMaxSize, padWord m mmapPtr k = pad k

theorem PadsAre.store {pad : ℕ → BitVec 32} (hpad : PadsAre m mmapPtr pad)
    (hlow : mmapPtr.toNat + 2800 ≤ 0x70000) {size : ℕ} (hsize : size < 100) (r : E820Record) :
    PadsAre (r.store m (mmapElem mmapPtr size)) mmapPtr pad := fun k hk ↦
  (read32_store_elem (i := 6) hlow hsize hk (Nat.le_refl 6) (.inr rfl) r).trans (hpad k hk)

/-- **A round of the loop**, at an element of the array: what decides is the word behind the
record. -/
theorem queryUpperMemoryLoop_cons {pad : ℕ → BitVec 32} (hlow : mmapPtr.toNat + 2800 ≤ 0x70000)
    {size : ℕ} (hsize : size < 100) (hpad : PadsAre m mmapPtr pad) (ans : Int15Answer)
    (rest : List Int15Answer) :
    queryUpperMemoryLoop mmapPtr (ans :: rest) m size =
      let m := ans.record.store m (mmapElem mmapPtr size)
      let size := if ans.Kept (pad size) then size + 1 else size
      if ans.carry then some (.error (.earlyPanic "queryUpperMemory(): Failure! Carry was set"))
      else if ans.eax ≠ eaxSignature then
        some (.error (.earlyPanic
          "queryUpperMemory(): Failure! %eax is different than signature"))
      else if mmapMaxSize ≤ size then
        some (.error (.earlyPanic "queryUpperMemory(): Failure! List got a little too big"))
      else if ans.ebx ≠ 0 then queryUpperMemoryLoop mmapPtr rest m size
      else some (.ok (m, size)) := by
  have hpad' := hpad.store hlow hsize ans.record size hsize
  have hkeep : (decide (ans.ecx ≤ 20) || (readEntry (ans.record.store m (mmapElem mmapPtr size))
      (mmapElem mmapPtr size)).acpi_3_0_extended &&& 1 == 0) = ans.Kept (pad size) := by
    rw [Int15Answer.Kept, ← hpad']
    rfl
  rw [queryUpperMemoryLoop]
  dsimp only
  rw [asmCall_int15_eq hlow hsize, hkeep]

/-- What a round has done that did not fail: the record is in the array, and the loop goes on or has
been left, with a number of elements that is still small enough. -/
theorem queryUpperMemoryLoop_cons_ok {pad : ℕ → BitVec 32}
    (hlow : mmapPtr.toNat + 2800 ≤ 0x70000) {ans : Int15Answer} {rest : List Int15Answer}
    {size n : ℕ} (hsize : size < 100) (hpad : PadsAre m mmapPtr pad)
    (hret : queryUpperMemoryLoop mmapPtr (ans :: rest) m size = some (.ok (m', n))) :
    ∃ m₁ size', m₁ = ans.record.store m (mmapElem mmapPtr size) ∧
      size' = (if ans.Kept (pad size) then size + 1 else size) ∧ size' < 100 ∧
      (ans.ebx ≠ 0 ∧ queryUpperMemoryLoop mmapPtr rest m₁ size' = some (.ok (m', n)) ∨
        ans.ebx = 0 ∧ m₁ = m' ∧ size' = n) := by
  rw [queryUpperMemoryLoop_cons hlow hsize hpad] at hret
  dsimp only at hret
  refine ⟨_, _, rfl, rfl, ?_⟩
  by_cases hcarry : ans.carry = true
  · simp [hcarry] at hret
  by_cases heax : ans.eax ≠ eaxSignature
  · simp [hcarry, heax] at hret
  rw [if_neg hcarry, if_neg heax] at hret
  obtain ⟨size', hsize'⟩ :
    ∃ size', size' = if ans.Kept (pad size) then size + 1 else size := ⟨_, rfl⟩
  rw [← hsize'] at hret ⊢
  by_cases hmax : mmapMaxSize ≤ size'
  · simp [hmax] at hret
  refine ⟨Nat.lt_of_not_le hmax, ?_⟩
  by_cases hebx : ans.ebx = 0
  · rw [if_neg hmax, if_neg (not_not_intro hebx), Option.some.injEq, Except.ok.injEq,
      Prod.mk.injEq] at hret
    exact .inr ⟨hebx, hret⟩
  · rw [if_neg hmax, if_pos hebx] at hret
    exact .inl ⟨hebx, hret⟩

/-- The records kept, the first answer's first. -/
theorem keptRecords_cons (pad : ℕ → BitVec 32) (ans : Int15Answer) (rest : List Int15Answer)
    (size : ℕ) : keptRecords pad (ans :: rest) size =
      (if ans.Kept (pad size) then [ans.record] else []) ++
        if ans.ebx ≠ 0 then keptRecords pad rest (if ans.Kept (pad size) then size + 1 else size)
        else [] := by
  rw [keptRecords]
  split
  · rfl
  · rfl

/-- From `m` to `m'` the elements from number `size` on have been filled with these records, one
behind the other; the earlier elements and the words behind the records are as they were. -/
structure FilledFrom (mmapPtr : Addr) (pad : ℕ → BitVec 32) (size : ℕ) (records : List E820Record)
    (m m' : Mem) (n : ℕ) : Prop where
  count : n = size + records.length
  lt : n < 100
  pads : PadsAre m' mmapPtr pad
  old : ∀ k < size, ∀ i < 6, m'.read32 (mmapElem mmapPtr k + addr (4 * i))
    = m.read32 (mmapElem mmapPtr k + addr (4 * i))
  new : ∀ k r, records[k]? = some r → ∀ i < 6,
    m'.read32 (mmapElem mmapPtr (size + k) + addr (4 * i)) = r.word i

/-- A record that has been stored and kept is in front of those that follow. -/
theorem FilledFrom.cons {pad : ℕ → BitVec 32} {size n : ℕ} {records : List E820Record}
    (hlow : mmapPtr.toNat + 2800 ≤ 0x70000) (hsize : size < 100)
    (h : FilledFrom mmapPtr pad (size + 1) records (r.store m (mmapElem mmapPtr size)) m' n) :
    FilledFrom mmapPtr pad size (r :: records) m m' n := by
  have hcount := h.count
  refine ⟨by rw [List.length_cons]; omega, h.lt, h.pads, fun k hk i hi ↦ ?_, fun k r' hr i hi ↦ ?_⟩
  · rw [h.old k (by omega) i hi]
    exact read32_store_elem hlow hsize (by omega) (by omega) (.inl (by omega)) _
  · cases k with
    | zero =>
      obtain rfl : r = r' := by simpa using hr
      exact (h.old size (by omega) i hi).trans (r.read32_store m (mmapElem mmapPtr size) hi)
    | succ k =>
      rw [show size + (k + 1) = size + 1 + k by omega]
      exact h.new k r' (by simpa using hr) i hi

/-- A record that has been stored and is not kept is overwritten. -/
theorem FilledFrom.skip {pad : ℕ → BitVec 32} {size n : ℕ} {records : List E820Record}
    (hlow : mmapPtr.toNat + 2800 ≤ 0x70000) (hsize : size < 100)
    (h : FilledFrom mmapPtr pad size records (r.store m (mmapElem mmapPtr size)) m' n) :
    FilledFrom mmapPtr pad size records m m' n := by
  refine ⟨h.count, h.lt, h.pads, fun k hk i hi ↦ ?_, h.new⟩
  rw [h.old k hk i hi]
  exact read32_store_elem hlow hsize (by omega) (by omega) (.inl (by omega)) _

/-- **The loop, from element `size` on**: it fills the next elements with the records kept, one
behind the other, and leaves the earlier elements and the words behind the records alone. -/
theorem queryUpperMemoryLoop_spec {pad : ℕ → BitVec 32} (hlow : mmapPtr.toNat + 2800 ≤ 0x70000)
    {answers : List Int15Answer} {size n : ℕ}
    (hret : queryUpperMemoryLoop mmapPtr answers m size = some (.ok (m', n))) (hsize : size < 100)
    (hpad : PadsAre m mmapPtr pad) :
    FilledFrom mmapPtr pad size (keptRecords pad answers size) m m' n := by
  induction answers generalizing m size with
  | nil => simp [queryUpperMemoryLoop] at hret
  | cons ans rest ih =>
    have hpad' := hpad.store hlow hsize ans.record
    obtain ⟨m₁, size', hm₁, hsize', hmax, hrest⟩ :=
      queryUpperMemoryLoop_cons_ok hlow hsize hpad hret
    rw [← hm₁] at hpad'
    -- What the rounds that follow have done, if there are any.
    have htail : FilledFrom mmapPtr pad size'
        (if ans.ebx ≠ 0 then keptRecords pad rest size' else []) m₁ m' n := by
      obtain ⟨hebx, hloop⟩ | ⟨hebx, rfl, rfl⟩ := hrest
      · rw [if_pos hebx]
        exact ih hloop hmax hpad'
      · rw [if_neg (not_not_intro hebx)]
        exact ⟨rfl, hmax, hpad', fun _ _ _ _ ↦ rfl, fun k r hr ↦ by simp at hr⟩
    rw [keptRecords_cons, ← hsize']
    rw [hm₁] at htail
    cases hk : ans.Kept (pad size) with
    | true =>
      rw [hk, if_pos rfl] at hsize'
      subst hsize'
      rw [if_pos rfl, List.singleton_append]
      exact htail.cons hlow hsize
    | false =>
      rw [hk, if_neg Bool.false_ne_true] at hsize'
      subst hsize'
      rw [if_neg Bool.false_ne_true, List.nil_append]
      exact htail.skip hlow hsize

/-- **What `queryUpperMemory` leaves in memory**: the kept records, each at the beginning of its
element, and behind each record the word that was there before. -/
theorem queryUpperMemory_spec (hlow : mmapPtr.toNat + 2800 ≤ 0x70000) {answers : List Int15Answer}
    {n : ℕ} (hret : queryUpperMemory m mmapPtr answers = some (.ok (m', n))) :
    n = (keptRecords (padWord m mmapPtr) answers 0).length ∧ n < 100 ∧
      ∀ k r, (keptRecords (padWord m mmapPtr) answers 0)[k]? = some r →
        (∀ i < 6, m'.read32 (mmapElem mmapPtr k + addr (4 * i)) = r.word i) ∧
        padWord m' mmapPtr k = padWord m mmapPtr k := by
  obtain ⟨hn, hlt, hpads, -, hnew⟩ :=
    queryUpperMemoryLoop_spec hlow hret (by decide) fun k _ ↦ rfl
  rw [Nat.zero_add] at hn
  refine ⟨hn, hlt, fun k r hr ↦ ⟨fun i hi ↦ ?_, ?_⟩⟩
  · have := hnew k r hr i hi
    rwa [Nat.zero_add] at this
  · obtain ⟨hk, -⟩ := List.getElem?_eq_some_iff.mp hr
    exact hpads k (by rw [mmapMaxSize]; omega)

/-! ## Reading an element as a structure -/

/-- The structure has the contents of the record. -/
def MmapStructureEntry.Matches (e : MmapStructureEntry) (r : E820Record) : Prop :=
  e.base_addr = r.base ∧ e.length = r.length ∧ e.type = r.type ∧ e.acpi_3_0_extended = r.attributes

instance (e : MmapStructureEntry) (r : E820Record) : Decidable (e.Matches r) :=
  inferInstanceAs (Decidable (_ ∧ _))

/-- All six words of the record are `w`. -/
def E820Record.Uniform (r : E820Record) (w : BitVec 32) : Prop := ∀ i < 6, r.word i = w

theorem append_eq_append_iff {w k : ℕ} {a b : BitVec w} {c d : BitVec k} :
    a ++ c = b ++ d ↔ a = b ∧ c = d := by
  refine ⟨fun h ↦ ⟨?_, ?_⟩, fun ⟨ha, hc⟩ ↦ by rw [ha, hc]⟩
  · rw [← BitVec.extractLsb'_append_eq_left (a := a) (b := c), h, BitVec.extractLsb'_append_eq_left]
  · rw [← BitVec.extractLsb'_append_eq_right (a := a) (b := c), h,
      BitVec.extractLsb'_append_eq_right]

/-- What the fields of an element hold when the words `f 0, f 1, …` lie in it. -/
theorem readEntry_eq (m : Mem) (p : Addr) : readEntry m p =
    ⟨m.read32 p, m.read32 (p + 8) ++ m.read32 (p + 4), m.read32 (p + 16) ++ m.read32 (p + 12),
      m.read32 (p + 20), m.read32 (p + 24)⟩ := by
  rw [readEntry, Mem.read64_eq, Mem.read64_eq, BitVec.add_assoc, BitVec.add_assoc]
  rfl

/-- **The skew**: a structure reads as the record stored four bytes before its fields only if all
words are the same. -/
theorem matches_iff_uniform {w : BitVec 32} (hrec : ∀ i < 6, m.read32 (p + addr (4 * i)) = r.word i)
    (hpad : m.read32 (p + 24) = w) : (readEntry m p).Matches r ↔ r.Uniform w := by
  have h₁ : m.read32 (p + 4) = r.word 1 := hrec 1 (by decide)
  have h₂ : m.read32 (p + 8) = r.word 2 := hrec 2 (by decide)
  have h₃ : m.read32 (p + 12) = r.word 3 := hrec 3 (by decide)
  have h₄ : m.read32 (p + 16) = r.word 4 := hrec 4 (by decide)
  have h₅ : m.read32 (p + 20) = r.word 5 := hrec 5 (by decide)
  rw [readEntry_eq, MmapStructureEntry.Matches, h₁, h₂, h₃, h₄, h₅, hpad]
  dsimp only
  rw [r.base_eq, r.length_eq, append_eq_append_iff, append_eq_append_iff]
  constructor
  · rintro ⟨⟨h21, h10⟩, ⟨h43, h32⟩, h54, hw⟩ i hi
    have h5 : r.word 5 = w := hw.symm
    have h4 : r.word 4 = w := (show r.word 5 = r.word 4 from h54).symm.trans h5
    have h3 : r.word 3 = w := h43.symm.trans h4
    have h2 : r.word 2 = w := h32.symm.trans h3
    have h1 : r.word 1 = w := h21.symm.trans h2
    have h0 : r.word 0 = w := h10.symm.trans h1
    match i, hi with
    | 0, _ => exact h0
    | 1, _ => exact h1
    | 2, _ => exact h2
    | 3, _ => exact h3
    | 4, _ => exact h4
    | 5, _ => exact h5
  · intro hw
    refine ⟨⟨?_, ?_⟩, ⟨?_, ?_⟩, ?_, ?_⟩
    · rw [hw 2 (by decide), hw 1 (by decide)]
    · rw [hw 1 (by decide), hw 0 (by decide)]
    · rw [hw 4 (by decide), hw 3 (by decide)]
    · rw [hw 3 (by decide), hw 2 (by decide)]
    · exact (hw 5 (by decide)).trans (hw 4 (by decide)).symm
    · exact (hw 5 (by decide)).symm

/-- **When records survive.**  The returned list has an element for every record kept; and all its
elements read as their records exactly if every record kept consists of six equal words, equal to
the word that the heap block held at offset 24 of its element.  An array that the heap refused is
not left out: the code does not look, and works on the memory from address 0 on. -/
theorem mmap_faithful_iff (m : Mem) {mmapPtr : Addr} (hlow : mmapPtr.toNat + 2800 ≤ 0x70000)
    {answers : List Int15Answer} {m' : Mem} {n : ℕ}
    (hret : queryUpperMemory m mmapPtr answers = some (.ok (m', n))) :
    n = (keptRecords (padWord m mmapPtr) answers 0).length ∧
    ((∀ k r, (keptRecords (padWord m mmapPtr) answers 0)[k]? = some r →
        (readEntry m' (mmapElem mmapPtr k)).Matches r) ↔
      ∀ k (r : E820Record), (keptRecords (padWord m mmapPtr) answers 0)[k]? = some r →
        r.Uniform (padWord m mmapPtr k)) := by
  obtain ⟨hn, -, helem⟩ := queryUpperMemory_spec hlow hret
  refine ⟨hn, forall_congr' fun k ↦ forall_congr' fun r ↦ forall_congr' fun hr ↦ ?_⟩
  obtain ⟨hrec, hpad⟩ := helem k r hr
  exact matches_iff_uniform hrec hpad

/-- **The usual first record** of a BIOS, 639 KiB from address 0, read back from the array at
`0x20000`: the base address holds the length, and the type is gone. -/
theorem queryUpperMemory_skewed :
    ∃ m', queryUpperMemory (fun _ ↦ 0) 0x20000 [⟨⟨0, 0x9fc00, 1, 0⟩, eaxSignature, 0, 20, false⟩]
        = some (.ok (m', 1)) ∧
      readEntry m' (mmapElem 0x20000 0) = ⟨0, 0x9fc0000000000, 0x100000000, 0, 0⟩ ∧
      ¬ (readEntry m' (mmapElem 0x20000 0)).Matches ⟨0, 0x9fc00, 1, 0⟩ := by
  refine ⟨_, rfl, by decide, by decide⟩

/-- A record of the same bytes as the heap. -/
def uniformRecord : E820Record :=
  ⟨0x0202020202020202, 0x0202020202020202, 0x02020202, 0x02020202⟩

theorem mmap_faithful_iff_uniform :
    ∃ m', queryUpperMemory (fun _ ↦ 2) 0x20000 [⟨uniformRecord, eaxSignature, 0, 24, false⟩]
        = some (.ok (m', 1)) ∧
      (readEntry m' (mmapElem 0x20000 0)).Matches uniformRecord := by
  obtain ⟨m', hret⟩ : ∃ m', queryUpperMemory (fun _ ↦ 2) 0x20000
      [⟨uniformRecord, eaxSignature, 0, 24, false⟩] = some (.ok (m', 1)) := ⟨_, rfl⟩
  have hkept : keptRecords (padWord (fun _ ↦ 2) 0x20000)
      [⟨uniformRecord, eaxSignature, 0, 24, false⟩] 0 = [uniformRecord] := by decide
  refine ⟨m', hret, (mmap_faithful_iff _ (by decide) hret).2.mpr ?_ 0 _ (by rw [hkept]; rfl)⟩
  rw [hkept]
  intro k r hr
  cases k with
  | zero =>
    obtain rfl : uniformRecord = r := Option.some.inj hr
    rw [E820Record.Uniform]
    decide
  | succ k => simp at hr

end RainbowOS
