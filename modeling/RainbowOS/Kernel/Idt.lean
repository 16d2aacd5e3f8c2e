import RainbowOS.Kernel.Interrupts
import RainbowOS.Lib.BitField

/-!
# Filling the IDT: `installInterrupt` and `installAll`

A descriptor of the table has the address of its handler in two halves, a selector, and four
bit-fields in one byte.  `installInterrupt` writes them one by one and leaves the reserved byte
alone.

* `gate_installInterrupt`, `eqOn_installInterrupt` — what one call writes, and what it does not
  touch.
* `gates_of_calls` — after any sequence of calls each vector has the gate of the last call for it.
-/

set_option autoImplicit false

namespace RainbowOS

/-! ## The functions -/

/-- `CODE32_KSEGMENT`. -/
def CODE32_KSEGMENT : BitVec 16 := 0x08

/-- `IDT_SIZE`. -/
def IDT_SIZE : ℕ := 256

/-- `_IDT + vector`. -/
def descriptorAddr (idt : Addr) (vector : BitVec 8) : Addr := idt + addr (8 * vector.toNat)

/-- `installInterrupt(vector, handler, dpl)`, with its return value. -/
def installInterrupt (m : Mem) (idt : Addr) (vector : BitVec 8) (handler : Addr) (dpl : Byte) :
    Mem × Bool :=
  let entry := descriptorAddr idt vector
  let m := m.write16 (entry + addr 0) ((handler &&& 0xffff).setWidth 16)
  let m := m.write16 (entry + addr 6) ((handler >>> 16 &&& 0xffff).setWidth 16)
  let m := m.write16 (entry + addr 2) CODE32_KSEGMENT
  let m := m.setField (entry + addr 5) 5 (dpl.setWidth 2)
  let m := m.setField (entry + addr 5) 7 (1 : BitVec 1)
  let m := m.setField (entry + addr 5) 0 (0xe : BitVec 4)
  (m.setField (entry + addr 5) 4 (0 : BitVec 1), true)

/-- `_handler_stub_table[i]`, where `label n` is the address of `_handler<n>`. -/
def stubAddr (label : ℕ → Addr) (i : ℕ) : Addr := label (handler_stub_table.getD i 0)

/-- `installAll()`.  The index is converted to the `uint8_t` that is the vector. -/
def installAll (label : ℕ → Addr) (m : Mem) (idt : Addr) : Mem :=
  (List.range IDT_SIZE).foldl
    (fun m i ↦ (installInterrupt m idt (BitVec.ofNat 8 i) (stubAddr label i) 0).1) m

/-! ## Gates -/

/-- The byte with the flags of a descriptor. -/
def gateFlags (m : Mem) (entry : Addr) : Byte := m (entry + addr 5)

/-- The address in the two halves. -/
def gateHandler (m : Mem) (entry : Addr) : Addr :=
  m.read16 (entry + addr 6) ++ m.read16 (entry + addr 0)

/-- A present 32-bit interrupt gate for this handler and privilege level, in the kernel's code
segment. -/
structure GateFor (m : Mem) (entry handler : Addr) (dpl : Byte) : Prop where
  present : BitField.get (gateFlags m entry) 7 1 = 1
  type : BitField.get (gateFlags m entry) 0 4 = 0xe
  zero : BitField.get (gateFlags m entry) 4 1 = 0
  dpl : (BitField.get (gateFlags m entry) 5 2).toNat = dpl.toNat
  selector : m.read16 (entry + addr 2) = CODE32_KSEGMENT
  handler : gateHandler m entry = handler

/-- A call of `installInterrupt`. -/
structure InstallCall where
  vector : BitVec 8
  handler : Addr
  dpl : Byte
  deriving DecidableEq, Repr

/-- What a sequence of calls does. -/
def installCalls (m : Mem) (idt : Addr) (calls : List InstallCall) : Mem :=
  calls.foldl (fun m call ↦ (installInterrupt m idt call.vector call.handler call.dpl).1) m

/-- The call is the last one for its vector. -/
def LastCall (calls : List InstallCall) (call : InstallCall) : Prop :=
  ∃ before after, calls = before ++ call :: after ∧ ∀ c ∈ after, c.vector ≠ call.vector

variable {m m' : Mem} {idt entry handler : Addr} {v v' : BitVec 8} {dpl : Byte}
  {calls : List InstallCall}

/-! ## One call -/

theorem eqOn_setField {k lo j : ℕ} (hj : j < 8) (m : Mem) (a : Addr) (x : BitVec k) :
    Mem.EqOn (fun y ↦ ¬ Mem.Range a 8 y) m (m.setField (a + addr j) lo x) := by
  rw [Mem.setField]
  exact Mem.eqOn_write fun _ hy ↦ not_not.mpr (hy.of_part hj (by decide))

theorem eqOn_write16 {j : ℕ} (hj : j + 2 ≤ 8) (m : Mem) (a : Addr) (x : BitVec 16) :
    Mem.EqOn (fun y ↦ ¬ Mem.Range a 8 y) m (m.write16 (a + addr j) x) :=
  Mem.eqOn_write fun _ hy ↦ not_not.mpr (Mem.Range.of_part hy hj (by decide))

/-- **The frame of a call**: nothing outside the descriptor is written. -/
theorem eqOn_installInterrupt (m : Mem) (idt : Addr) (v : BitVec 8) (handler : Addr) (dpl : Byte) :
    Mem.EqOn (fun y ↦ ¬ Mem.Range (descriptorAddr idt v) 8 y) m
      (installInterrupt m idt v handler dpl).1 := by
  simp only [installInterrupt]
  refine .trans ?_ (eqOn_setField (by decide) _ _ _)
  refine .trans ?_ (eqOn_setField (by decide) _ _ _)
  refine .trans ?_ (eqOn_setField (by decide) _ _ _)
  refine .trans ?_ (eqOn_setField (by decide) _ _ _)
  refine .trans ?_ (eqOn_write16 (by decide) _ _ _)
  refine .trans ?_ (eqOn_write16 (by decide) _ _ _)
  exact eqOn_write16 (by decide) _ _ _

theorem read16_setField {k lo j : ℕ} (hj : j + 2 ≤ 5 ∨ 6 ≤ j) (hj' : j ≤ 8) (m : Mem) (a : Addr)
    (x : BitVec k) : (m.setField (a + addr 5) lo x).read16 (a + addr j) = m.read16 (a + addr j) :=
  Mem.readLE_write_offset m a (l := 2) _ (by omega) (by decide) (by omega)

theorem read16_write16_offset {i j : ℕ} (hij : j + 2 ≤ i ∨ i + 2 ≤ j) (hi : i ≤ 8) (hj : j ≤ 8)
    (m : Mem) (a : Addr) (x : BitVec 16) :
    (m.write16 (a + addr i) x).read16 (a + addr j) = m.read16 (a + addr j) :=
  Mem.readLE_write_offset m a (l := 2) _ hij (by omega) (by omega)

theorem read16_write16_self (m : Mem) (a : Addr) (x : BitVec 16) : (m.write16 a x).read16 a = x :=
  Mem.readLE_writeLE (n := 2) m (by decide) a x

/-- The halves of an address put together again. -/
theorem append_halves (handler : Addr) : (handler >>> 16 &&& 0xffff).setWidth 16 ++
    (handler &&& 0xffff).setWidth 16 = handler := by
  have hmask : ∀ i, (0xffff : Addr).getLsbD i = decide (i < 16) := by
    intro i
    rw [show (0xffff : Addr) = BitVec.ofNat 32 (2 ^ 16 - 1) from rfl, BitVec.getLsbD_ofNat,
      Nat.testBit_two_pow_sub_one]
    by_cases hi : i < 16
    · simp [hi, show i < 32 by omega]
    · simp [hi]
  refine BitVec.eq_of_getLsbD_eq (w := 32) fun i hi ↦ ?_
  rw [BitVec.getLsbD_append, BitVec.getLsbD_setWidth, BitVec.getLsbD_setWidth, BitVec.getLsbD_and,
    BitVec.getLsbD_and, BitVec.getLsbD_ushiftRight, hmask, hmask]
  by_cases hlow : i < 16
  · simp [hlow]
  · simp [hlow, show i - 16 < 16 by omega, show 16 + (i - 16) = i by omega]

/-- **What a call installs.** -/
theorem gate_installInterrupt (m : Mem) (idt : Addr) (v : BitVec 8) (handler : Addr)
    (hdpl : dpl.toNat ≤ 3) :
    GateFor (installInterrupt m idt v handler dpl).1 (descriptorAddr idt v) handler dpl := by
  have hwidth : (BitVec.setWidth 2 dpl).toNat = dpl.toNat := by
    rw [BitVec.toNat_setWidth]
    omega
  have hflags : ∃ old, gateFlags (installInterrupt m idt v handler dpl).1 (descriptorAddr idt v) =
      BitField.set (BitField.set (BitField.set (BitField.set old 5 (dpl.setWidth 2))
        7 (1 : BitVec 1)) 0 (0xe : BitVec 4)) 4 (0 : BitVec 1) := by
    simp only [installInterrupt, gateFlags, Mem.setField_self]
    exact ⟨_, rfl⟩
  obtain ⟨old, hflags⟩ := hflags
  refine ⟨?_, ?_, ?_, ?_, ?_, ?_⟩
  · rw [hflags, BitField.get_set_of_disjoint _ _ (by decide) (by decide),
      BitField.get_set_of_disjoint _ _ (by decide) (by decide), BitField.get_set _ _ (by decide)]
  · rw [hflags, BitField.get_set_of_disjoint _ _ (by decide) (by decide),
      BitField.get_set _ _ (by decide)]
  · rw [hflags, BitField.get_set _ _ (by decide)]
  · rw [hflags, BitField.get_set_of_disjoint _ _ (by decide) (by decide),
      BitField.get_set_of_disjoint _ _ (by decide) (by decide),
      BitField.get_set_of_disjoint _ _ (by decide) (by decide), BitField.get_set _ _ (by decide),
      hwidth]
  · simp only [installInterrupt]
    simp (disch := decide) only [read16_setField, read16_write16_self]
  · simp only [installInterrupt, gateHandler]
    simp (disch := decide) only [read16_setField, read16_write16_offset, read16_write16_self]
    exact append_halves handler

/-! ## Sequences of calls -/

/-- Descriptors of different vectors have no byte in common. -/
theorem not_range_descriptor {x : Addr} (hne : v ≠ v')
    (hx : Mem.Range (descriptorAddr idt v) 8 x) : ¬ Mem.Range (descriptorAddr idt v') 8 x := by
  rw [Mem.Range, descriptorAddr] at hx ⊢
  have hv := v.isLt
  have hv' := v'.isLt
  have hne' : v.toNat ≠ v'.toNat := fun h ↦ hne (BitVec.eq_of_toNat_eq h)
  bv_omega

/-- Calls write to the descriptors of their vectors only. -/
theorem eqOn_installCalls {P : Addr → Prop} (m : Mem) (idt : Addr)
    (h : ∀ c ∈ calls, ∀ x, P x → ¬ Mem.Range (descriptorAddr idt c.vector) 8 x) :
    Mem.EqOn P m (installCalls m idt calls) := by
  induction calls generalizing m with
  | nil => exact fun _ _ ↦ rfl
  | cons call calls ih =>
    obtain ⟨hcall, hcalls⟩ := List.forall_mem_cons.mp h
    have hstep := eqOn_installInterrupt m idt call.vector call.handler call.dpl
    exact (hstep.mono hcall).trans (ih _ hcalls)

/-- Calls for other vectors do not touch the descriptor. -/
theorem eqOn_descriptor (m : Mem) (idt : Addr) (h : ∀ c ∈ calls, c.vector ≠ v) :
    Mem.EqOn (Mem.Range (descriptorAddr idt v) 8) m (installCalls m idt calls) :=
  eqOn_installCalls m idt fun c hc _ hx ↦ not_range_descriptor (Ne.symm (h c hc)) hx

/-- A gate depends on the bytes of its descriptor only. -/
theorem GateFor.congr (h : GateFor m entry handler dpl)
    (heq : Mem.EqOn (Mem.Range entry 8) m m') : GateFor m' entry handler dpl := by
  have hread : ∀ j, j + 2 ≤ 8 → m'.read16 (entry + addr j) = m.read16 (entry + addr j) :=
    fun j hj ↦ heq.readLE_eq (n := 2) (fun _ hx ↦ hx.of_part hj (by decide)) (by decide)
  have hflags : gateFlags m' entry = gateFlags m entry :=
    heq _ (Mem.range_add (by decide) (by decide))
  have hhandler : gateHandler m' entry = gateHandler m entry := by
    rw [gateHandler, hread 6 (by decide), hread 0 (by decide), gateHandler]
  refine ⟨?_, ?_, ?_, ?_, ?_, hhandler.trans h.handler⟩
  · rw [hflags, h.present]
  · rw [hflags, h.type]
  · rw [hflags, h.zero]
  · rw [hflags, h.dpl]
  · rw [hread 2 (by decide), h.selector]

/-- A vector that occurs has a last call. -/
theorem exists_lastCall (h : ∃ c ∈ calls, c.vector = v) :
    ∃ call, LastCall calls call ∧ call.vector = v := by
  induction calls with
  | nil =>
    obtain ⟨c, hc, -⟩ := h
    exact absurd hc List.not_mem_nil
  | cons call calls ih =>
    by_cases hlater : ∃ c ∈ calls, c.vector = v
    · obtain ⟨last, ⟨before, after, rfl, hafter⟩, hv⟩ := ih hlater
      exact ⟨last, ⟨call :: before, after, rfl, hafter⟩, hv⟩
    · obtain ⟨c, hc, rfl⟩ := h
      obtain rfl | hc := List.mem_cons.mp hc
      · exact ⟨c, ⟨[], calls, rfl, fun c' hc' hv ↦ hlater ⟨c', hc', hv⟩⟩, rfl⟩
      · exact absurd ⟨c, hc, rfl⟩ hlater

theorem LastCall.mem {call : InstallCall} (h : LastCall calls call) : call ∈ calls := by
  obtain ⟨before, after, rfl, -⟩ := h
  simp

/-- The gate of the last call stays. -/
theorem gate_of_lastCall (m : Mem) (idt : Addr) {call : InstallCall} (h : LastCall calls call)
    (hdpl : call.dpl.toNat ≤ 3) :
    GateFor (installCalls m idt calls) (descriptorAddr idt call.vector) call.handler call.dpl := by
  obtain ⟨before, after, rfl, hafter⟩ := h
  rw [installCalls, List.foldl_append, List.foldl_cons]
  exact (gate_installInterrupt _ idt call.vector call.handler hdpl).congr
    (eqOn_descriptor _ idt hafter)

/-- The calls that `installAll` makes. -/
def allCalls (label : ℕ → Addr) : List InstallCall :=
  (List.range IDT_SIZE).map fun i ↦ ⟨BitVec.ofNat 8 i, stubAddr label i, 0⟩

theorem installAll_eq (label : ℕ → Addr) (m : Mem) (idt : Addr) :
    installAll label m idt = installCalls m idt (allCalls label) := by
  rw [installAll, installCalls, allCalls, List.foldl_map]

theorem gate_installAll (label : ℕ → Addr) (m : Mem) (idt : Addr) (v : BitVec 8) :
    GateFor (installAll label m idt) (descriptorAddr idt v) (stubAddr label v.toNat) 0 := by
  have hmem : (⟨v, stubAddr label v.toNat, 0⟩ : InstallCall) ∈ allCalls label :=
    List.mem_map.mpr ⟨v.toNat, List.mem_range.mpr v.isLt, by rw [BitVec.ofNat_toNat]; simp⟩
  obtain ⟨call, hlast, rfl⟩ := exists_lastCall ⟨_, hmem, rfl⟩
  obtain ⟨i, hi, hcall⟩ := List.mem_map.mp hlast.mem
  have hi : i < 256 := List.mem_range.mp hi
  have hvector : call.vector.toNat = i := by
    rw [← hcall]
    exact Nat.mod_eq_of_lt hi
  rw [installAll_eq, hvector]
  have hgate := gate_of_lastCall m idt hlast (by rw [← hcall]; exact Nat.zero_le 3)
  rwa [← hcall] at hgate ⊢

/-- **The IDT holds the last gate of every vector.**  For every content of the table and every
sequence of calls with privilege levels up to 3: a vector that occurs has the gate of the last call
for it, a vector that does not occur has its descriptor unchanged, and nothing outside the
descriptors is written; so `installAll` gives every vector its handler in `_handler_stub_table`. -/
theorem gates_of_calls (m : Mem) (idt : Addr) {calls : List InstallCall}
    (hdpl : ∀ c ∈ calls, c.dpl.toNat ≤ 3) (label : ℕ → Addr) :
    (∀ v, (∃ c ∈ calls, c.vector = v) → ∃ call, LastCall calls call ∧ call.vector = v ∧
      GateFor (installCalls m idt calls) (descriptorAddr idt v) call.handler call.dpl) ∧
    (∀ v, (∀ c ∈ calls, c.vector ≠ v) → ∀ x, Mem.Range (descriptorAddr idt v) 8 x →
      installCalls m idt calls x = m x) ∧
    (∀ x, (∀ v, ¬ Mem.Range (descriptorAddr idt v) 8 x) → installCalls m idt calls x = m x) ∧
    ∀ v : BitVec 8,
      GateFor (installAll label m idt) (descriptorAddr idt v) (stubAddr label v.toNat) 0 := by
  refine ⟨fun v hv ↦ ?_, fun v hv x hx ↦ eqOn_descriptor m idt hv x hx, fun x hx ↦ ?_,
    gate_installAll label m idt⟩
  · obtain ⟨call, hlast, rfl⟩ := exists_lastCall hv
    exact ⟨call, hlast, rfl, gate_of_lastCall m idt hlast (hdpl call hlast.mem)⟩
  · exact eqOn_installCalls (P := fun x ↦ ∀ v, ¬ Mem.Range (descriptorAddr idt v) 8 x) m idt
      (fun c _ _ hx ↦ hx c.vector) x hx

/-- Two calls for vector 3 and one for vector 4. -/
def someCalls : List InstallCall :=
  [⟨3, 0x12345678, 0⟩, ⟨4, 0x00104000, 0⟩, ⟨3, 0x89abcdef, 3⟩]

theorem gates_of_calls_some :
    (∃ call, LastCall someCalls call ∧ call.vector = 3 ∧
      GateFor (installCalls (fun _ ↦ 0xff) 0x9000 someCalls) (descriptorAddr 0x9000 3)
        call.handler call.dpl) ∧
    installCalls (fun _ ↦ 0xff) 0x9000 someCalls 0x9028 = 0xff := by
  have hdpl : ∀ c ∈ someCalls, c.dpl.toNat ≤ 3 := by decide
  obtain ⟨hoccurs, hother, -, -⟩ := gates_of_calls (fun _ ↦ 0xff) 0x9000 hdpl fun _ ↦ 0
  exact ⟨hoccurs 3 (by decide), hother 5 (by decide) 0x9028 (by rw [Mem.Range]; decide)⟩

end RainbowOS
