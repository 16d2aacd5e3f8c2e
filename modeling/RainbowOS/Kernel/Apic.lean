import RainbowOS.Exec
import RainbowOS.Lib.BitField

/-!
# The local APIC: `l_apic`

`l_apic::l_apic` keeps what CPUID answers in `eax`, which is the processor's signature, as if it
were a pointer to the base register, and `l_apic::enable` works on that pointer.

* `getMSR_enable`, `enable_regPtr`, `enable_frame` — what `enable` leaves in the MSR and in memory.
* `not_enablesApic` — it never enables the APIC, whatever the processor answers.
-/

set_option autoImplicit false

namespace RainbowOS.Apic

/-! ## The processor -/

/-- What `cpuid(leaf, …)` answers. -/
structure CpuidAnswer where
  eax : BitVec 32
  ebx : BitVec 32
  ecx : BitVec 32
  edx : BitVec 32
  deriving DecidableEq, Repr

/-- The memory and the model specific registers. -/
structure Cpu where
  mem : Mem
  msr : BitVec 32 → BitVec 64

/-- `IA32_APIC_BASE_MSR`. -/
def IA32_APIC_BASE_MSR : BitVec 32 := 0x1b

/-- `CPUID_FEAT_EDX_APIC`. -/
def CPUID_FEAT_EDX_APIC : BitVec 32 := 1 <<< 9

/-- `getMSR(msr, &low, &high)`. -/
def getMSR (s : Cpu) (msr : BitVec 32) : BitVec 32 × BitVec 32 :=
  ((s.msr msr).setWidth 32, (s.msr msr >>> 32).setWidth 32)

/-- `setMSR(msr, low, high)`. -/
def setMSR (s : Cpu) (msr low high : BitVec 32) : Cpu :=
  { s with msr := Function.update s.msr msr (high ++ low) }

/-! ## The functions -/

/-- `checkApic()`. -/
def checkApic (cpuid : BitVec 32 → CpuidAnswer) : Bool :=
  (cpuid 1).edx &&& CPUID_FEAT_EDX_APIC ≠ 0

/-- `l_apic::l_apic()`: the pointer `_reg`. -/
def l_apic (cpuid : BitVec 32 → CpuidAnswer) : Exec Addr :=
  if !checkApic cpuid then
    .error (.earlyPanic "In kernel::cpu::l_apic constructor: Error: No APIC present!")
  else
    .ok (cpuid 1).eax

/-- `lapic_registers::SPURIOUS_INTERRUPT_VECTOR`. -/
def SPURIOUS_INTERRUPT_VECTOR : BitVec 32 := 0x0F0

/-- `_reg->address << 12`. -/
def lapicReg (m : Mem) (reg : Addr) : Addr :=
  (BitField.get (m.read32 reg) 12 20).setWidth 32 <<< 12

/-- `lapicReg + SPURIOUS_INTERRUPT_VECTOR`, where `lapicReg` is a pointer to words. -/
def regPtr (m : Mem) (reg : Addr) : Addr := lapicReg m reg + 4 * SPURIOUS_INTERRUPT_VECTOR

/-- `l_apic::enable()`. -/
def enable (s : Cpu) (reg : Addr) : Cpu :=
  let s := setMSR s IA32_APIC_BASE_MSR (reg &&& 0xfffff000) 0
  let ptr := regPtr s.mem reg
  let mem := s.mem.setField (ptr + addr 1) 0 (1 : BitVec 1)
  { s with mem := mem.write8 ptr 0xff }

/-! ## What enabling means -/

/-- The address of a page. -/
def pageAddr (page : BitVec 20) : Addr := page.setWidth 32 <<< 12

/-- The spurious-interrupt register of a local APIC in this page. -/
def spuriousRegister (page : BitVec 20) : Addr := pageAddr page + 0x0F0

/-- The page in which the machine has its local APIC. -/
def apicPage (s : Cpu) : BitVec 20 := BitField.get (s.msr IA32_APIC_BASE_MSR) 12 20

/-- The second state is the first one with the local APIC enabled. -/
structure EnablesApic (s s' : Cpu) : Prop where
  base : BitField.get (s'.msr IA32_APIC_BASE_MSR) 12 52 =
    BitField.get (s.msr IA32_APIC_BASE_MSR) 12 52
  apic_global_enable : BitField.get (s'.msr IA32_APIC_BASE_MSR) 11 1 = 1
  sp_vector : s'.mem (spuriousRegister (apicPage s)) = 0xff
  enable_flag : BitField.get (s'.mem (spuriousRegister (apicPage s) + addr 1)) 0 1 = 1
  frame : Mem.EqOn (fun x ↦ ¬ Mem.Range (spuriousRegister (apicPage s)) 4 x) s.mem s'.mem

variable {m : Mem} {reg : Addr}

/-! ## What the code does -/

theorem setMSR_self (s : Cpu) (msr low high : BitVec 32) :
    (setMSR s msr low high).msr msr = high ++ low :=
  Function.update_self msr _ s.msr

theorem getMSR_setMSR (s : Cpu) (msr low high : BitVec 32) :
    getMSR (setMSR s msr low high) msr = (low, high) := by
  rw [getMSR, setMSR_self]
  refine Prod.ext (BitVec.eq_of_getLsbD_eq fun i hi ↦ ?_) (BitVec.eq_of_getLsbD_eq fun i hi ↦ ?_)
  · rw [BitVec.getLsbD_setWidth, BitVec.getLsbD_append, if_pos hi, decide_eq_true hi, Bool.true_and]
  · rw [BitVec.getLsbD_setWidth, BitVec.getLsbD_ushiftRight, BitVec.getLsbD_append,
      if_neg (by omega), decide_eq_true hi, Bool.true_and, Nat.add_sub_cancel_left]

/-- The MSR after `enable` is the signature without its low bits. -/
theorem getMSR_enable (s : Cpu) (reg : Addr) :
    getMSR (enable s reg) IA32_APIC_BASE_MSR = (reg &&& 0xfffff000, 0) :=
  getMSR_setMSR s IA32_APIC_BASE_MSR (reg &&& 0xfffff000) 0

/-- The mask of `enable` clears the bit that it is there to set. -/
theorem enable_global_enable (s : Cpu) (reg : Addr) :
    BitField.get ((enable s reg).msr IA32_APIC_BASE_MSR) 11 1 = 0 := by
  have hlow : ((enable s reg).msr IA32_APIC_BASE_MSR).setWidth 32 = reg &&& 0xfffff000 :=
    congrArg Prod.fst (getMSR_enable s reg)
  refine BitVec.eq_of_getLsbD_eq fun i hi ↦ ?_
  obtain rfl : i = 0 := by omega
  have hbit := congrArg (BitVec.getLsbD · 11) hlow
  rw [BitField.get, BitVec.getLsbD_extractLsb']
  simpa using hbit

/-- The register that `enable` writes is 0x3c0 bytes into a page. -/
theorem toNat_regPtr_mod (m : Mem) (reg : Addr) : (regPtr m reg).toNat % 4096 = 0x3c0 := by
  rw [regPtr, lapicReg, SPURIOUS_INTERRUPT_VECTOR, BitVec.toNat_add, BitVec.toNat_shiftLeft,
    Nat.shiftLeft_eq]
  simp only [BitVec.reduceMul, BitVec.reduceToNat]
  omega

theorem toNat_spuriousRegister_mod (page : BitVec 20) :
    (spuriousRegister page).toNat % 4096 = 0xf0 := by
  rw [spuriousRegister, pageAddr, BitVec.toNat_add, BitVec.toNat_shiftLeft, Nat.shiftLeft_eq]
  simp only [BitVec.reduceToNat]
  omega

theorem enable_mem (s : Cpu) (reg : Addr) : (enable s reg).mem =
    (s.mem.setField (regPtr s.mem reg + addr 1) 0 (1 : BitVec 1)).write8 (regPtr s.mem reg) 0xff :=
  rfl

/-- The register that `enable` writes has its vector and its enable bit. -/
theorem enable_regPtr (s : Cpu) (reg : Addr) : (enable s reg).mem (regPtr s.mem reg) = 0xff ∧
    BitField.get ((enable s reg).mem (regPtr s.mem reg + addr 1)) 0 1 = 1 := by
  have hne : regPtr s.mem reg + addr 1 ≠ regPtr s.mem reg := by bv_omega
  rw [enable_mem]
  refine ⟨Mem.write8_self _ _ _, ?_⟩
  rw [Mem.write8_of_ne hne, Mem.setField_self, BitField.get_set _ _ (by decide)]

/-- `enable` writes no other memory. -/
theorem enable_frame (s : Cpu) (reg : Addr) :
    Mem.EqOn (fun x ↦ ¬ Mem.Range (regPtr s.mem reg) 2 x) s.mem (enable s reg).mem := by
  intro x hx
  rw [Mem.Range] at hx
  have h0 : x ≠ regPtr s.mem reg := by bv_omega
  have h1 : x ≠ regPtr s.mem reg + addr 1 := by bv_omega
  rw [enable_mem, Mem.write8_of_ne h0, Mem.setField, Mem.write8_of_ne h1]

/-- In no page is the spurious-interrupt register written. -/
theorem enable_spuriousRegister (s : Cpu) (reg : Addr) (page : BitVec 20) :
    Mem.EqOn (Mem.Range (spuriousRegister page) 4) s.mem (enable s reg).mem := by
  refine (enable_frame s reg).mono fun x hx hx' ↦ ?_
  have hptr := toNat_regPtr_mod s.mem reg
  have hspurious := toNat_spuriousRegister_mod page
  rw [Mem.Range] at hx hx'
  bv_omega

/-- **The local APIC is never enabled.**  For every processor with an APIC and every state of the
machine: the constructor takes the processor's signature for the base register, the MSR is
overwritten with it and has its enable bit clear, and in whatever page the local APIC is, its
spurious-interrupt register is not written, because the offset is counted in words. -/
theorem not_enablesApic (cpuid : BitVec 32 → CpuidAnswer) (hapic : checkApic cpuid) (s : Cpu) :
    ∃ reg, l_apic cpuid = .ok reg ∧ ¬ EnablesApic s (enable s reg) ∧
      getMSR (enable s reg) IA32_APIC_BASE_MSR = ((cpuid 1).eax &&& 0xfffff000, 0) ∧
      ∀ page, Mem.EqOn (Mem.Range (spuriousRegister page) 4) s.mem (enable s reg).mem := by
  refine ⟨(cpuid 1).eax, ?_, fun henables ↦ ?_, getMSR_enable s _, enable_spuriousRegister s _⟩
  · rw [l_apic, hapic]
    rfl
  · have hset := henables.apic_global_enable
    rw [enable_global_enable] at hset
    exact absurd hset (by decide)

/-- The answer of a processor with an APIC. -/
def someCpuid (_ : BitVec 32) : CpuidAnswer := ⟨0x000106a5, 0x00100800, 0, 0x00000200⟩

/-- A machine with its local APIC at 0xfee00000. -/
def someCpu : Cpu := ⟨fun _ ↦ 0, fun _ ↦ 0xfee00900⟩

theorem not_enablesApic_some : ∃ reg, l_apic someCpuid = .ok reg ∧
    ¬ EnablesApic someCpu (enable someCpu reg) := by
  obtain ⟨reg, hreg, hnot, -⟩ := not_enablesApic someCpuid (by decide) someCpu
  exact ⟨reg, hreg, hnot⟩

/-- On this machine the MSR loses its base. -/
theorem enable_someCpu : ¬ ∃ reg, l_apic someCpuid = .ok reg ∧
    EnablesApic someCpu (enable someCpu reg) := by
  rintro ⟨reg, hreg, henables⟩
  obtain rfl : 0x000106a5 = reg := Except.ok.inj hreg
  exact absurd henables.base (by decide)

end RainbowOS.Apic
