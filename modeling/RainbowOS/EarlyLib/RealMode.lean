import RainbowOS.Lib.X86

/-!
# Calls into real mode: `realModeCall`

The BIOS runs in real mode.  `realModeCall` leaves protected mode, calls a 16-bit function and comes
back.  To leave it clears PE in `%cr0`, or it means to: the mask in `and ~0x01, %al` is written
without the `$` of a constant, so it is a memory operand.  In 16-bit code its address is `0xFFFE`,
in a segment that begins at 0, and what is there is a byte of stage1's heap.

`realModeCall_switches_iff` says for which bytes the call is right nevertheless, and
`realModeCall_caller` that whoever has called the function gets its stack back.
-/

set_option autoImplicit false

namespace RainbowOS

open X86

/-! ## The call -/

/-- `CODE32_SEGMENT`. -/
def CODE32_SEGMENT : BitVec 16 := 0x08

/-- `DATA32_SEGMENT`. -/
def DATA32_SEGMENT : BitVec 16 := 0x10

/-- `CODE16_SEGMENT`. -/
def CODE16_SEGMENT : BitVec 16 := 0x18

/-- `DATA16_SEGMENT`. -/
def DATA16_SEGMENT : BitVec 16 := 0x20

/-- The address that `~0x01` is in 16-bit code. -/
def maskAddr : Addr := 0xfffe

/-- Up to the first jump: the return address, `%ebp` and `%esp` are saved. -/
def saveEnvironment (_temp : Addr) (s : System) : System :=
  let s := s.setEax (s.top 0)
  let s := { s with regs := { s.regs with esp := s.regs.esp + 4 } }
  let m := s.mem.write32 _temp s.regs.eax
  let m := m.write32 (_temp + 4) s.regs.ebp
  { s with mem := m.write32 (_temp + 8) s.regs.esp }

/-- `.pm16Entry`: PE should be cleared. -/
def clearPE (s : System) : Except Fault System := do
  let s := (s.setAx DATA16_SEGMENT).loadDataSegments DATA16_SEGMENT
  let s := s.setEax s.cr0
  let s := s.setAl (s.regs.eax.setWidth 8 &&& s.mem maskAddr)
  let s ← s.setCr0 s.regs.eax
  s.loadCs 0

/-- `.realEntry`, up to the call of the function, whose address is the argument on top of the
stack. -/
def enterFunction (returnAddr : BitVec 32) (s : System) : System :=
  let bp := s.regs.ebp.extractLsb' 16 16 ++ s.regs.esp.setWidth 16
  let s := { s with regs := { s.regs with ebp := bp } }
  let s := (s.setAx 0).loadDataSegments 0
  s.popEax16.push16 returnAddr

/-- From the return of the function on: PE is set, and the 32-bit environment restored. -/
def leaveRealMode (_temp : Addr) (s : System) : Except Fault (System × Addr) := do
  let s := s.setEax s.cr0
  let s := s.setEax (s.regs.eax ||| 1)
  let s ← s.setCr0 s.regs.eax
  let s ← s.loadCs CODE32_SEGMENT
  let s := (s.setEax (DATA32_SEGMENT.setWidth 32)).loadDataSegments DATA32_SEGMENT
  let esp := s.mem.read32 (_temp + 8)
  let ebp := s.mem.read32 (_temp + 4)
  let s := { s with regs := { s.regs with esp := esp, ebp := ebp } }
  let s := s.setEax (s.mem.read32 _temp)
  let cpu := s.toCpu.push s.regs.eax
  return ({ s with toCpu := cpu.addEsp 4 }, cpu.top 0)

/-- What happens in a call of `realModeCall`. -/
structure RealModeRun where
  /-- The state at the first instruction of the 16-bit function. -/
  entered : System
  /-- The state behind the `ret`. -/
  returned : System
  /-- Where the `ret` goes. -/
  eip : Addr

/-- `realModeCall(function, ...)`.  The 16-bit function takes the state at its first instruction to
the one behind its return to `returnAddr`. -/
def realModeCall (_temp : Addr) (returnAddr : BitVec 32) (function : Addr → System → System)
    (s : System) : Except Fault RealModeRun := do
  let s ← (saveEnvironment _temp s).loadCs CODE16_SEGMENT
  let s ← clearPE s
  let entered := enterFunction returnAddr s
  let (returned, eip) ← leaveRealMode _temp (function entered.regs.eax entered)
  return ⟨entered, returned, eip⟩

/-- The function is entered with just PE cleared, and the caller has its `%cr0` back. -/
structure SwitchesMode (s : System) (run : RealModeRun) : Prop where
  entered : run.entered.cr0 = s.cr0 &&& ~~~1
  returned : run.returned.cr0 = s.cr0

/-! ## What becomes of `%cr0` -/

/-- What is written to `%cr0`, with the mask that is found in memory. -/
def maskedValue (cr0 : BitVec 32) (mask : Byte) : BitVec 32 :=
  cr0.extractLsb' 8 24 ++ (cr0.setWidth 8 &&& mask)

/-- `%cr0` behind that: it has ET as before. -/
def maskedCr0 (cr0 : BitVec 32) (mask : Byte) : BitVec 32 :=
  System.writtenCr0 cr0 (maskedValue cr0 mask)

variable {_temp : Addr} {s : System} {cr0 returnAddr : BitVec 32} {mask : Byte}

theorem getLsbD_maskedValue (i : ℕ) : (maskedValue cr0 mask).getLsbD i =
    if i < 8 then cr0.getLsbD i && mask.getLsbD i else cr0.getLsbD i := by
  rw [maskedValue, BitVec.getLsbD_append]
  split
  · rename_i hi
    simp [hi]
  · rename_i hi
    by_cases h32 : i < 32
    · rw [BitVec.getLsbD_extractLsb', Nat.add_sub_cancel' (by omega)]
      simp only [Bool.and_eq_right_iff_imp, decide_eq_true_eq]
      omega
    · rw [BitVec.getLsbD_of_ge _ _ (by omega), BitVec.getLsbD_of_ge _ _ (by omega)]

theorem getLsbD_maskedCr0 {i : ℕ} (hi : i < 32) : (maskedCr0 cr0 mask).getLsbD i =
    if i < 8 ∧ i ≠ 4 then cr0.getLsbD i && mask.getLsbD i else cr0.getLsbD i := by
  rw [maskedCr0, System.getLsbD_writtenCr0 cr0 _ hi, getLsbD_maskedValue]
  by_cases hfour : i = 4
  · rw [if_pos hfour, if_neg fun h ↦ h.2 hfour]
  · rw [if_neg hfour]
    simp only [hfour, ne_eq, not_false_eq_true, and_true]

theorem getLsbD_one (i : ℕ) : (1 : BitVec 32).getLsbD i = decide (i = 0) := by
  rw [show (1 : BitVec 32) = 1#32 from rfl, BitVec.getLsbD_one]
  simp

theorem getLsbD_not_one {i : ℕ} (hi : i < 32) : (~~~1 : BitVec 32).getLsbD i = !decide (i = 0) := by
  rw [BitVec.getLsbD_not, decide_eq_true hi, Bool.true_and, getLsbD_one]

/-- Just PE is cleared exactly if the mask has no bit 0, and every other bit that is to stay. -/
theorem maskedCr0_eq_iff (hpe : cr0.getLsbD 0 = true) : maskedCr0 cr0 mask = cr0 &&& ~~~1 ↔
    mask.getLsbD 0 = false ∧
      ∀ i, 1 ≤ i → i < 8 → i ≠ 4 → cr0.getLsbD i = true → mask.getLsbD i = true := by
  have hbit : ∀ i < 32, ((maskedCr0 cr0 mask).getLsbD i = (cr0 &&& ~~~1).getLsbD i ↔
      if i = 0 then mask.getLsbD 0 = false
      else i < 8 ∧ i ≠ 4 → cr0.getLsbD i = true → mask.getLsbD i = true) := by
    intro i hi
    rw [getLsbD_maskedCr0 hi, BitVec.getLsbD_and, getLsbD_not_one hi]
    by_cases hzero : i = 0
    · simp [hzero, hpe]
    · rw [if_neg hzero, decide_eq_false hzero, Bool.not_false, Bool.and_true]
      split <;> simp [*]
  constructor
  · intro h
    refine ⟨by simpa using (hbit 0 (by decide)).mp (by rw [h]), fun i hpos hi hfour ↦ ?_⟩
    have hrest := (hbit i (by omega)).mp (by rw [h])
    rw [if_neg (by omega)] at hrest
    exact hrest ⟨hi, hfour⟩
  · rintro ⟨hzero, hrest⟩
    refine BitVec.eq_of_getLsbD_eq fun i hi ↦ (hbit i hi).mpr ?_
    split
    · exact hzero
    · exact fun h8 ↦ hrest i (by omega) h8.1 h8.2

/-- PE is back in place. -/
theorem and_not_one_or_one (hpe : cr0.getLsbD 0 = true) : cr0 &&& ~~~1 ||| 1 = cr0 := by
  refine BitVec.eq_of_getLsbD_eq fun i hi ↦ ?_
  rw [BitVec.getLsbD_or, BitVec.getLsbD_and, getLsbD_not_one hi, getLsbD_one]
  by_cases hzero : i = 0
  · simp [hzero, hpe]
  · simp [hzero]

theorem saveEnvironment_mem (_temp : Addr) (s : System) : (saveEnvironment _temp s).mem =
    ((s.mem.write32 _temp (s.top 0)).write32 (_temp + 4) s.regs.ebp).write32 (_temp + 8)
      (s.regs.esp + 4) :=
  rfl

/-- The environment is at `_temp`. -/
theorem saveEnvironment_temp (_temp : Addr) (s : System) :
    Words (saveEnvironment _temp s).mem _temp [s.top 0, s.regs.ebp, s.regs.esp + 4] := by
  have h₁ := (words_nil s.mem _temp).snoc (by decide) (w := s.top 0)
  have h₂ := h₁.snoc (by simp) (w := s.regs.ebp)
  have h₃ := h₂.snoc (by simp) (w := s.regs.esp + 4)
  rw [List.length_nil, Nat.mul_zero, BitVec.add_zero] at h₃
  exact h₃

/-- The mask is not overwritten before it is read. -/
theorem saveEnvironment_mask (htemp : 12 ≤ (maskAddr - _temp).toNat) :
    (saveEnvironment _temp s).mem maskAddr = s.mem maskAddr := by
  -- the three stores are not to be evaluated at the literal address
  obtain ⟨mask, hmask⟩ : ∃ mask, maskAddr = mask := ⟨_, rfl⟩
  rw [hmask] at htemp
  rw [saveEnvironment_mem, hmask]
  refine (Mem.write_of_not_mem ?_).trans ((Mem.write_of_not_mem ?_).trans (Mem.write_of_not_mem ?_))
  · bv_omega
  · bv_omega
  · omega

/-- **Out of protected mode**: unless there is paging or PE stays set. -/
theorem clearPE_cases (s : System) :
    (s.cr0.getLsbD 31 = false ∧ (maskedCr0 s.cr0 (s.mem maskAddr)).getLsbD 0 = false ∧
      ∃ s', clearPE s = .ok s' ∧ s'.cr0 = maskedCr0 s.cr0 (s.mem maskAddr)) ∨
    ((s.cr0.getLsbD 31 = true ∨ (maskedCr0 s.cr0 (s.mem maskAddr)).getLsbD 0 = true) ∧
      clearPE s = .error .generalProtection) := by
  obtain ⟨v, hv⟩ : ∃ v, v = maskedCr0 s.cr0 (s.mem maskAddr) := ⟨_, rfl⟩
  have hpaging : v.getLsbD 31 = s.cr0.getLsbD 31 := by
    rw [hv, getLsbD_maskedCr0 (by decide), if_neg (by decide)]
  -- what is written and what is in `%cr0` then agree in the bits that are checked
  have hwritten : ∀ i < 32, i ≠ 4 →
      (maskedValue s.cr0 (s.mem maskAddr)).getLsbD i = v.getLsbD i := fun i hi hfour ↦ by
    rw [hv, maskedCr0, System.getLsbD_writtenCr0 _ _ hi, if_neg hfour]
  obtain ⟨t, ht, hclear⟩ : ∃ t : System, t.cr0 = v ∧ clearPE s =
      (if v.getLsbD 31 && !v.getLsbD 0 then .error .generalProtection else .ok t) >>=
        (System.loadCs · 0) := by
    refine ⟨{ (((s.setAx DATA16_SEGMENT).loadDataSegments DATA16_SEGMENT).setEax s.cr0).setAl
      (s.cr0.setWidth 8 &&& s.mem maskAddr) with cr0 := v }, rfl, ?_⟩
    rw [← hwritten 31 (by decide) (by decide), ← hwritten 0 (by decide) (by decide), hv]
    rfl
  rw [← hv, hclear, ← hpaging]
  have hjump : t.loadCs 0 =
      if v.getLsbD 0 then .error .generalProtection else .ok { t with cs := 0 } := by
    rw [System.loadCs_null, System.protectedMode, ht]
  cases h31 : v.getLsbD 31 <;> cases h0 : v.getLsbD 0 <;> rw [h0] at hjump
  · exact .inl ⟨rfl, rfl, { t with cs := 0 }, hjump, ht⟩
  · exact .inr ⟨.inr rfl, hjump⟩
  · exact .inr ⟨.inl rfl, rfl⟩
  · exact .inr ⟨.inl rfl, hjump⟩

/-- **Back in protected mode**, always, with the environment that is found at `_temp`, and with the
other registers as they are. -/
theorem leaveRealMode_spec (_temp : Addr) (s : System) :
    ∃ returned eip, leaveRealMode _temp s = .ok (returned, eip) ∧ returned.cr0 = s.cr0 ||| 1 ∧
      eip = s.mem.read32 _temp ∧ returned.regs.ebp = s.mem.read32 (_temp + 4) ∧
      returned.regs.esp = s.mem.read32 (_temp + 8) ∧ returned.regs.ebx = s.regs.ebx ∧
      returned.regs.esi = s.regs.esi ∧ returned.regs.edi = s.regs.edi := by
  have hbit : (s.cr0 ||| 1).getLsbD 0 = true := by
    rw [BitVec.getLsbD_or, getLsbD_one]
    simp
  change ∃ returned eip, (System.setCr0 _ (s.cr0 ||| 1) >>= fun t ↦ t.loadCs CODE32_SEGMENT >>= _) =
    Except.ok (returned, eip) ∧ _
  rw [System.setCr0_of_pe _ hbit]
  change ∃ returned eip, (System.loadCs _ CODE32_SEGMENT >>= _) = Except.ok (returned, eip) ∧ _
  rw [System.loadCs_of_ne_null _ (by decide)]
  refine ⟨_, _, rfl, System.writtenCr0_or_one s.cr0, ?_, rfl, ?_, rfl, rfl, rfl⟩
  · change (s.mem.write32 (s.mem.read32 (_temp + 8) - 4) (s.mem.read32 _temp)).read32
      (s.mem.read32 (_temp + 8) - 4 + addr 0) = s.mem.read32 _temp
    rw [BitVec.add_zero]
    exact Mem.readLE_writeLE (n := 4) _ (by decide) _ _
  · change s.mem.read32 (_temp + 8) - 4 + 4 = s.mem.read32 (_temp + 8)
    exact BitVec.sub_add_cancel _ _

/-- Out of protected mode nothing but `%eax` is changed. -/
theorem clearPE_frame {t : System} (h : clearPE s = .ok t) :
    t.mem = s.mem ∧ t.regs = { s.regs with eax := t.regs.eax } := by
  change (System.setCr0 _ _ >>= fun u ↦ System.loadCs u 0) = Except.ok t at h
  rw [bind_eq_ok_iff] at h
  obtain ⟨u, hset, hload⟩ := h
  rw [System.eq_of_loadCs hload, System.eq_of_setCr0 hset]
  exact ⟨rfl, rfl⟩

/-- The environment is saved at `_temp` and nowhere else. -/
theorem eqOn_saveEnvironment (_temp : Addr) (s : System) :
    Mem.EqOn (fun x ↦ ¬ Mem.Range _temp 12 x) s.mem (saveEnvironment _temp s).mem := by
  have hword : ∀ (m : Mem) (w : BitVec 32) {j : ℕ}, j + 4 ≤ 12 →
      Mem.EqOn (fun x ↦ ¬ Mem.Range _temp 12 x) m (m.write32 (_temp + addr j) w) :=
    fun m w j hj ↦ Mem.eqOn_write fun x hx hout ↦ hout (hx.of_part hj (by decide))
  have hfirst := hword s.mem (s.top 0) (Nat.le_of_ble_eq_true rfl : 0 + 4 ≤ 12)
  rw [BitVec.add_zero] at hfirst
  exact hfirst.trans ((hword _ _ (by decide)).trans (hword _ _ (by decide)))

/-! ## The whole call -/

variable {function : Addr → System → System} {run : RealModeRun}

/-- What a call that comes to its end has gone through. -/
theorem realModeCall_eq_ok_iff : realModeCall _temp returnAddr function s = .ok run ↔
    ∃ t, clearPE { saveEnvironment _temp s with cs := CODE16_SEGMENT } = .ok t ∧
      run.entered = enterFunction returnAddr t ∧
      leaveRealMode _temp (function run.entered.regs.eax run.entered) =
        .ok (run.returned, run.eip) := by
  rw [realModeCall, System.loadCs_of_ne_null _ (by decide)]
  change (clearPE _ >>= _) = _ ↔ _
  rw [bind_eq_ok_iff]
  refine exists_congr fun t ↦ and_congr_right fun _ ↦ ?_
  change (leaveRealMode _temp _ >>= _) = _ ↔ _
  rw [bind_eq_ok_iff]
  constructor
  · rintro ⟨⟨returned, eip⟩, hleave, ⟨⟩⟩
    exact ⟨rfl, hleave⟩
  · rintro ⟨hentered, hleave⟩
    rw [hentered] at hleave
    refine ⟨(run.returned, run.eip), hleave, ?_⟩
    rw [← hentered]
    rfl

/-- **Back at the caller**, with its stack, if the words at `_temp` are still there when the 16-bit
function has returned. -/
theorem realModeCall_caller (hrun : realModeCall _temp returnAddr function s = .ok run)
    (hkept : ∀ i < 3,
      (function run.entered.regs.eax run.entered).mem.read32 (_temp + addr (4 * i)) =
        (saveEnvironment _temp s).mem.read32 (_temp + addr (4 * i))) :
    run.eip = s.top 0 ∧ run.returned.regs.ebp = s.regs.ebp ∧
      run.returned.regs.esp = s.regs.esp + 4 := by
  have hsaved := saveEnvironment_temp _temp s
  obtain ⟨t, -, -, hleave⟩ := realModeCall_eq_ok_iff.mp hrun
  obtain ⟨returned, eip, hleave', -, heip, hebp, hesp, -⟩ :=
    leaveRealMode_spec _temp (function run.entered.regs.eax run.entered)
  obtain ⟨hreturned, hto⟩ := Prod.mk.inj (Except.ok.inj (hleave.symm.trans hleave'))
  have h₀ := hkept 0 (by decide)
  rw [Nat.mul_zero, BitVec.add_zero] at h₀
  rw [hto, hreturned, heip, hebp, hesp, h₀]
  rw [words_cons, words_cons, words_cons, BitVec.add_assoc] at hsaved
  exact ⟨hsaved.1, (hkept 1 (by decide)).trans hsaved.2.1,
    (hkept 2 (by decide)).trans hsaved.2.2.1⟩

/-- **The state in which the 16-bit function begins**: its return address is on top of the stack, in
the place of its own address, and the registers are those of the caller. -/
theorem realModeCall_entered (hrun : realModeCall _temp returnAddr function s = .ok run) :
    run.entered.regs.ebx = s.regs.ebx ∧ run.entered.regs.esi = s.regs.esi ∧
      run.entered.regs.edi = s.regs.edi ∧
      run.entered.regs.esp.setWidth 16 = (s.regs.esp + 4).setWidth 16 ∧
      run.entered.mem = (saveEnvironment _temp s).mem.write32
        (((s.regs.esp + 4).setWidth 16).setWidth 32) returnAddr := by
  obtain ⟨t, hclear, hentered, -⟩ := realModeCall_eq_ok_iff.mp hrun
  obtain ⟨hmem, hregs⟩ := clearPE_frame hclear
  have hesp : t.regs.esp = s.regs.esp + 4 := by rw [hregs]; rfl
  have hebx : t.regs.ebx = s.regs.ebx := by rw [hregs]; rfl
  have hesi : t.regs.esi = s.regs.esi := by rw [hregs]; rfl
  have hedi : t.regs.edi = s.regs.edi := by rw [hregs]; rfl
  have hpop : ∀ v : BitVec 16, v + 4#16 - 4#16 = v := fun v ↦ BitVec.add_sub_cancel v _
  rw [hentered, enterFunction]
  refine ⟨?_, ?_, ?_, ?_, ?_⟩
  · simp [System.setAx, hebx]
  · simp [System.setAx, hesi]
  · simp [System.setAx, hedi]
  · simp [System.setAx, hesp, hpop]
  · simp [System.setAx, hesp, hpop, hmem]

theorem enterFunction_cr0 (s : System) : (enterFunction returnAddr s).cr0 = s.cr0 := rfl

/-- **When the call switches modes.**  The 16-bit function leaves `%cr0` alone, and `_temp`, in the
image of stage1, is not where the byte of the heap is that serves as a mask. -/
theorem realModeCall_switches_iff (hpe : s.protectedMode = true)
    (htemp : 12 ≤ (maskAddr - _temp).toNat) (hfunction : ∀ p t, (function p t).cr0 = t.cr0) :
    (∃ run, realModeCall _temp returnAddr function s = .ok run ∧ SwitchesMode s run) ↔
      s.cr0.getLsbD 31 = false ∧ (s.mem maskAddr).getLsbD 0 = false ∧
        ∀ i, 1 ≤ i → i < 8 → i ≠ 4 → s.cr0.getLsbD i = true →
          (s.mem maskAddr).getLsbD i = true := by
  have hmask := saveEnvironment_mask (s := s) htemp
  have hcases := clearPE_cases { saveEnvironment _temp s with cs := CODE16_SEGMENT }
  change ((s.cr0.getLsbD 31 = false ∧
      (maskedCr0 s.cr0 ((saveEnvironment _temp s).mem maskAddr)).getLsbD 0 = false ∧
        ∃ t : System, _ ∧ t.cr0 = maskedCr0 s.cr0 ((saveEnvironment _temp s).mem maskAddr)) ∨
      ((s.cr0.getLsbD 31 = true ∨
        (maskedCr0 s.cr0 ((saveEnvironment _temp s).mem maskAddr)).getLsbD 0 = true) ∧ _)) at hcases
  rw [hmask] at hcases
  constructor
  · rintro ⟨run, hrun, hswitches⟩
    obtain ⟨t, hclear, hentered, -⟩ := realModeCall_eq_ok_iff.mp hrun
    obtain ⟨hpaging, -, t', hclear', hcr0⟩ | ⟨-, hfault⟩ := hcases
    · obtain rfl : t = t' := Except.ok.inj (hclear.symm.trans hclear')
      refine ⟨hpaging, (maskedCr0_eq_iff hpe).mp ?_⟩
      rw [← hcr0, ← hswitches.entered, hentered, enterFunction_cr0]
    · rw [hfault] at hclear
      cases hclear
  · rintro ⟨hpaging, hrest⟩
    have hcleared := (maskedCr0_eq_iff hpe).mpr hrest
    obtain ⟨-, -, t, hclear, hcr0⟩ | ⟨hpe' | hpe', -⟩ := hcases
    · obtain ⟨entered, hentered⟩ : ∃ entered, entered = enterFunction returnAddr t := ⟨_, rfl⟩
      have hswitched : entered.cr0 = s.cr0 &&& ~~~1 := by
        rw [hentered, enterFunction_cr0, hcr0, hcleared]
      obtain ⟨returned, eip, hleave, hback, -⟩ :=
        leaveRealMode_spec _temp (function entered.regs.eax entered)
      refine ⟨⟨entered, returned, eip⟩, realModeCall_eq_ok_iff.mpr ⟨t, hclear, hentered, hleave⟩,
        hswitched, ?_⟩
      rw [hback, hfunction, hswitched, and_not_one_or_one hpe]
    · rw [hpaging] at hpe'
      cases hpe'
    · rw [hcleared, BitVec.getLsbD_and, getLsbD_not_one (by decide)] at hpe'
      simp at hpe'

/-- Protected mode, and a byte at `maskAddr`. -/
def maskExample (mask : Byte) : System where
  regs := ⟨0, 0, 0, 0, 0x7000, 0x7010, 0, 0⟩
  mem := fun a ↦ if a = maskAddr then mask else 0
  cr0 := 0x11
  cs := CODE32_SEGMENT
  ds := DATA32_SEGMENT
  es := DATA32_SEGMENT
  fs := DATA32_SEGMENT
  gs := DATA32_SEGMENT
  ss := DATA32_SEGMENT

/-- A byte of the heap that happens to be the mask. -/
theorem realModeCall_switches_example :
    ∃ run, realModeCall 0x2000 0x2040 (fun _ t ↦ t) (maskExample 0xee) = .ok run ∧
      SwitchesMode (maskExample 0xee) run := by
  have hbits : ∀ i < 8, 1 ≤ i → i ≠ 4 → (maskExample 0xee).cr0.getLsbD i = true →
      ((maskExample 0xee).mem maskAddr).getLsbD i = true := by decide
  exact (realModeCall_switches_iff rfl (by decide) fun _ _ ↦ rfl).mpr
    ⟨by decide, by decide, fun i hpos hi ↦ hbits i hi hpos⟩

/-- A byte with bit 0 set: PE stays set, and the jump to the segment 0 is refused. -/
theorem realModeCall_not_switches :
    ¬ ∃ run, realModeCall 0x2000 0x2040 (fun _ t ↦ t) (maskExample 0xff) = .ok run ∧
      SwitchesMode (maskExample 0xff) run := by
  rintro ⟨run, hrun, -⟩
  obtain ⟨t, hclear, -⟩ := realModeCall_eq_ok_iff.mp hrun
  obtain ⟨-, hpe, -⟩ | ⟨-, hfault⟩ :=
    clearPE_cases { saveEnvironment 0x2000 (maskExample 0xff) with cs := CODE16_SEGMENT }
  · revert hpe
    decide
  · rw [hfault] at hclear
    cases hclear

end RainbowOS
