import RainbowOS.Lib.Memory

/-!
# The i386 as the entry code sees it

The general registers, the stack and the way in and out of an interrupt, with all segments
beginning at 0.  An instruction is a function on the state; an instruction that can be refused gives
a fault instead.

* `Cpu.Stack s ws` — the words `ws` are on the stack, the first one on top.  `Cpu.Stack.push`,
  `Cpu.Stack.pushal`, `Cpu.Stack.popal` and `Cpu.Stack.discard` say what the instructions do to
  them; nothing is assumed about where the stack is, it may even wrap around the address space.
* `System` adds the control register `%cr0` and the segment registers.  Its bit 0 is protected mode,
  which cannot be left with paging on, and in which a null selector cannot be loaded into `%cs`.
-/

set_option autoImplicit false

namespace X86

/-! ## Registers and stack -/

/-- The general registers. -/
structure Regs where
  eax : BitVec 32
  ecx : BitVec 32
  edx : BitVec 32
  ebx : BitVec 32
  esp : BitVec 32
  ebp : BitVec 32
  esi : BitVec 32
  edi : BitVec 32
  deriving DecidableEq, Repr

/-- The general registers and the memory. -/
structure Cpu where
  regs : Regs
  mem : Mem

/-- The words are in memory, one behind the other. -/
def Words (m : Mem) (p : Addr) (ws : List (BitVec 32)) : Prop :=
  ∀ i (hi : i < ws.length), m.read32 (p + addr (4 * i)) = ws[i]

namespace Cpu

/-- `pushl w`. -/
def push (s : Cpu) (w : BitVec 32) : Cpu where
  regs := { s.regs with esp := s.regs.esp - 4 }
  mem := s.mem.write32 (s.regs.esp - 4) w

/-- `pushal`: the stack pointer is pushed as it was before. -/
def pushal (s : Cpu) : Cpu :=
  let s₁ := (((s.push s.regs.eax).push s.regs.ecx).push s.regs.edx).push s.regs.ebx
  (((s₁.push s.regs.esp).push s.regs.ebp).push s.regs.esi).push s.regs.edi

/-- The word at an offset from the top of the stack. -/
def top (s : Cpu) (offset : ℕ) : BitVec 32 := s.mem.read32 (s.regs.esp + addr offset)

/-- `popal`: the stack pointer that was pushed is passed over. -/
def popal (s : Cpu) : Cpu where
  regs :=
    { edi := s.top 0, esi := s.top 4, ebp := s.top 8, esp := s.regs.esp + 32, ebx := s.top 16
      edx := s.top 20, ecx := s.top 24, eax := s.top 28 }
  mem := s.mem

/-- `add $n, %esp`. -/
def addEsp (s : Cpu) (n : BitVec 32) : Cpu :=
  { s with regs := { s.regs with esp := s.regs.esp + n } }

/-- The words on the stack. -/
def Stack (s : Cpu) (ws : List (BitVec 32)) : Prop := Words s.mem s.regs.esp ws

end Cpu

/-! ## Interrupts -/

/-- What an interrupt saves. -/
structure Context where
  eip : BitVec 32
  cs : BitVec 32
  eflags : BitVec 32
  deriving DecidableEq, Repr

/-- An interrupt without a change of privilege; some of them push an error code. -/
def Cpu.interrupt (s : Cpu) (ctx : Context) (errorCode : Option (BitVec 32)) : Cpu :=
  let s := ((s.push ctx.eflags).push ctx.cs).push ctx.eip
  match errorCode with
  | none => s
  | some code => s.push code

/-- `iret`: what it goes back to, and the state there. -/
def Cpu.iret (s : Cpu) : Context × Cpu := (⟨s.top 0, s.top 4, s.top 8⟩, s.addEsp 12)

/-! ## What the instructions do to the stack -/

variable {m : Mem} {p : Addr} {w : BitVec 32} {ws : List (BitVec 32)} {s : Cpu}

theorem words_nil (m : Mem) (p : Addr) : Words m p [] := fun _ hi ↦ absurd hi (Nat.not_lt_zero _)

theorem words_cons : Words m p (w :: ws) ↔ m.read32 p = w ∧ Words m (p + 4) ws := by
  have hshift : ∀ i, p + 4 + addr (4 * i) = p + addr (4 * (i + 1)) := fun i ↦ by bv_omega
  constructor
  · intro h
    refine ⟨by simpa using h 0 (Nat.succ_pos _), fun i hi ↦ ?_⟩
    rw [hshift]
    exact h (i + 1) (Nat.succ_lt_succ hi)
  · rintro ⟨hw, hws⟩ i hi
    cases i with
    | zero => simpa using hw
    | succ i =>
      rw [← hshift]
      exact hws i (Nat.lt_of_succ_lt_succ hi)

/-- A word is stored in front of others. -/
theorem Words.store (h : Words m p ws) (hlength : 4 * (ws.length + 1) ≤ 2 ^ 32) :
    Words (m.write32 (p - 4) w) (p - 4) (w :: ws) := by
  intro i hi
  cases i with
  | zero =>
    rw [Nat.mul_zero, BitVec.add_zero]
    exact Mem.readLE_writeLE (n := 4) m (by decide) _ w
  | succ i =>
    rw [List.length_cons] at hi
    have hp : p - 4 + addr (4 * (i + 1)) = p + addr (4 * i) := by bv_omega
    have hframe : (m.write32 (p - 4) w).read32 (p - 4 + addr (4 * (i + 1))) =
        m.read32 (p - 4 + addr (4 * (i + 1))) := by
      refine Mem.readLE_write_of_disjoint fun j hj ↦ ?_
      rw [add_addr_addr, add_ofNat_sub _ (by omega)]
      omega
    rw [hframe, hp, List.getElem_cons_succ]
    exact h i (by omega)

/-- A word is stored behind others. -/
theorem Words.snoc (h : Words m p ws) (hlength : 4 * (ws.length + 1) ≤ 2 ^ 32) :
    Words (m.write32 (p + addr (4 * ws.length)) w) p (ws ++ [w]) := by
  intro i hi
  rw [List.length_append, List.length_singleton] at hi
  by_cases hlast : i = ws.length
  · subst hlast
    rw [List.getElem_concat_length rfl]
    exact Mem.readLE_writeLE (n := 4) m (by decide) _ w
  · rw [List.getElem_append_left (by omega)]
    refine Eq.trans ?_ (h i (by omega))
    exact Mem.readLE_write_offset m p _ (.inl (by omega)) (by omega) (by omega)

/-- The words behind the first ones. -/
theorem Words.drop (vs : List (BitVec 32)) (h : Words m p (vs ++ ws)) :
    Words m (p + addr (4 * vs.length)) ws := by
  intro i hi
  have hword := h (vs.length + i) (by rw [List.length_append]; omega)
  rw [List.getElem_append_right (Nat.le_add_right _ _)] at hword
  rw [add_addr_addr, ← Nat.mul_add, hword]
  exact getElem_congr_idx (Nat.add_sub_cancel_left _ _)

theorem Cpu.esp_pushal (s : Cpu) : s.pushal.regs.esp = s.regs.esp - 32 := by
  change s.regs.esp - 4 - 4 - 4 - 4 - 4 - 4 - 4 - 4 = _
  bv_omega

namespace Cpu.Stack

theorem nil (s : Cpu) : s.Stack [] := words_nil _ _

theorem push (h : s.Stack ws) (hlength : 4 * (ws.length + 1) ≤ 2 ^ 32) :
    (s.push w).Stack (w :: ws) :=
  Words.store h hlength

theorem top_eq (h : s.Stack ws) {i : ℕ} (hi : i < ws.length) : s.top (4 * i) = ws[i] := h i hi

/-- The general registers are on the stack, the last one pushed on top. -/
theorem pushal (h : s.Stack ws) (hlength : 4 * (ws.length + 8) ≤ 2 ^ 32) :
    s.pushal.Stack (s.regs.edi :: s.regs.esi :: s.regs.ebp :: s.regs.esp :: s.regs.ebx ::
      s.regs.edx :: s.regs.ecx :: s.regs.eax :: ws) := by
  have h₄ := (((h.push (w := s.regs.eax) (by omega)).push (w := s.regs.ecx) (by simp; omega)).push
    (w := s.regs.edx) (by simp; omega)).push (w := s.regs.ebx) (by simp; omega)
  exact (((h₄.push (by simp; omega)).push (by simp; omega)).push (by simp; omega)).push
    (by simp; omega)

/-- They are taken back, whatever has become of the stack pointer that was pushed. -/
theorem popal {edi esi ebp esp ebx edx ecx eax : BitVec 32}
    (h : s.Stack (edi :: esi :: ebp :: esp :: ebx :: edx :: ecx :: eax :: ws)) :
    s.popal.regs = ⟨eax, ecx, edx, ebx, s.regs.esp + 32, ebp, esi, edi⟩ ∧ s.popal.Stack ws := by
  refine ⟨?_, Words.drop [edi, esi, ebp, esp, ebx, edx, ecx, eax] h⟩
  rw [Cpu.popal, Regs.mk.injEq]
  exact ⟨h.top_eq (i := 7) (by simp), h.top_eq (i := 6) (by simp), h.top_eq (i := 5) (by simp),
    h.top_eq (i := 4) (by simp), rfl, h.top_eq (i := 2) (by simp), h.top_eq (i := 1) (by simp),
    h.top_eq (i := 0) (by simp)⟩

/-- Words are dropped from the top. -/
theorem discard (vs : List (BitVec 32)) (h : s.Stack (vs ++ ws)) :
    (s.addEsp (addr (4 * vs.length))).Stack ws :=
  Words.drop vs h

/-- An interrupt saves its context, and the error code in front of it. -/
theorem interrupt (h : s.Stack ws) (hlength : 4 * (ws.length + 4) ≤ 2 ^ 32) (ctx : Context)
    (errorCode : Option (BitVec 32)) :
    (s.interrupt ctx errorCode).Stack
      (errorCode.toList ++ ctx.eip :: ctx.cs :: ctx.eflags :: ws) := by
  have h₃ := ((h.push (w := ctx.eflags) (by omega)).push (w := ctx.cs) (by simp; omega)).push
    (w := ctx.eip) (by simp; omega)
  cases errorCode with
  | none => exact h₃
  | some code => exact h₃.push (by simp; omega)

/-- `iret` goes back to a context on the stack. -/
theorem iret {ctx : Context} (h : s.Stack (ctx.eip :: ctx.cs :: ctx.eflags :: ws)) :
    s.iret.1 = ctx := by
  rw [Cpu.iret, Context.mk.injEq]
  exact ⟨h.top_eq (i := 0) (by simp), h.top_eq (i := 1) (by simp), h.top_eq (i := 2) (by simp)⟩

end Cpu.Stack

/-! ## What is below the stack -/

namespace Cpu

theorem sub_sub_addr (x p : Addr) (k : ℕ) : x - (p - addr k) = x - p + addr k := by
  bv_omega

/-- What is below an address is below it further down as well. -/
theorem range_below_add {x p : Addr} {n k : ℕ} (hnk : n + k < 2 ^ 32)
    (h : Mem.Range (p - addr n) n x) : Mem.Range (p - addr (n + k)) (n + k) x := by
  have hbottom : p - addr (n + k) = p - addr n - addr k := by bv_omega
  rw [Mem.Range] at h ⊢
  rw [hbottom, sub_sub_addr, BitVec.toNat_add, BitVec.toNat_ofNat]
  omega

/-- `n` bytes have been pushed: nothing else in memory has changed. -/
structure Pushed (n : ℕ) (s t : Cpu) : Prop where
  esp : t.regs.esp = s.regs.esp - addr n
  mem : ∀ x, ¬ Mem.Range (s.regs.esp - addr n) n x → t.mem x = s.mem x

namespace Pushed

variable {t u : Cpu} {n k : ℕ}

theorem push (s : Cpu) (w : BitVec 32) : Pushed 4 s (s.push w) :=
  ⟨rfl, fun _ hx ↦ Mem.write_of_not_mem hx⟩

theorem trans (h : Pushed n s t) (h' : Pushed k t u) (hnk : n + k < 2 ^ 32) :
    Pushed (n + k) s u := by
  have hbottom : s.regs.esp - addr n - addr k = s.regs.esp - addr (n + k) := by
    bv_omega
  refine ⟨by rw [h'.esp, h.esp, hbottom], fun x hx ↦ ?_⟩
  rw [h'.mem x, h.mem x fun hrange ↦ hx (range_below_add hnk hrange)]
  intro hrange
  rw [Mem.Range, h.esp, hbottom] at hrange
  exact hx (Nat.lt_of_lt_of_le hrange (Nat.le_add_left k n))

theorem snoc (h : Pushed n s t) (w : BitVec 32) (hn : n + 4 < 2 ^ 32) :
    Pushed (n + 4) s (t.push w) :=
  h.trans (push t w) hn

theorem pushal (s : Cpu) : Pushed 32 s s.pushal := by
  have h₁ := (push s s.regs.eax).snoc s.regs.ecx (by decide)
  have h₂ := (h₁.snoc s.regs.edx (by decide)).snoc s.regs.ebx (by decide)
  have h₃ := (h₂.snoc s.regs.esp (by decide)).snoc s.regs.ebp (by decide)
  have h₄ := (h₃.snoc s.regs.esi (by decide)).snoc s.regs.edi (by decide)
  exact h₄

end Pushed

end Cpu

/-! ## Modes -/

/-- Why an instruction is refused. -/
inductive Fault where
  /-- `#GP`. -/
  | generalProtection
  deriving DecidableEq, Repr

/-- The state with the registers that select the mode and the segments. -/
structure System extends Cpu where
  cr0 : BitVec 32
  cs : BitVec 16
  ds : BitVec 16
  es : BitVec 16
  fs : BitVec 16
  gs : BitVec 16
  ss : BitVec 16

namespace System

/-- PE, bit 0 of `%cr0`. -/
def protectedMode (s : System) : Bool := s.cr0.getLsbD 0

/-- What a write leaves in `%cr0`: bit 4, ET, is wired. -/
def writtenCr0 (cr0 v : BitVec 32) : BitVec 32 := v &&& ~~~0x10 ||| cr0 &&& 0x10

/-- A write to `%cr0`: there is no paging, bit 31, without protected mode. -/
def setCr0 (s : System) (v : BitVec 32) : Except Fault System :=
  if v.getLsbD 31 && !v.getLsbD 0 then .error .generalProtection
  else .ok { s with cr0 := writtenCr0 s.cr0 v }

/-- A far jump: in protected mode a null selector is refused.  The other selectors are taken to be
those of code segments. -/
def loadCs (s : System) (selector : BitVec 16) : Except Fault System :=
  if s.protectedMode && selector &&& 0xfffc == 0 then .error .generalProtection
  else .ok { s with cs := selector }

/-- The data segments are loaded, one after the other. -/
def loadDataSegments (s : System) (selector : BitVec 16) : System :=
  { s with ds := selector, es := selector, fs := selector, gs := selector, ss := selector }

/-- `mov imm, %eax` and the like. -/
def setEax (s : System) (v : BitVec 32) : System := { s with regs := { s.regs with eax := v } }

/-- `%eax` with another `%ax`. -/
def setAx (s : System) (v : BitVec 16) : System := s.setEax (s.regs.eax.extractLsb' 16 16 ++ v)

/-- `%eax` with another `%al`. -/
def setAl (s : System) (v : BitVec 8) : System := s.setEax (s.regs.eax.extractLsb' 8 24 ++ v)

/-- A 32-bit pop into `%eax`, with the stack pointer `%sp` of a 16-bit stack. -/
def popEax16 (s : System) : System :=
  let sp := s.regs.esp.setWidth 16
  let s := s.setEax (s.mem.read32 (sp.setWidth 32))
  { s with regs := { s.regs with esp := s.regs.esp.extractLsb' 16 16 ++ (sp + 4) } }

/-- A 32-bit push on a 16-bit stack. -/
def push16 (s : System) (w : BitVec 32) : System :=
  let sp := s.regs.esp.setWidth 16 - 4
  { s with
    regs := { s.regs with esp := s.regs.esp.extractLsb' 16 16 ++ sp }
    mem := s.mem.write32 (sp.setWidth 32) w }

/-- `%di`. -/
def di (s : System) : BitVec 16 := s.regs.edi.setWidth 16

/-- `%edi` with another `%di`. -/
def setDi (s : System) (v : BitVec 16) : System :=
  { s with regs := { s.regs with edi := s.regs.edi.extractLsb' 16 16 ++ v } }

/-- `%esi` with another `%si`. -/
def setSi (s : System) (v : BitVec 16) : System :=
  { s with regs := { s.regs with esi := s.regs.esi.extractLsb' 16 16 ++ v } }

/-- `mov …, %ebx`. -/
def setEbx (s : System) (v : BitVec 32) : System := { s with regs := { s.regs with ebx := v } }

/-- `mov …, %ecx`. -/
def setEcx (s : System) (v : BitVec 32) : System := { s with regs := { s.regs with ecx := v } }

/-- `mov …, %edx`. -/
def setEdx (s : System) (v : BitVec 32) : System := { s with regs := { s.regs with edx := v } }

/-- The word at `(%di)`, in a segment that begins at 0. -/
def loadDi (s : System) : BitVec 32 := s.mem.read32 (s.di.setWidth 32)

/-- `mov …, %es`. -/
def setEs (s : System) (v : BitVec 16) : System := { s with es := v }

/-- The state with another memory. -/
def setMem (s : System) (m : Mem) : System := { s with mem := m }

/-- `retl` on a 16-bit stack: the state behind it, and where it goes. -/
def ret16 (s : System) : System × Addr :=
  let sp := s.regs.esp.setWidth 16
  ({ s with regs := { s.regs with esp := s.regs.esp.extractLsb' 16 16 ++ (sp + 4) } },
    s.mem.read32 (sp.setWidth 32))

section registers

variable (s : System) (m : Mem) (v : BitVec 32) (x hi lo : BitVec 16)

@[simp] theorem setWidth_append_low : (hi ++ lo).setWidth 16 = lo := by
  rw [BitVec.setWidth_append]
  simp

@[simp] theorem extractLsb'_append_high : (hi ++ lo).extractLsb' 16 16 = hi := by
  rw [BitVec.extractLsb'_append_eq_of_le (Nat.le_refl 16)]
  simp

@[simp] theorem regs_setEax : (s.setEax v).regs = { s.regs with eax := v } := rfl
@[simp] theorem regs_setEbx : (s.setEbx v).regs = { s.regs with ebx := v } := rfl
@[simp] theorem regs_setEcx : (s.setEcx v).regs = { s.regs with ecx := v } := rfl
@[simp] theorem regs_setEdx : (s.setEdx v).regs = { s.regs with edx := v } := rfl

@[simp] theorem regs_setDi : (s.setDi x).regs =
    { s.regs with edi := s.regs.edi.extractLsb' 16 16 ++ x } := rfl

@[simp] theorem regs_setSi : (s.setSi x).regs =
    { s.regs with esi := s.regs.esi.extractLsb' 16 16 ++ x } := rfl

@[simp] theorem regs_setEs : (s.setEs x).regs = s.regs := rfl
@[simp] theorem regs_setMem : (s.setMem m).regs = s.regs := rfl

@[simp] theorem regs_loadDataSegments : (s.loadDataSegments x).regs = s.regs := rfl

@[simp] theorem regs_popEax16 : s.popEax16.regs = { s.regs with
    eax := s.mem.read32 ((s.regs.esp.setWidth 16).setWidth 32)
    esp := s.regs.esp.extractLsb' 16 16 ++ (s.regs.esp.setWidth 16 + 4) } := rfl

@[simp] theorem regs_push16 : (s.push16 v).regs = { s.regs with
    esp := s.regs.esp.extractLsb' 16 16 ++ (s.regs.esp.setWidth 16 - 4) } := rfl

@[simp] theorem mem_loadDataSegments : (s.loadDataSegments x).mem = s.mem := rfl
@[simp] theorem mem_popEax16 : s.popEax16.mem = s.mem := rfl

@[simp] theorem mem_push16 : (s.push16 v).mem =
    s.mem.write32 ((s.regs.esp.setWidth 16 - 4).setWidth 32) v := rfl

@[simp] theorem mem_setEax : (s.setEax v).mem = s.mem := rfl
@[simp] theorem mem_setEbx : (s.setEbx v).mem = s.mem := rfl
@[simp] theorem mem_setEcx : (s.setEcx v).mem = s.mem := rfl
@[simp] theorem mem_setEdx : (s.setEdx v).mem = s.mem := rfl
@[simp] theorem mem_setDi : (s.setDi x).mem = s.mem := rfl
@[simp] theorem mem_setSi : (s.setSi x).mem = s.mem := rfl
@[simp] theorem mem_setEs : (s.setEs x).mem = s.mem := rfl
@[simp] theorem mem_setMem : (s.setMem m).mem = m := rfl

@[simp] theorem mem_ret16 : s.ret16.1.mem = s.mem := rfl

@[simp] theorem regs_ret16 : s.ret16.1.regs =
    { s.regs with esp := s.regs.esp.extractLsb' 16 16 ++ (s.regs.esp.setWidth 16 + 4) } := rfl

@[simp] theorem ret16_snd :
    s.ret16.2 = s.mem.read32 ((s.regs.esp.setWidth 16).setWidth 32) := rfl

end registers

theorem getLsbD_writtenCr0 (cr0 v : BitVec 32) {i : ℕ} (hi : i < 32) :
    (writtenCr0 cr0 v).getLsbD i = if i = 4 then cr0.getLsbD i else v.getLsbD i := by
  have hbit : (0x10 : BitVec 32).getLsbD i = decide (i = 4) := by
    rw [show (0x10 : BitVec 32) = BitVec.twoPow 32 4 from rfl, BitVec.getLsbD_twoPow]
    by_cases h : i = 4
    · simp [h]
    · simp [h, Ne.symm h]
  rw [writtenCr0, BitVec.getLsbD_or, BitVec.getLsbD_and, BitVec.getLsbD_and, BitVec.getLsbD_not,
    hbit, decide_eq_true hi]
  by_cases h : i = 4
  · simp [h]
  · simp [h]

/-- A write that leaves ET alone is as it says. -/
theorem writtenCr0_of_et {cr0 v : BitVec 32} (h : v.getLsbD 4 = cr0.getLsbD 4) :
    writtenCr0 cr0 v = v := by
  refine BitVec.eq_of_getLsbD_eq fun i hi ↦ ?_
  rw [getLsbD_writtenCr0 cr0 v hi]
  split
  · rename_i hfour
    rw [hfour, h]
  · rfl

/-- So PE is set. -/
theorem writtenCr0_or_one (cr0 : BitVec 32) : writtenCr0 cr0 (cr0 ||| 1) = cr0 ||| 1 := by
  refine writtenCr0_of_et ?_
  rw [BitVec.getLsbD_or]
  exact Bool.or_false _

theorem setCr0_of_pe (s : System) {v : BitVec 32} (hpe : v.getLsbD 0 = true) :
    s.setCr0 v = .ok { s with cr0 := writtenCr0 s.cr0 v } := by
  rw [setCr0, hpe]
  simp

theorem eq_of_setCr0 {s u : System} {v : BitVec 32} (h : s.setCr0 v = .ok u) :
    u = { s with cr0 := writtenCr0 s.cr0 v } := by
  rw [setCr0] at h
  split at h
  · cases h
  · exact (Except.ok.inj h).symm

theorem eq_of_loadCs {s u : System} {selector : BitVec 16} (h : s.loadCs selector = .ok u) :
    u = { s with cs := selector } := by
  rw [loadCs] at h
  split at h
  · cases h
  · exact (Except.ok.inj h).symm

theorem loadCs_of_ne_null (s : System) {selector : BitVec 16} (hnull : selector &&& 0xfffc ≠ 0) :
    s.loadCs selector = .ok { s with cs := selector } := by
  rw [loadCs, beq_false_of_ne hnull, Bool.and_false]
  rfl

/-- The null selector is good for real mode only. -/
theorem loadCs_null (s : System) : s.loadCs 0 =
    if s.protectedMode then .error .generalProtection else .ok { s with cs := 0 } := by
  rw [loadCs]
  simp

end System

/-- Instructions one after the other get to their end if each does. -/
theorem bind_eq_ok_iff {α β : Type} {x : Except Fault α} {f : α → Except Fault β} {b : β} :
    x >>= f = .ok b ↔ ∃ a, x = .ok a ∧ f a = .ok b := by
  cases x with
  | error fault =>
    constructor
    · rintro ⟨⟩
    · rintro ⟨a, ⟨⟩, -⟩
  | ok a =>
    constructor
    · exact fun h ↦ ⟨a, rfl, h⟩
    · rintro ⟨a, ⟨⟩, h⟩
      exact h

end X86
