import RainbowOS.Lib.X86

/-!
# Is there a CPUID instruction: `checkCPUID.S`

The function flips bit 21 of `%eflags` and looks whether it stays flipped.

* `check_CPUID_available_spec` — the answer is right, and the flags are as they were.
-/

set_option autoImplicit false

namespace RainbowOS

open X86

/-! ## The flags -/

/-- The general registers, the memory and `%eflags`. -/
structure FlagCpu extends Cpu where
  eflags : BitVec 32

namespace FlagCpu

/-- The flags that are pushed: two of them, RF and VM, always as 0. -/
def pushed (eflags : BitVec 32) : BitVec 32 := eflags &&& 0x00fcffff

/-- `pushl`. -/
def pushl (s : FlagCpu) (w : BitVec 32) : FlagCpu := { s with toCpu := s.toCpu.push w }

/-- `popl %eax`. -/
def popEax (s : FlagCpu) : FlagCpu :=
  { s with toCpu := ⟨{ s.regs with eax := s.top 0, esp := s.regs.esp + 4 }, s.mem⟩ }

/-- `mov …, %eax`. -/
def setEax (s : FlagCpu) (v : BitVec 32) : FlagCpu :=
  { s with toCpu := { s.toCpu with regs := { s.regs with eax := v } } }

/-- `mov …, %ecx`. -/
def setEcx (s : FlagCpu) (v : BitVec 32) : FlagCpu :=
  { s with toCpu := { s.toCpu with regs := { s.regs with ecx := v } } }

/-- `pushfl`. -/
def pushfl (s : FlagCpu) : FlagCpu := s.pushl (pushed s.eflags)

/-- `popfl`, on a processor on which these bits can be written. -/
def popfl (writable : BitVec 32) (s : FlagCpu) : FlagCpu where
  toCpu := s.toCpu.addEsp 4
  eflags := (s.eflags &&& ~~~writable) ||| (s.top 0 &&& writable)

end FlagCpu

open FlagCpu

/-- `check_CPUID_available`, up to its `ret`.  The status flags, which the comparison sets, are left
out. -/
def check_CPUID_available (writable : BitVec 32) (s : FlagCpu) : FlagCpu :=
  let s := s.pushfl.popEax
  let s := s.setEcx s.regs.eax
  let s := s.setEax (s.regs.eax ^^^ (1 <<< 21))
  let s := (s.pushl s.regs.eax).popfl writable
  let s := s.pushfl.popEax
  let s := (s.pushl s.regs.ecx).popfl writable
  if s.regs.eax = s.regs.ecx then s.setEax 0 else s.setEax 1

/-! ## The answer -/

/-- What is pushed is what is popped. -/
theorem top_push (s : Cpu) (w : BitVec 32) : (s.push w).top 0 = w := by
  refine (congrArg (s.push w).mem.read32 (BitVec.add_zero _)).trans ?_
  exact Mem.readLE_writeLE (n := 4) _ (by decide) _ _

/-- A push and a pop, one behind the other: only the four bytes below the stack have changed. -/
structure Balanced (s t : FlagCpu) : Prop where
  esp : t.regs.esp = s.regs.esp
  ebx : t.regs.ebx = s.regs.ebx
  ebp : t.regs.ebp = s.regs.ebp
  esi : t.regs.esi = s.regs.esi
  edi : t.regs.edi = s.regs.edi
  mem : ∀ x, ¬ Mem.Range (s.regs.esp - 4) 4 x → t.mem x = s.mem x

variable {s t u : FlagCpu}

theorem Balanced.trans (h : Balanced s t) (h' : Balanced t u) : Balanced s u where
  esp := h'.esp.trans h.esp
  ebx := h'.ebx.trans h.ebx
  ebp := h'.ebp.trans h.ebp
  esi := h'.esi.trans h.esi
  edi := h'.edi.trans h.edi
  mem x hx := (h'.mem x (by rwa [h.esp])).trans (h.mem x hx)

theorem balanced_pushfl_popEax (s : FlagCpu) : Balanced s s.pushfl.popEax where
  esp := BitVec.sub_add_cancel _ _
  ebx := rfl
  ebp := rfl
  esi := rfl
  edi := rfl
  mem _ hx := Mem.write_of_not_mem hx

theorem balanced_pushl_popfl (writable w : BitVec 32) (s : FlagCpu) :
    Balanced s ((s.pushl w).popfl writable) where
  esp := BitVec.sub_add_cancel _ _
  ebx := rfl
  ebp := rfl
  esi := rfl
  edi := rfl
  mem _ hx := Mem.write_of_not_mem hx

theorem eax_pushfl_popEax (s : FlagCpu) : s.pushfl.popEax.regs.eax = pushed s.eflags :=
  top_push s.toCpu _

theorem eflags_pushl_popfl (writable w : BitVec 32) (s : FlagCpu) :
    ((s.pushl w).popfl writable).eflags = (s.eflags &&& ~~~writable) ||| (w &&& writable) := by
  rw [popfl]
  exact congrArg (fun v ↦ (s.eflags &&& ~~~writable) ||| (v &&& writable)) (top_push s.toCpu w)

/-- Of the flags that are pushed, the processor can write no others. -/
def Writable (writable : BitVec 32) : Prop := writable &&& 0x00fcffff = writable

/-- Writing back what was pushed changes nothing. -/
theorem restored {writable : BitVec 32} (hwritable : Writable writable) (eflags w : BitVec 32) :
    (((eflags &&& ~~~writable) ||| (w &&& writable)) &&& ~~~writable) |||
      (pushed eflags &&& writable) = eflags := by
  have hpushed : pushed eflags &&& writable = eflags &&& writable := by
    rw [pushed, BitVec.and_assoc, BitVec.and_comm 0x00fcffff, hwritable]
  rw [hpushed]
  refine BitVec.eq_of_getLsbD_eq fun i hi ↦ ?_
  simp only [BitVec.getLsbD_or, BitVec.getLsbD_and, BitVec.getLsbD_not, hi, decide_true,
    Bool.true_and]
  cases eflags.getLsbD i <;> cases writable.getLsbD i <;> cases w.getLsbD i <;> rfl

/-- The flipped bit stays flipped just if it can be written. -/
theorem flipped_eq_iff {writable : BitVec 32} (hwritable : Writable writable)
    (eflags : BitVec 32) :
    pushed ((eflags &&& ~~~writable) ||| ((pushed eflags ^^^ (1 <<< 21)) &&& writable)) =
      pushed eflags ↔ writable.getLsbD 21 = false := by
  have hbit : ∀ i < 32, (0x00fcffff : BitVec 32).getLsbD i = decide (i ≠ 16 ∧ i ≠ 17 ∧ i < 24) := by
    decide
  have hflip : ∀ i < 32, (1 <<< 21 : BitVec 32).getLsbD i = decide (i = 21) := by decide
  constructor
  · intro heq
    have h21 := congrArg (BitVec.getLsbD · 21) heq
    simp only [pushed, BitVec.getLsbD_or, BitVec.getLsbD_and, BitVec.getLsbD_not,
      BitVec.getLsbD_xor, hbit 21 (by decide), hflip 21 (by decide)] at h21
    revert h21
    cases eflags.getLsbD 21 <;> cases writable.getLsbD 21 <;> decide
  · intro hfixed
    refine BitVec.eq_of_getLsbD_eq fun i hi ↦ ?_
    have hw : i = 21 → writable.getLsbD i = false := fun h ↦ h ▸ hfixed
    have hw' := congrArg (BitVec.getLsbD · i) hwritable
    simp only [BitVec.getLsbD_and, hbit i hi] at hw'
    simp only [pushed, BitVec.getLsbD_or, BitVec.getLsbD_and, BitVec.getLsbD_not,
      BitVec.getLsbD_xor, hbit i hi, hflip i hi, hi, decide_true, Bool.true_and]
    by_cases h21 : i = 21
    · rw [hw h21]
      simp
    · rw [decide_eq_false h21]
      cases eflags.getLsbD i <;> cases writable.getLsbD i <;> simp

/-- **The answer** is right, the flags are as they were, and nothing has changed in memory but the
four bytes below the stack. -/
theorem check_CPUID_available_spec {writable : BitVec 32} (hwritable : Writable writable)
    (s : FlagCpu) :
    (check_CPUID_available writable s).regs.eax = (if writable.getLsbD 21 then 1 else 0) ∧
      (check_CPUID_available writable s).eflags = s.eflags ∧
      Balanced s (check_CPUID_available writable s) := by
  obtain ⟨t, ht⟩ : ∃ t, t = (s.pushfl.popEax.setEcx s.pushfl.popEax.regs.eax).setEax
    (s.pushfl.popEax.regs.eax ^^^ (1 <<< 21)) := ⟨_, rfl⟩
  have heax_t : t.regs.eax = pushed s.eflags ^^^ (1 <<< 21) := by
    rw [ht, ← eax_pushfl_popEax s]
    rfl
  have hecx_t : t.regs.ecx = pushed s.eflags := by
    rw [ht, ← eax_pushfl_popEax s]
    rfl
  have heflags_t : t.eflags = s.eflags := ht ▸ rfl
  have hbalanced_t : Balanced s t := by
    have h := balanced_pushfl_popEax s
    exact ht ▸ ⟨h.esp, h.ebx, h.ebp, h.esi, h.edi, h.mem⟩
  obtain ⟨u, hu⟩ : ∃ u, u = (t.pushl t.regs.eax).popfl writable := ⟨_, rfl⟩
  have heflags_u : u.eflags =
      (s.eflags &&& ~~~writable) ||| ((pushed s.eflags ^^^ (1 <<< 21)) &&& writable) := by
    rw [hu, eflags_pushl_popfl, heax_t, heflags_t]
  have hecx_u : u.regs.ecx = pushed s.eflags := by
    rw [← hecx_t, hu]
    rfl
  have hbalanced_u : Balanced s u := hbalanced_t.trans (hu ▸ balanced_pushl_popfl _ _ t)
  obtain ⟨v, hv⟩ : ∃ v, v = (u.pushfl.popEax.pushl u.pushfl.popEax.regs.ecx).popfl writable :=
    ⟨_, rfl⟩
  have heax_v : v.regs.eax = pushed u.eflags := by
    rw [hv, ← eax_pushfl_popEax u]
    rfl
  have hecx_v : v.regs.ecx = pushed s.eflags := by
    rw [← hecx_u, hv]
    rfl
  have heflags_v : v.eflags = s.eflags := by
    have hu' : u.pushfl.popEax.eflags = u.eflags := rfl
    have hecx : u.pushfl.popEax.regs.ecx = u.regs.ecx := rfl
    rw [hv, eflags_pushl_popfl, hu', hecx, hecx_u, heflags_u]
    exact restored hwritable _ _
  have hbalanced_v : Balanced s v :=
    (hbalanced_u.trans (balanced_pushfl_popEax u)).trans (hv ▸ balanced_pushl_popfl _ _ _)
  have hcheck : check_CPUID_available writable s =
      if v.regs.eax = v.regs.ecx then v.setEax 0 else v.setEax 1 := by
    rw [hv, hu, ht]
    rfl
  rw [hcheck, heax_v, hecx_v, heflags_u]
  have hiff := flipped_eq_iff hwritable s.eflags
  have hsame : ∀ w, Balanced s (v.setEax w) := fun w ↦
    ⟨hbalanced_v.esp, hbalanced_v.ebx, hbalanced_v.ebp, hbalanced_v.esi, hbalanced_v.edi,
      hbalanced_v.mem⟩
  cases hid : writable.getLsbD 21 with
  | true =>
    rw [if_neg (fun h ↦ by rw [hiff.mp h] at hid; cases hid), if_pos rfl]
    exact ⟨rfl, heflags_v, hsame 1⟩
  | false =>
    rw [if_pos (hiff.mpr hid), if_neg Bool.false_ne_true]
    exact ⟨rfl, heflags_v, hsame 0⟩

end RainbowOS
