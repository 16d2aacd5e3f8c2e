import RainbowOS.Lib.X86

/-!
# Entering and leaving an interrupt: `interruptHandler.S`

Each of the 256 vectors has a handler, which pushes its number and goes on to one of two stubs.  The
handlers come from two macros: one for the vectors for which the processor pushes an error code, and
one that pushes a 0 in its place.  So `interruptHandler` finds the same structure on the stack for
every vector, and what is behind it is always the context that `iret` goes back to.

The C++ function is a parameter, a function on the state from its first instruction to its `ret`.
`interrupt_transparent` says that it is called with the right structure, and that the interrupted
program does not notice anything if the function leaves this structure as it was.
-/

set_option autoImplicit false

namespace RainbowOS

open X86

/-! ## The structure on the stack -/

/-- `cpu::pushad_frame`. -/
structure PushadFrame where
  edi : BitVec 32
  esi : BitVec 32
  ebp : BitVec 32
  esp : BitVec 32
  ebx : BitVec 32
  edx : BitVec 32
  ecx : BitVec 32
  eax : BitVec 32
  deriving DecidableEq, Repr

/-- `kernel::isr_frame_t`. -/
structure IsrFrame where
  pFrame : PushadFrame
  intNumber : BitVec 32
  errorCode : BitVec 32
  eip : BitVec 32
  cs : BitVec 32
  eflags : BitVec 32
  deriving DecidableEq, Repr

/-- The structure at `p`. -/
def readIsrFrame (m : Mem) (p : Addr) : IsrFrame where
  pFrame :=
    { edi := m.read32 p, esi := m.read32 (p + 4), ebp := m.read32 (p + 8)
      esp := m.read32 (p + 12), ebx := m.read32 (p + 16), edx := m.read32 (p + 20)
      ecx := m.read32 (p + 24), eax := m.read32 (p + 28) }
  intNumber := m.read32 (p + 32)
  errorCode := m.read32 (p + 36)
  eip := m.read32 (p + 40)
  cs := m.read32 (p + 44)
  eflags := m.read32 (p + 48)

/-! ## The handlers -/

/-- The states in which a stub calls `interruptHandler`, in which it executes `iret`, and what
`iret` does. -/
structure StubRun where
  called : Cpu
  atIret : Cpu
  resumed : Context × Cpu

section

variable (interruptHandler : Cpu → Cpu) (returnErr returnNoErr : Addr)

/-- The instructions of the two stubs, which differ in the address behind the call.  The `xchgw`
between them changes nothing. -/
def handlerStub (returnAddr : Addr) (s : Cpu) : StubRun :=
  let called := s.pushal.push returnAddr
  let atIret := (interruptHandler called).popal.addEsp 8
  ⟨called, atIret, atIret.iret⟩

/-- `_handler_stub_err`. -/
def handler_stub_err (s : Cpu) : StubRun := handlerStub interruptHandler returnErr s

/-- `_handler_stub_no_err`. -/
def handler_stub_no_err (s : Cpu) : StubRun := handlerStub interruptHandler returnNoErr s

/-- `CREATE_HANDLER_ERR number`. -/
def CREATE_HANDLER_ERR (number : BitVec 32) (s : Cpu) : StubRun :=
  handler_stub_err interruptHandler returnErr (s.push number)

/-- `CREATE_HANDLER_NO_ERR number`. -/
def CREATE_HANDLER_NO_ERR (number : BitVec 32) (s : Cpu) : StubRun :=
  handler_stub_no_err interruptHandler returnNoErr ((s.push 0).push number)

/-- Which macro creates a handler. -/
inductive HandlerMacro where
  | err
  | noErr
  deriving DecidableEq, Repr

/-- The handlers for the exceptions. -/
def exceptionHandlers : List (HandlerMacro × ℕ) :=
  [(.noErr, 0), (.noErr, 1), (.noErr, 2), (.noErr, 3), (.noErr, 4), (.noErr, 5), (.noErr, 6),
    (.noErr, 7), (.err, 8), (.noErr, 9), (.err, 10), (.err, 11), (.err, 12), (.err, 13),
    (.err, 14), (.noErr, 15), (.noErr, 16), (.err, 17), (.noErr, 18), (.noErr, 19), (.noErr, 20),
    (.err, 21), (.noErr, 22), (.noErr, 23), (.noErr, 24), (.noErr, 25), (.noErr, 26),
    (.noErr, 27), (.noErr, 28), (.err, 29), (.err, 30), (.noErr, 31)]

/-- The handlers in `interruptAutoGen.inc`. -/
def generatedHandlers : List (HandlerMacro × ℕ) :=
  (List.range' 32 224).map fun number ↦ (.noErr, number)

/-- `_handler_stub_table`: the numbers in the names of the handlers. -/
def handler_stub_table : List ℕ := List.range 256

/-- The code of a handler. -/
def handlerCode : HandlerMacro × ℕ → Cpu → StubRun
  | (.err, number) => CREATE_HANDLER_ERR interruptHandler returnErr (BitVec.ofNat 32 number)
  | (.noErr, number) => CREATE_HANDLER_NO_ERR interruptHandler returnNoErr (BitVec.ofNat 32 number)

/-- The handler that `_handler_stub_table[v]` points to. -/
def handlerOf (v : BitVec 8) : Option (HandlerMacro × ℕ) := do
  let name ← handler_stub_table[v.toNat]?
  (exceptionHandlers ++ generatedHandlers).find? fun handler ↦ handler.2 == name

end

/-- The vectors for which the processor pushes an error code. -/
def hasErrorCode (v : BitVec 8) : Bool := v ∈ [8, 10, 11, 12, 13, 14, 17, 21, 29, 30]

/-- The interrupt `v`, with the error code that it has, if it has one. -/
def deliver (v : BitVec 8) (ctx : Context) (code : BitVec 32) (s : Cpu) : Cpu :=
  s.interrupt ctx (if hasErrorCode v then some code else none)

/-- `interruptHandler` returns to its caller, and its argument is as it was. -/
structure LeavesFrame (interruptHandler : Cpu → Cpu) (called : Cpu) : Prop where
  returns : (interruptHandler called).regs.esp = called.regs.esp + 4
  frame : readIsrFrame (interruptHandler called).mem (called.regs.esp + 4) =
    readIsrFrame called.mem (called.regs.esp + 4)

/-! ## The frame -/

/-- The words of the structure. -/
def IsrFrame.words (f : IsrFrame) : List (BitVec 32) :=
  [f.pFrame.edi, f.pFrame.esi, f.pFrame.ebp, f.pFrame.esp, f.pFrame.ebx, f.pFrame.edx,
    f.pFrame.ecx, f.pFrame.eax, f.intNumber, f.errorCode, f.eip, f.cs, f.eflags]

variable {s : Cpu} {m : Mem} {p : Addr} {f : IsrFrame}

/-- The structure is read where its words are. -/
theorem readIsrFrame_eq_iff : readIsrFrame m p = f ↔ Words m p f.words := by
  obtain ⟨⟨edi, esi, ebp, esp, ebx, edx, ecx, eax⟩, intNumber, errorCode, eip, cs, eflags⟩ := f
  simp [IsrFrame.words, words_cons, words_nil, readIsrFrame, BitVec.add_assoc, and_assoc]

/-- Every vector has its own handler, made with the macro for what the processor pushes. -/
theorem handlerOf_eq (v : BitVec 8) :
    handlerOf v = some (if hasErrorCode v then .err else .noErr, v.toNat) := by
  have hname : handler_stub_table[v.toNat]? = some v.toNat := List.getElem?_range v.isLt
  rw [handlerOf, hname]
  change (exceptionHandlers ++ generatedHandlers).find? (fun handler ↦ handler.2 == v.toNat) = _
  rw [List.find?_append]
  by_cases hv : v.toNat < 32
  · have hexception : ∀ n < 32, exceptionHandlers.find? (fun handler ↦ handler.2 == n) =
        some (if hasErrorCode (BitVec.ofNat 8 n) then .err else .noErr, n) := by decide
    rw [hexception _ hv, BitVec.ofNat_toNat, BitVec.setWidth_eq, Option.some_or]
  · have hbelow : ∀ handler ∈ exceptionHandlers, handler.2 < 32 := by decide
    have hnone : exceptionHandlers.find? (fun handler ↦ handler.2 == v.toNat) = none := by
      refine List.find?_eq_none.mpr fun handler hmem heq ↦ hv ?_
      exact beq_iff_eq.mp heq ▸ hbelow handler hmem
    have hmem : (HandlerMacro.noErr, v.toNat) ∈ generatedHandlers :=
      List.mem_map.mpr ⟨v.toNat, by simp; omega, rfl⟩
    have hsome : (generatedHandlers.find? fun handler ↦ handler.2 == v.toNat).isSome :=
      List.find?_isSome.mpr ⟨_, hmem, beq_self_eq_true _⟩
    obtain ⟨handler, hfind⟩ := Option.isSome_iff_exists.mp hsome
    obtain ⟨number, -, rfl⟩ := List.mem_map.mp (List.mem_of_find?_eq_some hfind)
    have hnumber := List.find?_some hfind
    obtain rfl : number = v.toNat := beq_iff_eq.mp hnumber
    have hcode : hasErrorCode v = false := by
      have hsmall : ∀ w ∈ [(8 : BitVec 8), 10, 11, 12, 13, 14, 17, 21, 29, 30], w.toNat < 32 := by
        decide
      exact decide_eq_false fun hw ↦ hv (hsmall v hw)
    rw [hnone, hfind, hcode, Option.none_or]
    rfl

/-! ## The way through a stub -/

variable {interruptHandler : Cpu → Cpu} {returnErr returnNoErr returnAddr : Addr} {ctx : Context}

/-- **The way through a stub**, with the number and the error code on the stack in front of the
context: the function is called with the structure that it expects, and if this is left as it was,
the registers are restored and the stack is back at the context. -/
theorem handlerStub_spec (interruptHandler : Cpu → Cpu) (returnAddr : Addr) {t : Cpu}
    {number errorCode : BitVec 32}
    (hstack : t.Stack [number, errorCode, ctx.eip, ctx.cs, ctx.eflags]) :
    readIsrFrame (handlerStub interruptHandler returnAddr t).called.mem
        ((handlerStub interruptHandler returnAddr t).called.regs.esp + 4) =
      ⟨⟨t.regs.edi, t.regs.esi, t.regs.ebp, t.regs.esp, t.regs.ebx, t.regs.edx, t.regs.ecx,
        t.regs.eax⟩, number, errorCode, ctx.eip, ctx.cs, ctx.eflags⟩ ∧
    (LeavesFrame interruptHandler (handlerStub interruptHandler returnAddr t).called →
      (handlerStub interruptHandler returnAddr t).atIret.regs =
          { t.regs with esp := t.regs.esp + 8 } ∧
        (handlerStub interruptHandler returnAddr t).atIret.Stack
          [ctx.eip, ctx.cs, ctx.eflags]) := by
  have hpushed := hstack.pushal (by simp)
  have hcalled := hpushed.push (w := returnAddr) (by simp)
  obtain ⟨f, hf⟩ : ∃ f : IsrFrame, f = ⟨⟨t.regs.edi, t.regs.esi, t.regs.ebp, t.regs.esp, t.regs.ebx,
    t.regs.edx, t.regs.ecx, t.regs.eax⟩, number, errorCode, ctx.eip, ctx.cs, ctx.eflags⟩ := ⟨_, rfl⟩
  have hframe : readIsrFrame (t.pushal.push returnAddr).mem
      ((t.pushal.push returnAddr).regs.esp + 4) = f := by
    rw [readIsrFrame_eq_iff, hf]
    exact (words_cons.mp hcalled).2
  rw [← hf]
  refine ⟨hframe, fun hleaves ↦ ?_⟩
  obtain ⟨called, hc⟩ : ∃ called, called = t.pushal.push returnAddr := ⟨_, rfl⟩
  rw [handlerStub, ← hc] at hleaves ⊢
  rw [← hc] at hframe
  -- the function has returned to a stack on which its argument is on top
  have hreturned : (interruptHandler called).Stack f.words := by
    have hwords := readIsrFrame_eq_iff.mp (hleaves.frame.trans hframe)
    rwa [← hleaves.returns] at hwords
  rw [hf] at hreturned
  obtain ⟨hregs, hrest⟩ := hreturned.popal
  have hesp : (interruptHandler called).regs.esp + 32 = t.regs.esp := by
    rw [hleaves.returns, hc]
    change t.pushal.regs.esp - 4 + 4 + 32 = _
    rw [Cpu.esp_pushal]
    bv_omega
  refine ⟨?_, hrest.discard [number, errorCode]⟩
  rw [Cpu.addEsp, hregs, hesp]

/-- The state in which a stub is entered: the number, the error code and the context are on the
stack, and nothing has happened to the registers but to the stack pointer. -/
structure StubEntered (s t : Cpu) (number errorCode : BitVec 32) (ctx : Context) : Prop where
  stack : t.Stack [number, errorCode, ctx.eip, ctx.cs, ctx.eflags]
  regs : t.regs = { s.regs with esp := s.regs.esp - 20 }

theorem stubEntered_err (s : Cpu) (ctx : Context) (number code : BitVec 32) :
    StubEntered s ((s.interrupt ctx (some code)).push number) number code ctx := by
  refine ⟨((Cpu.Stack.nil s).interrupt (by simp) ctx (some code)).push (by simp), ?_⟩
  change ({ s.regs with esp := s.regs.esp - 4 - 4 - 4 - 4 - 4 } : Regs) = _
  rw [Regs.mk.injEq]
  refine ⟨rfl, rfl, rfl, rfl, by bv_omega, rfl, rfl, rfl⟩

theorem stubEntered_noErr (s : Cpu) (ctx : Context) (number : BitVec 32) :
    StubEntered s (((s.interrupt ctx none).push 0).push number) number 0 ctx := by
  refine ⟨(((Cpu.Stack.nil s).interrupt (by simp) ctx none).push (by simp)).push (by simp), ?_⟩
  change ({ s.regs with esp := s.regs.esp - 4 - 4 - 4 - 4 - 4 } : Regs) = _
  rw [Regs.mk.injEq]
  refine ⟨rfl, rfl, rfl, rfl, by bv_omega, rfl, rfl, rfl⟩

/-- The whole way, from the interrupt to the interrupted program. -/
theorem StubEntered.run {t : Cpu} {number errorCode : BitVec 32}
    (h : StubEntered s t number errorCode ctx) :
    (∃ esp, readIsrFrame (handlerStub interruptHandler returnAddr t).called.mem
        ((handlerStub interruptHandler returnAddr t).called.regs.esp + 4) =
      ⟨⟨s.regs.edi, s.regs.esi, s.regs.ebp, esp, s.regs.ebx, s.regs.edx, s.regs.ecx, s.regs.eax⟩,
        number, errorCode, ctx.eip, ctx.cs, ctx.eflags⟩) ∧
    (LeavesFrame interruptHandler (handlerStub interruptHandler returnAddr t).called →
      (handlerStub interruptHandler returnAddr t).atIret.regs =
          { s.regs with esp := s.regs.esp - 12 } ∧
        (handlerStub interruptHandler returnAddr t).atIret.Stack [ctx.eip, ctx.cs, ctx.eflags] ∧
        (handlerStub interruptHandler returnAddr t).resumed.1 = ctx ∧
        (handlerStub interruptHandler returnAddr t).resumed.2.regs = s.regs) := by
  obtain ⟨hframe, hback⟩ := handlerStub_spec interruptHandler returnAddr h.stack
  rw [h.regs] at hframe
  refine ⟨⟨_, hframe⟩, fun hleaves ↦ ?_⟩
  obtain ⟨hregs, hstack⟩ := hback hleaves
  have hatIret : (handlerStub interruptHandler returnAddr t).atIret.regs =
      { s.regs with esp := s.regs.esp - 12 } := by
    have hesp : s.regs.esp - 20 + 8 = s.regs.esp - 12 := by bv_omega
    rw [hregs, h.regs, hesp]
  have hresumed : (handlerStub interruptHandler returnAddr t).resumed.2.regs = s.regs := by
    have hesp : s.regs.esp - 12 + 12 = s.regs.esp := BitVec.sub_add_cancel _ _
    change ((handlerStub interruptHandler returnAddr t).atIret.addEsp 12).regs = _
    rw [Cpu.addEsp, hatIret, hesp]
  exact ⟨hatIret, hstack, hstack.iret, hresumed⟩

/-- **Interrupts are transparent.**  For every vector, `interruptHandler` is called with the
interrupted registers and context, the number of the vector and its error code; and if it returns
without changing this structure, `iret` finds the context on top of the stack and all other
registers as they were, so that the interrupted program goes on as if nothing had happened. -/
theorem interrupt_transparent (v : BitVec 8) (ctx : Context) (code : BitVec 32) (s : Cpu)
    (interruptHandler : Cpu → Cpu) (returnErr returnNoErr : Addr) :
    ∃ handler, handlerOf v = some handler ∧ ∃ run,
      run = handlerCode interruptHandler returnErr returnNoErr handler (deliver v ctx code s) ∧
      (∃ esp, readIsrFrame run.called.mem (run.called.regs.esp + 4) =
        ⟨⟨s.regs.edi, s.regs.esi, s.regs.ebp, esp, s.regs.ebx, s.regs.edx, s.regs.ecx, s.regs.eax⟩,
          v.setWidth 32, if hasErrorCode v then code else 0, ctx.eip, ctx.cs, ctx.eflags⟩) ∧
      (LeavesFrame interruptHandler run.called →
        run.atIret.regs = { s.regs with esp := s.regs.esp - 12 } ∧
          run.atIret.Stack [ctx.eip, ctx.cs, ctx.eflags] ∧
          run.resumed.1 = ctx ∧ run.resumed.2.regs = s.regs) := by
  refine ⟨_, handlerOf_eq v, _, rfl, ?_⟩
  rw [deliver, ← BitVec.ofNat_toNat]
  cases hasErrorCode v with
  | true => exact (stubEntered_err s ctx (BitVec.ofNat 32 v.toNat) code).run
  | false => exact (stubEntered_noErr s ctx (BitVec.ofNat 32 v.toNat)).run

/-- A function that returns at once, as on a spurious interrupt: with a page fault at `0x1000` it is
back where it came from. -/
theorem interrupt_transparent_return : ∃ handler run,
    handlerOf 14 = some handler ∧
      run = handlerCode (fun called ↦ called.addEsp 4) 0 0 handler
        (deliver 14 ⟨0x1000, 8, 0x202⟩ 2 ⟨⟨1, 2, 3, 4, 0x7ff0, 6, 7, 8⟩, fun _ ↦ 0⟩) ∧
      (readIsrFrame run.called.mem (run.called.regs.esp + 4)).errorCode = 2 ∧
      run.resumed.1 = ⟨0x1000, 8, 0x202⟩ ∧
      run.resumed.2.regs = ⟨1, 2, 3, 4, 0x7ff0, 6, 7, 8⟩ := by
  obtain ⟨handler, hhandler, run, hrun, ⟨esp, hframe⟩, hback⟩ :=
    interrupt_transparent 14 ⟨0x1000, 8, 0x202⟩ 2 ⟨⟨1, 2, 3, 4, 0x7ff0, 6, 7, 8⟩, fun _ ↦ 0⟩
      (fun called ↦ called.addEsp 4) 0 0
  obtain ⟨-, -, hctx, hregs⟩ := hback ⟨rfl, rfl⟩
  refine ⟨handler, run, hhandler, hrun, ?_, hctx, hregs⟩
  rw [hframe]
  rfl

end RainbowOS
