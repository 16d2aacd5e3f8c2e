import RainbowOS.EarlyLib.MemoryDetection
import RainbowOS.EarlyLib.RealMode

/-!
# The calling convention of `realModeCall`

A C++ function expects of the functions it calls that `%ebx`, `%esi`, `%edi` and `%ebp` are as they
were.  `realModeCall` saves `%ebp` only, and each of the three functions it is used with has its own
use for some of the others.

* `AsmCall.exec_spec` — what the three functions leave behind; `int15_destination` says where the
  BIOS is told to write.
* `realModeCall_cdecl_iff` — for each of them, when the registers are those of the caller after all.
-/

set_option autoImplicit false

namespace RainbowOS.Bios

open X86

/-! ## The 16-bit functions -/

/-- What an interrupt of the BIOS's gives back: the registers for its results, the carry flag, and
what it does to memory. -/
structure Answer where
  eax : BitVec 32
  ebx : BitVec 32
  ecx : BitVec 32
  carry : Bool
  write : Mem → Mem

/-- `int $0x12` and `int $0x13`: the result is in `%eax`. -/
def interrupt (ans : Answer) (s : System) : System :=
  (s.setEax ans.eax).setMem (ans.write s.mem)

/-- `int $0x15`: there are results in `%ebx` and `%ecx` as well. -/
def interrupt15 (ans : Answer) (s : System) : System :=
  ((interrupt ans s).setEbx ans.ebx).setEcx ans.ecx

/-- `_dap_memory_location`. -/
def dapLocation : BitVec 16 := 0x1000

/-- `asmCall_int12`: the state behind its `retl`, and where that goes. -/
def asmCall_int12 (ans : Answer) (s : System) : System × Addr :=
  let s := s.setDi (s.regs.esp.setWidth 16)
  let s := s.setDi (s.di + 4)
  let s := s.setEbx s.loadDi
  let s := s.setEax 0
  let s := interrupt ans s
  if ans.carry then
    let s := s.setEax 0
    (s.setMem (s.mem.write32 s.regs.ebx s.regs.eax)).ret16
  else (s.setMem (s.mem.write32 s.regs.ebx s.regs.eax)).ret16

/-- `asmCall_int13`. -/
def asmCall_int13 (ans : Answer) (s : System) : System × Addr :=
  let s := s.setDi (s.regs.esp.setWidth 16)
  let s := s.setDi (s.di + 4)
  let s := s.setEdx s.loadDi
  let s := s.setDi (s.di + 4)
  let s := s.setEcx s.loadDi
  let s := s.setSi dapLocation
  let s := s.setEax 0x4200
  let s := interrupt ans s
  if ans.carry then
    (s.setMem (s.mem.write8 s.regs.ecx (s.regs.eax.extractLsb' 8 8))).ret16
  else (s.setMem (s.mem.write8 s.regs.ecx 0)).ret16

/-- An argument of `asmCall_int15` is put aside: the next one, at `(%di)`, is stored at `p`. -/
def saveArg (p : Addr) (s : System) : System :=
  let s := s.setDi (s.di + 4)
  let s := s.setEcx s.loadDi
  s.setMem (s.mem.write32 p s.regs.ecx)

/-- The beginning of `asmCall_int15`: three arguments go into registers. -/
def loadRegs (s : System) : System :=
  let s := s.setDi (s.regs.esp.setWidth 16)
  let s := s.setDi (s.di + 4)
  let s := s.setEax s.loadDi
  let s := s.setDi (s.di + 4)
  let s := s.setEcx s.loadDi
  let s := s.setEs (s.regs.ecx.setWidth 16)
  let s := s.setDi (s.di + 4)
  s.setEbx s.loadDi

/-- `asmCall_int15`, up to its use of `%di` as the offset: four more are put aside. -/
def loadArgs (temp15 : Addr) (s : System) : System :=
  let s := saveArg temp15 (loadRegs s)
  saveArg (temp15 + 12) (saveArg (temp15 + 8) (saveArg (temp15 + 4) s))

/-- `asmCall_int15`, behind the interrupt: the results are written. -/
def storeResults (temp15 : Addr) (carry : Bool) (s : System) : System × Addr :=
  if carry then
    let s := s.setEdx (s.mem.read32 (temp15 + 12))
    (s.setMem (s.mem.write16 s.regs.edx 1)).ret16
  else
    let s := s.setEdx (s.mem.read32 temp15)
    let s := s.setMem (s.mem.write32 s.regs.edx s.regs.ebx)
    let s := s.setEdx (s.mem.read32 (temp15 + 4))
    let s := s.setMem (s.mem.write32 s.regs.edx s.regs.eax)
    let s := s.setEdx (s.mem.read32 (temp15 + 8))
    (s.setMem (s.mem.write32 s.regs.edx s.regs.ecx)).ret16

/-- `asmCall_int15`, whose own `_temp` is at `temp15`. -/
def asmCall_int15 (temp15 : Addr) (ans : Answer) (s : System) : System × Addr :=
  let s := loadArgs temp15 s
  let s := s.setDi (s.regs.eax.setWidth 16)
  let s := ((s.setEax 0xe820).setEdx 0x534d4150).setEcx 24
  storeResults temp15 ans.carry (interrupt15 ans s)

/-- One of the functions that `realModeCall` is used with. -/
inductive AsmCall where
  | int12
  | int13
  | int15
  deriving DecidableEq, Repr

namespace AsmCall

/-- The function itself. -/
def exec (temp15 : Addr) (ans : Answer) : AsmCall → System → System × Addr
  | int12 => asmCall_int12 ans
  | int13 => asmCall_int13 ans
  | int15 => asmCall_int15 temp15 ans

/-- The number of its arguments. -/
def args : AsmCall → ℕ
  | int12 => 1
  | int13 => 2
  | int15 => 7

/-- Where it writes its results, as its arguments say, and how many bytes. -/
def results (arg : ℕ → BitVec 32) : AsmCall → List (Addr × ℕ)
  | int12 => [(arg 1, 4)]
  | int13 => [(arg 2, 1)]
  | int15 => [(arg 4, 4), (arg 5, 4), (arg 6, 4), (arg 7, 2)]

/-- `%ebx` when it returns. -/
def ebx (arg : ℕ → BitVec 32) (ans : Answer) (t : System) : AsmCall → BitVec 32
  | int12 => arg 1
  | int13 => t.regs.ebx
  | int15 => ans.ebx

/-- `%esi`. -/
def esi (t : System) : AsmCall → BitVec 32
  | int13 => t.regs.esi.extractLsb' 16 16 ++ dapLocation
  | _ => t.regs.esi

/-- `%di`. -/
def di (arg : ℕ → BitVec 32) (t : System) : AsmCall → BitVec 16
  | int12 => t.regs.esp.setWidth 16 + 4
  | int13 => t.regs.esp.setWidth 16 + 4 + 4
  | int15 => (arg 1).setWidth 16

end AsmCall

/-! ## What they leave behind -/

/-- What the loader has in memory for the call: the two `_temp`s, and the stack with the return
address and the arguments. -/
def Own (call : AsmCall) (_temp temp15 sp : Addr) (x : Addr) : Prop :=
  Mem.Range _temp 12 x ∨ Mem.Range temp15 16 x ∨ Mem.Range sp (4 * (call.args + 1)) x

/-- The stack is in the first segment, the loader's own words are apart from each other, and neither
the results nor what the BIOS writes go there. -/
structure Layout (call : AsmCall) (_temp temp15 sp : Addr) (arg : ℕ → BitVec 32) (ans : Answer) :
    Prop where
  stack_low : sp.toNat + 4 * (call.args + 1) < 0x10000
  temps : ∀ x, Mem.Range _temp 12 x → ¬ Mem.Range temp15 16 x
  temp_stack : ∀ x, Mem.Range _temp 12 x → ¬ Mem.Range sp (4 * (call.args + 1)) x
  temp15_stack : ∀ x, Mem.Range temp15 16 x → ¬ Mem.Range sp (4 * (call.args + 1)) x
  results : ∀ r ∈ call.results arg, ∀ x, Mem.Range r.1 r.2 x → ¬ Own call _temp temp15 sp x
  bios : ∀ m, Mem.EqOn (Own call _temp temp15 sp) m (ans.write m)

/-- The state in which the function begins: its arguments are on the stack. -/
structure Called (call : AsmCall) (sp : Addr) (arg : ℕ → BitVec 32) (t : System) : Prop where
  stack : (t.regs.esp.setWidth 16).setWidth 32 = sp
  args : ∀ k, 1 ≤ k → k ≤ call.args → t.mem.read32 (sp + addr (4 * k)) = arg k

variable {call : AsmCall} {_temp temp15 sp p : Addr} {arg : ℕ → BitVec 32} {ans : Answer}
  {t : System} {m : Mem} {n k : ℕ}

/-- A result is written. -/
theorem Layout.write_result (h : Layout call _temp temp15 sp arg ans) {b : ℕ → Byte}
    (hr : (p, n) ∈ call.results arg) :
    Mem.EqOn (Own call _temp temp15 sp) m (m.write p n b) :=
  Mem.eqOn_write (h.results (p, n) hr)

/-- The return address is where it was as long as the loader's own words are. -/
theorem returnAddr_eq {m' : Mem} (h : Mem.EqOn (Own call _temp temp15 sp) m m') :
    m'.read32 sp = m.read32 sp := by
  refine h.readLE_eq (fun x hx ↦ .inr (.inr ?_)) (by decide)
  rw [Mem.Range] at hx ⊢
  omega

/-- The next argument is reached with `%di`. -/
theorem argAddr_succ {v : BitVec 16} (hv : v.setWidth 32 = sp + addr (4 * k))
    (hlow : sp.toNat + 4 * (k + 1) < 0x10000) :
    (v + 4#16).setWidth 32 = sp + addr (4 * (k + 1)) := by
  bv_omega

theorem Called.first (hcalled : Called call sp arg t) :
    (t.regs.esp.setWidth 16).setWidth 32 = sp + addr (4 * 0) :=
  hcalled.stack.trans (BitVec.add_zero sp).symm

/-- What is there when the function returns: `t` is the state in which it began. -/
structure Leaves (call : AsmCall) (_temp sp : Addr) (arg : ℕ → BitVec 32) (ans : Answer)
    (t : System) (r : System × Addr) : Prop where
  ebx : r.1.regs.ebx = call.ebx arg ans t
  esi : r.1.regs.esi = call.esi t
  edi : r.1.regs.edi = t.regs.edi.extractLsb' 16 16 ++ call.di arg t
  temp : Mem.EqOn (Mem.Range _temp 12) t.mem r.1.mem
  returns : r.2 = t.mem.read32 sp

theorem own_temp {x : Addr} (hx : Mem.Range _temp 12 x) : Own call _temp temp15 sp x := .inl hx

/-- The BIOS writes, and then a result is written: neither changes what the loader has saved, nor
where the function returns. -/
theorem Layout.one_result (h : Layout call _temp temp15 sp arg ans)
    (hr : (p, n) ∈ call.results arg) (m : Mem) (b : ℕ → Byte) :
    Mem.EqOn (Mem.Range _temp 12) m ((ans.write m).write p n b) ∧
      ((ans.write m).write p n b).read32 sp = m.read32 sp := by
  have hkept : Mem.EqOn (Own call _temp temp15 sp) m ((ans.write m).write p n b) :=
    (h.bios m).trans (h.write_result hr)
  exact ⟨hkept.mono fun _ ↦ own_temp, returnAddr_eq hkept⟩

theorem asmCall_int12_spec (h : Layout .int12 _temp temp15 sp arg ans)
    (hcalled : Called .int12 sp arg t) :
    Leaves .int12 _temp sp arg ans t (asmCall_int12 ans t) := by
  have hlow := h.stack_low
  rw [AsmCall.args] at hlow
  have harg : t.mem.read32 ((t.regs.esp.setWidth 16 + 4#16).setWidth 32) = arg 1 := by
    rw [argAddr_succ hcalled.first (by omega)]
    exact hcalled.args 1 (by decide) (by decide)
  have hresult : ∀ v : BitVec 32,
      Mem.EqOn (Mem.Range _temp 12) t.mem ((ans.write t.mem).write32 (arg 1) v) ∧
        ((ans.write t.mem).write32 (arg 1) v).read32 sp = t.mem.read32 sp :=
    fun v ↦ h.one_result (List.mem_singleton.mpr rfl) t.mem (Mem.byteOf v)
  -- The instructions are carried out one by one, in either case.
  rw [asmCall_int12]
  cases ans.carry <;> constructor <;>
    simp [System.loadDi, System.di, interrupt, harg, hcalled.stack, hresult, AsmCall.ebx,
      AsmCall.esi, AsmCall.di]

theorem asmCall_int13_spec (h : Layout .int13 _temp temp15 sp arg ans)
    (hcalled : Called .int13 sp arg t) :
    Leaves .int13 _temp sp arg ans t (asmCall_int13 ans t) := by
  have hlow := h.stack_low
  rw [AsmCall.args] at hlow
  have harg : t.mem.read32 ((t.regs.esp.setWidth 16 + 4#16 + 4#16).setWidth 32) = arg 2 := by
    rw [argAddr_succ (argAddr_succ hcalled.first (by omega)) (by omega)]
    exact hcalled.args 2 (by decide) (by decide)
  have hresult : ∀ v : Byte,
      Mem.EqOn (Mem.Range _temp 12) t.mem ((ans.write t.mem).write8 (arg 2) v) ∧
        ((ans.write t.mem).write8 (arg 2) v).read32 sp = t.mem.read32 sp :=
    fun v ↦ h.one_result (List.mem_singleton.mpr rfl) t.mem fun _ ↦ v
  rw [asmCall_int13]
  cases ans.carry <;> constructor <;>
    simp [System.loadDi, System.di, interrupt, harg, hcalled.stack, hresult, AsmCall.ebx,
      AsmCall.esi, AsmCall.di]

/-! ## The arguments of `asmCall_int15` -/

/-- Argument `k` has been read, `t` being the state in which the function began: `%di` points to it,
and the words `ws` have been put aside. -/
structure Fetched (temp15 sp : Addr) (t : System) (k : ℕ) (ws : List (BitVec 32)) (s : System) :
    Prop where
  di : s.di.setWidth 32 = sp + addr (4 * k)
  esp : s.regs.esp = t.regs.esp
  esi : s.regs.esi = t.regs.esi
  edi : s.regs.edi.extractLsb' 16 16 = t.regs.edi.extractLsb' 16 16
  saved : Words s.mem temp15 ws
  kept : Mem.EqOn (fun x ↦ ¬ Mem.Range temp15 16 x) t.mem s.mem

/-- An argument is where it was. -/
theorem Fetched.arg_eq {ws : List (BitVec 32)} {s : System}
    (h : Layout call _temp temp15 sp arg ans) (hcalled : Called call sp arg t)
    (hs : Fetched temp15 sp t n ws s) (hk : 1 ≤ k) (hargs : k ≤ call.args) :
    s.mem.read32 (sp + addr (4 * k)) = arg k := by
  have hlow := h.stack_low
  refine (hs.kept.readLE_eq (fun x hx hx15 ↦ h.temp15_stack x hx15 ?_) (by decide)).trans
    (hcalled.args k hk hargs)
  exact hx.of_part (by omega) (by omega)

theorem regs_saveArg (p : Addr) (s : System) : (saveArg p s).regs = { s.regs with
    ecx := s.mem.read32 ((s.di + 4).setWidth 32)
    edi := s.regs.edi.extractLsb' 16 16 ++ (s.di + 4) } := by
  simp [saveArg, System.loadDi, System.di]

theorem mem_saveArg (p : Addr) (s : System) : (saveArg p s).mem =
    s.mem.write32 p (s.mem.read32 ((s.di + 4).setWidth 32)) := by
  simp [saveArg, System.loadDi, System.di]

/-- **One more argument is put aside.** -/
theorem Fetched.saveArg {ws : List (BitVec 32)} {s : System}
    (h : Layout call _temp temp15 sp arg ans) (hcalled : Called call sp arg t)
    (hs : Fetched temp15 sp t k ws s) (hk : k + 1 ≤ call.args) (hws : ws.length < 4) :
    Fetched temp15 sp t (k + 1) (ws ++ [arg (k + 1)])
      (saveArg (temp15 + addr (4 * ws.length)) s) := by
  have hlow := h.stack_low
  have hdi : (s.di + 4).setWidth 32 = sp + addr (4 * (k + 1)) := argAddr_succ hs.di (by omega)
  have harg := hs.arg_eq h hcalled (Nat.le_add_left 1 k) hk
  have hmem := mem_saveArg (temp15 + addr (4 * ws.length)) s
  rw [hdi, harg] at hmem
  have hregs := regs_saveArg (temp15 + addr (4 * ws.length)) s
  refine ⟨?_, ?_, ?_, ?_, ?_, ?_⟩
  · rw [System.di, hregs, System.setWidth_append_low, hdi]
  · rw [hregs, hs.esp]
  · rw [hregs, hs.esi]
  · rw [hregs, System.extractLsb'_append_high, hs.edi]
  · rw [hmem]
    exact hs.saved.snoc (by omega)
  · rw [hmem]
    exact hs.kept.trans (Mem.eqOn_write fun x hx hout ↦ hout (hx.of_part (by omega) (by decide)))

/-- Three arguments have been read, and nothing has been put aside yet. -/
theorem fetched_loadRegs (h : Layout .int15 _temp temp15 sp arg ans)
    (hcalled : Called .int15 sp arg t) :
    Fetched temp15 sp t 3 [] (loadRegs t) ∧ (loadRegs t).regs.eax = arg 1 := by
  have hlow := h.stack_low
  rw [AsmCall.args] at hlow
  have h₁ := argAddr_succ hcalled.first (by omega)
  have h₃ := argAddr_succ (argAddr_succ h₁ (by omega)) (by omega)
  have harg := hcalled.args 1 (by decide) (by decide)
  rw [← h₁] at harg
  refine ⟨⟨?_, ?_, ?_, ?_, words_nil _ _, ?_⟩, ?_⟩
  · simpa [loadRegs, System.di] using h₃
  · simp [loadRegs]
  · simp [loadRegs]
  · simp [loadRegs]
  · have hmem : (loadRegs t).mem = t.mem := by simp [loadRegs]
    rw [hmem]
    exact fun x _ ↦ rfl
  · simpa [loadRegs, System.loadDi, System.di] using harg

/-- All arguments have been read. -/
theorem fetched_loadArgs (h : Layout .int15 _temp temp15 sp arg ans)
    (hcalled : Called .int15 sp arg t) :
    Fetched temp15 sp t 7 [arg 4, arg 5, arg 6, arg 7] (loadArgs temp15 t) ∧
      (loadArgs temp15 t).regs.eax = arg 1 := by
  obtain ⟨h₃, heax⟩ := fetched_loadRegs h hcalled
  have h₄ := h₃.saveArg h hcalled (by decide) (by decide)
  have h₅ := h₄.saveArg h hcalled (by decide) (by simp)
  have h₆ := h₅.saveArg h hcalled (by decide) (by simp)
  have h₇ := h₆.saveArg h hcalled (by decide) (by simp)
  rw [List.length_nil, Nat.mul_zero, BitVec.add_zero] at h₇
  refine ⟨h₇, ?_⟩
  simp only [loadArgs, regs_saveArg]
  exact heax

/-- **Where the BIOS writes the record**: with `%es:%di` as they are at the interrupt, at the
address that the arguments stand for. -/
theorem int15_destination (h : Layout .int15 _temp temp15 sp arg ans)
    (hcalled : Called .int15 sp arg t) :
    ((loadArgs temp15 t).es.setWidth 32 * 16 +
        ((loadArgs temp15 t).regs.eax.setWidth 16).setWidth 32 : Addr) =
      realModeAddr (arg 2) (arg 1) := by
  have hlow := h.stack_low
  rw [AsmCall.args] at hlow
  have h₂ := argAddr_succ (argAddr_succ hcalled.first (by omega)) (by omega)
  have harg := hcalled.args 2 (by decide) (by decide)
  rw [← h₂] at harg
  have hes : (loadRegs t).es = (arg 2).setWidth 16 := by
    rw [← harg]
    simp only [loadRegs, System.loadDi, System.di, System.regs_setDi, System.regs_setEax,
      System.regs_setEcx, System.regs_setEs, System.mem_setDi, System.mem_setEax,
      System.mem_setEcx, System.mem_setEs, System.setWidth_append_low]
    rfl
  rw [(fetched_loadArgs h hcalled).2, realModeAddr, ← hes]
  rfl

/-- A word that has been put aside is read again. -/
theorem saved_eq {ws : List (BitVec 32)} {m' : Mem} (hsaved : Words m temp15 ws)
    (hws : ws.length ≤ 4) (hkept : Mem.EqOn (Own call _temp temp15 sp) m m') {i : ℕ}
    (hi : i < ws.length) : m'.read32 (temp15 + addr (4 * i)) = ws[i] := by
  refine (hkept.readLE_eq (fun x hx ↦ .inr (.inl ?_)) (by decide)).trans (hsaved i hi)
  exact hx.of_part (by omega) (by decide)

/-- The results are written where the arguments say. -/
theorem storeResults_kept (h : Layout .int15 _temp temp15 sp arg ans) {u : System}
    (hsaved : Words u.mem temp15 [arg 4, arg 5, arg 6, arg 7]) (carry : Bool) :
    Mem.EqOn (Own .int15 _temp temp15 sp) u.mem (storeResults temp15 carry u).1.mem := by
  have hresult : ∀ p n, (p, n) ∈ AsmCall.int15.results arg → ∀ (m : Mem) b,
      Mem.EqOn (Own .int15 _temp temp15 sp) m (m.write p n b) :=
    fun p n hr m b ↦ h.write_result hr
  have hread : ∀ {m : Mem}, Mem.EqOn (Own .int15 _temp temp15 sp) u.mem m → ∀ i (hi : i < 4),
      m.read32 (temp15 + addr (4 * i)) = [arg 4, arg 5, arg 6, arg 7][i] :=
    fun hm i hi ↦ saved_eq hsaved (by simp) hm hi
  have hrefl : Mem.EqOn (Own .int15 _temp temp15 sp) u.mem u.mem := fun x _ ↦ rfl
  rw [storeResults]
  cases carry with
  | true =>
    have h₇ : u.mem.read32 (temp15 + 12) = arg 7 := hread hrefl 3 (by decide)
    simp only [if_true, System.mem_ret16, System.mem_setMem, System.mem_setEdx, System.regs_setEdx,
      h₇]
    exact hresult _ 2 (by simp [AsmCall.results]) _ _
  | false =>
    have h₄ : u.mem.read32 temp15 = arg 4 := by
      have h₀ := hread hrefl 0 (by decide)
      rwa [Nat.mul_zero, BitVec.add_zero] at h₀
    obtain ⟨m₁, hm₁⟩ : ∃ m₁, m₁ = u.mem.write32 (arg 4) u.regs.ebx := ⟨_, rfl⟩
    have hkept₁ : Mem.EqOn (Own .int15 _temp temp15 sp) u.mem m₁ :=
      hm₁ ▸ hresult _ 4 (by simp [AsmCall.results]) _ _
    have h₅ : m₁.read32 (temp15 + 4) = arg 5 := hread hkept₁ 1 (by decide)
    obtain ⟨m₂, hm₂⟩ : ∃ m₂, m₂ = m₁.write32 (arg 5) u.regs.eax := ⟨_, rfl⟩
    have hkept₂ : Mem.EqOn (Own .int15 _temp temp15 sp) u.mem m₂ :=
      hm₂ ▸ hkept₁.trans (hresult _ 4 (by simp [AsmCall.results]) _ _)
    have h₆ : m₂.read32 (temp15 + 8) = arg 6 := hread hkept₂ 2 (by decide)
    simp only [Bool.false_eq_true, if_false, System.mem_ret16, System.mem_setMem,
      System.mem_setEdx, System.regs_setEdx, System.regs_setMem, h₄, ← hm₁, h₅, ← hm₂, h₆]
    exact hkept₂.trans (hresult _ 4 (by simp [AsmCall.results]) _ _)

/-- The results are written from registers, which stay as they are. -/
theorem regs_storeResults (temp15 : Addr) (carry : Bool) (u : System) :
    (storeResults temp15 carry u).1.regs.ebx = u.regs.ebx ∧
      (storeResults temp15 carry u).1.regs.esi = u.regs.esi ∧
      (storeResults temp15 carry u).1.regs.edi = u.regs.edi ∧
      (storeResults temp15 carry u).2 = (storeResults temp15 carry u).1.mem.read32
        ((u.regs.esp.setWidth 16).setWidth 32) := by
  rw [storeResults]
  cases carry <;> simp

theorem asmCall_int15_spec (h : Layout .int15 _temp temp15 sp arg ans)
    (hcalled : Called .int15 sp arg t) :
    Leaves .int15 _temp sp arg ans t (asmCall_int15 temp15 ans t) := by
  obtain ⟨hs, heax⟩ := fetched_loadArgs h hcalled
  obtain ⟨s, hs'⟩ : ∃ s, s = loadArgs temp15 t := ⟨_, rfl⟩
  rw [← hs'] at hs heax
  obtain ⟨u, hu⟩ : ∃ u, u = interrupt15 ans (((((s.setDi (s.regs.eax.setWidth 16)).setEax
      0xe820).setEdx 0x534d4150).setEcx 24)) := ⟨_, rfl⟩
  have hrun : asmCall_int15 temp15 ans t = storeResults temp15 ans.carry u := by
    rw [hu, hs']
    rfl
  obtain ⟨hebx, hesi, hedi, hret⟩ := regs_storeResults temp15 ans.carry u
  have hmem : u.mem = ans.write s.mem := by simp [hu, interrupt15, interrupt]
  have hbios : Mem.EqOn (Own .int15 _temp temp15 sp) s.mem u.mem := hmem ▸ h.bios s.mem
  have hstored := storeResults_kept h (fun i hi ↦ saved_eq hs.saved (by simp) hbios hi) ans.carry
  have hown := hbios.trans hstored
  have hesp : u.regs.esp = t.regs.esp := by simpa [hu, interrupt15, interrupt] using hs.esp
  rw [hrun]
  refine ⟨hebx.trans ?_, hesi.trans ?_, hedi.trans ?_, ?_, hret.trans ?_⟩
  · simp [hu, interrupt15, interrupt, AsmCall.ebx]
  · simpa [hu, interrupt15, interrupt, AsmCall.esi] using hs.esi
  · simp [hu, interrupt15, interrupt, AsmCall.di, hs.edi, heax]
  · exact (hs.kept.mono h.temps).trans (hown.mono fun _ ↦ own_temp)
  · rw [hesp, hcalled.stack, returnAddr_eq hown]
    refine hs.kept.readLE_eq (fun x hx hx15 ↦ h.temp15_stack x hx15 ?_) (by decide)
    rw [Mem.Range] at hx ⊢
    omega

/-- **What each of the functions leaves behind.** -/
theorem AsmCall.exec_spec (h : Layout call _temp temp15 sp arg ans)
    (hcalled : Called call sp arg t) :
    Leaves call _temp sp arg ans t (call.exec temp15 ans t) :=
  match call with
  | .int12 => asmCall_int12_spec h hcalled
  | .int13 => asmCall_int13_spec h hcalled
  | .int15 => asmCall_int15_spec h hcalled

/-! ## The caller -/

/-- What a C++ function may expect of a call: it goes on behind it, with its stack and with the
registers that are its own. -/
structure ObeysCdecl (s : System) (run : RealModeRun) : Prop where
  eip : run.eip = s.top 0
  esp : run.returned.regs.esp = s.regs.esp + 4
  ebp : run.returned.regs.ebp = s.regs.ebp
  ebx : run.returned.regs.ebx = s.regs.ebx
  esi : run.returned.regs.esi = s.regs.esi
  edi : run.returned.regs.edi = s.regs.edi

/-- `realModeCall(function, ...)` for one of the three functions. -/
def call16 (call : AsmCall) (_temp temp15 : Addr) (returnAddr : BitVec 32) (ans : Answer)
    (s : System) : Except Fault RealModeRun :=
  realModeCall _temp returnAddr (fun _ t ↦ (call.exec temp15 ans t).1) s

/-- The arguments that the caller has pushed: number 0 is the function. -/
def argOf (s : System) (k : ℕ) : BitVec 32 := s.top (4 * (k + 1))

/-- The registers of the caller are what the function leaves in them. -/
def Spared (s : System) (ans : Answer) : AsmCall → Prop
  | .int12 => s.regs.ebx = argOf s 1 ∧ s.regs.edi.setWidth 16 = (s.regs.esp + 8).setWidth 16
  | .int13 => s.regs.esi.setWidth 16 = dapLocation ∧
      s.regs.edi.setWidth 16 = (s.regs.esp + 12).setWidth 16
  | .int15 => s.regs.ebx = ans.ebx ∧ s.regs.edi.setWidth 16 = (argOf s 1).setWidth 16

variable {s : System} {run : RealModeRun} {returnAddr : BitVec 32}

/-- A register keeps its value if its low half does. -/
theorem append_eq_iff (r : BitVec 32) (v : BitVec 16) :
    r.extractLsb' 16 16 ++ v = r ↔ r.setWidth 16 = v := by
  constructor
  · intro h
    rw [← h, System.setWidth_append_low]
  · rintro rfl
    refine BitVec.eq_of_getLsbD_eq fun i hi ↦ ?_
    rw [BitVec.getLsbD_append]
    by_cases hlow : i < 16
    · simp [hlow]
    · simp [hlow, Nat.add_sub_cancel' (Nat.le_of_not_lt hlow)]
      omega

/-- The function begins with the caller's arguments on the stack, behind its return address. -/
theorem called_of_run (h : Layout call _temp temp15 (s.regs.esp + 4) (argOf s) ans)
    (hrun : call16 call _temp temp15 returnAddr ans s = .ok run) :
    Called call (s.regs.esp + 4) (argOf s) run.entered ∧
      Mem.EqOn (Mem.Range _temp 12) (saveEnvironment _temp s).mem run.entered.mem ∧
      run.entered.mem.read32 (s.regs.esp + 4) = returnAddr := by
  have hlow := h.stack_low
  obtain ⟨-, -, -, hsp, hmem⟩ := realModeCall_entered hrun
  have hstack : ((s.regs.esp + 4).setWidth 16).setWidth 32 = s.regs.esp + 4 := by bv_omega
  rw [hstack] at hmem
  refine ⟨⟨hsp ▸ hstack, fun k hk hargs ↦ ?_⟩, ?_, ?_⟩
  · rw [hmem]
    have hpush : ((saveEnvironment _temp s).mem.write32 (s.regs.esp + 4) returnAddr).read32
        (s.regs.esp + 4 + addr (4 * k)) =
          (saveEnvironment _temp s).mem.read32 (s.regs.esp + 4 + addr (4 * k)) := by
      have hframe := Mem.readLE_write_offset (j := 0) (n := 4) (k := 4 * k) (l := 4)
        (saveEnvironment _temp s).mem (s.regs.esp + 4) (Mem.byteOf returnAddr) (.inr (by omega))
        (by decide) (by omega)
      rw [BitVec.add_zero] at hframe
      exact hframe
    rw [hpush, argOf, Cpu.top, show s.regs.esp + 4 + addr (4 * k) = s.regs.esp + addr (4 * (k + 1))
      by bv_omega]
    refine (eqOn_saveEnvironment _temp s).readLE_eq (fun x hx htemp ↦ ?_) (by decide)
    refine h.temp_stack x htemp ?_
    rw [show s.regs.esp + addr (4 * (k + 1)) = s.regs.esp + 4 + addr (4 * k) by bv_omega] at hx
    exact hx.of_part (by omega) (by omega)
  · rw [hmem]
    refine Mem.eqOn_write fun x hx htemp ↦ h.temp_stack x htemp ?_
    rw [Mem.Range] at hx ⊢
    omega
  · rw [hmem]
    exact Mem.readLE_writeLE (n := 4) _ (by decide) _ _

/-- The function returns into `realModeCall`. -/
theorem exec_returns (h : Layout call _temp temp15 (s.regs.esp + 4) (argOf s) ans)
    (hrun : call16 call _temp temp15 returnAddr ans s = .ok run) :
    (call.exec temp15 ans run.entered).2 = returnAddr := by
  obtain ⟨hcalled, -, hret⟩ := called_of_run h hrun
  exact (AsmCall.exec_spec h hcalled).returns.trans hret

/-- The caller's `%ebx`, `%esi` and `%edi` are what the function leaves in them. -/
theorem returned_regs (h : Layout call _temp temp15 (s.regs.esp + 4) (argOf s) ans)
    (hrun : call16 call _temp temp15 returnAddr ans s = .ok run) :
    run.returned.regs.ebx = call.ebx (argOf s) ans run.entered ∧
      run.returned.regs.esi = call.esi run.entered ∧
      run.returned.regs.edi =
        run.entered.regs.edi.extractLsb' 16 16 ++ call.di (argOf s) run.entered := by
  have hleft := AsmCall.exec_spec h (called_of_run h hrun).1
  obtain ⟨t, -, -, hleave⟩ := realModeCall_eq_ok_iff.mp hrun
  obtain ⟨returned, eip, hleave', -, -, -, -, hebx, hesi, hedi⟩ :=
    leaveRealMode_spec _temp (call.exec temp15 ans run.entered).1
  obtain ⟨hreturned, -⟩ := Prod.mk.inj (Except.ok.inj (hleave.symm.trans hleave'))
  rw [hreturned, hebx, hesi, hedi]
  exact ⟨hleft.ebx, hleft.esi, hleft.edi⟩

/-- **When the calling convention is kept.**  For every state, every one of the three functions with
its arguments, and everything the BIOS answers: a call that returns goes on at the caller, with its
stack and its `%ebp`; and `%ebx`, `%esi` and `%edi` are the caller's exactly if it happened to have
in them what the function leaves there. -/
theorem realModeCall_cdecl_iff (h : Layout call _temp temp15 (s.regs.esp + 4) (argOf s) ans)
    (hrun : call16 call _temp temp15 returnAddr ans s = .ok run) :
    ObeysCdecl s run ↔ Spared s ans call := by
  obtain ⟨hcalled, htemp, -⟩ := called_of_run h hrun
  obtain ⟨hebx, hesi, hedi, hsp, -⟩ := realModeCall_entered hrun
  obtain ⟨hebx', hesi', hedi'⟩ := returned_regs h hrun
  have hkept := htemp.trans (AsmCall.exec_spec h hcalled).temp
  obtain ⟨heip, hebp, hesp⟩ := realModeCall_caller hrun fun i hi ↦
    hkept.readLE_eq (fun x hx ↦ hx.of_part (by omega) (by decide)) (by decide)
  have hregs : ObeysCdecl s run ↔ run.returned.regs.ebx = s.regs.ebx ∧
      run.returned.regs.esi = s.regs.esi ∧ run.returned.regs.edi = s.regs.edi :=
    ⟨fun hcdecl ↦ ⟨hcdecl.ebx, hcdecl.esi, hcdecl.edi⟩,
      fun ⟨hbx, hsi, hdi⟩ ↦ ⟨heip, hesp, hebp, hbx, hsi, hdi⟩⟩
  rw [hregs, hebx', hesi', hedi', hedi, append_eq_iff]
  cases call with
  | int12 =>
    have hdi : (s.regs.esp + 4).setWidth 16 + 4 = (s.regs.esp + 8).setWidth 16 := by bv_omega
    simp only [AsmCall.ebx, AsmCall.esi, AsmCall.di, hsp, hesi, hdi, Spared, true_and]
    exact and_congr_left fun _ ↦ eq_comm
  | int13 =>
    have hdi : (s.regs.esp + 4).setWidth 16 + 4 + 4 = (s.regs.esp + 12).setWidth 16 := by bv_omega
    simp only [AsmCall.ebx, AsmCall.esi, AsmCall.di, hsp, hebx, hesi, hdi, Spared, true_and,
      append_eq_iff]
  | int15 =>
    simp only [AsmCall.ebx, AsmCall.esi, AsmCall.di, hesi, Spared, true_and]
    exact and_congr_left fun _ ↦ eq_comm

/-- A call for the size of lower memory, with the result pointer `0x7100`. -/
def callExample (ebx edi : BitVec 32) : System :=
  { maskExample 0xfe with
    regs := ⟨0, 0, 0, ebx, 0x7000, 0x7010, 0, edi⟩
    mem := Mem.write32 (fun a ↦ if a = maskAddr then 0xfe else 0) 0x7008 0x7100 }

/-- 640 KiB, and nothing is written. -/
def answerExample : Answer := ⟨640, 0, 0, false, id⟩

theorem callExample_layout (ebx edi : BitVec 32) : Layout .int12 0x2000 0x3000
    ((callExample ebx edi).regs.esp + 4) (argOf (callExample ebx edi)) answerExample := by
  have hsp : (callExample ebx edi).regs.esp + 4 = 0x7004 := rfl
  have harg : argOf (callExample ebx edi) 1 = 0x7100 := by
    rw [argOf, Cpu.top, show (callExample ebx edi).regs.esp + addr (4 * (1 + 1)) = 0x7008 from rfl]
    exact Mem.readLE_writeLE (n := 4) _ (by decide) 0x7008 0x7100
  rw [hsp]
  refine ⟨by decide, fun x ↦ ?_, fun x ↦ ?_, fun x ↦ ?_, ?_, fun m x _ ↦ rfl⟩
  · exact Mem.not_range_of_le (by decide) (by decide) (.inl (by decide))
  · exact Mem.not_range_of_le (by decide) (by decide) (.inl (by decide))
  · exact Mem.not_range_of_le (by decide) (by decide) (.inl (by decide))
  · rw [AsmCall.results, harg]
    refine List.forall_mem_singleton.mpr fun x hx ↦ ?_
    rintro (htemp | htemp15 | hstack)
    · exact Mem.not_range_of_le (by decide) (by decide) (.inl (by decide)) htemp hx
    · exact Mem.not_range_of_le (by decide) (by decide) (.inl (by decide)) htemp15 hx
    · exact Mem.not_range_of_le (by decide) (by decide) (.inl (by decide)) hstack hx

/-- A caller that has the pointer in `%ebx`, and the address of it in `%di`. -/
theorem realModeCall_cdecl_iff_spared : ∃ run,
    call16 .int12 0x2000 0x3000 0x2040 answerExample (callExample 0x7100 0x7008) = .ok run ∧
      ObeysCdecl (callExample 0x7100 0x7008) run := by
  obtain ⟨run, hrun⟩ : ∃ run, call16 .int12 0x2000 0x3000 0x2040 answerExample
      (callExample 0x7100 0x7008) = .ok run := ⟨_, rfl⟩
  exact ⟨run, hrun, (realModeCall_cdecl_iff (callExample_layout _ _) hrun).mpr
    ⟨by decide, by decide⟩⟩

/-- **A caller with something else in `%ebx`** gets the pointer back in it. -/
theorem realModeCall_clobbers : ∃ run,
    call16 .int12 0x2000 0x3000 0x2040 answerExample (callExample 7 0) = .ok run ∧
      run.returned.regs.ebx = 0x7100 ∧ ¬ ObeysCdecl (callExample 7 0) run := by
  refine ⟨_, rfl, by decide, fun hcdecl ↦ ?_⟩
  exact absurd hcdecl.ebx (by decide)

end RainbowOS.Bios
