import RainbowOS.Lib.X86

/-!
# A PC in real mode

The processor of `Lib/X86.lean` with its flags, on a board with a BIOS, ports, and a gate on address
line 20.  With the gate closed the line is always 0, so that the second megabyte is seen where the
first one is.  The BIOS and the devices are whatever the board has.

16-bit code gets to its end or it stops: it halts behind a message, it waits for a device longer
than it was given, or it returns to where it was not called from.

* `Holds s ws` — the words `ws` are on a stack in a segment at 0, the first one on top.
  `Holds.push`, `Holds.pop` and `Holds.of_keeps` say what becomes of them.
* `call_eq_ok` — a function that finds its return address again comes back.
-/

set_option autoImplicit false

namespace X86

/-! ## The board -/

/-- A machine: the processor with its flags, the memory, and the state of everything else. -/
@[ext] structure Pc (δ : Type) extends System where
  flags : BitVec 16
  /-- The BIOS and the devices. -/
  devices : δ

/-- What a machine does outside the processor.  An interrupt of the BIOS takes the state at the
`int` to the one behind it. -/
structure Board (δ : Type) where
  int10 : Pc δ → Pc δ
  int13 : Pc δ → Pc δ
  int15 : Pc δ → Pc δ
  /-- `in`. -/
  inb : BitVec 16 → δ → Byte × δ
  /-- `out`. -/
  outb : BitVec 16 → Byte → δ → δ
  /-- Is the gate open? -/
  a20 : δ → Bool

/-- Why 16-bit code did not get to its end. -/
inductive Stopped (δ : Type) where
  /-- `hlt`, behind a message. -/
  | halted (message : String) (s : Pc δ)
  /-- A `ret` that does not go back to the `call`. -/
  | astray
  /-- A loop, begun in that state, that was not left in the rounds it was given: the device was busy
  each time. -/
  | waiting (busy : Byte → Bool) (s : Pc δ)

/-- `segment:offset`. -/
def linear (segment offset : BitVec 16) : Addr := segment.setWidth 32 * 16 + offset.setWidth 32

/-- What the memory is asked for. -/
def physical (a20 : Bool) (a : Addr) : Addr := if a20 then a else a &&& ~~~0x100000

/-- A register with another lower half. -/
def withLow (r : BitVec 32) (v : BitVec 16) : BitVec 32 := r.extractLsb' 16 16 ++ v

namespace Pc

variable {δ : Type}

/-! ### Registers and flags -/

def ax (s : Pc δ) : BitVec 16 := s.regs.eax.setWidth 16
def bx (s : Pc δ) : BitVec 16 := s.regs.ebx.setWidth 16
def cx (s : Pc δ) : BitVec 16 := s.regs.ecx.setWidth 16
def dx (s : Pc δ) : BitVec 16 := s.regs.edx.setWidth 16
def sp (s : Pc δ) : BitVec 16 := s.regs.esp.setWidth 16
def si (s : Pc δ) : BitVec 16 := s.regs.esi.setWidth 16
def di (s : Pc δ) : BitVec 16 := s.regs.edi.setWidth 16
def al (s : Pc δ) : Byte := s.regs.eax.setWidth 8
def dl (s : Pc δ) : Byte := s.regs.edx.setWidth 8
def ah (s : Pc δ) : Byte := s.regs.eax.extractLsb' 8 8

def setEax (s : Pc δ) (v : BitVec 32) : Pc δ := { s with regs := { s.regs with eax := v } }
def setAx (s : Pc δ) (v : BitVec 16) : Pc δ := s.setEax (withLow s.regs.eax v)
def setAl (s : Pc δ) (v : Byte) : Pc δ := s.setAx (s.ah ++ v)
def setAh (s : Pc δ) (v : Byte) : Pc δ := s.setAx (v ++ s.al)
def setEbx (s : Pc δ) (v : BitVec 32) : Pc δ := { s with regs := { s.regs with ebx := v } }
def setBx (s : Pc δ) (v : BitVec 16) : Pc δ := s.setEbx (withLow s.regs.ebx v)
def setBh (s : Pc δ) (v : Byte) : Pc δ := s.setBx (v ++ s.bx.setWidth 8)

def setCx (s : Pc δ) (v : BitVec 16) : Pc δ :=
  { s with regs := { s.regs with ecx := withLow s.regs.ecx v } }

def setSp (s : Pc δ) (v : BitVec 16) : Pc δ :=
  { s with regs := { s.regs with esp := withLow s.regs.esp v } }

def setBp (s : Pc δ) (v : BitVec 16) : Pc δ :=
  { s with regs := { s.regs with ebp := withLow s.regs.ebp v } }

def setSi (s : Pc δ) (v : BitVec 16) : Pc δ :=
  { s with regs := { s.regs with esi := withLow s.regs.esi v } }

def setDi (s : Pc δ) (v : BitVec 16) : Pc δ :=
  { s with regs := { s.regs with edi := withLow s.regs.edi v } }

def setDs (s : Pc δ) (v : BitVec 16) : Pc δ := { s with ds := v }
def setEs (s : Pc δ) (v : BitVec 16) : Pc δ := { s with es := v }
def setFs (s : Pc δ) (v : BitVec 16) : Pc δ := { s with fs := v }
def setFlags (s : Pc δ) (v : BitVec 16) : Pc δ := { s with flags := v }

/-- The carry flag. -/
def carry (s : Pc δ) : Bool := s.flags.getLsbD 0

/-- The zero flag. -/
def zero (s : Pc δ) : Bool := s.flags.getLsbD 6

/-- The direction flag. -/
def direction (s : Pc δ) : Bool := s.flags.getLsbD 10

def clc (s : Pc δ) : Pc δ := { s with flags := s.flags &&& ~~~1 }
def cli (s : Pc δ) : Pc δ := { s with flags := s.flags &&& ~~~0x200 }
def sti (s : Pc δ) : Pc δ := { s with flags := s.flags ||| 0x200 }

/-- A comparison.  Of the flags it sets, the zero flag is the only one that is looked at. -/
def cmp (s : Pc δ) (v w : BitVec 16) : Pc δ :=
  { s with flags := if v = w then s.flags ||| 0x40 else s.flags &&& ~~~0x40 }

/-- A machine with a stack, and nothing else. -/
def initial (devices : δ) : Pc δ where
  regs := ⟨0, 0, 0, 0, 0x7000, 0, 0, 0⟩
  mem _ := 0
  cr0 := 0
  cs := 0
  ds := 0
  es := 0
  fs := 0
  gs := 0
  ss := 0
  flags := 0
  devices := devices

/-! ### Memory -/

section

variable (B : Board δ) (s : Pc δ)

/-- The address of `segment:offset`. -/
def address (segment offset : BitVec 16) : Addr :=
  physical (B.a20 s.devices) (linear segment offset)

def load8 (segment offset : BitVec 16) : Byte := s.mem (s.address B segment offset)

def load16 (segment offset : BitVec 16) : BitVec 16 := s.mem.read16 (s.address B segment offset)

def store8 (segment offset : BitVec 16) (v : Byte) : Pc δ :=
  { s with mem := s.mem.write8 (s.address B segment offset) v }

def store16 (segment offset v : BitVec 16) : Pc δ :=
  { s with mem := s.mem.write16 (s.address B segment offset) v }

def store32 (segment offset : BitVec 16) (v : BitVec 32) : Pc δ :=
  { s with mem := s.mem.write32 (s.address B segment offset) v }

/-- `push`. -/
def push (v : BitVec 16) : Pc δ := (s.setSp (s.sp - 2)).store16 B s.ss (s.sp - 2) v

/-- The word on top of the stack. -/
def top : BitVec 16 := s.load16 B s.ss s.sp

/-- The stack without it. -/
def drop : Pc δ := s.setSp (s.sp + 2)

/-- `pop`, with what it does to the register. -/
def pop (set : Pc δ → BitVec 16 → Pc δ) : Pc δ := (set s (s.top B)).drop

/-- `push`, for one register after the other. -/
def pushAll (vs : List (BitVec 16)) : Pc δ := vs.foldl (push B) s

/-- `push %eax`: the lower half is on top. -/
def pushEax : Pc δ := (s.push B (s.regs.eax.extractLsb' 16 16)).push B s.ax

/-- `pop %eax`. -/
def popEax : Pc δ := (s.pop B setAx).pop B fun s v ↦ s.setEax (v ++ s.ax)

/-- `in port, %al`. -/
def inAl (port : BitVec 16) : Pc δ :=
  { s with devices := (B.inb port s.devices).2 }.setAl (B.inb port s.devices).1

/-- `out %al, port`. -/
def outAl (port : BitVec 16) : Pc δ := { s with devices := B.outb port s.al s.devices }

/-- `ret`: the state behind it, and where it goes. -/
def ret : Pc δ × BitVec 16 := (s.drop, s.top B)

/-- `call`, with the address behind it, of a function that ends in a `ret`. -/
def call (returnAddr : BitVec 16) (function : Pc δ → Except (Stopped δ) (Pc δ × BitVec 16)) :
    Except (Stopped δ) (Pc δ) := do
  let (s, ip) ← function (s.push B returnAddr)
  if ip = returnAddr then return s else throw .astray

/-- A loop that reads a port until the device is ready. -/
def pollRounds (port : BitVec 16) (busy : Byte → Bool) : ℕ → Pc δ → Option (Pc δ)
  | 0, _ => none
  | fuel + 1, s =>
    let s := s.inAl B port
    if busy s.al then pollRounds port busy fuel s else some s

/-- The loop, and its `ret`. -/
def poll (port : BitVec 16) (busy : Byte → Bool) (fuel : ℕ) (s : Pc δ) :
    Except (Stopped δ) (Pc δ × BitVec 16) :=
  match pollRounds B port busy fuel s with
  | none => throw (.waiting busy s)
  | some t => return t.ret B

end

/-! ### The stack -/

/-- The words are on a stack in the segment that begins at 0, the first one on top. -/
structure Holds (s : Pc δ) (ws : List (BitVec 16)) : Prop where
  ss : s.ss = 0
  room : s.sp.toNat + 2 * ws.length ≤ 0x10000
  words : ∀ i (hi : i < ws.length), s.mem.read16 (addr (s.sp.toNat + 2 * i)) = ws[i]

/-- The `n` bytes below the top of the stack. -/
def Below (s : Pc δ) (n : ℕ) (x : Addr) : Prop := s.sp.toNat - n ≤ x.toNat ∧ x.toNat < s.sp.toNat

/-- What 16-bit code leaves alone that uses `%ax`, `%si`, `%di` and the stack only. -/
structure Beside (s t : Pc δ) : Prop where
  eax : t.regs.eax.extractLsb' 16 16 = s.regs.eax.extractLsb' 16 16
  esp : t.regs.esp.extractLsb' 16 16 = s.regs.esp.extractLsb' 16 16
  esi : t.regs.esi.extractLsb' 16 16 = s.regs.esi.extractLsb' 16 16
  edi : t.regs.edi.extractLsb' 16 16 = s.regs.edi.extractLsb' 16 16
  ecx : t.regs.ecx = s.regs.ecx
  edx : t.regs.edx = s.regs.edx
  ebx : t.regs.ebx = s.regs.ebx
  ebp : t.regs.ebp = s.regs.ebp
  cr0 : t.cr0 = s.cr0
  cs : t.cs = s.cs
  ss : t.ss = s.ss
  fs : t.fs = s.fs
  gs : t.gs = s.gs
  devices : t.devices = s.devices

/-- What a part of the code, or the BIOS, leaves as it was: the stack pointer, the segments, the
mode, and the memory from the top of the stack on but for some addresses. -/
structure Keeps (touched : Addr → Prop) (s t : Pc δ) : Prop where
  esp : t.regs.esp = s.regs.esp
  ss : t.ss = s.ss
  ds : t.ds = s.ds
  es : t.es = s.es
  cr0 : t.cr0 = s.cr0
  mem : ∀ x : Addr, s.sp.toNat ≤ x.toNat → ¬ touched x → t.mem x = s.mem x

end Pc

/-- How 16-bit code may end: it returns, it halts, or a loop is not left. -/
def Stopped.Ends {α δ : Type} (returned : α → Prop) (halted : String → Pc δ → Prop)
    (waiting : (Byte → Bool) → Pc δ → Prop) : Except (Stopped δ) α → Prop
  | .ok a => returned a
  | .error (.halted message s) => halted message s
  | .error .astray => False
  | .error (.waiting busy s) => waiting busy s

open Pc

variable {δ : Type} {B : Board δ} {s t u : Pc δ} {ws : List (BitVec 16)} {w v : BitVec 16}
  {touched touched' : Addr → Prop}

@[simp] theorem setWidth_withLow (r : BitVec 32) (v : BitVec 16) : (withLow r v).setWidth 16 = v :=
  System.setWidth_append_low _ v

@[simp] theorem extractLsb'_withLow (r : BitVec 32) (v : BitVec 16) :
    (withLow r v).extractLsb' 16 16 = r.extractLsb' 16 16 :=
  System.extractLsb'_append_high _ v

@[simp] theorem withLow_withLow (r : BitVec 32) (v w : BitVec 16) :
    withLow (withLow r v) w = withLow r w := by
  rw [withLow, extractLsb'_withLow, withLow]

theorem withLow_self (r : BitVec 32) : withLow r (r.setWidth 16) = r := by
  refine BitVec.eq_of_getLsbD_eq fun i hi ↦ ?_
  rw [withLow, BitVec.getLsbD_append]
  split
  · rename_i hlow
    simp [hlow]
  · rename_i hlow
    rw [BitVec.getLsbD_extractLsb', decide_eq_true (by omega), Bool.true_and,
      Nat.add_sub_cancel' (by omega)]

/-- A register is known by its halves. -/
theorem eq_withLow {r r' : BitVec 32} (hhigh : r.extractLsb' 16 16 = r'.extractLsb' 16 16) :
    r = withLow r' (r.setWidth 16) := by
  rw [withLow, ← hhigh, ← withLow, withLow_self]

/-- A register of which both halves are as they were. -/
theorem eq_of_halves {r r' : BitVec 32} (hhigh : r.extractLsb' 16 16 = r'.extractLsb' 16 16)
    (hlow : r.setWidth 16 = r'.setWidth 16) : r = r' := by
  rw [eq_withLow hhigh, hlow, withLow_self]

theorem Pc.al_setAl (s : Pc δ) (v : Byte) : (s.setAl v).al = v := by
  change (withLow s.regs.eax (s.ah ++ v)).setWidth 8 = v
  rw [withLow, BitVec.setWidth_append, BitVec.setWidth_append]
  simp

theorem Pc.ah_setAh (s : Pc δ) (v : Byte) : (s.setAh v).ah = v := by
  change (withLow s.regs.eax (v ++ s.al)).extractLsb' 8 8 = v
  refine BitVec.eq_of_getLsbD_eq fun i hi ↦ ?_
  rw [BitVec.getLsbD_extractLsb', withLow, BitVec.getLsbD_append, BitVec.getLsbD_append,
    decide_eq_true hi, if_pos (by omega), if_neg (by omega), Bool.true_and, Nat.add_sub_cancel_left]

/-! ## Addresses -/

/-- The first megabyte is seen whether the gate is open or not. -/
theorem physical_of_lt {a20 : Bool} {a : Addr} (h : a.toNat < 0x100000) : physical a20 a = a := by
  rw [physical]
  split
  · rfl
  · refine BitVec.eq_of_getLsbD_eq fun i hi ↦ ?_
    have hbit : a.getLsbD 20 = false := Nat.testBit_lt_two_pow h
    have hmask : ∀ i < 32, (~~~0x100000 : BitVec 32).getLsbD i = !decide (i = 20) := by decide
    rw [BitVec.getLsbD_and, hmask i hi]
    by_cases h20 : i = 20
    · rw [h20, hbit, Bool.false_and]
    · rw [decide_eq_false h20, Bool.not_false, Bool.and_true]

theorem address_zero (v : BitVec 16) : s.address B 0 v = addr v.toNat := by
  have hlinear : linear 0 v = addr v.toNat := by
    rw [linear]
    bv_omega
  have hv := v.isLt
  rw [address, hlinear]
  exact physical_of_lt (by rw [toNat_addr (by omega)]; omega)

/-! ## The stack -/

namespace Pc

theorem sp_setSp (s : Pc δ) (v : BitVec 16) : (s.setSp v).sp = v := setWidth_withLow _ v

theorem sp_push (s : Pc δ) (w : BitVec 16) : (s.push B w).sp = s.sp - 2 := setWidth_withLow _ _

theorem toNat_sp_push (hroom : 2 ≤ s.sp.toNat) (w : BitVec 16) :
    (s.push B w).sp.toNat = s.sp.toNat - 2 := by
  rw [sp_push]
  bv_omega

theorem toNat_sp_drop (hroom : s.sp.toNat + 2 < 0x10000) : s.drop.sp.toNat = s.sp.toNat + 2 := by
  rw [drop, sp_setSp]
  bv_omega

theorem mem_push (hss : s.ss = 0) (w : BitVec 16) :
    (s.push B w).mem = s.mem.write16 (addr (s.sp - 2).toNat) w := by
  change s.mem.write16 ((s.setSp (s.sp - 2)).address B s.ss (s.sp - 2)) w = _
  rw [hss, address_zero]

/-- A word is stored below the stack. -/
theorem mem_push_of_not_below (hss : s.ss = 0) (hroom : 2 ≤ s.sp.toNat) {x : Addr}
    (hx : ¬ s.Below 2 x) : (s.push B w).mem x = s.mem x := by
  have hsp := s.sp.isLt
  rw [Below] at hx
  rw [mem_push hss]
  refine Mem.write_of_not_mem ?_
  bv_omega

namespace Holds

theorem push (h : s.Holds ws) (hroom : 2 ≤ s.sp.toNat) : (s.push B w).Holds (w :: ws) := by
  have hlt := s.sp.isLt
  have hle := h.room
  have hsp := toNat_sp_push (B := B) hroom w
  refine ⟨h.ss, by rw [hsp, List.length_cons]; omega, fun i hi ↦ ?_⟩
  rw [hsp, mem_push h.ss]
  have hto : addr (s.sp - 2).toNat = addr (s.sp.toNat - 2) := by
    congr 1
    bv_omega
  rw [hto]
  cases i with
  | zero => exact Mem.readLE_writeLE (n := 2) _ (by decide) _ _
  | succ i =>
    rw [List.length_cons] at hi
    rw [List.getElem_cons_succ, ← h.words i (by omega)]
    have hnext : s.sp.toNat - 2 + 2 * (i + 1) = s.sp.toNat + 2 * i := by omega
    rw [hnext]
    refine Mem.readLE_write_of_disjoint (n := 2) (k := 2) fun k hk ↦ ?_
    bv_omega

theorem top_eq (h : s.Holds (w :: ws)) : s.top B = w := by
  have hword := h.words 0 (by simp)
  rw [top, load16, h.ss, address_zero]
  simpa using hword

theorem drop (h : s.Holds (w :: ws)) (hroom : s.sp.toNat + 2 < 0x10000) : s.drop.Holds ws := by
  have hle := h.room
  have hsp := toNat_sp_drop hroom
  rw [List.length_cons] at hle
  refine ⟨h.ss, by rw [hsp]; omega, fun i hi ↦ ?_⟩
  rw [hsp]
  have hword := h.words (i + 1) (by simpa using hi)
  have hnext : s.sp.toNat + 2 + 2 * i = s.sp.toNat + 2 * (i + 1) := by omega
  rw [hnext]
  exact hword

/-- A register is taken from the stack. -/
theorem pop (h : s.Holds (w :: ws)) (hroom : s.sp.toNat + 2 < 0x10000)
    (set : Pc δ → BitVec 16 → Pc δ) (hss : (set s w).ss = s.ss)
    (hsp : (set s w).regs.esp = s.regs.esp) (hmem : (set s w).mem = s.mem) :
    s.pop B set = (set s w).drop ∧ (s.pop B set).Holds ws ∧
      (s.pop B set).sp.toNat = s.sp.toNat + 2 := by
  have hpop : s.pop B set = (set s w).drop := by rw [Pc.pop, h.top_eq]
  have hsp' : (set s w).sp = s.sp := by rw [sp, hsp, sp]
  have hset : (set s w).Holds (w :: ws) := by
    refine ⟨hss.trans h.ss, by rw [hsp']; exact h.room, ?_⟩
    rw [hsp', hmem]
    exact h.words
  rw [← hsp'] at hroom ⊢
  rw [hpop]
  exact ⟨rfl, hset.drop hroom, toNat_sp_drop hroom⟩

/-- The words stay where they are if nothing is stored there. -/
theorem congr (h : s.Holds ws) (hss : t.ss = s.ss) (hsp : t.sp = s.sp)
    (hmem : ∀ x : Addr, s.sp.toNat ≤ x.toNat → x.toNat < s.sp.toNat + 2 * ws.length →
      t.mem x = s.mem x) : t.Holds ws := by
  have hle := h.room
  refine ⟨hss.trans h.ss, by rw [hsp]; exact hle, fun i hi ↦ ?_⟩
  rw [hsp, ← h.words i hi]
  refine Mem.readLE_congr fun j hj ↦ ?_
  have haddr : (addr (s.sp.toNat + 2 * i) + BitVec.ofNat 32 j).toNat = s.sp.toNat + 2 * i + j := by
    bv_omega
  exact hmem _ (by omega) (by omega)

end Holds

/-- Behind a `call` the stack pointer is where it was. -/
theorem esp_drop_of_push (ht : t.regs.esp = (s.push B w).regs.esp) :
    t.drop.regs.esp = s.regs.esp := by
  have hsp : t.sp + 2 = s.sp := by
    rw [sp, ht]
    exact (congrArg (· + 2) (sp_push s w)).trans (BitVec.sub_add_cancel _ _)
  change withLow t.regs.esp (t.sp + 2) = _
  rw [hsp, ht]
  change withLow (withLow s.regs.esp (s.sp - 2)) s.sp = _
  rw [withLow_withLow, sp, withLow_self]

/-! ## What is left alone -/

namespace Beside

theorem refl (s : Pc δ) : Beside s s :=
  ⟨rfl, rfl, rfl, rfl, rfl, rfl, rfl, rfl, rfl, rfl, rfl, rfl, rfl, rfl⟩

theorem trans (h : Beside s t) (h' : Beside t u) : Beside s u where
  eax := h'.eax.trans h.eax
  esp := h'.esp.trans h.esp
  esi := h'.esi.trans h.esi
  edi := h'.edi.trans h.edi
  ecx := h'.ecx.trans h.ecx
  edx := h'.edx.trans h.edx
  ebx := h'.ebx.trans h.ebx
  ebp := h'.ebp.trans h.ebp
  cr0 := h'.cr0.trans h.cr0
  cs := h'.cs.trans h.cs
  ss := h'.ss.trans h.ss
  fs := h'.fs.trans h.fs
  gs := h'.gs.trans h.gs
  devices := h'.devices.trans h.devices

theorem setAx (s : Pc δ) (v : BitVec 16) : Beside s (s.setAx v) :=
  { refl s with eax := extractLsb'_withLow _ _ }

theorem setSi (s : Pc δ) (v : BitVec 16) : Beside s (s.setSi v) :=
  { refl s with esi := extractLsb'_withLow _ _ }

theorem setDi (s : Pc δ) (v : BitVec 16) : Beside s (s.setDi v) :=
  { refl s with edi := extractLsb'_withLow _ _ }

theorem setSp (s : Pc δ) (v : BitVec 16) : Beside s (s.setSp v) :=
  { refl s with esp := extractLsb'_withLow _ _ }

theorem setDs (s : Pc δ) (v : BitVec 16) : Beside s (s.setDs v) := { refl s with }
theorem setEs (s : Pc δ) (v : BitVec 16) : Beside s (s.setEs v) := { refl s with }
theorem setFlags (s : Pc δ) (v : BitVec 16) : Beside s (s.setFlags v) := { refl s with }

theorem push (B : Board δ) (s : Pc δ) (v : BitVec 16) : Beside s (s.push B v) :=
  { refl s with esp := extractLsb'_withLow _ _ }

theorem drop (s : Pc δ) : Beside s s.drop := setSp s _

theorem pop {set : Pc δ → BitVec 16 → Pc δ} (h : ∀ s v, Beside s (set s v)) (B : Board δ)
    (s : Pc δ) : Beside s (s.pop B set) :=
  (h _ _).trans (.drop _)

end Beside

namespace Keeps

theorem refl (touched : Addr → Prop) (s : Pc δ) : Keeps touched s s :=
  ⟨rfl, rfl, rfl, rfl, rfl, fun _ _ _ ↦ rfl⟩

theorem sp_eq (h : Keeps touched s t) : t.sp = s.sp := by
  rw [sp, h.esp, sp]

theorem trans (h : Keeps touched s t) (h' : Keeps touched t u) : Keeps touched s u := by
  refine ⟨h'.esp.trans h.esp, h'.ss.trans h.ss, h'.ds.trans h.ds, h'.es.trans h.es,
    h'.cr0.trans h.cr0, fun x hx hout ↦ ?_⟩
  exact (h'.mem x (by rwa [h.sp_eq]) hout).trans (h.mem x hx hout)

theorem mono (h : Keeps touched s t) (hsub : ∀ x, touched x → touched' x) :
    Keeps touched' s t :=
  ⟨h.esp, h.ss, h.ds, h.es, h.cr0, fun x hx hout ↦ h.mem x hx fun h ↦ hout (hsub x h)⟩

/-- A part of the code that only touches other registers, the flags or the devices. -/
theorem of_eq (hesp : t.regs.esp = s.regs.esp) (hss : t.ss = s.ss) (hds : t.ds = s.ds)
    (hes : t.es = s.es) (hcr0 : t.cr0 = s.cr0) (hmem : t.mem = s.mem) : Keeps touched s t :=
  ⟨hesp, hss, hds, hes, hcr0, fun _ _ _ ↦ by rw [hmem]⟩

/-- A function that leaves alone what it found leaves alone what was there before the call. -/
theorem of_push (h : Keeps touched (s.push B w) t) (hss : s.ss = 0) (hroom : 2 ≤ s.sp.toNat) :
    Keeps touched s t.drop := by
  refine ⟨esp_drop_of_push h.esp, h.ss, h.ds, h.es, h.cr0, fun x hx hout ↦ ?_⟩
  · refine (h.mem x ?_ hout).trans (mem_push_of_not_below hss hroom fun hbelow ↦ ?_)
    · rw [toNat_sp_push hroom]
      omega
    · exact absurd hbelow.2 (by omega)

/-- What `push %eax` put on the stack is gone behind `pop %eax`. -/
theorem popEax (h : Keeps touched (s.pushEax B) t) (hss : s.ss = 0) (hroom : 4 ≤ s.sp.toNat) :
    Keeps touched s (t.popEax B) := by
  have hsp := toNat_sp_push (B := B) (show 2 ≤ s.sp.toNat by omega) (s.regs.eax.extractLsb' 16 16)
  have hlow : Keeps touched (s.push B (s.regs.eax.extractLsb' 16 16)) (t.pop B setAx) :=
    of_push (t := t.setAx (t.top B)) (h.trans (.of_eq rfl rfl rfl rfl rfl rfl)) hss (by omega)
  exact of_push (t := (t.pop B setAx).setEax _) (hlow.trans (.of_eq rfl rfl rfl rfl rfl rfl)) hss
    (by omega)

end Keeps

/-- **Registers are pushed one after the other.** -/
theorem pushAll_spec (vs : List (BitVec 16)) (hs : s.Holds ws)
    (hroom : 2 * vs.length ≤ s.sp.toNat) :
    (s.pushAll B vs).Holds (vs.reverse ++ ws) ∧
      (s.pushAll B vs).sp.toNat = s.sp.toNat - 2 * vs.length ∧ Beside s (s.pushAll B vs) ∧
      ∀ x, ¬ s.Below (2 * vs.length) x → (s.pushAll B vs).mem x = s.mem x := by
  induction vs generalizing s ws with
  | nil => exact ⟨hs, rfl, .refl s, fun _ _ ↦ rfl⟩
  | cons v vs ih =>
    rw [List.length_cons] at hroom
    have hroom₂ : 2 ≤ s.sp.toNat := by omega
    have hsp := toNat_sp_push (B := B) hroom₂ v
    obtain ⟨hholds, hsp', hbeside, hmem⟩ := ih (hs.push hroom₂) (by rw [hsp]; omega)
    refine ⟨?_, ?_, (Beside.push B s v).trans hbeside, fun x hx ↦ ?_⟩
    · rw [List.reverse_cons, List.append_assoc]
      exact hholds
    · rw [List.length_cons]
      exact hsp'.trans (by omega)
    · rw [Below, List.length_cons] at hx
      refine (hmem x ?_).trans (mem_push_of_not_below hs.ss hroom₂ ?_)
      · rw [Below, hsp]
        omega
      · rw [Below]
        omega

/-! ## Calls -/

/-- **A function that finds its return address again comes back.** -/
theorem call_eq_ok {function : Pc δ → Except (Stopped δ) (Pc δ × BitVec 16)}
    {returnAddr : BitVec 16} (hrun : function (s.push B returnAddr) = .ok (t.ret B))
    (ht : t.Holds (returnAddr :: ws)) :
    s.call B returnAddr function = .ok t.drop := by
  have htop : t.top B = returnAddr := ht.top_eq
  rw [call, hrun]
  change (if t.top B = returnAddr then _ else _) = _
  rw [if_pos htop]
  rfl

end Pc

/-! ## How code ends -/

namespace Stopped.Ends

variable {α β : Type} {returned : α → Prop} {returned' : β → Prop}
  {halted halted' : String → Pc δ → Prop} {waiting waiting' : (Byte → Bool) → Pc δ → Prop}

theorem ok {a : α} (h : returned a) : Ends returned halted waiting (.ok a : Except (Stopped δ) α) :=
  h

/-- One thing after the other, which knows what came out of the first. -/
theorem bind_of_eq {x : Except (Stopped δ) α} {f : α → Except (Stopped δ) β}
    (hx : Ends returned halted waiting x)
    (hf : ∀ a, x = .ok a → returned a → Ends returned' halted waiting (f a)) :
    Ends returned' halted waiting (x >>= f) := by
  match x, hx with
  | .ok a, hx => exact hf a rfl hx
  | .error (.halted message s), hx => exact hx
  | .error (.waiting busy s), hx => exact hx

/-- One thing after the other. -/
theorem bind {x : Except (Stopped δ) α} {f : α → Except (Stopped δ) β}
    (hx : Ends returned halted waiting x)
    (hf : ∀ a, returned a → Ends returned' halted waiting (f a)) :
    Ends returned' halted waiting (x >>= f) :=
  hx.bind_of_eq fun a _ ha ↦ hf a ha

theorem mono {x : Except (Stopped δ) α} {returned' : α → Prop}
    (hx : Ends returned halted waiting x) (hreturned : ∀ a, returned a → returned' a)
    (hhalted : ∀ m s, halted m s → halted' m s)
    (hwaiting : ∀ busy s, waiting busy s → waiting' busy s) :
    Ends returned' halted' waiting' x := by
  match x, hx with
  | .ok a, hx => exact hreturned a hx
  | .error (.halted message s), hx => exact hhalted message s hx
  | .error (.waiting busy s), hx => exact hwaiting busy s hx

/-- **A call** comes back if the function leaves the stack alone. -/
theorem call {f : Pc δ → Except (Stopped δ) (Pc δ × BitVec 16)} {returnAddr : BitVec 16}
    {P : Pc δ → Prop} (hss : s.ss = 0) (hroom : 2 ≤ s.sp.toNat)
    (htouched : ∀ x : Addr, touched x → s.sp.toNat ≤ x.toNat) (hP : ∀ t, P t → P t.drop)
    (hf : Ends (fun q ↦ ∃ t, q = t.ret B ∧ Keeps touched (s.push B returnAddr) t ∧ P t) halted
      waiting (f (s.push B returnAddr))) :
    Ends (fun t ↦ Keeps touched s t ∧ P t) halted waiting (s.call B returnAddr f) := by
  have hlt := s.sp.isLt
  have hpushed : (s.push B returnAddr).Holds [returnAddr] :=
    Holds.push ⟨hss, by simp; omega, by simp⟩ hroom
  refine bind hf ?_
  rintro - ⟨t, rfl, hkeeps, hPt⟩
  have hholds : t.Holds [returnAddr] := by
    refine hpushed.congr hkeeps.ss hkeeps.sp_eq fun x hx hx' ↦ hkeeps.mem x hx fun htouch ↦ ?_
    have hsp := toNat_sp_push (B := B) hroom returnAddr
    have habove := htouched x htouch
    rw [hsp, List.length_singleton] at hx'
    omega
  have htop : t.top B = returnAddr := hholds.top_eq
  change Ends _ _ _ (if t.top B = returnAddr then _ else _)
  rw [if_pos htop]
  exact ⟨hkeeps.of_push hss hroom, hP t hPt⟩

end Stopped.Ends

end X86
