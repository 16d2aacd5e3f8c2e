import RainbowOS.Boot.A20
import RainbowOS.Boot.Stage0
import RainbowOS.EarlyLib.RealMode
import RainbowOS.Terminal.Handover

/-!
# The entry of stage1: `stage1.S`

Stage1 begins in real mode.  It opens the gate on address line 20, asks the BIOS for the cursor,
enters protected mode and calls `_stage1Main` with the boot drive, the end of its image and the
cursor.

The gate is opened in one of three ways, each tried if the one before did not help: a function of
the BIOS, the keyboard controller, and a port of its own.

* `opens_enable_20_gate` — behind each attempt stands the test, so `enable_20_gate` returns with the
  gate open, or halts with the gate closed.
* `start_protected` — the same of the whole way, with what `_stage1Main` finds on the stack.
-/

set_option autoImplicit false

namespace RainbowOS

open X86 Pc

variable {δ : Type}

section

-- `site n` is the address behind the `call` with that number
variable (B : Board δ) (site : ℕ → BitVec 16)

/-! ## `enable_20_gate` -/

/-- `a20_line_error_msg`. -/
def a20_line_error_msg : String := "Error: Could not enable A20 line, aborting!"

/-- `.a20_gate_failed`. -/
def a20_gate_failed (s : Pc δ) : Except (Stopped δ) (Pc δ × BitVec 16) :=
  error B site a20_line_error_msg s

/-- `.a20_gate_enabled`. -/
def a20_gate_enabled (s : Pc δ) : Except (Stopped δ) (Pc δ × BitVec 16) := do
  let s ← s.call B (site 1) (printing B "A20 line enabled successfully!\n\r")
  return s.ret B

/-- The test behind an attempt, with the `call` number `n`, and what is done if it fails. -/
def testA20 (n : ℕ) (otherwise : Pc δ → Except (Stopped δ) (Pc δ × BitVec 16)) (s : Pc δ) :
    Except (Stopped δ) (Pc δ × BitVec 16) := do
  let s ← s.call B (site n) fun s ↦ .ok ((check_a20 B s).ret B)
  let s := s.setBx 1
  if s.ax = s.bx then a20_gate_enabled B site s else otherwise s

/-- `.fast_a20_enable`. -/
def fast_a20_enable (s : Pc δ) : Except (Stopped δ) (Pc δ × BitVec 16) := do
  let s ← s.call B (site 2)
    (printing B "Keyboard enable failed, attempting fast A20 enable... \n\r")
  let s := s.inAl B 0x92
  if s.al &&& 2 ≠ 0 then a20_gate_failed B site s
  else
    let s := s.setAl (s.al ||| 2)
    let s := s.setAl (s.al &&& 0xfe)
    let s := s.outAl B 0x92
    testA20 B site 3 (a20_gate_failed B site) s

/-- The keyboard controller has not taken the last byte yet. -/
def inputFull (al : Byte) : Bool := al &&& 2 ≠ 0

/-- The keyboard controller has no byte to be read. -/
def outputEmpty (al : Byte) : Bool := al &&& 1 = 0

/-- `.a20_wait`. -/
def a20_wait : ℕ → Pc δ → Except (Stopped δ) (Pc δ × BitVec 16) := poll B 0x64 inputFull

/-- `.a20_wait_2`. -/
def a20_wait_2 : ℕ → Pc δ → Except (Stopped δ) (Pc δ × BitVec 16) := poll B 0x64 outputEmpty

/-- `call .a20_wait`, and a command or a byte for the keyboard controller. -/
def waitAndOut (fuel n : ℕ) (port : BitVec 16) (load : Pc δ → Pc δ) (s : Pc δ) :
    Except (Stopped δ) (Pc δ) := do
  let s ← s.call B (site n) (a20_wait B fuel)
  return (load s).outAl B port

/-- `.keyboard_enable`: the output port of the controller is read, and written with line 20 set. -/
def keyboard_enable (fuel : ℕ) (s : Pc δ) : Except (Stopped δ) (Pc δ × BitVec 16) := do
  let s ← s.call B (site 4) (printing B "Int 15h enable failed, attempting keyboard enable...\n\r")
  let s := s.cli
  let s ← waitAndOut B site fuel 5 0x64 (·.setAl 0xad) s
  let s ← waitAndOut B site fuel 6 0x64 (·.setAl 0xd0) s
  let s ← s.call B (site 7) (a20_wait_2 B fuel)
  let s := (s.inAl B 0x60).pushEax B
  let s ← waitAndOut B site fuel 8 0x64 (·.setAl 0xd1) s
  let s ← waitAndOut B site fuel 9 0x60 (fun s ↦ (s.popEax B).setAl ((s.popEax B).al ||| 2)) s
  let s ← waitAndOut B site fuel 10 0x64 (·.setAl 0xae) s
  let s ← s.call B (site 11) (a20_wait B fuel)
  testA20 B site 12 (fast_a20_enable B site) s.sti

/-- `.int15_test` and `.int15_enable`. -/
def enable_20_gate (fuel : ℕ) (s : Pc δ) : Except (Stopped δ) (Pc δ × BitVec 16) :=
  let s := B.int15 (s.clc.setAx 0x2403)
  if s.carry ∨ s.ah ≠ 0 then keyboard_enable B site fuel s
  else
    let s := B.int15 (s.setAx 0x2401)
    if s.carry ∨ s.ah ≠ 0 then keyboard_enable B site fuel s
    else testA20 B site 13 (keyboard_enable B site fuel) s

/-! ## `_start` -/

/-- `.a20_stuff`. -/
def a20_stuff (fuel : ℕ) (s : Pc δ) : Except (Stopped δ) (Pc δ) := do
  let s ← s.call B (site 14) fun s ↦ .ok ((check_a20 B s).ret B)
  let s := s.setBx 1
  if s.ax = s.bx then
    s.call B (site 15) (printing B "A20 line is already enabled, skipping enabling\n\r")
  else
    let s ← s.call B (site 16)
      (printing B "A20 line is not enabled, attempting to enable it...\n\r")
    s.call B (site 17) (enable_20_gate B site fuel)

/-- `.a20_done`: the cursor is stored behind the drive, and protected mode is entered. -/
def a20_done (_temp : BitVec 16) (s : Pc δ) : Pc δ :=
  let s := B.int10 ((s.setAh 0x03).setBh 0)
  let s := s.store16 B s.ds (_temp + 2) s.dx
  let s := s.cli
  let s := s.setEax s.cr0
  let s := s.setEax (s.regs.eax ||| 1)
  -- neither the write to `%cr0` nor the far jump is refused: PE is set, and the selector not null
  { s with cr0 := s.regs.eax, cs := CODE32_SEGMENT }

/-- The cursor is passed. -/
def passCursor (_temp : BitVec 16) (s : System) : System :=
  let s := s.setAx 0
  let s := s.setAx (s.mem.read16 (addr (_temp.toNat + 2)))
  { s with toCpu := s.toCpu.push s.regs.eax }

/-- The end of the image is passed. -/
def passStop (stop_stage1 : BitVec 32) (s : System) : System :=
  let s := s.setEax stop_stage1
  { s with toCpu := s.toCpu.push s.regs.eax }

/-- The drive is passed. -/
def passDrive (_temp : BitVec 16) (s : System) : System :=
  let s := s.setEdx 0
  let s := s.setEdx (withLow s.regs.edx (s.mem.read16 (addr _temp.toNat)))
  { s with toCpu := s.toCpu.push s.regs.edx }

/-- `.pmEntry`, up to the first instruction of `_stage1Main`. -/
def pmEntry (_temp : BitVec 16) (stop_stage1 returnAddr : BitVec 32) (s : System) : System :=
  let s := (s.setEax (DATA32_SEGMENT.setWidth 32)).loadDataSegments DATA32_SEGMENT
  let s := passDrive _temp (passStop stop_stage1 (passCursor _temp s))
  { s with toCpu := s.toCpu.push returnAddr }

/-- `_start` of stage1. -/
def stage1Start (fuel : ℕ) (_temp : BitVec 16) (stop_stage1 returnAddr : BitVec 32) (s : Pc δ) :
    Except (Stopped δ) (Pc δ) := do
  let s := s.store16 B s.ds _temp s.dx
  let s ← a20_stuff B site fuel s
  let s := a20_done B _temp s
  return { s with toSystem := pmEntry _temp stop_stage1 returnAddr s.toSystem }

end

/-! ## What the board may do -/

/-- What stage1 relies on: the BIOS leaves its stack and its memory alone, and the gate as well when
it prints; and nothing is changed by reading a port. -/
structure WellBehaved (B : Board δ) : Prop extends Prints B where
  int15 : ∀ s : Pc δ, s.ss = 0 → 0x500 ≤ s.sp.toNat → Keeps High s (B.int15 s)
  inb : ∀ port d, B.a20 (B.inb port d).2 = B.a20 d

variable {B : Board δ} {s t u : Pc δ} {touched : Addr → Prop} {returnAddr : BitVec 16}
  {site : ℕ → BitVec 16} {halted : String → Pc δ → Prop}
  {waiting : (Byte → Bool) → Pc δ → Prop} {fuel n : ℕ}

/-- The stack during a part of `stage1.S`. -/
structure Roomy (s : Pc δ) : Prop where
  ss : s.ss = 0
  room : 0x560 ≤ s.sp.toNat

/-! ## Calls -/

theorem ends_call_check_a20 (hss : s.ss = 0) (hroom : 0x512 ≤ s.sp.toNat) :
    Stopped.Ends (fun t ↦ Keeps High s t ∧ t.devices = s.devices ∧
        t.ax = if B.a20 s.devices then 1 else 0) halted waiting
      (s.call B returnAddr fun s ↦ .ok ((check_a20 B s).ret B)) := by
  have hlt := s.sp.isLt
  have hsp := toNat_sp_push (B := B) (show 2 ≤ s.sp.toNat by omega) returnAddr
  have hpushed : (s.push B returnAddr).Holds [returnAddr] :=
    Holds.push ⟨hss, by simp; omega, by simp⟩ (by omega)
  obtain ⟨t, ht⟩ : ∃ t, t = check_a20 B (s.push B returnAddr) := ⟨_, rfl⟩
  obtain ⟨hregs, -, hds, hes, hbeside, -, hmem⟩ := check_a20_spec B hpushed (by omega)
  rw [← ht] at hregs hds hes hbeside hmem
  refine .call (P := fun t ↦ t.devices = s.devices ∧ t.ax = if B.a20 s.devices then 1 else 0) hss
    (by omega) (fun _ ↦ High.above) (fun _ h ↦ h) ⟨t, by rw [ht], ?_, hbeside.devices, ?_⟩
  · refine ⟨by rw [hregs], hbeside.ss, hds, hes, hbeside.cr0, fun x hx hlow ↦ ?_⟩
    have hfar := toNat_farByte (B.a20 s.devices)
    rw [High] at hlow
    rw [hmem x (by rw [Below]; omega), if_neg]
    rintro (rfl | rfl)
    · exact absurd hx (by rw [hsp]; simp; omega)
    · change ¬ 0x80000 ≤ (farByte (B.a20 s.devices) + 1).toNat at hlow
      change _ ≤ (farByte (B.a20 s.devices) + 1).toNat at hx
      split at hfar <;> bv_omega
  · rw [Pc.ax, hregs]
    exact setWidth_withLow _ _

/-- The keyboard controller answers within so many reads of its status. -/
def ReadyIn (B : Board δ) (busy : Byte → Bool) : ℕ → δ → Prop
  | 0, _ => False
  | fuel + 1, d => busy (B.inb 0x64 d).1 = false ∨ ReadyIn B busy fuel (B.inb 0x64 d).2

/-- Where a loop begins that is not left: the controller does not answer there, in as many reads of
its status as the loop makes. -/
def Waits (B : Board δ) (fuel : ℕ) (busy : Byte → Bool) (s : Pc δ) : Prop :=
  (busy = inputFull ∨ busy = outputEmpty) ∧ ¬ ReadyIn B busy fuel s.devices

/-- The rounds of a loop go on until the controller answers. -/
theorem pollRounds_spec (touched : Addr → Prop) (hB : WellBehaved B) (busy : Byte → Bool)
    (fuel : ℕ) (s : Pc δ) :
    match pollRounds B 0x64 busy fuel s with
    | none => ¬ ReadyIn B busy fuel s.devices
    | some t => Keeps touched s t ∧ B.a20 t.devices = B.a20 s.devices := by
  induction fuel generalizing s with
  | zero => exact id
  | succ fuel ih =>
    have hgate : B.a20 (s.inAl B 0x64).devices = B.a20 s.devices := hB.inb _ _
    have hkeeps : Keeps touched s (s.inAl B 0x64) := .of_eq rfl rfl rfl rfl rfl rfl
    have hal : (s.inAl B 0x64).al = (B.inb 0x64 s.devices).1 := al_setAl _ _
    rw [pollRounds]
    cases hbusy : busy (s.inAl B 0x64).al with
    | true =>
      rw [if_pos rfl]
      have hrest := ih (s.inAl B 0x64)
      split at hrest
      next =>
        rintro (hready | hready)
        · rw [← hal, hbusy] at hready
          cases hready
        · exact hrest hready
      next => exact ⟨hkeeps.trans hrest.1, hrest.2.trans hgate⟩
    | false =>
      rw [if_neg Bool.false_ne_true]
      exact ⟨hkeeps, hgate⟩

theorem ends_call_poll (hB : WellBehaved B) (hss : s.ss = 0) (hroom : 2 ≤ s.sp.toNat)
    {busy : Byte → Bool} (hbusy : busy = inputFull ∨ busy = outputEmpty) :
    Stopped.Ends (fun t ↦ Keeps High s t ∧ B.a20 t.devices = B.a20 s.devices) halted
      (Waits B fuel) (s.call B returnAddr (poll B 0x64 busy fuel)) := by
  refine .call (P := fun t ↦ B.a20 t.devices = B.a20 s.devices) hss hroom (fun _ ↦ High.above)
    (fun _ h ↦ h) ?_
  have hrounds := pollRounds_spec High hB busy fuel (s.push B returnAddr)
  rw [poll]
  cases hpoll : pollRounds B 0x64 busy fuel (s.push B returnAddr) with
  | none =>
    rw [hpoll] at hrounds
    exact ⟨hbusy, hrounds⟩
  | some t =>
    rw [hpoll] at hrounds
    exact ⟨t, rfl, hrounds⟩

/-! ## The three ways -/

/-- A part of `enable_20_gate` opens the gate and returns, or halts with the gate closed. -/
def Opens (B : Board δ) (waiting : (Byte → Bool) → Pc δ → Prop) (s : Pc δ) :
    Except (Stopped δ) (Pc δ × BitVec 16) → Prop :=
  Stopped.Ends (fun q ↦ ∃ t, q = t.ret B ∧ Keeps High s t ∧ B.a20 t.devices = true)
    (fun message t ↦ message = a20_line_error_msg ∧ B.a20 t.devices = false) waiting

theorem Opens.of_keeps {r : Except (Stopped δ) (Pc δ × BitVec 16)} (h : Opens B waiting t r)
    (hkeeps : Keeps High s t) : Opens B waiting s r := by
  refine h.mono ?_ (fun _ _ h ↦ h) fun _ _ h ↦ h
  rintro - ⟨u, rfl, hkeeps', hgate⟩
  exact ⟨u, rfl, hkeeps.trans hkeeps', hgate⟩

theorem Roomy.of_keeps (hs : Roomy s) (h : Keeps High s t) : Roomy t :=
  ⟨h.ss.trans hs.ss, by rw [h.sp_eq]; exact hs.room⟩

theorem opens_a20_gate_enabled (hB : WellBehaved B) (hs : Roomy s)
    (hgate : B.a20 s.devices = true) : Opens B waiting s (a20_gate_enabled B site s) := by
  have hroom := hs.room
  refine (ends_call_printing hB.toPrints hs.ss (by omega) _).bind ?_
  rintro t ⟨hkeeps, hsame⟩
  exact ⟨t, rfl, hkeeps, hsame.trans hgate⟩

theorem opens_a20_gate_failed (hB : WellBehaved B) (hs : Roomy s)
    (hgate : B.a20 s.devices = false) : Opens B waiting s (a20_gate_failed B site s) := by
  have hroom := hs.room
  refine (ends_call_printing hB.toPrints hs.ss (by omega) _).bind ?_
  rintro t ⟨-, hsame⟩
  exact ⟨rfl, hsame.trans hgate⟩

/-- **The test decides.** -/
theorem opens_testA20 (hB : WellBehaved B) (hs : Roomy s)
    {otherwise : Pc δ → Except (Stopped δ) (Pc δ × BitVec 16)}
    (hotherwise : ∀ t, Keeps High s t → B.a20 t.devices = false →
      Opens B waiting t (otherwise t)) : Opens B waiting s (testA20 B site n otherwise s) := by
  have hroom := hs.room
  refine (ends_call_check_a20 hs.ss (by omega)).bind ?_
  rintro t ⟨hkeeps, hdevices, hax⟩
  have hkeeps' : Keeps High s (t.setBx 1) := hkeeps.trans (.of_eq rfl rfl rfl rfl rfl rfl)
  have hbx : (t.setBx 1).bx = 1 := setWidth_withLow _ _
  have hax' : (t.setBx 1).ax = t.ax := rfl
  have hdevices' : (t.setBx 1).devices = s.devices := hdevices
  refine Opens.of_keeps (t := t.setBx 1) ?_ hkeeps'
  change Opens B waiting _ (if (t.setBx 1).ax = (t.setBx 1).bx then _ else _)
  rw [hbx, hax', hax]
  cases hgate : B.a20 s.devices with
  | true =>
    rw [if_pos (by simp)]
    exact opens_a20_gate_enabled hB (hs.of_keeps hkeeps') (by rw [hdevices', hgate])
  | false =>
    rw [if_neg (by simp)]
    exact hotherwise _ hkeeps' (by rw [hdevices', hgate])

theorem opens_fast_a20_enable (hB : WellBehaved B) (hs : Roomy s)
    (hgate : B.a20 s.devices = false) : Opens B waiting s (fast_a20_enable B site s) := by
  have hroom := hs.room
  refine (ends_call_printing hB.toPrints hs.ss (by omega) _).bind ?_
  rintro t ⟨hkeeps, hsame⟩
  obtain ⟨u, hu⟩ : ∃ u, u = t.inAl B 0x92 := ⟨_, rfl⟩
  have hkeeps_u : Keeps High s u := hkeeps.trans (hu ▸ .of_eq rfl rfl rfl rfl rfl rfl)
  have hgate_u : B.a20 u.devices = false := by
    rw [hu]
    exact (hB.inb _ _).trans (hsame.trans hgate)
  refine Opens.of_keeps (t := u) ?_ hkeeps_u
  rw [← hu]
  change Opens B waiting u (if u.al &&& 2 ≠ 0 then _ else _)
  split
  · exact opens_a20_gate_failed hB (hs.of_keeps hkeeps_u) hgate_u
  · obtain ⟨v, hv⟩ : ∃ v, v =
        ((u.setAl (u.al ||| 2)).setAl ((u.setAl (u.al ||| 2)).al &&& 0xfe)).outAl B 0x92 := ⟨_, rfl⟩
    have hkeeps_v : Keeps High u v := hv ▸ .of_eq rfl rfl rfl rfl rfl rfl
    have hroomy_v := (hs.of_keeps hkeeps_u).of_keeps hkeeps_v
    have hopens : Opens B waiting v (testA20 B site 3 (a20_gate_failed B site) v) :=
      opens_testA20 hB hroomy_v fun w hkeeps_w hgate_w ↦
        opens_a20_gate_failed hB (hroomy_v.of_keeps hkeeps_w) hgate_w
    have hopens' := hopens.of_keeps hkeeps_v
    rw [hv] at hopens'
    exact hopens'

theorem ends_waitAndOut (hB : WellBehaved B) (hs : s.ss = 0) (hroom : 2 ≤ s.sp.toNat)
    (port : BitVec 16) (load : Pc δ → Pc δ) :
    Stopped.Ends (fun t ↦ ∃ u, Keeps High s u ∧ t = (load u).outAl B port) halted (Waits B fuel)
      (waitAndOut B site fuel n port load s) := by
  refine (ends_call_poll hB hs hroom (.inl rfl)).bind ?_
  rintro t ⟨hkeeps, -⟩
  exact ⟨t, hkeeps, rfl⟩

/-- A command for the keyboard controller. -/
theorem ends_command (hB : WellBehaved B) (hs : s.ss = 0) (hroom : 2 ≤ s.sp.toNat)
    (command : Byte) :
    Stopped.Ends (fun t ↦ Keeps High s t) halted (Waits B fuel)
      (waitAndOut B site fuel n 0x64 (·.setAl command) s) := by
  refine (ends_waitAndOut hB hs hroom _ _).mono ?_ (fun _ _ h ↦ h) fun _ _ h ↦ h
  rintro - ⟨u, hkeeps, rfl⟩
  exact hkeeps.trans (.of_eq rfl rfl rfl rfl rfl rfl)

theorem opens_keyboard_enable (hB : WellBehaved B) (hs : Roomy s) :
    Opens B (Waits B fuel) s (keyboard_enable B site fuel s) := by
  have hroom := hs.room
  refine (ends_call_printing hB.toPrints hs.ss (by omega) _).bind ?_
  rintro t₀ ⟨hkeeps₀, -⟩
  have hkeeps₁ : Keeps High s t₀.cli := hkeeps₀.trans (.of_eq rfl rfl rfl rfl rfl rfl)
  have hs₁ := hs.of_keeps hkeeps₁
  refine Stopped.Ends.bind (ends_command hB hs₁.ss (Nat.le_trans (by decide) hs₁.room) _) ?_
  intro t₂ hkeeps₂
  have hs₂ := hs₁.of_keeps hkeeps₂
  refine Stopped.Ends.bind (ends_command hB hs₂.ss (Nat.le_trans (by decide) hs₂.room) _) ?_
  intro t₃ hkeeps₃
  have hs₃ := hs₂.of_keeps hkeeps₃
  refine Stopped.Ends.bind (ends_call_poll hB hs₃.ss (Nat.le_trans (by decide) hs₃.room)
    (.inr rfl)) ?_
  rintro t₄ ⟨hkeeps₄, -⟩
  -- `%eax` is on the stack while the controller gets ready for the byte
  obtain ⟨u, hu⟩ : ∃ u, u = t₄.inAl B 0x60 := ⟨_, rfl⟩
  have hkeeps_u : Keeps High t₄ u := hu ▸ .of_eq rfl rfl rfl rfl rfl rfl
  have hs_u := (hs₃.of_keeps hkeeps₄).of_keeps hkeeps_u
  have hroom_u := hs_u.room
  have hsp : (u.pushEax B).sp.toNat = u.sp.toNat - 4 := by
    have h₁ := toNat_sp_push (B := B) (show 2 ≤ u.sp.toNat by omega)
      (u.regs.eax.extractLsb' 16 16)
    refine (toNat_sp_push (B := B) (s := u.push B _) (by omega) _).trans ?_
    omega
  have hss : (u.pushEax B).ss = 0 := hs_u.ss
  rw [← hu]
  refine Stopped.Ends.bind (ends_command hB hss (by omega) _) ?_
  intro t₅ hkeeps₅
  have hsp₅ := congrArg BitVec.toNat hkeeps₅.sp_eq
  refine Stopped.Ends.bind (ends_waitAndOut hB (hkeeps₅.ss.trans hss) (by omega) _ _) ?_
  rintro - ⟨t₆, hkeeps₆, rfl⟩
  obtain ⟨t₇, ht₇⟩ : ∃ t₇, t₇ =
      ((t₆.popEax B).setAl ((t₆.popEax B).al ||| 2)).outAl B 0x60 := ⟨_, rfl⟩
  have hkeeps₇ : Keeps High u t₇ :=
    ((hkeeps₅.trans hkeeps₆).popEax hs_u.ss (by omega)).trans
      (ht₇ ▸ .of_eq rfl rfl rfl rfl rfl rfl)
  have hs₇ := hs_u.of_keeps hkeeps₇
  rw [← ht₇]
  refine Stopped.Ends.bind (ends_command hB hs₇.ss (Nat.le_trans (by decide) hs₇.room) _) ?_
  intro t₈ hkeeps₈
  have hs₈ := hs₇.of_keeps hkeeps₈
  refine Stopped.Ends.bind (ends_call_poll hB hs₈.ss (Nat.le_trans (by decide) hs₈.room)
    (.inl rfl)) ?_
  rintro t₉ ⟨hkeeps₉, -⟩
  have hkeeps : Keeps High s t₉.sti :=
    (((((((hkeeps₁.trans hkeeps₂).trans hkeeps₃).trans hkeeps₄).trans hkeeps_u).trans
      hkeeps₇).trans hkeeps₈).trans hkeeps₉).trans (.of_eq rfl rfl rfl rfl rfl rfl)
  have hs₉ := hs.of_keeps hkeeps
  exact (opens_testA20 hB hs₉ fun w hkeeps_w hgate_w ↦
    opens_fast_a20_enable hB (hs₉.of_keeps hkeeps_w) hgate_w).of_keeps hkeeps

theorem opens_enable_20_gate (hB : WellBehaved B) (hs : Roomy s) :
    Opens B (Waits B fuel) s (enable_20_gate B site fuel s) := by
  have hroom := hs.room
  obtain ⟨t, ht⟩ : ∃ t, t = B.int15 (s.clc.setAx 0x2403) := ⟨_, rfl⟩
  have hkeeps_t : Keeps High s t :=
    (Keeps.of_eq (s := s) (t := s.clc.setAx 0x2403) rfl rfl rfl rfl rfl rfl).trans
      (ht ▸ hB.int15 (s.clc.setAx 0x2403) hs.ss (show 0x500 ≤ s.sp.toNat by omega))
  have hs_t := hs.of_keeps hkeeps_t
  have hroom_t := hs_t.room
  obtain ⟨u, hu⟩ : ∃ u, u = B.int15 (t.setAx 0x2401) := ⟨_, rfl⟩
  have hkeeps_u : Keeps High t u :=
    (Keeps.of_eq (s := t) (t := t.setAx 0x2401) rfl rfl rfl rfl rfl rfl).trans
      (hu ▸ hB.int15 (t.setAx 0x2401) hs_t.ss (show 0x500 ≤ t.sp.toNat by omega))
  have hs_u := hs_t.of_keeps hkeeps_u
  refine Opens.of_keeps (t := t) ?_ hkeeps_t
  rw [enable_20_gate, ← ht]
  dsimp only
  rw [← hu]
  split
  · exact opens_keyboard_enable hB hs_t
  · refine Opens.of_keeps (t := u) ?_ hkeeps_u
    split
    · exact opens_keyboard_enable hB hs_u
    · exact opens_testA20 hB hs_u fun w hkeeps_w _ ↦
        opens_keyboard_enable hB (hs_u.of_keeps hkeeps_w)

/-! ## From `_start` to `_stage1Main` -/

theorem ends_a20_stuff (hB : WellBehaved B) (hs : s.ss = 0) (hroom : 0x562 ≤ s.sp.toNat) :
    Stopped.Ends (fun t ↦ Keeps High s t ∧ B.a20 t.devices = true)
      (fun message t ↦ message = a20_line_error_msg ∧ B.a20 t.devices = false) (Waits B fuel)
      (a20_stuff B site fuel s) := by
  refine (ends_call_check_a20 hs (by omega)).bind ?_
  rintro t ⟨hkeeps, hdevices, hax⟩
  obtain ⟨u, hu⟩ : ∃ u, u = t.setBx 1 := ⟨_, rfl⟩
  have hkeeps_u : Keeps High s u := hkeeps.trans (hu ▸ .of_eq rfl rfl rfl rfl rfl rfl)
  have hbx : u.bx = 1 := hu ▸ setWidth_withLow _ _
  have hax_u : u.ax = if B.a20 s.devices then 1 else 0 := hu ▸ hax
  have hdevices_u : u.devices = s.devices := hu ▸ hdevices
  have hss : u.ss = 0 := hkeeps_u.ss.trans hs
  have hsp := congrArg BitVec.toNat hkeeps_u.sp_eq
  rw [← hu]
  dsimp only
  rw [hbx, hax_u]
  cases hgate : B.a20 s.devices with
  | true =>
    rw [if_pos (by simp)]
    refine (ends_call_printing hB.toPrints hss (by omega) _).mono ?_ (fun _ _ h ↦ h) fun _ _ h ↦ h
    rintro w ⟨hkeeps_w, hgate_w⟩
    exact ⟨hkeeps_u.trans hkeeps_w, by rw [hgate_w, hdevices_u, hgate]⟩
  | false =>
    rw [if_neg (by simp)]
    refine (ends_call_printing hB.toPrints hss (by omega) _).bind ?_
    rintro w ⟨hkeeps_w, -⟩
    have hkeeps_w' := hkeeps_u.trans hkeeps_w
    have hsp_w := congrArg BitVec.toNat hkeeps_w'.sp_eq
    have hpush := toNat_sp_push (B := B) (show 2 ≤ w.sp.toNat by omega) (site 17)
    have hroomy : Roomy (w.push B (site 17)) := ⟨hkeeps_w'.ss.trans hs, by omega⟩
    refine (Stopped.Ends.call (P := fun t ↦ B.a20 t.devices = true) (hkeeps_w'.ss.trans hs)
      (by omega) (fun _ ↦ High.above) (fun _ h ↦ h)
      (opens_enable_20_gate hB hroomy)).mono ?_ (fun _ _ h ↦ h) fun _ _ h ↦ h
    rintro v ⟨hkeeps_v, hgate_v⟩
    exact ⟨hkeeps_w'.trans hkeeps_v, hgate_v⟩

/-- A word behind the stack is not met by a push. -/
theorem read16_push (c : Cpu) (w : BitVec 32) {p : ℕ} (hroom : 4 ≤ c.regs.esp.toNat)
    (hp : c.regs.esp.toNat ≤ p) (hp' : p + 2 ≤ 0x10000) :
    (c.push w).mem.read16 (addr p) = c.mem.read16 (addr p) := by
  change (c.mem.write32 (c.regs.esp - 4) w).read16 (addr p) = _
  refine Mem.readLE_write_of_disjoint (n := 4) (k := 2) fun j hj ↦ ?_
  bv_omega

theorem withLow_of_high {r : BitVec 32} (hr : r.extractLsb' 16 16 = 0) (v : BitVec 16) :
    withLow r v = v.setWidth 32 := by
  have hzero : (v.setWidth 32).extractLsb' 16 16 = 0 := by
    refine BitVec.eq_of_getLsbD_eq fun i hi ↦ ?_
    rw [BitVec.getLsbD_extractLsb', BitVec.getLsbD_setWidth, BitVec.getLsbD_of_ge v _ (by omega)]
    simp
  refine eq_of_halves ?_ ?_
  · rw [extractLsb'_withLow, hr, hzero]
  · rw [setWidth_withLow]
    bv_omega

theorem stack_passCursor (_temp : BitVec 16) {c : System} {ws : List (BitVec 32)}
    (hc : c.Stack ws) (hlength : 4 * (ws.length + 1) ≤ 2 ^ 32)
    (heax : c.regs.eax.extractLsb' 16 16 = 0) :
    (passCursor _temp c).Stack ((c.mem.read16 (addr (_temp.toNat + 2))).setWidth 32 :: ws) := by
  obtain ⟨d, hd⟩ : ∃ d, d = (c.setAx 0).setAx (c.mem.read16 (addr (_temp.toNat + 2))) := ⟨_, rfl⟩
  have hd_eax : d.regs.eax = (c.mem.read16 (addr (_temp.toNat + 2))).setWidth 32 := by
    rw [hd]
    change withLow (withLow c.regs.eax 0) _ = _
    rw [withLow_withLow]
    exact withLow_of_high heax _
  have hd_stack : d.Stack ws := hd ▸ hc
  have hpass : (passCursor _temp c).toCpu = d.toCpu.push d.regs.eax := by
    rw [hd]
    rfl
  rw [hpass, hd_eax]
  exact hd_stack.push hlength

theorem stack_passDrive (_temp : BitVec 16) {c : System} {ws : List (BitVec 32)}
    (hc : c.Stack ws) (hlength : 4 * (ws.length + 1) ≤ 2 ^ 32) :
    (passDrive _temp c).Stack ((c.mem.read16 (addr _temp.toNat)).setWidth 32 :: ws) := by
  obtain ⟨d, hd⟩ : ∃ d, d = (c.setEdx 0).setEdx
    (withLow (c.setEdx 0).regs.edx (c.mem.read16 (addr _temp.toNat))) := ⟨_, rfl⟩
  have hd_edx : d.regs.edx = (c.mem.read16 (addr _temp.toNat)).setWidth 32 := by
    rw [hd]
    change withLow 0 _ = _
    exact withLow_of_high (by decide) _
  have hd_stack : d.Stack ws := hd ▸ hc
  have hpass : (passDrive _temp c).toCpu = d.toCpu.push d.regs.edx := by
    rw [hd]
    rfl
  rw [hpass, hd_edx]
  exact hd_stack.push hlength

/-- **The arguments of `_stage1Main`**, in front of the address it never returns to. -/
theorem stack_pmEntry (_temp : BitVec 16) (c : System) (stop_stage1 returnAddr : BitVec 32)
    (hroom : 8 ≤ c.regs.esp.toNat) (htemp : c.regs.esp.toNat ≤ _temp.toNat)
    (htemp' : _temp.toNat + 4 ≤ 0x10000) :
    (pmEntry _temp stop_stage1 returnAddr c).Stack [returnAddr,
      (c.mem.read16 (addr _temp.toNat)).setWidth 32, stop_stage1,
      (c.mem.read16 (addr (_temp.toNat + 2))).setWidth 32] := by
  obtain ⟨c₀, hc₀⟩ : ∃ c₀, c₀ =
    (c.setEax (DATA32_SEGMENT.setWidth 32)).loadDataSegments DATA32_SEGMENT := ⟨_, rfl⟩
  have hesp₀ : c₀.regs.esp = c.regs.esp := hc₀ ▸ rfl
  have hmem₀ : c₀.mem = c.mem := hc₀ ▸ rfl
  have heax₀ : c₀.regs.eax.extractLsb' 16 16 = 0 := by
    rw [hc₀]
    change (DATA32_SEGMENT.setWidth 32).extractLsb' 16 16 = 0
    decide
  have hstack₁ := stack_passCursor _temp (Cpu.Stack.nil c₀.toCpu) (by decide) heax₀
  obtain ⟨c₁, hc₁⟩ : ∃ c₁, c₁ = passCursor _temp c₀ := ⟨_, rfl⟩
  rw [← hc₁, hmem₀] at hstack₁
  have hstack₂ : (passStop stop_stage1 c₁).Stack _ := Cpu.Stack.push (w := stop_stage1) hstack₁
    (by simp)
  obtain ⟨c₂, hc₂⟩ : ∃ c₂, c₂ = passStop stop_stage1 c₁ := ⟨_, rfl⟩
  rw [← hc₂] at hstack₂
  have hdrive : c₂.mem.read16 (addr _temp.toNat) = c.mem.read16 (addr _temp.toNat) := by
    have hesp₁ : c₁.regs.esp = c₀.regs.esp - 4 := hc₁ ▸ rfl
    have hpush₂ : c₂.mem = (c₁.toCpu.push stop_stage1).mem := hc₂ ▸ rfl
    obtain ⟨w, hpush₁⟩ : ∃ w, c₁.mem = (c₀.toCpu.push w).mem := by
      rw [hc₁]
      exact ⟨_, rfl⟩
    rw [hesp₀] at hesp₁
    rw [hpush₂, read16_push _ _ (by rw [hesp₁]; bv_omega) (by rw [hesp₁]; bv_omega) (by omega),
      hpush₁, read16_push _ _ (by rw [hesp₀]; omega) (by rw [hesp₀]; omega) (by omega), hmem₀]
  have hstack₃ := stack_passDrive _temp hstack₂ (by simp)
  rw [hdrive] at hstack₃
  have hpm : (pmEntry _temp stop_stage1 returnAddr c).toCpu =
      (passDrive _temp c₂).toCpu.push returnAddr := by
    rw [hc₂, hc₁, hc₀]
    rfl
  rw [hpm]
  exact hstack₃.push (by simp)

/-- The cursor is behind the drive. -/
theorem a20_done_spec (hB : WellBehaved B) (ht : t.ss = 0) (hds : t.ds = 0) {_temp : BitVec 16}
    (hroom : 0x500 ≤ t.sp.toNat) (htemp : t.sp.toNat ≤ _temp.toNat)
    (htemp' : _temp.toNat + 4 ≤ 0x10000) :
    (a20_done B _temp t).regs.esp = t.regs.esp ∧ (a20_done B _temp t).cr0 = t.cr0 ||| 1 ∧
      (a20_done B _temp t).cs = CODE32_SEGMENT ∧
      B.a20 (a20_done B _temp t).devices = B.a20 t.devices ∧
      (a20_done B _temp t).mem.read16 (addr _temp.toNat) = t.mem.read16 (addr _temp.toNat) ∧
      (a20_done B _temp t).mem.read16 (addr (_temp.toNat + 2)) =
        (B.int10 ((t.setAh 0x03).setBh 0)).dx := by
  obtain ⟨u, hu⟩ : ∃ u, u = B.int10 ((t.setAh 0x03).setBh 0) := ⟨_, rfl⟩
  obtain ⟨hkeeps', hgate⟩ := hB.int10 ((t.setAh 0x03).setBh 0) ht hroom
  rw [← hu] at hkeeps' hgate
  have hkeeps : Keeps High t u :=
    (Keeps.of_eq (s := t) (t := (t.setAh 0x03).setBh 0) rfl rfl rfl rfl rfl rfl).trans hkeeps'
  have hnext : (_temp + 2).toNat = _temp.toNat + 2 := by bv_omega
  have haddr : u.address B u.ds (_temp + 2) = addr (_temp.toNat + 2) := by
    rw [hkeeps.ds, hds, address_zero, hnext]
  have hmem : (a20_done B _temp t).mem = u.mem.write16 (addr (_temp.toNat + 2)) u.dx := by
    rw [← haddr, hu]
    rfl
  refine ⟨?_, ?_, rfl, ?_, ?_, ?_⟩
  · rw [← hkeeps.esp, hu]
    rfl
  · rw [← hkeeps.cr0, hu]
    rfl
  · rw [← show B.a20 u.devices = B.a20 t.devices from hgate, hu]
    rfl
  · rw [hmem]
    refine (Mem.readLE_write_of_disjoint (n := 2) (k := 2) fun i hi ↦ by bv_omega).trans ?_
    refine Mem.readLE_congr fun i hi ↦ hkeeps.mem _ ?_ ?_
    · bv_omega
    · rw [High]
      bv_omega
  · rw [hmem, ← hu]
    exact Mem.readLE_writeLE (n := 2) _ (by decide) _ _

/-- The cursor that the BIOS reports when the gate is open, `s` being the state in which stage1
begins. -/
def ReportedCursor (B : Board δ) (site : ℕ → BitVec 16) (fuel : ℕ) (_temp : BitVec 16) (s : Pc δ)
    (cursor : BitVec 16) : Prop :=
  ∃ u, a20_stuff B site fuel (s.store16 B s.ds _temp s.dx) = .ok u ∧
    cursor = (B.int10 ((u.setAh 0x03).setBh 0)).dx

/-- The state in which `_stage1Main` begins: protected mode, the gate open, and on the stack the
return address, the drive, the end of the image and the cursor. -/
structure Entered (B : Board δ) (s t : Pc δ) (stop_stage1 returnAddr : BitVec 32)
    (cursor : BitVec 16) : Prop where
  gate : B.a20 t.devices = true
  cr0 : t.cr0 = s.cr0 ||| 1
  cs : t.cs = CODE32_SEGMENT
  ds : t.ds = DATA32_SEGMENT
  es : t.es = DATA32_SEGMENT
  ss : t.ss = DATA32_SEGMENT
  stack : t.Stack [returnAddr, s.dx.setWidth 32, stop_stage1, cursor.setWidth 32]

/-- The whole of `_start`. -/
theorem ends_stage1Start (hB : WellBehaved B) (hss : s.ss = 0) (hds : s.ds = 0) {_temp : BitVec 16}
    (hesp : 0x562 ≤ s.regs.esp.toNat) (htemp : s.regs.esp.toNat ≤ _temp.toNat)
    (htemp' : _temp.toNat + 4 ≤ 0x10000) (site : ℕ → BitVec 16) (fuel : ℕ)
    (stop_stage1 returnAddr : BitVec 32) :
    Stopped.Ends (fun t ↦ ∃ cursor, ReportedCursor B site fuel _temp s cursor ∧
        Entered B s t stop_stage1 returnAddr cursor)
      (fun message t ↦ message = "Error: Could not enable A20 line, aborting!" ∧
        B.a20 t.devices = false)
      (Waits B fuel) (stage1Start B site fuel _temp stop_stage1 returnAddr s) := by
  have hsp : s.sp.toNat = s.regs.esp.toNat := by
    rw [sp]
    bv_omega
  obtain ⟨s₁, hs₁⟩ : ∃ s₁, s₁ = s.store16 B s.ds _temp s.dx := ⟨_, rfl⟩
  have hsp₁ : s₁.sp = s.sp := hs₁ ▸ rfl
  have hmem₁ : s₁.mem = s.mem.write16 (addr _temp.toNat) s.dx := by
    rw [hs₁]
    change s.mem.write16 (s.address B s.ds _temp) s.dx = _
    rw [hds, address_zero]
  have hstuff : Stopped.Ends _ _ _ (a20_stuff B site fuel s₁) :=
    ends_a20_stuff hB (hs₁ ▸ hss) (by rw [hsp₁]; omega)
  rw [stage1Start, ← hs₁]
  refine hstuff.bind_of_eq ?_
  rintro t hrun ⟨hkeeps, hgate⟩
  have hsp_t : t.sp = s.sp := hkeeps.sp_eq.trans hsp₁
  have hesp_t : t.regs.esp = s.regs.esp := hkeeps.esp.trans (hs₁ ▸ rfl)
  obtain ⟨hesp_u, hcr0, hcs, hgate_u, hdrive, hcursor⟩ := a20_done_spec (t := t) hB
    (hkeeps.ss.trans (hs₁ ▸ hss)) (hkeeps.ds.trans (hs₁ ▸ hds)) (by rw [hsp_t]; omega)
    (by rw [hsp_t]; omega) htemp'
  obtain ⟨u, hu⟩ : ∃ u, u = a20_done B _temp t := ⟨_, rfl⟩
  rw [← hu] at hesp_u hcr0 hcs hgate_u hdrive hcursor
  have hdrive' : u.mem.read16 (addr _temp.toNat) = s.dx := by
    have hsame : t.mem.read16 (addr _temp.toNat) = s₁.mem.read16 (addr _temp.toNat) := by
      refine Mem.readLE_congr fun i hi ↦ hkeeps.mem _ ?_ ?_
      · rw [hsp₁]
        bv_omega
      · rw [High]
        bv_omega
    rw [hdrive, hsame, hmem₁]
    exact Mem.readLE_writeLE (n := 2) _ (by decide) _ _
  have hstack := stack_pmEntry _temp u.toSystem stop_stage1 returnAddr
    (by rw [hesp_u, hesp_t]; omega) (by rw [hesp_u, hesp_t]; exact htemp) htemp'
  rw [hdrive', hcursor] at hstack
  dsimp only
  rw [← hu]
  exact ⟨_, ⟨t, hs₁ ▸ hrun, rfl⟩, hgate_u.trans hgate, by
    rw [← show s₁.cr0 = s.cr0 from hs₁ ▸ rfl, ← hkeeps.cr0, ← hcr0]; rfl, hcs, rfl, rfl, rfl,
    hstack⟩

theorem wellBehaved_fastBoard : WellBehaved fastBoard where
  int10 s _ _ := ⟨.refl High s, rfl⟩
  int15 _ _ _ := .of_eq rfl rfl rfl rfl rfl rfl
  inb _ _ := rfl

/-- Both loops are left in one round if the controller has a byte and takes one. -/
theorem not_waits_of_ready (hstatus : ∀ d, (B.inb 0x64 d).1 = 1) (busy : Byte → Bool) (s : Pc δ) :
    ¬ Waits B 1 busy s := by
  rintro ⟨rfl | rfl, hready⟩
  · exact hready (.inl (by rw [hstatus]; decide))
  · exact hready (.inl (by rw [hstatus]; decide))

-- or else the elaborator runs the code
attribute [irreducible] stage1Start

end RainbowOS
