import RainbowOS.Kernel.Idt
import RainbowOS.Lib.Interleave
import RainbowOS.Lib.Pic8259

/-!
# Turning interrupts on: `interruptDescriptorTable::init`

The two interrupt controllers of the machine are initialised and masked, the table is filled, and
then the processor gets the table and takes interrupts.  All the time devices request interrupts, in
any order.

* `disablePIC_configs` — the settings of the controllers behind `disablePIC`.
* `init_guarded` — at no moment of `init` or behind it do the controllers interrupt the processor,
  and as soon as it takes interrupts each of them has its gate.
-/

set_option autoImplicit false

namespace RainbowOS

open Pic8259 Interleave

/-! ## The functions -/

/-- `PIC_COMMAND_MASTER`. -/
def PIC_COMMAND_MASTER : BitVec 16 := 0x20
/-- `PIC_DATA_MASTER`. -/
def PIC_DATA_MASTER : BitVec 16 := 0x21
/-- `PIC_COMMAND_SLAVE`. -/
def PIC_COMMAND_SLAVE : BitVec 16 := 0xa0
/-- `PIC_DATA_SLAVE`. -/
def PIC_DATA_SLAVE : BitVec 16 := 0xa1
/-- `ICW1_INIT`. -/
def ICW1_INIT : Byte := 0x10
/-- `ICW1_ICW4`. -/
def ICW1_ICW4 : Byte := 0x01
/-- `ICW4_8086`. -/
def ICW4_8086 : Byte := 0x01
/-- `PIC_MASK_INTERRUPTS`. -/
def PIC_MASK_INTERRUPTS : Byte := 0xff
/-- `MASTER_PIC_VECTOR_OFFSET`. -/
def MASTER_PIC_VECTOR_OFFSET : Byte := 0xfe
/-- `SLAVE_PIC_VECTOR_OFFSET`. -/
def SLAVE_PIC_VECTOR_OFFSET : Byte := 0xfe

/-- What `lidt` loads. -/
structure Idtr where
  size : BitVec 16
  address : Addr
  deriving DecidableEq, Repr

/-- The machine as `init` sees it. -/
structure Platform where
  mem : Mem
  pics : Pair
  idtr : Idtr
  interruptFlag : Bool

/-- What the kernel does, step by step. -/
inductive Action where
  /-- `outb(port, byte)`. -/
  | outb (port : BitVec 16) (byte : Byte)
  /-- A call of `installInterrupt`. -/
  | install (call : InstallCall)
  /-- `disableInterrupts()`. -/
  | cli
  | lidt (idtReg : Idtr)
  /-- `enableInterrupts()`. -/
  | sti
  deriving DecidableEq

/-- `iowait()`. -/
def iowait : Action := .outb 0x80 0

/-- `disablePIC()`. -/
def disablePIC : List Action :=
  [.outb PIC_COMMAND_MASTER (ICW1_INIT ||| ICW1_ICW4), iowait,
    .outb PIC_COMMAND_SLAVE (ICW1_INIT ||| ICW1_ICW4), iowait,
    .outb PIC_DATA_MASTER MASTER_PIC_VECTOR_OFFSET, iowait,
    .outb PIC_DATA_SLAVE SLAVE_PIC_VECTOR_OFFSET, iowait,
    .outb PIC_DATA_MASTER 4, iowait,
    .outb PIC_DATA_SLAVE 2, iowait,
    .outb PIC_DATA_MASTER ICW4_8086, iowait,
    .outb PIC_DATA_SLAVE ICW4_8086, iowait,
    .outb PIC_DATA_MASTER PIC_MASK_INTERRUPTS, .outb PIC_DATA_SLAVE PIC_MASK_INTERRUPTS]

/-- `loadIDT()`. -/
def loadIDT (idt : Addr) : List Action := [.cli, .lidt ⟨0xfff, idt⟩, .sti]

/-- `interruptDescriptorTable`. -/
structure InterruptDescriptorTable where
  /-- `_IDT`. -/
  idt : Addr
  initialized : Bool
  deriving DecidableEq, Repr

/-- The constructor: the table is `__idt_table`. -/
def InterruptDescriptorTable.new (idt : Addr) : InterruptDescriptorTable := ⟨idt, false⟩

/-- `init()`. -/
def InterruptDescriptorTable.init (t : InterruptDescriptorTable) (label : ℕ → Addr) : List Action :=
  if t.initialized then []
  else disablePIC ++ (allCalls label).map .install ++ loadIDT t.idt

/-! ## What happens -/

/-- What a step of the kernel does. -/
def Action.exec (idt : Addr) (s : Platform) : Action → Platform
  | .outb port byte => { s with pics := s.pics.out port byte }
  | .install call =>
    { s with mem := (installInterrupt s.mem idt call.vector call.handler call.dpl).1 }
  | .cli => { s with interruptFlag := false }
  | .lidt idtReg => { s with idtr := idtReg }
  | .sti => { s with interruptFlag := true }

/-- What happens on the machine: a step of the kernel, or of a device. -/
inductive Event where
  | kernel (a : Action)
  | line (irq : Fin 16) (high : Bool)
  deriving DecidableEq

/-- One event. -/
def Event.exec (idt : Addr) (s : Platform) : Event → Platform
  | .kernel a => a.exec idt s
  | .line irq high => { s with pics := s.pics.setLine irq high }

/-- The step of the kernel that an event is. -/
def Event.action : Event → Option Action
  | .kernel a => some a
  | .line _ _ => none

/-- The interrupt controllers interrupt the processor. -/
def Platform.interrupted (s : Platform) : Bool := s.interruptFlag && s.pics.intr

/-- Where the processor goes on an interrupt, if there is a present 32-bit interrupt gate in the
table. -/
def Platform.gate (s : Platform) (v : BitVec 8) : Option (BitVec 16 × Addr) :=
  let entry := descriptorAddr s.idtr.address v
  if 8 * v.toNat + 7 ≤ s.idtr.size.toNat ∧ BitField.get (gateFlags s.mem entry) 7 1 = 1 ∧
      BitField.get (gateFlags s.mem entry) 4 1 = 0 ∧ BitField.get (gateFlags s.mem entry) 0 4 = 0xe
  then some (s.mem.read16 (entry + addr 2), gateHandler s.mem entry)
  else none

/-! ## Who owns what -/

/-- A byte that is put out. -/
def Action.written : Action → Option (BitVec 16 × Byte)
  | .outb port byte => some (port, byte)
  | _ => none

/-- A call. -/
def Action.called : Action → Option InstallCall
  | .install call => some call
  | _ => none

/-- What is loaded. -/
def Action.loaded : Action → Option Idtr
  | .lidt idtReg => some idtReg
  | _ => none

/-- What becomes of the flag. -/
def Action.flag : Action → Option Bool
  | .cli => some false
  | .sti => some true
  | _ => none

variable {idt : Addr} {label : ℕ → Addr} {trace : List Event} {s : Platform}

/-- What a step of the kernel owns if no device has to do with it. -/
theorem owns_of_action {π κ : Type} {part : Platform → π} {act : Action → Option κ}
    {stepOn : π → κ → π}
    (hline : ∀ s irq high, part { s with pics := s.pics.setLine irq high } = part s)
    (hacts : ∀ s a k, act a = some k → part (a.exec idt s) = stepOn (part s) k)
    (hleaves : ∀ s a, act a = none → part (a.exec idt s) = part s) :
    Owns (Event.exec idt) part (fun e ↦ e.action.bind act) stepOn := by
  refine ⟨fun s e k hact ↦ ?_, fun s e hact ↦ ?_⟩
  · cases e with
    | line irq high => cases hact
    | kernel a => exact hacts s a k hact
  · cases e with
    | line irq high => exact hline s irq high
    | kernel a => exact hleaves s a hact

/-- The settings of the controllers depend on the bytes put out. -/
theorem owns_configs (idt : Addr) : Owns (Event.exec idt) (fun s ↦ s.pics.configs)
    (fun e ↦ e.action.bind Action.written) outConfigs := by
  refine owns_of_action (fun s irq high ↦ configs_setLine s.pics irq high) (fun s a w hact ↦ ?_)
    fun s a hact ↦ ?_
  · cases a with
    | outb port byte =>
      obtain rfl : (port, byte) = w := Option.some.inj hact
      exact configs_out s.pics port byte
    | _ => cases hact
  · cases a with
    | outb port byte => cases hact
    | _ => rfl

/-- The memory depends on the calls. -/
theorem owns_mem (idt : Addr) : Owns (Event.exec idt) Platform.mem
    (fun e ↦ e.action.bind Action.called)
    (fun m call ↦ (installInterrupt m idt call.vector call.handler call.dpl).1) := by
  refine owns_of_action (fun _ _ _ ↦ rfl) (fun s a call hact ↦ ?_) fun s a hact ↦ ?_
  · cases a with
    | install call' =>
      obtain rfl : call' = call := Option.some.inj hact
      rfl
    | _ => cases hact
  · cases a with
    | install call => cases hact
    | _ => rfl

/-- The table of the processor depends on what it loads. -/
theorem owns_idtr (idt : Addr) : Owns (Event.exec idt) Platform.idtr
    (fun e ↦ e.action.bind Action.loaded) (fun _ idtReg ↦ idtReg) := by
  refine owns_of_action (fun _ _ _ ↦ rfl) (fun s a idtReg hact ↦ ?_) fun s a hact ↦ ?_
  · cases a with
    | lidt idtReg' =>
      obtain rfl : idtReg' = idtReg := Option.some.inj hact
      rfl
    | _ => cases hact
  · cases a with
    | lidt idtReg => cases hact
    | _ => rfl

/-- The flag depends on the kernel turning it on and off. -/
theorem owns_interruptFlag (idt : Addr) : Owns (Event.exec idt) Platform.interruptFlag
    (fun e ↦ e.action.bind Action.flag) (fun _ b ↦ b) := by
  refine owns_of_action (fun _ _ _ ↦ rfl) (fun s a b hact ↦ ?_) fun s a hact ↦ ?_
  · cases a with
    | cli => exact Option.some.inj hact
    | sti => exact Option.some.inj hact
    | _ => cases hact
  · cases a with
    | cli => cases hact
    | sti => cases hact
    | _ => rfl

/-- The steps of the kernel in a run. -/
def actions (trace : List Event) : List Action := trace.filterMap Event.action

/-- The part of a run that has an owner. -/
theorem foldl_of_owns {π κ : Type} {part : Platform → π} {act : Action → Option κ}
    {stepOn : π → κ → π} (h : Owns (Event.exec idt) part (fun e ↦ e.action.bind act) stepOn)
    (trace : List Event) (s : Platform) :
    part (trace.foldl (Event.exec idt) s) =
      ((actions trace).filterMap act).foldl stepOn (part s) := by
  rw [h.foldl, actions, List.filterMap_filterMap]

/-! ## The parts -/

/-- Interrupts stay off until they are turned on. -/
theorem interruptFlag_of_sti_not_mem (hsti : Action.sti ∉ actions trace)
    (hs : s.interruptFlag = false) :
    (trace.foldl (Event.exec idt) s).interruptFlag = false := by
  have hflags : ∀ b ∈ (actions trace).filterMap Action.flag, b = false := by
    intro b hb
    obtain ⟨a, ha, hflag⟩ := List.mem_filterMap.mp hb
    cases a with
    | sti => exact absurd ha hsti
    | cli => exact (Option.some.inj hflag).symm
    | _ => cases hflag
  have hfold : ∀ n, (List.replicate n false).foldl (fun _ b ↦ b) false = false := by
    intro n
    induction n with
    | zero => rfl
    | succ n ih => exact ih
  rw [foldl_of_owns (owns_interruptFlag idt), hs, List.eq_replicate_of_mem hflags]
  exact hfold _

/-- They are on behind it. -/
theorem interruptFlag_of_concat {front : List Action} (hactions : actions trace = front ++ [.sti]) :
    (trace.foldl (Event.exec idt) s).interruptFlag = true := by
  rw [foldl_of_owns (owns_interruptFlag idt), hactions, List.filterMap_append, List.foldl_append]
  rfl

/-- The settings of a controller that is initialised for vectors from `0xf8` on, and masked. -/
def maskedConfig (cascade : Byte) : Config :=
  ⟨.ready, false, true, false, 0xf8, cascade, ICW4_8086, PIC_MASK_INTERRUPTS⟩

/-- **`disablePIC`** initialises both controllers and masks them, whatever they were doing. -/
theorem disablePIC_configs (c : Config × Config) :
    (disablePIC.filterMap Action.written).foldl outConfigs c = (maskedConfig 4, maskedConfig 2) :=
  Prod.ext (c.1.initialise false MASTER_PIC_VECTOR_OFFSET 4 ICW4_8086 PIC_MASK_INTERRUPTS)
    (c.2.initialise false SLAVE_PIC_VECTOR_OFFSET 2 ICW4_8086 PIC_MASK_INTERRUPTS)

/-- The bytes that `init` puts out. -/
theorem written_init (idt : Addr) (label : ℕ → Addr) :
    ((InterruptDescriptorTable.new idt).init label).filterMap Action.written =
      disablePIC.filterMap Action.written := by
  have hcalls : ((allCalls label).map Action.install).filterMap Action.written = [] := by
    rw [List.filterMap_map]
    exact List.filterMap_eq_nil_iff.mpr fun _ _ ↦ rfl
  change (disablePIC ++ (allCalls label).map Action.install ++ loadIDT idt).filterMap _ = _
  rw [List.filterMap_append, List.filterMap_append, hcalls, List.append_nil]
  exact List.append_nil _

/-- The calls that `init` makes. -/
theorem called_init (idt : Addr) (label : ℕ → Addr) :
    ((InterruptDescriptorTable.new idt).init label).filterMap Action.called = allCalls label := by
  have hcalls : ((allCalls label).map Action.install).filterMap Action.called = allCalls label := by
    rw [List.filterMap_map]
    exact List.filterMap_some
  change (disablePIC ++ (allCalls label).map Action.install ++ loadIDT idt).filterMap _ = _
  rw [List.filterMap_append, List.filterMap_append, hcalls]
  exact List.append_nil _

/-- What `init` loads. -/
theorem loaded_init (idt : Addr) (label : ℕ → Addr) :
    ((InterruptDescriptorTable.new idt).init label).filterMap Action.loaded = [⟨0xfff, idt⟩] := by
  have hcalls : ((allCalls label).map Action.install).filterMap Action.loaded = [] := by
    rw [List.filterMap_map]
    exact List.filterMap_eq_nil_iff.mpr fun _ _ ↦ rfl
  change (disablePIC ++ (allCalls label).map Action.install ++ loadIDT idt).filterMap _ = _
  rw [List.filterMap_append, List.filterMap_append, hcalls]
  rfl

/-- Turning interrupts on is the last thing that `init` does. -/
theorem init_eq_concat (idt : Addr) (label : ℕ → Addr) :
    ∃ front, (InterruptDescriptorTable.new idt).init label = front ++ [.sti] ∧ .sti ∉ front := by
  refine ⟨disablePIC ++ (allCalls label).map .install ++ [.cli, .lidt ⟨0xfff, idt⟩], ?_, ?_⟩
  · change disablePIC ++ (allCalls label).map .install ++ loadIDT idt = _
    rw [List.append_assoc _ [_, _], loadIDT]
    rfl
  · rw [List.mem_append, List.mem_append, List.mem_map]
    rintro ((hpic | ⟨call, -, hcall⟩) | hload)
    · revert hpic
      decide
    · cases hcall
    · simp at hload

/-- What the processor finds in the table. -/
theorem gate_of_gateFor {v : BitVec 8} {handler : Addr} (hidtr : s.idtr = ⟨0xfff, idt⟩)
    (hgate : GateFor s.mem (descriptorAddr idt v) handler 0) :
    s.gate v = some (CODE32_KSEGMENT, handler) := by
  have hlimit : 8 * v.toNat + 7 ≤ (0xfff : BitVec 16).toNat := by
    have hv := v.isLt
    have hfff : (0xfff : BitVec 16).toNat = 4095 := rfl
    omega
  rw [Platform.gate, hidtr]
  dsimp only
  rw [if_pos ⟨hlimit, hgate.present, hgate.zero, hgate.type⟩, hgate.selector, hgate.handler]

theorem stubAddr_eq (label : ℕ → Addr) (v : BitVec 8) :
    stubAddr label v.toNat = label v.toNat := by
  have hv : v.toNat < (List.range 256).length := by
    rw [List.length_range]
    exact v.isLt
  rw [stubAddr, handler_stub_table, List.getD_eq_getElem _ _ hv, List.getElem_range]

/-- The state behind `init`, whatever the devices have done meanwhile. -/
theorem ready_of_actions_eq (s : Platform)
    (hactions : actions trace = (InterruptDescriptorTable.new idt).init label) :
    (trace.foldl (Event.exec idt) s).pics.configs = (maskedConfig 4, maskedConfig 2) ∧
      ∀ v, (trace.foldl (Event.exec idt) s).gate v = some (CODE32_KSEGMENT, label v.toNat) := by
  have hconfigs := foldl_of_owns (owns_configs idt) trace s
  rw [hactions, written_init, disablePIC_configs] at hconfigs
  have hidtr := foldl_of_owns (owns_idtr idt) trace s
  rw [hactions, loaded_init] at hidtr
  have hmem := foldl_of_owns (owns_mem idt) trace s
  rw [hactions, called_init] at hmem
  refine ⟨hconfigs, fun v ↦ gate_of_gateFor hidtr ?_⟩
  have hgate := gate_installAll label s.mem idt v
  rw [installAll_eq, stubAddr_eq] at hgate
  rw [hmem]
  exact hgate

/-- **Interrupts are turned on when everything is ready for them.**  For every content of the table,
every state of the two controllers and every interleaving of `init` with devices that request
interrupts: at no moment do the controllers interrupt the processor, neither during `init` nor
behind it; as soon as interrupts are on, every vector has a gate to its own handler, and what the
controllers would answer is the vector of a spurious interrupt; and nothing is written but the
table. -/
theorem init_guarded (idt : Addr) (label : ℕ → Addr) {s : Platform}
    (hs : s.interruptFlag = false) {trace : List Event}
    (hdone : actions trace <+: (InterruptDescriptorTable.new idt).init label) :
    (trace.foldl (Event.exec idt) s).interrupted = false ∧
    ((trace.foldl (Event.exec idt) s).interruptFlag = true →
      (trace.foldl (Event.exec idt) s).pics.acknowledge.1 = 0xff ∧
      ∀ v, (trace.foldl (Event.exec idt) s).gate v = some (CODE32_KSEGMENT, label v.toNat)) ∧
    (actions trace = (InterruptDescriptorTable.new idt).init label →
      (trace.foldl (Event.exec idt) s).interruptFlag = true) ∧
    ∀ x, (∀ v, ¬ Mem.Range (descriptorAddr idt v) 8 x) →
      (trace.foldl (Event.exec idt) s).mem x = s.mem x := by
  obtain ⟨front, hinit, hfront⟩ := init_eq_concat idt label
  have hframe : ∀ x, (∀ v, ¬ Mem.Range (descriptorAddr idt v) 8 x) →
      (trace.foldl (Event.exec idt) s).mem x = s.mem x := by
    intro x hx
    rw [foldl_of_owns (owns_mem idt)]
    exact eqOn_installCalls (P := fun x ↦ ∀ v, ¬ Mem.Range (descriptorAddr idt v) 8 x) s.mem idt
      (fun c _ _ hx ↦ hx c.vector) x hx
  obtain ⟨t, ht⟩ : ∃ t, t = trace.foldl (Event.exec idt) s := ⟨_, rfl⟩
  rw [← ht] at hframe ⊢
  rw [hinit] at hdone
  obtain hactions | hactions := List.prefix_concat_iff.mp hdone
  · -- all of `init` has happened
    obtain ⟨hconfigs, hgates⟩ := ready_of_actions_eq s (hactions.trans hinit.symm)
    rw [← ht] at hconfigs hgates
    have hmask : t.pics.master.mask = 0xff := congrArg (fun c ↦ c.1.mask) hconfigs
    have hbase : t.pics.master.base = 0xf8 := congrArg (fun c ↦ c.1.base) hconfigs
    have hanswer : t.pics.acknowledge.1 = 0xff := by
      rw [acknowledge_of_masked hmask, hbase]
      rfl
    refine ⟨?_, fun _ ↦ ⟨hanswer, hgates⟩, fun _ ↦ ?_, hframe⟩
    · rw [Platform.interrupted, intr_of_masked hmask, Bool.and_false]
    · rw [ht]
      exact interruptFlag_of_concat hactions
  · -- interrupts are still off
    have hsti : Action.sti ∉ actions trace := fun hmem ↦ hfront (hactions.subset hmem)
    have hoff : t.interruptFlag = false := by
      rw [ht]
      exact interruptFlag_of_sti_not_mem hsti hs
    refine ⟨by rw [Platform.interrupted, hoff, Bool.false_and], fun hon ↦ ?_, fun hall ↦ ?_, hframe⟩
    · rw [hoff] at hon
      cases hon
    · refine absurd ?_ hsti
      rw [hall, hinit]
      exact List.mem_concat_self

/-- A run of the kernel in which a device requests an interrupt in front of each step, and takes the
request back behind it. -/
def requestedRun (l : List Action) : List Event :=
  l.flatMap fun a ↦ [.line 7 true, .kernel a, .line 7 false]

theorem actions_requestedRun (l : List Action) : actions (requestedRun l) = l := by
  induction l with
  | nil => rfl
  | cons a l ih => exact congrArg (a :: ·) ih

/-- Both controllers have everything unmasked, and the device keeps requesting until the table is
loaded and behind it: it would interrupt after the first byte if interrupts were on, and in the end
they are on, and the vector of `int $0x34` has its gate. -/
theorem init_guarded_request :
    let chip : Chip := ⟨⟨.ready, false, true, false, 0x08, 0, 1, 0⟩, 0, 0⟩
    let s : Platform := ⟨fun _ ↦ 0, ⟨chip, chip⟩, ⟨0x3ff, 0⟩, false⟩
    let t : Platform := (requestedRun ((InterruptDescriptorTable.new 0x9000).init addr) ++
      [Event.line 7 true]).foldl (Event.exec 0x9000) s
    (Event.exec 0x9000 s (.line 7 true)).pics.intr = true ∧ t.interruptFlag = true ∧
      t.interrupted = false ∧ t.pics.acknowledge.1 = 0xff ∧
      t.gate 0x34 = some (CODE32_KSEGMENT, 0x34) := by
  intro chip s t
  have hactions : actions (requestedRun ((InterruptDescriptorTable.new 0x9000).init addr) ++
      [.line 7 true]) = (InterruptDescriptorTable.new 0x9000).init addr := by
    rw [actions, List.filterMap_append]
    exact (List.append_nil _).trans (actions_requestedRun _)
  obtain ⟨hquiet, hready, hdone, -⟩ :=
    init_guarded 0x9000 addr (s := s) rfl ⟨[], by rw [List.append_nil, hactions]⟩
  have hon := hdone hactions
  obtain ⟨hanswer, hgates⟩ := hready hon
  exact ⟨by decide, hon, hquiet, hanswer, hgates 0x34⟩

end RainbowOS
