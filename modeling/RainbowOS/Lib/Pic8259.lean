import RainbowOS.Lib.Memory

/-!
# Two 8259A interrupt controllers

A controller has eight lines.  It is initialised with two to four bytes, the first one at its
command port and the others at its data port; behind them its data port is its mask.  In a pair, the
controller called slave is on line 2 of the one called master, which is the one that the processor
asks for a vector.

The bytes that are written say everything about a controller but which lines are requested and which
are in service; so its settings, `Config`, depend on them only.  Vectors are as in the 8086 mode.
Rotating priorities and polling are left out.

* `Config.initialise` — the settings behind an initialisation, whatever the controller was doing.
* `intr_of_masked`, `acknowledge_of_masked` — behind a mask nothing is requested, and a processor
  that asks all the same gets the vector of line 7, a spurious one.
-/

set_option autoImplicit false

namespace Pic8259

/-! ## One controller -/

/-- The byte that the data port takes next; when the controller is ready, it is the mask. -/
inductive Stage where
  | ready
  | icw2
  | icw3
  | icw4
  deriving DecidableEq, Repr

/-- The settings of a controller. -/
structure Config where
  stage : Stage
  /-- There is no other controller. -/
  single : Bool
  /-- The initialisation has a fourth byte. -/
  needs4 : Bool
  /-- The lines are level triggered. -/
  level : Bool
  /-- The vector of line 0. -/
  base : Byte
  /-- The line of the slave, one bit each, or the line that the slave is on. -/
  cascade : Byte
  mode : Byte
  mask : Byte
  deriving DecidableEq, Repr

/-- The stage behind the byte about the cascade. -/
def Config.afterCascade (c : Config) : Stage := if c.needs4 then .icw4 else .ready

/-- A byte at the command port: with bit 4, the controller starts all over again. -/
def Config.command (c : Config) (b : Byte) : Config :=
  if b.getLsbD 4 then
    { c with
      stage := .icw2, needs4 := b.getLsbD 0, single := b.getLsbD 1, level := b.getLsbD 3
      mode := if b.getLsbD 0 then c.mode else 0
      mask := 0 }
  else c

/-- A byte at the data port. -/
def Config.data (c : Config) (b : Byte) : Config :=
  match c.stage with
  | .icw2 =>
    { c with base := b &&& 0xf8, stage := if c.single then c.afterCascade else .icw3 }
  | .icw3 => { c with cascade := b, stage := c.afterCascade }
  | .icw4 => { c with mode := b, stage := .ready }
  | .ready => { c with mask := b }

/-- A controller: its settings, and the lines that are requested and in service. -/
structure Chip extends Config where
  request : Byte
  service : Byte
  deriving DecidableEq, Repr

namespace Chip

/-- No line of this or of a higher priority is in service. -/
def unserved (c : Chip) (i : ℕ) : Bool :=
  (List.range (i + 1)).all fun j ↦ !c.service.getLsbD j

/-- The line that is to be served next, of those requested in `lines`. -/
def pending (c : Chip) (lines : Byte) : Option ℕ :=
  (List.range 8).find? fun i ↦ (lines &&& ~~~c.mask).getLsbD i && c.unserved i

/-- The first line in service is not any longer. -/
def endOfInterrupt (c : Chip) : Chip :=
  match (List.range 8).find? fun i ↦ c.service.getLsbD i with
  | none => c
  | some i => { c with service := c.service &&& ~~~BitVec.twoPow 8 i }

/-- A byte at the command port: besides the start of an initialisation, the end of an interrupt,
that of the first line in service or of a certain one. -/
def command (c : Chip) (b : Byte) : Chip :=
  if b.getLsbD 4 then ⟨c.toConfig.command b, 0, 0⟩
  else if b.getLsbD 3 then c
  else if b.extractLsb' 5 3 = 1 then c.endOfInterrupt
  else if b.extractLsb' 5 3 = 3 then
    { c with service := c.service &&& ~~~BitVec.twoPow 8 (b.extractLsb' 0 3).toNat }
  else c

/-- A byte at the data port. -/
def data (c : Chip) (b : Byte) : Chip := { c with toConfig := c.toConfig.data b }

/-- The processor takes line `i`. -/
def serve (c : Chip) (i : ℕ) : Chip :=
  { c with
    request := c.request &&& ~~~BitVec.twoPow 8 i
    service := if c.mode.getLsbD 1 then c.service else c.service ||| BitVec.twoPow 8 i }

/-- The processor asks for a vector.  If no line is requested any longer, it is that of line 7. -/
def acknowledge (c : Chip) (lines : Byte) : Byte × Chip :=
  match c.pending lines with
  | none => (c.base ||| 7, c)
  | some i => (c.base ||| BitVec.ofNat 8 i, c.serve i)

end Chip

/-! ## Two of them -/

/-- A pair of controllers. -/
structure Pair where
  master : Chip
  slave : Chip
  deriving DecidableEq, Repr

namespace Pair

/-- The lines of the master: line 2 is the slave. -/
def lines (p : Pair) : Byte :=
  if (p.slave.pending p.slave.request).isSome then p.master.request ||| 4
  else p.master.request &&& ~~~4

/-- The line to the processor. -/
def intr (p : Pair) : Bool := (p.master.pending p.lines).isSome

/-- The processor asks for a vector: on line 2 of the master it is the slave that answers. -/
def acknowledge (p : Pair) : Byte × Pair :=
  let r := p.master.acknowledge p.lines
  if p.master.pending p.lines = some 2 then
    let q := p.slave.acknowledge p.slave.request
    (q.1, ⟨r.2, q.2⟩)
  else (r.1, { p with master := r.2 })

/-- A byte at a port. -/
def out (p : Pair) (port : BitVec 16) (b : Byte) : Pair :=
  if port = 0x20 then { p with master := p.master.command b }
  else if port = 0x21 then { p with master := p.master.data b }
  else if port = 0xa0 then { p with slave := p.slave.command b }
  else if port = 0xa1 then { p with slave := p.slave.data b }
  else p

/-- A device requests one of the sixteen lines, or takes its request back. -/
def setLine (p : Pair) (irq : Fin 16) (high : Bool) : Pair :=
  let change (request : Byte) (i : ℕ) : Byte :=
    if high then request ||| BitVec.twoPow 8 i else request &&& ~~~BitVec.twoPow 8 i
  if irq.val < 8 then
    { p with master := { p.master with request := change p.master.request irq.val } }
  else { p with slave := { p.slave with request := change p.slave.request (irq.val - 8) } }

/-- The settings of both. -/
def configs (p : Pair) : Config × Config := (p.master.toConfig, p.slave.toConfig)

end Pair

/-- What a byte at a port does to the settings of both. -/
def outConfigs (c : Config × Config) (w : BitVec 16 × Byte) : Config × Config :=
  if w.1 = 0x20 then (c.1.command w.2, c.2)
  else if w.1 = 0x21 then (c.1.data w.2, c.2)
  else if w.1 = 0xa0 then (c.1, c.2.command w.2)
  else if w.1 = 0xa1 then (c.1, c.2.data w.2)
  else c

/-! ## Settings -/

theorem Chip.toConfig_endOfInterrupt (c : Chip) : c.endOfInterrupt.toConfig = c.toConfig := by
  rw [endOfInterrupt]
  split
  · rfl
  · rfl

theorem Chip.toConfig_command (c : Chip) (b : Byte) :
    (c.command b).toConfig = c.toConfig.command b := by
  rw [command]
  by_cases hinit : b.getLsbD 4 = true
  · rw [if_pos hinit]
  · rw [if_neg hinit, Config.command, if_neg hinit]
    split
    · rfl
    · split
      · exact c.toConfig_endOfInterrupt
      · split
        · rfl
        · rfl

theorem configs_out (p : Pair) (port : BitVec 16) (b : Byte) :
    (p.out port b).configs = outConfigs p.configs (port, b) := by
  rw [Pair.out, outConfigs]
  split
  · exact Prod.ext (p.master.toConfig_command b) rfl
  · split
    · rfl
    · split
      · exact Prod.ext rfl (p.slave.toConfig_command b)
      · split
        · rfl
        · rfl

theorem configs_setLine (p : Pair) (irq : Fin 16) (high : Bool) :
    (p.setLine irq high).configs = p.configs := by
  rw [Pair.setLine]
  split
  · rfl
  · rfl

/-- **An initialisation** with four bytes, and a mask behind it: the settings are what has been
written, whatever the controller was doing before. -/
theorem Config.initialise (c : Config) (level : Bool) (base cascade mode mask : Byte) :
    ((((c.command (if level then 0x19 else 0x11)).data base).data cascade).data mode).data mask =
      ⟨.ready, false, true, level, base &&& 0xf8, cascade, mode, mask⟩ := by
  cases level with
  | true => rfl
  | false => rfl

/-! ## Masks -/

/-- Behind a mask nothing is pending. -/
theorem Chip.pending_of_masked {c : Chip} (hmask : c.mask = 0xff) (lines : Byte) :
    c.pending lines = none := by
  rw [Chip.pending, hmask]
  refine List.find?_eq_none.mpr fun i _ ↦ ?_
  have hzero : lines &&& ~~~(0xff : Byte) = 0 := BitVec.and_zero
  rw [hzero]
  simp

/-- **Nothing is requested** from the processor. -/
theorem intr_of_masked {p : Pair} (hmask : p.master.mask = 0xff) : p.intr = false := by
  rw [Pair.intr, Chip.pending_of_masked hmask]
  rfl

/-- A processor that asks all the same gets the vector of line 7. -/
theorem acknowledge_of_masked {p : Pair} (hmask : p.master.mask = 0xff) :
    p.acknowledge = (p.master.base ||| 7, p) := by
  have hmaster : p.master.acknowledge p.lines = (p.master.base ||| 7, p.master) := by
    rw [Chip.acknowledge, Chip.pending_of_masked hmask]
  rw [Pair.acknowledge, hmaster, Chip.pending_of_masked hmask]
  rfl

end Pic8259
