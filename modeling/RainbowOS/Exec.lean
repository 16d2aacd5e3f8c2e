import Mathlib.Tactic.Common

/-!
# How a computation of the loader can end

Every fallible function of the loader is modelled as a value of `Exec α`: it returns an `α`, or it
stops.  There are two kinds of stops and the difference between them is what most safety
statements are about: `Stop.earlyPanic` is the loader's own deliberate end, a message on the screen
and a halted machine; the other two are accesses that the C++ source performs but that have no
meaning, and nothing is said about what the machine does after them.
-/

set_option autoImplicit false

namespace RainbowOS

/-- Why a computation ended without a value. -/
inductive Stop where
  /-- `earlyPanic(msg)`: the message is printed and the machine halts. -/
  | earlyPanic (msg : String)
  /-- A null pointer was read or written through, or handed to a callee as its buffer. -/
  | nullPointer
  /-- An object was accessed outside its bounds. -/
  | outOfBounds
  deriving DecidableEq, Repr

/-- The loader's own end. -/
def Stop.IsPanic : Stop → Prop
  | .earlyPanic _ => True
  | _ => False

/-- A computation that returns a value or stops. -/
abbrev Exec := Except Stop

end RainbowOS
