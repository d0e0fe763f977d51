import BoardGpio.Act
import BoardGpio.Log.Notice

/-!
# Backends

A backend switches and reads the pins of one chip. It numbers them from zero and knows nothing of
boards. Handles and ports work with any backend: they use the calls of this class alone.
-/

set_option autoImplicit false

namespace BoardGpio

/-- The calls that switch and read the pins of a chip with state `β`. -/
class Backend (β : Type) where
  /-- The backend's name in messages. -/
  name : β → String
  /-- Number of pins of the chip. -/
  pinCount : β → Nat
  setMode : Nat → Mode → Act β Unit
  mode : Nat → Act β Mode
  setPull : Nat → Pull → Act β Unit
  /-- The pull of a pin, if the chip can tell. -/
  pull : Nat → Act β (Option Pull)
  write : Nat → Bool → Act β Unit
  read : Nat → Act β Bool
  toggle : Nat → Act β Unit
  /-- What the backend tells the log about a mode change that went well. -/
  notice? : β → Nat → Mode → Option Notice

/-- A call of a backend that changes pins. -/
inductive Change where
  | setMode (pin : Nat) (mode : Mode)
  | setPull (pin : Nat) (pull : Pull)
  | write (pin : Nat) (high : Bool)
  | toggle (pin : Nat)
  deriving DecidableEq, Repr

namespace Change

def pin : Change → Nat
  | setMode p _ => p
  | setPull p _ => p
  | write p _ => p
  | toggle p => p

def text : Change → String
  | setMode p m => "set_mode " ++ toString p ++ " " ++ m.label
  | setPull p u => "set_pull " ++ toString p ++ " " ++ u.label
  | write p high => "write " ++ toString p ++ " " ++ toString high
  | toggle p => "toggle " ++ toString p

end Change

/-- The error of a call for a pin that the chip does not have. -/
def noSuchPin (pin : Nat) : Error := .invalidPin pin .mcu

end BoardGpio
