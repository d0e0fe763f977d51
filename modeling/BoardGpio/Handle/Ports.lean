import BoardGpio.Handle.Hub
import BoardGpio.Input.Open
import BoardGpio.Output.Port

/-!
# Ports on shared handles

A port holds a reference to its handle. An input port takes it when its pins are inputs and before
it takes the reference sample, so a sample that fails gives the reference up again. An output port
takes it when all its pins are outputs.
-/

set_option autoImplicit false

namespace BoardGpio.Hub

variable {β κ : Type} [Backend β]

/-- Opens an input port on a handle. -/
def openInput (h : Nat) (pins : List InputPin) (settings : InputSettings) (now : Nat) :
    Act (Hub β) (InputPort κ) := do
  let mcus ← onHandle h (InputPort.prepare pins settings)
  retain h
  Act.orCleanUp (onHandle h (InputPort.finish pins mcus settings now)) (letGo h .dropped)

/-- Opens an output port on a handle. -/
def openOutput (h : Nat) (pins : List OutputPin) : Act (Hub β) OutputPort := do
  let port ← onHandle h (OutputPort.openPort pins)
  retain h
  pure port

end BoardGpio.Hub
