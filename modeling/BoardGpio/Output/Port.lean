import BoardGpio.Handle.Gpio
import BoardGpio.PinSet

/-!
# Output ports

An output port is an ordered list of outputs, each with the level at which it counts as active.
Opening a port drives every pin to its inactive level before it makes it an output, so no pin is
active by accident. Calls on all outputs go in ascending order and stop at the first failure.
-/

set_option autoImplicit false

namespace BoardGpio

/-- One output of a port. -/
structure Output where
  pin : OutputPin
  /-- The chip pin found when the port was opened. -/
  mcu : Nat
  deriving DecidableEq, Repr

/-- The raw level that makes an output active (`on`) or inactive. -/
def Output.level (o : Output) (on : Bool) : Bool := o.pin.active.raw on

/-- An output port. -/
structure OutputPort where
  outputs : List Output
  deriving DecidableEq, Repr

namespace OutputPort

variable {β : Type} [Backend β]

def configure (pin : OutputPin) : Act (Gpio β) Output := do
  let mcu ← Gpio.mcuPin pin.pin
  Gpio.write pin.pin (pin.active.raw false)
  Gpio.setMode pin.pin .output
  pure ⟨pin, mcu⟩

def openPort (pins : List OutputPin) : Act (Gpio β) OutputPort := do
  if PinSet.capacity < pins.length then
    Act.fail (.maskOverflow (pins.length - 1) PinSet.capacity)
  else
    let outputs ← Act.collect configure pins
    Gpio.note (.outputOpened pins.length)
    pure ⟨outputs⟩

def size (p : OutputPort) : Nat := p.outputs.length

def indices (p : OutputPort) : List Nat := List.range p.size

def output (p : OutputPort) (index : Nat) : Act (Gpio β) Output :=
  match p.outputs[index]? with
  | some o => pure o
  | none => Act.fail (.invalidPortIndex index p.size)

def write (p : OutputPort) (index : Nat) (on : Bool) : Act (Gpio β) Unit := do
  let o ← p.output index
  Gpio.writeMcu o.mcu (o.level on)

def set (p : OutputPort) (index : Nat) : Act (Gpio β) Unit := p.write index true

def clear (p : OutputPort) (index : Nat) : Act (Gpio β) Unit := p.write index false

def toggle (p : OutputPort) (index : Nat) : Act (Gpio β) Unit := do
  let o ← p.output index
  Gpio.toggleMcu o.mcu

def read (p : OutputPort) (index : Nat) : Act (Gpio β) Bool := do
  let o ← p.output index
  let high ← Gpio.readMcu o.mcu
  pure (high == o.level true)

/-- Those of the numbers whose outputs are active, added to a set. -/
def readIndices (p : OutputPort) : List Nat → PinSet → Act (Gpio β) PinSet
  | [], active => pure active
  | index :: rest, active => do
    if (← p.read index) then
      let active ← Act.lift (active.insert? index)
      p.readIndices rest active
    else p.readIndices rest active

def readAll (p : OutputPort) : Act (Gpio β) PinSet := p.readIndices p.indices .empty

/-- Makes the outputs of a set active and all others inactive. -/
def writeAll (p : OutputPort) (on : PinSet) : Act (Gpio β) Unit :=
  Act.each (fun index => p.write index (on.contains index)) p.indices

def setAll (p : OutputPort) : Act (Gpio β) Unit := Act.each p.set p.indices

def clearAll (p : OutputPort) : Act (Gpio β) Unit := Act.each p.clear p.indices

def toggleAll (p : OutputPort) : Act (Gpio β) Unit := Act.each p.toggle p.indices

end OutputPort

end BoardGpio
