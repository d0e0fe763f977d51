import BoardGpio.Handle.Gpio
import BoardGpio.PinSet

/-!
# Calls on sets of pins

Reading, driving and inverting all pins of a set, in ascending order. Numbers that stand for no pin
are left out, and driving and inverting leave alone every pin that is no output. The first failing
call ends the batch.
-/

set_option autoImplicit false

namespace BoardGpio.Gpio

variable {β : Type} [Backend β]

/-- The pins of `targets` that read high, added to a set. -/
def readTargets : List (Nat × Nat) → PinSet → Act (Gpio β) PinSet
  | [], levels => pure levels
  | (pin, mcu) :: rest, levels => do
    if (← readMcu mcu) then
      let levels ← Act.lift (levels.insert? pin)
      readTargets rest levels
    else readTargets rest levels

/-- The pins of a set that read high. The empty set stands for all pins of the numbering in use. -/
def readAll (pins : PinSet) : Act (Gpio β) PinSet := do
  let handle ← Act.gets Gpio.handle
  let pins ← if pins.isEmpty then Act.lift (PinSet.ofList? handle.order) else pure pins
  readTargets (handle.targets pins.toList) .empty

/-- Does something with a chip pin if it is an output. -/
def ifOutput (mcu : Nat) (x : Act (Gpio β) Unit) : Act (Gpio β) Unit := do
  if (← hardware (Backend.mode mcu)) = .output then x

def writeAll (pins : PinSet) (high : Bool) : Act (Gpio β) Unit := do
  let handle ← Act.gets Gpio.handle
  Act.each (fun (_, mcu) => ifOutput mcu (writeMcu mcu high)) (handle.targets pins.toList)

def toggleAll (pins : PinSet) : Act (Gpio β) Unit := do
  let handle ← Act.gets Gpio.handle
  Act.each (fun (_, mcu) => ifOutput mcu (toggleMcu mcu)) (handle.targets pins.toList)

end BoardGpio.Gpio
