import BoardGpio.Handle.Gpio
import BoardGpio.Input.Port

/-!
# Opening input ports

Opening a port makes its pins inputs with their pulls, one after the other, and takes the reference
sample that later ones are compared with. It stops at the first failure and leaves what it has
changed until then. Main statement: it is done in two halves (`openPort_eq`), between which a port
comes to hold its reference to the handle.
-/

set_option autoImplicit false

namespace BoardGpio.InputPort

variable {β κ : Type} [Backend β]

/-- Makes a pin an input; gives the chip pin behind it. -/
def configure (pin : InputPin) : Act (Gpio β) Nat := do
  Gpio.setMode pin.pin .input
  Gpio.setPull pin.pin pin.pull
  Gpio.mcuPin pin.pin

/-- An input with its reference level. -/
def reference (pin : InputPin) (mcu : Nat) : Act (Gpio β) (Input κ) := do
  let high ← Gpio.readMcu mcu
  pure { pin := pin, mcu := mcu, level := pin.active.normalize high }

/-- Opens a port at a time in milliseconds. -/
def openPort (pins : List InputPin) (settings : InputSettings) (now : Nat) :
    Act (Gpio β) (InputPort κ) := do
  Act.lift settings.validate
  if PinSet.capacity < pins.length then
    Act.fail (.maskOverflow (pins.length - 1) PinSet.capacity)
  else
    let mcus ← Act.collect configure pins
    let inputs ← Act.collect (fun (pin, mcu) => reference pin mcu) (pins.zip mcus)
    Gpio.note (.inputOpened pins.length)
    pure { inputs := inputs, settings := settings, throttle := .begin reportWindowMs reportCap now }

/-- The first half of opening a port: the pins are made inputs. Gives the chip pins behind them. -/
def prepare (pins : List InputPin) (settings : InputSettings) : Act (Gpio β) (List Nat) := do
  Act.lift settings.validate
  if PinSet.capacity < pins.length then
    Act.fail (.maskOverflow (pins.length - 1) PinSet.capacity)
  else Act.collect configure pins

/-- The second half: the reference sample is taken. -/
def finish (pins : List InputPin) (mcus : List Nat) (settings : InputSettings) (now : Nat) :
    Act (Gpio β) (InputPort κ) := do
  let inputs ← Act.collect (fun (pin, mcu) => reference pin mcu) (pins.zip mcus)
  Gpio.note (.inputOpened pins.length)
  pure { inputs := inputs, settings := settings, throttle := .begin reportWindowMs reportCap now }

/-- The halves make up the whole. -/
theorem openPort_eq (pins : List InputPin) (settings : InputSettings) (now : Nat) :
    (openPort pins settings now : Act (Gpio β) (InputPort κ)) =
      prepare pins settings >>= fun mcus => finish pins mcus settings now := by
  unfold openPort prepare finish
  rw [bind_assoc]
  congr 1
  funext _
  split <;> rfl

end BoardGpio.InputPort
