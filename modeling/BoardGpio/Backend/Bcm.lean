import BoardGpio.Backend.Basic
import BoardGpio.Register.Disk

/-!
# Pins of the BCM283x chips

The register layout that the chips of the Raspberry Pi boards share: function fields of three bits,
ten pins per register; registers whose written ones set or clear pins; level registers. Pulls are
programmed by a clocked sequence that leaves nothing to read back, except on the BCM2711, which has
fields of two bits, sixteen pins per register.
-/

set_option autoImplicit false

namespace BoardGpio

/-- Pins behind a window of BCM283x registers. -/
structure Bcm where
  window : Window
  soc : Soc

namespace Bcm

def pinCount : Nat := 54

/-- Distance of the pin registers from the peripheral base. -/
def gpioOffset : Nat := 0x200000

/-- Length of a block of registers in bytes. -/
def blockLen : Nat := 4096

/-- First function register. -/
def functionWord : Nat := 0

/-- First register whose ones set pins. -/
def setWord : Nat := 7

/-- First register whose ones clear pins. -/
def clearWord : Nat := 10

/-- First level register. -/
def levelWord : Nat := 13

/-- The register that holds the pull to be programmed. -/
def pullWord : Nat := 37

/-- First register that clocks a pull into pins. -/
def pullClockWord : Nat := 38

/-- First register of pull fields, on the BCM2711. -/
def pullFieldWord : Nat := 57

/-- Register and lowest bit of a pin's function field. -/
def functionSlot (pin : Nat) : Nat × Nat :=
  (functionWord + pin / 10, pin % 10 * 3)

/-- Register and lowest bit of a pin's pull field, on the BCM2711. -/
def pullSlot (pin : Nat) : Nat × Nat :=
  (pullFieldWord + pin / 16, pin % 16 * 2)

/-- The code of a mode in a function field. -/
def functionCode? : Mode → Option Nat
  | .input => some 0
  | .output => some 1
  | .alt0 => some 4
  | .alt1 => some 5
  | .alt2 => some 6
  | .alt3 => some 7
  | .alt4 => some 3
  | .alt5 => some 2
  | .pwm => none
  | .disabled => none

/-- The mode of a code in a function field. -/
def functionMode : Nat → Mode
  | 0 => .input
  | 1 => .output
  | 4 => .alt0
  | 5 => .alt1
  | 6 => .alt2
  | 7 => .alt3
  | 3 => .alt4
  | _ => .alt5

/-- The alternate function that is pulse-width modulation on a pin. -/
def pwmMode? (soc : Soc) (pin : Nat) : Option Mode :=
  if pin = 18 then some .alt5
  else if (pin = 12 ∨ pin = 13) ∧ soc ≠ .bcm2835 then some .alt0
  else none

/-- The mode a pin is in after it was switched to `mode`, if it can be. -/
def effectiveMode? (soc : Soc) (pin : Nat) (mode : Mode) : Option Mode :=
  if mode = .pwm then pwmMode? soc pin
  else if mode = .disabled then none
  else some mode

/-- The code of a pull in a pull field, on the BCM2711. -/
def pullCode : Pull → Nat
  | .off => 0
  | .up => 1
  | .down => 2

/-- The pull of a code in a pull field, on the BCM2711. -/
def pullOfCode : Nat → Pull
  | 1 => .up
  | 2 => .down
  | _ => .off

/-- The code of a pull in the clocked sequence. -/
def pullClockCode : Pull → Nat
  | .off => 0
  | .down => 1
  | .up => 2

def onWindow {α : Type} (x : Act Window α) : Act Bcm α :=
  Act.within window (fun w b => { b with window := w }) x

/-- Refuses pins the chip does not have. -/
def check (pin : Nat) : Act Bcm Unit :=
  if pin < pinCount then pure () else Act.fail (noSuchPin pin)

def setMode (pin : Nat) (mode : Mode) : Act Bcm Unit := do
  check pin
  let soc ← Act.gets soc
  match (effectiveMode? soc pin mode).bind functionCode? with
  | none => Act.fail (.unsupportedMode pin mode)
  | some code =>
    let (word, shift) := functionSlot pin
    let _ ← onWindow (Window.modify word fun v => v.setField shift 3 code)

def mode (pin : Nat) : Act Bcm Mode := do
  check pin
  let (word, shift) := functionSlot pin
  let v ← onWindow (Window.read word)
  pure (functionMode (v.field shift 3))

def setPull (pin : Nat) (pull : Pull) : Act Bcm Unit := do
  check pin
  if (← Act.gets soc) = .bcm2711 then
    let (word, shift) := pullSlot pin
    let _ ← onWindow (Window.modify word fun v => v.setField shift 2 (pullCode pull))
  else
    let clock := pullClockWord + pin / 32
    onWindow (Window.write pullWord (BitVec.ofNat 32 (pullClockCode pull)))
    onWindow (Window.write clock (Word.bit (pin % 32)))
    onWindow (Window.write pullWord 0)
    onWindow (Window.write clock 0)

/-- The pull of a pin, on the BCM2711. -/
def pull (pin : Nat) : Act Bcm (Option Pull) := do
  check pin
  if (← Act.gets soc) = .bcm2711 then
    let (word, shift) := pullSlot pin
    let v ← onWindow (Window.read word)
    pure (some (pullOfCode (v.field shift 2)))
  else pure none

def write (pin : Nat) (high : Bool) : Act Bcm Unit := do
  check pin
  let first := if high then setWord else clearWord
  onWindow (Window.write (first + pin / 32) (Word.bit (pin % 32)))

def read (pin : Nat) : Act Bcm Bool := do
  check pin
  let v ← onWindow (Window.read (levelWord + pin / 32))
  pure (v.getLsbD (pin % 32))

/-- Gives a pin the other level than the one it shows. -/
def toggle (pin : Nat) : Act Bcm Unit := do
  let level ← read pin
  write pin (!level)

instance : Backend Bcm where
  name _ := "bcm283x"
  pinCount _ := pinCount
  setMode := setMode
  mode := mode
  setPull := setPull
  pull := pull
  write := write
  read := read
  toggle := toggle
  notice? _ pin mode := some (.backendMode "bcm283x" pin mode)

/-- Opens the pin registers of a chip whose peripherals are at `ioBase`. -/
def openDevice (device : String) (soc : Soc) (ioBase : Nat) : Act Machine Bcm := do
  if UInt64.size ≤ ioBase + gpioOffset then Act.fault .addressOverflow
  else
    let w ← Machine.openWindow device (ioBase + gpioOffset) blockLen
    pure ⟨w, soc⟩

/-- Every code is read back as the mode it was written for. -/
theorem functionMode_of_code {m : Mode} {c : Nat} (h : functionCode? m = some c) :
    functionMode c = m := by
  cases m <;> simp [functionCode?] at h <;> subst h <;> rfl

theorem pullOfCode_pullCode (p : Pull) : pullOfCode (pullCode p) = p := by
  cases p <;> rfl

end Bcm

end BoardGpio
