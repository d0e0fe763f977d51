import BoardGpio.Backend.Basic
import BoardGpio.Register.Disk

/-!
# Pins of the Allwinner H3

The chip groups its pins in banks. Banks A to G are in one block of registers, bank L in another.
Every bank has the same nine registers: four with function fields of four bits, eight pins per
register; one with a bit per pin; two that are not used here; two with pull fields of two bits,
sixteen pins per register. Pins are numbered through the banks; bank B has none.
-/

set_option autoImplicit false

namespace BoardGpio

/-- Pins behind the two windows of H3 registers. -/
structure H3 where
  /-- Banks A to G. -/
  pio : Window
  /-- Bank L. -/
  rPio : Window

namespace H3

/-- Physical address of the block of banks A to G. -/
def pioBase : Nat := 0x01c20000

/-- Physical address of the block of bank L. -/
def rPioBase : Nat := 0x01f02000

/-- Length of a block of registers in bytes. -/
def blockLen : Nat := 4096

/-- Pins per bank, A to G and then L. -/
def bankSizes : List Nat := [22, 0, 17, 18, 16, 7, 14, 12]

def pinCount : Nat := bankSizes.foldl (· + ·) 0

/-- The bank that is alone in its block. -/
def bankL : Nat := 7

/-- First data register of a bank, counted from its first register. -/
def dataWord : Nat := 4

/-- First pull register of a bank, counted from its first register. -/
def pullWord : Nat := 7

/-- The function that parks a pin. -/
def parkedCode : Nat := 7

/-- The pin with pulse-width modulation. -/
def pwmPin : Nat := 6

/-- Where a pin is: its bank, and its place in the bank. -/
structure Place where
  bank : Nat
  offset : Nat
  deriving DecidableEq, Repr

/-- The place of a pin, counted on from a bank. -/
def placeFrom? : Nat → List Nat → Nat → Option Place
  | _, [], _ => none
  | bank, size :: sizes, pin =>
    if pin < size then some ⟨bank, pin⟩ else placeFrom? (bank + 1) sizes (pin - size)

/-- The place of a pin, if the chip has it. -/
def place? (pin : Nat) : Option Place := placeFrom? 0 bankSizes pin

namespace Place

/-- The first register of the place's bank, in its window. -/
def firstWord (p : Place) : Nat :=
  if p.bank < bankL then (0x800 + p.bank * 0x24) / 4 else 0xc00 / 4

/-- Register and lowest bit of the function field. -/
def functionSlot (p : Place) : Nat × Nat :=
  (p.firstWord + p.offset / 8, p.offset % 8 * 4)

/-- Register and lowest bit of the pull field. -/
def pullSlot (p : Place) : Nat × Nat :=
  (p.firstWord + pullWord + p.offset / 16, p.offset % 16 * 2)

def dataSlot (p : Place) : Nat := p.firstWord + dataWord

end Place

/-- The code of a mode in the function field of a pin. -/
def functionCode? (pin : Nat) : Mode → Option Nat
  | .input => some 0
  | .output => some 1
  | .alt0 => some 2
  | .alt1 => some 3
  | .alt2 => some 4
  | .alt3 => some 5
  | .alt4 => some 6
  | .disabled => some parkedCode
  | .pwm => if pin = pwmPin then some 3 else none
  | .alt5 => none

/-- The mode of a code in a function field, the field's highest bit left out. -/
def functionMode (code : Nat) : Mode :=
  match code % 8 with
  | 0 => .input
  | 1 => .output
  | 2 => .alt0
  | 3 => .alt1
  | 4 => .alt2
  | 5 => .alt3
  | 6 => .alt4
  | _ => .disabled

/-- The code of a pull in a pull field. -/
def pullCode : Pull → Nat
  | .off => 0
  | .up => 1
  | .down => 2

/-- The pull of a code in a pull field. -/
def pullOfCode : Nat → Pull
  | 1 => .up
  | 2 => .down
  | _ => .off

/-- Finds a pin, or refuses it. -/
def locate (pin : Nat) : Act H3 Place :=
  match place? pin with
  | some p => pure p
  | none => Act.fail (noSuchPin pin)

/-- Does something with the window of a place. -/
def onWindow {α : Type} (p : Place) (x : Act Window α) : Act H3 α :=
  if p.bank < bankL then Act.within pio (fun w h => { h with pio := w }) x
  else Act.within rPio (fun w h => { h with rPio := w }) x

def setMode (pin : Nat) (mode : Mode) : Act H3 Unit := do
  let p ← locate pin
  match functionCode? pin mode with
  | none => Act.fail (.unsupportedMode pin mode)
  | some code =>
    let (word, shift) := p.functionSlot
    let _ ← onWindow p (Window.modify word fun v => v.setField shift 4 code)

def mode (pin : Nat) : Act H3 Mode := do
  let p ← locate pin
  let (word, shift) := p.functionSlot
  let v ← onWindow p (Window.read word)
  pure (functionMode (v.field shift 4))

/-- Sets the pull of a pin: first the field is cleared, then it is written. -/
def setPull (pin : Nat) (pull : Pull) : Act H3 Unit := do
  let p ← locate pin
  let (word, shift) := p.pullSlot
  let _ ← onWindow p (Window.modify word fun v => v.setField shift 2 0)
  let _ ← onWindow p
    (Window.modify word fun v => v ||| (BitVec.ofNat 32 (pullCode pull) <<< shift))

def pull (pin : Nat) : Act H3 (Option Pull) := do
  let p ← locate pin
  let (word, shift) := p.pullSlot
  let v ← onWindow p (Window.read word)
  pure (some (pullOfCode (v.field shift 2)))

/-- Sets or clears a pin's data bit. -/
def write (pin : Nat) (high : Bool) : Act H3 Unit := do
  let p ← locate pin
  let _ ← onWindow p (Window.modify p.dataSlot fun v => v.setBit p.offset high)

def read (pin : Nat) : Act H3 Bool := do
  let p ← locate pin
  let v ← onWindow p (Window.read p.dataSlot)
  pure (v.getLsbD p.offset)

def toggle (pin : Nat) : Act H3 Unit := do
  let p ← locate pin
  let _ ← onWindow p (Window.modify p.dataSlot fun v => v.flipBit p.offset)

instance : Backend H3 where
  name _ := "allwinner-h3"
  pinCount _ := pinCount
  setMode := setMode
  mode := mode
  setPull := setPull
  pull := pull
  write := write
  read := read
  toggle := toggle
  notice? _ pin mode := some (.backendMode "allwinner-h3" pin mode)

/-- Opens the pin registers of the chip. The first window is given up when the second cannot be
opened. -/
def openDevice (device : String) : Act Machine H3 := do
  let pio ← Machine.openWindow device pioBase blockLen
  match (← Act.attempt (Machine.openWindow device rPioBase blockLen)) with
  | .ok rPio => pure ⟨pio, rPio⟩
  | .error e =>
    Machine.note (.unmapped pio.base)
    Act.fail e

theorem pullOfCode_pullCode (p : Pull) : pullOfCode (pullCode p) = p := by
  cases p <;> rfl

/-- Every code is read back as the mode it was written for, or as the alternate function that
pulse-width modulation is. -/
theorem functionMode_of_code {pin : Nat} {m : Mode} {c : Nat}
    (h : functionCode? pin m = some c) :
    functionMode c = if m = .pwm then .alt1 else m := by
  cases m <;> simp [functionCode?, parkedCode] at h
  case pwm => obtain ⟨_, rfl⟩ := h; rfl
  all_goals subst h; rfl

end H3

end BoardGpio
