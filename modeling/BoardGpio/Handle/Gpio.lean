import BoardGpio.Backend.Basic
import BoardGpio.Handle.Basic

/-!
# Calls on pins

The calls of a handle, on a backend of any kind. Each resolves its number first, so a number that
stands for no pin reaches no backend. A mode or pull change reads the present value before it
changes it, and touches the record only after the change went well.
-/

set_option autoImplicit false

namespace BoardGpio

/-- A handle with the backend it drives and the log it writes. -/
structure Gpio (β : Type) where
  handle : Handle
  backend : β
  log : List Notice := []

namespace Gpio

variable {β α : Type}

def hardware (x : Act β α) : Act (Gpio β) α :=
  Act.within backend (fun b g => { g with backend := b }) x

def update (f : Handle → Handle) : Act (Gpio β) Unit :=
  Act.modify fun g => { g with handle := f g.handle }

def note (n : Notice) : Act (Gpio β) Unit :=
  Act.modify fun g => { g with log := g.log ++ [n] }

def mcuPin (pin : Nat) : Act (Gpio β) Nat := fun g => Act.lift (g.handle.resolve pin) g

variable [Backend β]

/-- Switches a chip pin, and lets the backend tell the log. -/
def switch (mcu : Nat) (mode : Mode) : Act (Gpio β) Unit := do
  hardware (Backend.setMode mcu mode)
  Act.modify fun g => { g with log := g.log ++ (Backend.notice? g.backend mcu mode).toList }

def setMode (pin : Nat) (mode : Mode) : Act (Gpio β) Unit := do
  let mcu ← mcuPin pin
  let previous ← hardware (Backend.mode mcu)
  switch mcu mode
  update fun h => h.updateRecord mcu fun r => r.noteMode previous
  note (.modeChanged pin mcu previous mode)

def mode (pin : Nat) : Act (Gpio β) Mode := do
  let mcu ← mcuPin pin
  hardware (Backend.mode mcu)

def setPull (pin : Nat) (pull : Pull) : Act (Gpio β) Unit := do
  let mcu ← mcuPin pin
  let previous ← hardware (Backend.pull mcu)
  hardware (Backend.setPull mcu pull)
  update fun h => h.updateRecord mcu fun r => r.notePull previous pull

/-- The pull of a pin: as the backend reads it, or else as it was last set through the handle. -/
def pull (pin : Nat) : Act (Gpio β) (Option Pull) := do
  let mcu ← mcuPin pin
  let seen ← hardware (Backend.pull mcu)
  let remembered ← Act.gets fun g => (g.handle.record mcu).pull
  pure (seen.or remembered)

def writeMcu (mcu : Nat) (high : Bool) : Act (Gpio β) Unit :=
  hardware (Backend.write mcu high)

def readMcu (mcu : Nat) : Act (Gpio β) Bool :=
  hardware (Backend.read mcu)

def toggleMcu (mcu : Nat) : Act (Gpio β) Unit :=
  hardware (Backend.toggle mcu)

def write (pin : Nat) (high : Bool) : Act (Gpio β) Unit := do
  writeMcu (← mcuPin pin) high

def read (pin : Nat) : Act (Gpio β) Bool := do
  readMcu (← mcuPin pin)

def toggle (pin : Nat) : Act (Gpio β) Unit := do
  toggleMcu (← mcuPin pin)

def setNumbering (numbering : Numbering) : Act (Gpio β) Unit := do
  if (← Act.gets fun g => g.handle.numbering) = numbering then pure ()
  else
    update fun h => h.setNumbering numbering
    note (.numberingSet numbering)

end Gpio

end BoardGpio
