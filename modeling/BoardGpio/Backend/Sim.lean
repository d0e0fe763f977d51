import BoardGpio.Backend.Basic

/-!
# Simulated pins

Pins in memory that show what an application can observe on real ones: an output reads back its
latch, any other pin follows the level forced on it from outside, or else its pull resistor.
-/

set_option autoImplicit false

namespace BoardGpio

/-- A simulated pin. -/
structure SimPin where
  mode : Mode := .input
  pull : Pull := .off
  /-- The level the pin drives when it is an output. -/
  latch : Bool := false
  /-- The level forced from outside, if any. -/
  forced : Option Bool := none
  deriving DecidableEq, Repr, Inhabited

def SimPin.level (p : SimPin) : Bool :=
  if p.mode = .output then p.latch
  else
    match p.forced with
    | some level => level
    | none => p.pull == .up

/-- Simulated pins. -/
structure Sim where
  pins : Array SimPin
  /-- Number of changing calls that went well. -/
  mutations : Nat := 0
  /-- Whether the pull can be read. -/
  pullReadable : Bool := true
  /-- Pins that can be switched to pulse-width modulation. -/
  pwmPins : List Nat := []
  deriving DecidableEq, Repr

namespace Sim

/-- Pins in the state they have when nobody has touched them. -/
def fresh (pinCount : Nat) : Sim :=
  { pins := Array.replicate pinCount {} }

def look {α : Type} (pin : Nat) (f : SimPin → α) : Act Sim α := fun s =>
  match s.pins[pin]? with
  | some p => (.ok (f p), s)
  | none => (.error (.error (noSuchPin pin)), s)

def outside (pin : Nat) (f : SimPin → SimPin) : Act Sim Unit := fun s =>
  match s.pins[pin]? with
  | some p => (.ok (), { s with pins := s.pins.setIfInBounds pin (f p) })
  | none => (.error (.error (noSuchPin pin)), s)

/-- Changes a pin by a call, and counts it. -/
def mutate (pin : Nat) (f : SimPin → SimPin) : Act Sim Unit := do
  outside pin f
  Act.modify fun s => { s with mutations := s.mutations + 1 }

/-- Forces a level on a pin. -/
def force (pin : Nat) (high : Bool) : Act Sim Unit :=
  outside pin fun p => { p with forced := some high }

def release (pin : Nat) : Act Sim Unit :=
  outside pin fun p => { p with forced := none }

/-- Gives a pin a mode and a pull that no call could have given it. -/
def preset (pin : Nat) (mode : Mode) (pull : Pull) : Act Sim Unit :=
  outside pin fun p => { p with mode := mode, pull := pull }

/-- The mode a pin is in after it was switched to `mode`, if it can be. Pulse-width modulation is an
alternate function of some pins. -/
def effectiveMode? (s : Sim) (pin : Nat) (mode : Mode) : Option Mode :=
  if mode = .pwm then
    if pin ∈ s.pwmPins then some .alt5 else none
  else some mode

def setMode (pin : Nat) (mode : Mode) : Act Sim Unit := do
  match (← Act.gets fun s => s.effectiveMode? pin mode) with
  | some m => mutate pin fun p => { p with mode := m }
  | none => Act.fail (.unsupportedMode pin mode)

/-- The pull of a pin, if it can be read. -/
def pull (pin : Nat) : Act Sim (Option Pull) := do
  let p ← look pin SimPin.pull
  let readable ← Act.gets pullReadable
  pure (if readable then some p else none)

instance : Backend Sim where
  name _ := "simulated"
  pinCount s := s.pins.size
  setMode := setMode
  mode pin := look pin SimPin.mode
  setPull pin u := mutate pin fun p => { p with pull := u }
  pull := pull
  write pin high := mutate pin fun p => { p with latch := high }
  read pin := look pin SimPin.level
  toggle pin := mutate pin fun p => { p with latch := !p.latch }
  notice? _ _ _ := none

end Sim

end BoardGpio
