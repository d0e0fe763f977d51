import BoardGpio.Failure
import BoardGpio.Time

/-!
# Settings

Settings of a handle, of an input port and of a whole program, with their defaults, and the pins
that ports are opened with. The only setting that can be wrong is a poll interval of zero.
-/

set_option autoImplicit false

namespace BoardGpio

/-- Settings of a handle. -/
structure HandleSettings where
  numbering : Numbering := .logical
  /-- Whether changed pins are put back when the last reference goes. -/
  releaseOnClose : Bool := true
  /-- The device whose memory holds the registers. -/
  memDevice : String := "/dev/mem"
  deriving DecidableEq, Repr

/-- Settings of an input port. -/
structure InputSettings where
  /-- Time between two samples of the monitor. -/
  pollInterval : Duration := .ofMillis 20
  /-- Time after which a changed sample is taken again, if that is wanted. -/
  debounce : Option Duration := none
  deriving DecidableEq, Repr

/-- Settings of a program. -/
structure Settings where
  handle : HandleSettings := {}
  input : InputSettings := {}
  deriving DecidableEq, Repr

/-- One input of a port, with its number in the handle's numbering. -/
structure InputPin where
  pin : Nat
  active : ActiveLevel := .high
  pull : Pull := .off
  deriving DecidableEq, Repr

/-- One output of a port, with its number in the handle's numbering. -/
structure OutputPin where
  pin : Nat
  active : ActiveLevel := .high
  deriving DecidableEq, Repr

namespace InputSettings

/-- Whether a port can be opened with these settings. -/
def validate (s : InputSettings) : Except Error Unit :=
  if s.pollInterval.isZero then .error (.config .zeroPollInterval) else .ok ()

theorem validate_eq_ok_iff {s : InputSettings} :
    s.validate = .ok () ↔ s.pollInterval.nanos ≠ 0 := by
  by_cases h : s.pollInterval.nanos = 0 <;> simp [validate, Duration.isZero, h]

end InputSettings

end BoardGpio
