import BoardGpio.Input.Port

/-!
# Input ports in words

How a port is shown to a developer: its pins, its settings and whether its monitor runs.
-/

set_option autoImplicit false

namespace BoardGpio

/-- A record in words: its name, and its fields between braces. -/
def shownRecord (name : String) (fields : List (String × String)) : String :=
  name ++ " \x7b " ++ String.intercalate ", " (fields.map fun (k, v) => k ++ ": " ++ v) ++ " \x7d"

def shownList (items : List String) : String :=
  "[" ++ String.intercalate ", " items ++ "]"

def ActiveLevel.shown : ActiveLevel → String
  | high => "High"
  | low => "Low"

def Pull.shown : Pull → String
  | off => "Off"
  | down => "Down"
  | up => "Up"

def InputPin.shown (p : InputPin) : String :=
  shownRecord "DinPin"
    [("pin", toString p.pin), ("active", p.active.shown), ("pull", p.pull.shown)]

def InputSettings.shown (s : InputSettings) : String :=
  shownRecord "DinConfig"
    [ ("poll_interval", s.pollInterval.text),
      ("debounce", match s.debounce with
        | none => "None"
        | some d => "Some(" ++ d.text ++ ")") ]

def InputPort.shown {κ : Type} (p : InputPort κ) : String :=
  shownRecord "DinPort"
    [ ("pins", shownList (p.inputs.map fun i => i.pin.shown)),
      ("config", p.settings.shown),
      ("monitoring", toString p.monitoring) ]

end BoardGpio
