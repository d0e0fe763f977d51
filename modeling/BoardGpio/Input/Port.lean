import BoardGpio.Act
import BoardGpio.Edge
import BoardGpio.Input.Monitor
import BoardGpio.Log.Throttle
import BoardGpio.PinSet
import BoardGpio.Settings.Basic

/-!
# Input ports

An input port is an ordered list of inputs. Each has a trigger, the last edge that nobody was told
of, and perhaps a callback of its own; the port may have a group callback for the inputs without
one. What a callback does is no matter of the port, so it is a value of any type `κ`. Every
installation gets a serial number, which tells it from all others, also from one of an equal
callback. Main statement: installing and removing callbacks leaves the monitor running exactly if
one is installed (`monitoring_synced`).
-/

set_option autoImplicit false

namespace BoardGpio

/-- A callback in its place. -/
structure Installed (κ : Type) where
  serial : Nat
  action : κ

/-- One input of a port. -/
structure Input (κ : Type) where
  pin : InputPin
  /-- The chip pin found when the port was opened. -/
  mcu : Nat
  /-- The level of the last accepted sample, true when active. -/
  level : Bool
  trigger : Trigger := .none
  /-- The last edge that no callback was called for, until it is taken. -/
  occurred : Option Edge := none
  callback : Option (Installed κ) := none

/-- What a port counts. -/
structure Stats where
  /-- Samples taken. -/
  samples : Nat := 0
  /-- Changes that matched a trigger. -/
  edges : Nat := 0
  /-- Calls of callbacks. -/
  callbacks : Nat := 0
  /-- Calls of callbacks that failed. -/
  failures : Nat := 0
  deriving DecidableEq, Repr

/-- An input port. -/
structure InputPort (κ : Type) where
  inputs : List (Input κ)
  settings : InputSettings
  /-- The callback for inputs without one of their own. -/
  group : Option (Installed κ) := none
  stats : Stats := {}
  /-- Holds back repeated reports of failures. -/
  throttle : Throttle
  /-- Whether the monitor runs. -/
  monitoring : Bool := false
  /-- Number of installations so far. -/
  installs : Nat := 0

namespace InputPort

variable {κ : Type}

/-- Length of the time windows in which failures are reported, in milliseconds. -/
def reportWindowMs : Nat := 1000

/-- Number of failures reported in one window. -/
def reportCap : Nat := 5

def size (p : InputPort κ) : Nat := p.inputs.length

/-- The levels of the last accepted sample. -/
def levels (p : InputPort κ) : List Bool := p.inputs.map Input.level

def hasCallbacks (p : InputPort κ) : Bool :=
  p.group.isSome || p.inputs.any fun i => i.callback.isSome

/-- The port after it has decided about its monitor. -/
def synced (p : InputPort κ) : InputPort κ :=
  { p with monitoring := (MonitorStep.decide p.hasCallbacks p.monitoring).runsAfter p.monitoring }

/-- An input, which must be one of the port's. -/
def input (index : Nat) : Act (InputPort κ) (Input κ) := fun p =>
  match p.inputs[index]? with
  | some i => (.ok i, p)
  | none => (.error (.error (.invalidPortIndex index p.size)), p)

/-- Changes an input, which must be one of the port's. -/
def change (index : Nat) (f : Input κ → Input κ) : Act (InputPort κ) Unit := do
  let _ ← input index
  Act.modify fun p => { p with inputs := p.inputs.modify index f }

def edge (index : Nat) : Act (InputPort κ) Trigger := do
  let i ← input index
  pure i.trigger

def setEdge (index : Nat) (trigger : Trigger) : Act (InputPort κ) Unit :=
  change index fun i => { i with trigger := trigger }

/-- Takes the last edge that no callback was called for. -/
def takeEdge (index : Nat) : Act (InputPort κ) (Option Edge) := do
  let i ← input index
  change index fun i => { i with occurred := none }
  pure i.occurred

/-- A callback with a serial number that no earlier one had. -/
def number (action : κ) : Act (InputPort κ) (Installed κ) := fun p =>
  (.ok ⟨p.installs, action⟩, { p with installs := p.installs + 1 })

def sync : Act (InputPort κ) Unit := Act.modify synced

/-- A call that puts a callback in its place or takes it away. -/
inductive CallbackCall (κ : Type) where
  | install (index : Nat) (action : κ)
  | uninstall (index : Nat)
  | installGroup (action : κ)
  | uninstallGroup

/-- What such a call does to the callbacks, before anything is decided about the monitor. -/
def CallbackCall.place : CallbackCall κ → Act (InputPort κ) Unit
  | install index action => do
    let _ ← input index
    let callback ← number action
    change index fun i => { i with callback := some callback }
  | uninstall index => change index fun i => { i with callback := none }
  | installGroup action => do
    let callback ← number action
    Act.modify fun p => { p with group := some callback }
  | uninstallGroup => Act.modify fun p => { p with group := none }

/-- The whole call: the change, and then the decision about the monitor. -/
def CallbackCall.perform (call : CallbackCall κ) : Act (InputPort κ) Unit := do
  call.place
  sync

/-- Gives an input a callback of its own. -/
def install (index : Nat) (action : κ) : Act (InputPort κ) Unit :=
  (CallbackCall.install index action).perform

def uninstall (index : Nat) : Act (InputPort κ) Unit :=
  (CallbackCall.uninstall index).perform

/-- Whether an input has a callback of its own. -/
def isInstalled (index : Nat) : Act (InputPort κ) Bool := do
  let i ← input index
  pure i.callback.isSome

def installGroup (action : κ) : Act (InputPort κ) Unit :=
  (CallbackCall.installGroup action).perform

def uninstallGroup : Act (InputPort κ) Unit := CallbackCall.uninstallGroup.perform

/-- Gives the port a group callback that is called for both edges of every input. -/
def installSwitch (action : κ) : Act (InputPort κ) Unit := do
  Act.modify fun p => { p with inputs := p.inputs.map fun i => { i with trigger := .both } }
  installGroup action

@[simp] theorem monitoring_synced (p : InputPort κ) : p.synced.monitoring = p.hasCallbacks := by
  simp [synced]

end InputPort

end BoardGpio
