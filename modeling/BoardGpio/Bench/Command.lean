import BoardGpio.Backend.Device
import BoardGpio.Backend.Rig
import BoardGpio.Handle.Ports
import BoardGpio.Input.Port
import BoardGpio.Output.Port

/-!
# Commands on a bench

A bench is where an application is tried out: backends, handles, ports and windows under names, and
commands that make them, call them and take them away. A callback is data as well: the calls it
makes, and the reason it fails with, if it fails.
-/

set_option autoImplicit false

namespace BoardGpio.Bench

/-- What a call answers. -/
inductive Answer where
  | done
  | flag (yes : Bool)
  | number (n : Nat)
  | number? (n : Option Nat)
  | numbers (ns : List Nat)
  | text (s : String)
  | text? (s : Option String)
  | pins (s : PinSet)
  | register (v : Word)
  /-- Registers with the numbers of their windows and their own. -/
  | registers (rs : List (Nat × Nat × Word))
  /-- Counters of a port, with or without the number of samples. -/
  | stats (s : Stats) (samples : Bool)
  | inputPin (p : InputPin)
  deriving DecidableEq

abbrev Reply : Type := Except Failure Answer

/-- A call on a pin, of a backend or through a handle. -/
inductive PinCall where
  | setMode (pin : Nat) (mode : Mode)
  | mode (pin : Nat)
  | setPull (pin : Nat) (pull : Pull)
  | pull (pin : Nat)
  | write (pin : Nat) (high : Bool)
  | read (pin : Nat)
  | toggle (pin : Nat)
  deriving DecidableEq, Repr

/-- A call on simulated pins from outside. -/
inductive SimCall where
  | force (pin : Nat) (high : Bool)
  | release (pin : Nat)
  | preset (pin : Nat) (mode : Mode) (pull : Pull)
  | latch (pin : Nat)
  | rawPull (pin : Nat)
  | mutations
  deriving DecidableEq, Repr

/-- A call on a backend or on the rig around it. -/
inductive RigCall where
  | name
  | pinCount
  | soc
  | sim (call : SimCall)
  | poke (window word : Nat) (value : Word)
  | peek (window word : Nat)
  | dump
  | fault (rule : FaultRule)
  | clearFaults
  | queueReads (pin : Nat) (levels : List Bool)
  deriving DecidableEq, Repr

/-- A call on a handle. -/
inductive HandleCall where
  | mcuPin (pin : Nat)
  | isValid (pin : Nat)
  | numbering
  | setNumbering (numbering : Numbering)
  | releaseOnClose
  | setReleaseOnClose (enabled : Bool)
  | readAll (pins : PinSet)
  | writeAll (pins : PinSet) (high : Bool)
  | toggleAll (pins : PinSet)
  | pins
  | toFront
  | toBack
  | hasNext
  | hasPrevious
  | next
  | previous
  | backendName
  | tableName

/-- A call on an input port whose callbacks are of type `κ`. -/
inductive InputCall (κ : Type) where
  | size
  | references
  | pin (index : Nat)
  | read (index : Nat)
  | readAll
  | setEdge (index : Nat) (trigger : Trigger)
  | edge (index : Nat)
  | takeEdge (index : Nat)
  | install (index : Nat) (callback : κ)
  | uninstall (index : Nat)
  | isInstalled (index : Nat)
  | installGroup (callback : κ)
  | uninstallGroup
  | isGroupInstalled
  | installSwitch (callback : κ)
  | isMonitoring
  | stats (samples : Bool)
  | shown

/-- A call on an output port. -/
inductive OutputCall where
  | write (index : Nat) (on : Bool)
  | set (index : Nat)
  | clear (index : Nat)
  | toggle (index : Nat)
  | writeAll (on : PinSet)
  | setAll
  | clearAll
  | toggleAll

/-- A call on a window. -/
inductive WindowCall where
  | base
  | len
  | words
  | isEmpty
  | source
  | read (word : Nat)
  | write (word : Nat) (value : Word)
  /-- Keeps the bits of `mask` and inverts those of `flip`. -/
  | modify (word : Nat) (mask flip : Word)
  deriving DecidableEq, Repr

/-- One thing that a callback does: a call on its own port, a level from outside, or a call through
the handle of its port. -/
inductive CallbackStep (κ : Type) where
  | port (call : InputCall κ)
  | sim (name : String) (call : SimCall)
  | pin (call : PinCall)
  /-- A step with an argument that has no value. -/
  | refused (why : Error)

/-- What a callback does when it is called. -/
inductive Callback where
  | make (tag : String) (steps : List (CallbackStep Callback)) (failure : Option String)

namespace Callback

/-- What tells the callback from others in a report. -/
def tag : Callback → String
  | make tag _ _ => tag

def steps : Callback → List (CallbackStep Callback)
  | make _ steps _ => steps

/-- The reason it fails with in the end, if it does. -/
def failure : Callback → Option String
  | make _ _ failure => failure

/-- A reason made of its root cause, which comes last, and what was said around it. -/
def reason? : List String → Option String
  | [] => none
  | texts => some (String.intercalate ": " texts)

end Callback

/-- What a handle is to be made of; `rig` is the name of a backend. -/
structure Plan where
  rig : Option String
  direct : Bool
  table : Option PinTable
  settings : HandleSettings

/-- A call on an object. -/
inductive Call where
  | pin (call : PinCall)
  | rig (call : RigCall)
  | handle (call : HandleCall)
  | input (call : InputCall Callback)
  | output (call : OutputCall)
  | window (call : WindowCall)
  /-- The number of pins of a handle or a port. -/
  | size
  /-- The number of references to a handle, also of the handle behind a port. -/
  | references
  /-- The state of one pin of a port. -/
  | readIndex (index : Nat)
  /-- The states of all pins of a port. -/
  | readPort
  /-- One sampling cycle of an input port. -/
  | poll

/-- A command. -/
inductive Command where
  | newSim (name : String) (device : Sim)
  | newBcm (name : String) (soc : Soc) (len : Nat)
  | newH3 (name : String) (len : Nat)
  /-- Opens the backend of a board, which may have been identified just before. -/
  | select (name : String) (board : BoardInfo) (identified : Bool) (device : String)
  | build (name : String) (plan : Plan)
  | openShared (name : String) (plan : Plan)
  | clone (name handle : String)
  | openInput (name handle : String) (pins : List InputPin) (settings : InputSettings)
  | openOutput (name handle : String) (pins : List OutputPin)
  | newWindow (name : String) (len : Nat)
  | openWindow (name device : String) (base len : Nat)
  /-- Makes the memory device, filled with zeros. -/
  | newMemory
  | close (name : String)
  | drop (name : String)
  | sameHandle (a b : String)
  | sleep (ms : Nat)
  /-- Waits until this many events are there. -/
  | await (count : Nat)
  | call (name : String) (call : Call)
  /-- A command with an argument that has no value. -/
  | refused (why : Error)

/-- Whether a command tells of the events so far. -/
def Command.reportsEvents : Command → Bool
  | .await _ => true
  | .call _ .poll => true
  | _ => false

end BoardGpio.Bench
