import BoardGpio.Backend.Basic

/-!
# Rigs

A rig stands between a backend and its users. It makes chosen calls fail before they reach the
backend, answers reads from a queue of levels, and keeps a journal of the changing calls that
reached the backend, also of those that failed there.
-/

set_option autoImplicit false

namespace BoardGpio

/-- The calls that a rig can make fail. -/
inductive CallKind where
  | setMode
  | mode
  | setPull
  | pull
  | write
  | read
  | toggle
  deriving DecidableEq, Repr

def CallKind.word : CallKind → String
  | setMode => "set_mode"
  | mode => "mode"
  | setPull => "set_pull"
  | pull => "pull"
  | write => "write"
  | read => "read"
  | toggle => "toggle"

def CallKind.ofWord? (w : String) : Option CallKind :=
  [setMode, mode, setPull, pull, write, read, toggle].find? (fun c => c.word == w)

/-- Calls that are made to fail: one kind of call, on one pin or on any. -/
structure FaultRule where
  call : CallKind
  pin : Option Nat
  deriving DecidableEq, Repr

/-- Whether a rule covers a call. -/
def FaultRule.covers (r : FaultRule) (call : CallKind) (pin : Nat) : Bool :=
  r.call == call && r.pin.all (· == pin)

/-- A backend under observation. -/
structure Rig (β : Type) where
  device : β
  faults : List FaultRule := []
  /-- Levels that the next reads of pins return, oldest first. -/
  queued : List (Nat × Bool) := []
  journal : List Change := []

namespace Rig

variable {β α : Type}

def onDevice (x : Act β α) : Act (Rig β) α :=
  Act.within device (fun d r => { r with device := d }) x

/-- Fails if a rule covers the call. -/
def checkFault (call : CallKind) (pin : Nat) : Act (Rig β) Unit := fun r =>
  if r.faults.any fun f => f.covers call pin then
    (.error (.error (.config (.injected call.word pin))), r)
  else (.ok (), r)

/-- Puts a change into the journal. -/
def record (c : Change) : Act (Rig β) Unit :=
  Act.modify fun r => { r with journal := r.journal ++ [c] }

/-- A changing call: it is recorded once it gets past the rules. -/
def change (call : CallKind) (c : Change) (x : Act β Unit) : Act (Rig β) Unit := do
  checkFault call c.pin
  record c
  onDevice x

/-- A call that changes nothing. -/
def query (call : CallKind) (pin : Nat) (x : Act β α) : Act (Rig β) α := do
  checkFault call pin
  onDevice x

/-- Takes the next queued level of a pin. -/
def dequeue? (pin : Nat) : List (Nat × Bool) → Option (Bool × List (Nat × Bool))
  | [] => none
  | (p, level) :: rest =>
    if p = pin then some (level, rest)
    else (dequeue? pin rest).map fun (l, rest) => (l, (p, level) :: rest)

/-- The queued level of a pin, or else the level that the backend reads. -/
def readLevel (pin : Nat) (x : Act β Bool) : Act (Rig β) Bool := fun r =>
  match dequeue? pin r.queued with
  | some (level, rest) => (.ok level, { r with queued := rest })
  | none => onDevice x r

instance [Backend β] : Backend (Rig β) where
  name r := Backend.name r.device
  pinCount r := Backend.pinCount r.device
  setMode pin mode := change .setMode (.setMode pin mode) (Backend.setMode pin mode)
  mode pin := query .mode pin (Backend.mode pin)
  setPull pin pull := change .setPull (.setPull pin pull) (Backend.setPull pin pull)
  pull pin := query .pull pin (Backend.pull pin)
  write pin high := change .write (.write pin high) (Backend.write pin high)
  read pin := do
    checkFault .read pin
    readLevel pin (Backend.read pin)
  toggle pin := change .toggle (.toggle pin) (Backend.toggle pin)
  notice? r pin mode := Backend.notice? r.device pin mode

/-- Queues levels for the next reads of a pin. -/
def queueReads (r : Rig β) (pin : Nat) (levels : List Bool) : Rig β :=
  { r with queued := r.queued ++ levels.map fun l => (pin, l) }

end Rig

/-- A user's line to a rig: through the rig, or past it to the backend itself. -/
structure Line (β : Type) where
  rig : Rig β
  direct : Bool

namespace Line

variable {β α : Type}

/-- Does one thing through the rig, or the other with the backend itself. -/
def route (through : Act (Rig β) α) (past : Act β α) : Act (Line β) α := fun l =>
  let (r, rig) := if l.direct then Rig.onDevice past l.rig else through l.rig
  (r, { l with rig := rig })

instance [Backend β] : Backend (Line β) where
  name l := Backend.name l.rig
  pinCount l := Backend.pinCount l.rig
  setMode pin mode := route (Backend.setMode pin mode) (Backend.setMode pin mode)
  mode pin := route (Backend.mode pin) (Backend.mode pin)
  setPull pin pull := route (Backend.setPull pin pull) (Backend.setPull pin pull)
  pull pin := route (Backend.pull pin) (Backend.pull pin)
  write pin high := route (Backend.write pin high) (Backend.write pin high)
  read pin := route (Backend.read pin) (Backend.read pin)
  toggle pin := route (Backend.toggle pin) (Backend.toggle pin)
  notice? l pin mode := Backend.notice? l.rig pin mode

end Line

end BoardGpio
