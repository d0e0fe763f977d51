import BoardGpio.Bench.Command
import BoardGpio.Bench.Shelf
import BoardGpio.Input.Cycle

/-!
# The state of a bench

Objects under names, the hub with their backends and handles, the memory device, a clock that only
moves when something waits, and the events that callbacks left. A backend goes when neither a name
nor a live handle is left for it, and its windows go with it.
-/

set_option autoImplicit false

namespace BoardGpio.Bench

/-- What a callback was installed for. -/
inductive Role where
  | input (index : Nat)
  | group
  | switch
  deriving DecidableEq, Repr

/-- A callback with what it was installed for. -/
structure Assignment where
  role : Role
  callback : Callback

/-- What a callback was called with, as far as one in its role is told. -/
inductive EventKind where
  | input (index : Nat) (edge : Edge)
  | group (index : Nat) (active : PinSet) (edge : Edge)
  | switch (index : Nat) (active : PinSet)
  deriving DecidableEq, Repr

/-- A call of a callback, and what came of the calls it made. -/
structure Event where
  kind : EventKind
  tag : String
  replies : List Reply

/-- An object on a bench. Ports and handles hold a reference to a handle of the hub. -/
inductive Object where
  | rig (rig : Nat)
  | handle (handle : Nat)
  | input (handle : Nat) (port : InputPort Assignment)
  | output (handle : Nat) (port : OutputPort)
  | window (window : Window)

/-- The handle that an object has a reference to. -/
def Object.handle? : Object → Option Nat
  | rig _ => none
  | handle h => some h
  | input h _ => some h
  | output h _ => some h
  | window _ => none

/-- A backend on the bench. -/
structure Mount where
  rig : Nat
  /-- Whether something still uses it. -/
  alive : Bool := true

end Bench

open Bench in
/-- A bench. -/
structure Bench where
  hub : Hub Device := {}
  disk : Disk := {}
  objects : Shelf Object := []
  mounts : List Mount := []
  /-- Events nobody was told of yet. -/
  events : List Event := []
  clock : Duration := ⟨0⟩
  /-- When the cycle of the program began that is going on, if one is. -/
  polling : Option Duration := none
  /-- Whether a callback of such a cycle waits for a monitor that waits for the cycle to end. -/
  deadlocked : Bool := false

namespace Bench

variable {α : Type}

/-- An action that answers nothing. -/
def quiet {σ : Type} (x : Act σ Unit) : Act σ Answer := do
  x
  pure .done

def onHub (x : Act (Hub Device) α) : Act Bench α :=
  Act.within hub (fun h b => { b with hub := h }) x

def note (n : Notice) : Act Bench Unit := onHub (Hub.note n)

/-- Does something with the machine, whose log goes on in the log of the bench. -/
def onMachine (x : Act Machine α) : Act Bench α :=
  Act.within (fun b => { disk := b.disk })
    (fun m b => { b with disk := m.disk, hub := { b.hub with log := b.hub.log ++ m.log } }) x

/-- The device of a backend, with what memory holds now. -/
def device? (b : Bench) (rig : Nat) : Option Device :=
  b.hub.rigs[rig]?.map fun r => r.device.load b.disk

/-- The bench with the windows of a backend showing what memory holds now. -/
def refreshed (b : Bench) (rig : Nat) : Bench :=
  { b with
    hub :=
      { b.hub with
        rigs := b.hub.rigs.modify rig fun r => { r with device := r.device.load b.disk } } }

/-- The bench with memory holding what the windows of a backend show. -/
def committed (b : Bench) (rig : Nat) : Bench :=
  match b.hub.rigs[rig]? with
  | some r => { b with disk := r.device.store b.disk }
  | none => b

/-- Does something with the hub while the windows of a backend show memory. -/
def mounted (rig : Nat) (x : Act (Hub Device) α) : Act Bench α := fun b =>
  let (r, b) := onHub x (b.refreshed rig)
  (r, b.committed rig)

def onRig (rig : Nat) (x : Act (Rig Device) α) : Act Bench α :=
  mounted rig (Hub.onRig rig x)

/-- The backend that a handle drives. -/
def rigOf (b : Bench) (handle : Nat) : Nat :=
  (b.hub.handles[handle]?.map Shared.rig).getD 0

/-- Does something with the hub on behalf of a handle. -/
def forHandle (handle : Nat) (x : Act (Hub Device) α) : Act Bench α := fun b =>
  mounted (b.rigOf handle) x b

def onHandle (handle : Nat) (x : Act (Gpio (Line Device)) α) : Act Bench α :=
  forHandle handle (Hub.onHandle handle x)

def onWindow (w : Window) (x : Act Window α) : Act Bench (α × Window) := fun b =>
  match x (b.disk.load w) with
  | (.ok a, w) => (.ok (a, w), { b with disk := b.disk.store w })
  | (.error e, w) => (.error e, { b with disk := b.disk.store w })

def object? (b : Bench) (name : String) : Option Object :=
  b.objects.get? name

/-- The object of a name, which must be there. -/
def object (name : String) : Act Bench Object := fun b =>
  match b.object? name with
  | some o => (.ok o, b)
  | none => (.error (.fault (.unfit name)), b)

/-- The backend of a name, which must be there. -/
def rigNamed (name : String) : Act Bench Nat := do
  match (← object name) with
  | .rig rig => pure rig
  | _ => Act.fault (.unfit name)

/-- The handle that the object of a name has a reference to, which must be there. -/
def handleNamed (name : String) : Act Bench Nat := do
  match (← object name).handle? with
  | some handle => pure handle
  | none => Act.fault (.unfit name)

/-- The bench with an object under a name. -/
def withObject (b : Bench) (name : String) (o : Object) : Bench :=
  { b with objects := b.objects.put name o }

/-- The bench without the object of a name. -/
def withoutObject (b : Bench) (name : String) : Bench :=
  { b with objects := b.objects.erase name }

def dispose (how : Farewell) : Object → Act Bench Unit
  | .rig _ => pure ()
  | .window w => note (.unmapped w.base)
  | .handle h => forHandle h (Hub.letGo h how)
  | .input h _ => forHandle h (Hub.letGo h how)
  | .output h _ => forHandle h (Hub.letGo h how)

/-- Gives an object a name; the object that had the name before is dropped. -/
def put (name : String) (o : Object) : Act Bench Unit := do
  let old ← Act.gets fun b => b.object? name
  Act.modify fun b => b.withObject name o
  match old with
  | some old => dispose .dropped old
  | none => pure ()

def remove (name : String) (how : Farewell) : Act Bench Unit := do
  let o ← object name
  Act.modify fun b => b.withoutObject name
  dispose how o

/-- Puts up a backend under a name. -/
def mount (name : String) (device : Device) : Act Bench Unit := do
  let rig ← onHub (Hub.addRig device)
  Act.modify fun b => { b with mounts := b.mounts ++ [{ rig := rig }] }
  put name (.rig rig)

/-- Whether a name stands for a backend. -/
def isNamed (b : Bench) (rig : Nat) : Bool :=
  b.objects.any fun (_, o) =>
    match o with
    | .rig r => r == rig
    | _ => false

def uses (b : Bench) (rig : Nat) : Bool :=
  b.isNamed rig || b.hub.inUse rig

/-- The windows of those backends that nothing uses any more. -/
def abandonedWindows (b : Bench) : List Window :=
  b.mounts.flatMap fun m =>
    if m.alive && !b.uses m.rig then ((b.device? m.rig).map Device.windows).getD [] else []

/-- The bench without the backends that nothing uses any more. -/
def tidied (b : Bench) : Bench :=
  { b with
    hub :=
      { b.hub with
        log := b.hub.log ++ b.abandonedWindows.map fun w => .unmapped w.base }
    mounts := b.mounts.map fun m => { m with alive := m.alive && b.uses m.rig } }

end Bench

end BoardGpio
