import BoardGpio.Bench.Input
import BoardGpio.Board.Identify
import BoardGpio.Handle.Batch
import BoardGpio.Handle.Cursor

/-!
# Performing commands

What every command does to a bench. A command that fails to make an object leaves its name as it
was; a command that makes one drops what had the name before, once the new object is there.
-/

set_option autoImplicit false

namespace BoardGpio.Bench

/-! ## Backends -/

/-- A call on a pin of a backend. -/
def PinCall.onBackend {β : Type} [Backend β] : PinCall → Act β Answer
  | setMode pin m => quiet (Backend.setMode pin m)
  | mode pin => (fun m => .text (Mode.word m)) <$> Backend.mode pin
  | setPull pin p => quiet (Backend.setPull pin p)
  | pull pin => (fun p => .text? (p.map Pull.word)) <$> Backend.pull pin
  | write pin high => quiet (Backend.write pin high)
  | read pin => .flag <$> Backend.read pin
  | toggle pin => quiet (Backend.toggle pin)

/-- What a backend tells the log about a call on a pin that went well. -/
def PinCall.notice? (r : Rig Device) : PinCall → Option Notice
  | setMode pin m => Backend.notice? r pin m
  | _ => none

/-- A call on a pin of a backend, which may tell the log about it. -/
def callPin (rig : Nat) (call : PinCall) : Act Bench Answer := do
  let answer ← onRig rig call.onBackend
  match (← Act.gets fun b => b.hub.rigs[rig]?.bind fun r => call.notice? r) with
  | some n => note n
  | none => pure ()
  pure answer

def socOf (name : String) : Act Device Answer :=
  Device.dispatch (Act.fault (.unfit name)) (Act.gets fun b => .text b.soc.word)
    (Act.fault (.unfit name))

/-- The registers of windows that are not zero, with the numbers of their windows and their own. -/
def nonzero (windows : List Window) : List (Nat × Nat × Word) :=
  windows.zipIdx.flatMap fun (w, i) =>
    w.touched.filterMap fun (j, v) => if v = 0 then none else some (i, j, v)

/-- A call on a backend or on the rig around it. -/
def RigCall.perform (name : String) : RigCall → Act (Rig Device) Answer
  | .name => Act.gets fun r => .text (Backend.name r)
  | pinCount => Act.gets fun r => .number (Backend.pinCount r)
  | soc => Rig.onDevice (socOf name)
  | sim call => Rig.onDevice (onSim name call.perform)
  | poke window word value =>
    quiet (Rig.onDevice (Device.onWindow window (Window.write word value)))
  | peek window word => .register <$> Rig.onDevice (Device.onWindow window (Window.read word))
  | dump => Act.gets fun r => .registers (nonzero r.device.windows)
  | fault rule => quiet (Act.modify fun r => { r with faults := r.faults ++ [rule] })
  | clearFaults => quiet (Act.modify fun r => { r with faults := [] })
  | queueReads pin levels => quiet (Act.modify fun r => r.queueReads pin levels)

/-! ## Handles -/

variable {β : Type}

/-- Reads something off the bookkeeping of a handle. -/
def look (f : Handle → Answer) : Act (Gpio β) Answer :=
  Act.gets fun g => f g.handle

/-- Takes something from the cursor of a handle. -/
def step (f : Handle → Option Nat × Handle) : Act (Gpio β) Answer := do
  let (pin, _) ← Act.gets fun g => f g.handle
  Gpio.update fun h => (f h).2
  pure (.number? pin)

def HandleCall.perform [Backend β] : HandleCall → Act (Gpio β) Answer
  | mcuPin pin => .number <$> Gpio.mcuPin pin
  | isValid pin => look fun h => .flag (h.isValid pin)
  | numbering => look fun h => .text h.numbering.word
  | setNumbering n => quiet (Gpio.setNumbering n)
  | releaseOnClose => look fun h => .flag h.releaseOnClose
  | setReleaseOnClose enabled => quiet (Gpio.update fun h => { h with releaseOnClose := enabled })
  | readAll chosen => .pins <$> Gpio.readAll chosen
  | writeAll chosen high => quiet (Gpio.writeAll chosen high)
  | toggleAll chosen => quiet (Gpio.toggleAll chosen)
  | pins => look fun h => .numbers h.order
  | toFront => quiet (Gpio.update Handle.toFront)
  | toBack => quiet (Gpio.update Handle.toBack)
  | hasNext => look fun h => .flag h.hasNext
  | hasPrevious => look fun h => .flag h.hasPrevious
  | next => step Handle.next
  | previous => step Handle.previous
  | backendName => Act.gets fun g => .text (Backend.name g.backend)
  | tableName => look fun h => .text h.table.name

/-! ## Output ports and windows -/

def OutputCall.perform [Backend β] (p : OutputPort) : OutputCall → Act (Gpio β) Answer
  | write index on => quiet (p.write index on)
  | set index => quiet (p.set index)
  | clear index => quiet (p.clear index)
  | toggle index => quiet (p.toggle index)
  | writeAll on => quiet (p.writeAll on)
  | setAll => quiet p.setAll
  | clearAll => quiet p.clearAll
  | toggleAll => quiet p.toggleAll

def WindowCall.perform : WindowCall → Act Window Answer
  | base => Act.gets fun w => .number w.base
  | len => Act.gets fun w => .number w.len
  | words => Act.gets fun w => .number w.words
  | isEmpty => Act.gets fun w => .flag w.isEmpty
  | source => Act.gets fun w => .text? w.source
  | read word => .register <$> Window.read word
  | write word value => quiet (Window.write word value)
  | modify word mask flip =>
    .register <$> Window.modify word fun old => (old &&& mask) ^^^ flip

/-- A call on the window of a name. -/
def callWindow (name : String) (w : Window) (call : WindowCall) : Act Bench Answer := do
  let (answer, w) ← onWindow w call.perform
  Act.modify fun b => b.withObject name (.window w)
  pure answer

/-! ## Calls -/

/-- A call on the object of a name. -/
def performCall (name : String) (call : Call) : Act Bench Answer := do
  match (← object name), call with
  | .rig rig, .pin c => callPin rig c
  | .rig rig, .rig c => onRig rig (c.perform name)
  | .handle h, .pin c => onHandle h c.throughHandle
  | .handle h, .handle c => onHandle h c.perform
  | .handle h, .size => onHandle h (look fun h => .number h.size)
  | .handle h, .references => Act.gets fun b => .number (b.hub.refs h)
  | .input .., .input c => onInput name fun h => c.perform h
  | .input .., .size => onInput name fun h => InputCall.size.perform h
  | .input .., .references => onInput name fun h => InputCall.references.perform h
  | .input .., .readIndex index => onInput name fun h => (InputCall.read index).perform h
  | .input .., .readPort => onInput name fun h => InputCall.readAll.perform h
  | .input .., .poll => onInput name pollInput
  | .output h p, .output c => onHandle h (c.perform p)
  | .output _ p, .size => pure (.number p.size)
  | .output h _, .references => Act.gets fun b => .number (b.hub.refs h)
  | .output h p, .readIndex index => onHandle h (.flag <$> p.read index)
  | .output h p, .readPort => onHandle h (.pins <$> p.readAll)
  | .window w, .window c => callWindow name w c
  | _, _ => Act.fault (.unfit name)

/-! ## Making objects -/

/-- The handle that a plan describes. -/
def handlePlan (plan : Plan) : Act Bench HandlePlan := do
  let rig ← match plan.rig with
    | none => pure none
    | some name => do
      let r ← rigNamed name
      pure (some r)
  pure { rig := rig, direct := plan.direct, table := plan.table, settings := plan.settings }

/-- Opens the backend of a board. -/
def select (board : BoardInfo) (identified : Bool) (device : String) : Act Bench Device := do
  if identified then note (.identified board)
  onMachine (Device.select board device)

/-- Opens an input port on a handle. -/
def openInput (handle : Nat) (pins : List InputPin) (settings : InputSettings) :
    Act Bench Object := do
  let now ← Act.gets fun b => b.clock.millis
  let port ← forHandle handle (Hub.openInput handle pins settings now)
  pure (.input handle port)

/-- Opens an output port on a handle. -/
def openOutput (handle : Nat) (pins : List OutputPin) : Act Bench Object := do
  let port ← forHandle handle (Hub.openOutput handle pins)
  pure (.output handle port)

/-! ## Commands -/

def performCommand : Command → Act Bench Answer
  | .newSim name s => quiet (mount name (.sim s))
  | .newBcm name soc len => do
    let device ← Act.lift (Device.anonymousBcm soc len)
    quiet (mount name device)
  | .newH3 name len => do
    let device ← Act.lift (Device.anonymousH3 len)
    quiet (mount name device)
  | .select name board identified device => do
    let device ← select board identified device
    quiet (mount name device)
  | .build name plan => do
    let handle ← onHub (Hub.build (← handlePlan plan))
    quiet (put name (.handle handle))
  | .openShared name plan => do
    let handle ← onHub (Hub.openShared (← handlePlan plan))
    quiet (put name (.handle handle))
  | .clone name other => do
    let handle ← handleNamed other
    onHub (Hub.retain handle)
    quiet (put name (.handle handle))
  | .openInput name handle pins settings => do
    let handle ← handleNamed handle
    let o ← openInput handle pins settings
    quiet (put name o)
  | .openOutput name handle pins => do
    let handle ← handleNamed handle
    let o ← openOutput handle pins
    quiet (put name o)
  | .newWindow name len => do
    let w ← Act.lift (Window.anonymous len)
    quiet (put name (.window w))
  | .openWindow name device base len => do
    let w ← onMachine (Machine.openWindow device base len)
    quiet (put name (.window w))
  | .newMemory => quiet (Act.modify fun b => { b with disk := { memory := some .zeros } })
  | .close name => quiet (remove name .closed)
  | .drop name => quiet (remove name .dropped)
  | .sameHandle a b => do
    let a ← handleNamed a
    let b ← handleNamed b
    pure (.flag (a == b))
  | .sleep ms => quiet (Act.modify (sleepMs ms))
  | .await count => quiet (Act.modify (awaitEvents count))
  | .call name call => performCall name call
  | .refused why => Act.lift (.error why)

end BoardGpio.Bench
