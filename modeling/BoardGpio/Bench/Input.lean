import BoardGpio.Bench.State
import BoardGpio.Input.Open
import BoardGpio.Input.Shown

/-!
# Input ports on a bench

How the calls of an input port are made, what its callbacks do, and how it is sampled: on command,
or by its monitor while the bench waits. What a monitor does leaves no trace in the log.
-/

set_option autoImplicit false

namespace BoardGpio.Bench

def SimCall.perform : SimCall → Act Sim Answer
  | force pin high => quiet (Sim.force pin high)
  | release pin => quiet (Sim.release pin)
  | preset pin mode pull => quiet (Sim.preset pin mode pull)
  | latch pin => .flag <$> Sim.look pin SimPin.latch
  | rawPull pin => (fun p => .text (Pull.word p)) <$> Sim.look pin SimPin.pull
  | mutations => .number <$> Act.gets Sim.mutations

/-- Does something with a backend of simulated pins. -/
def onSim {α : Type} (name : String) (x : Act Sim α) : Act Device α :=
  Device.dispatch x (Act.fault (.unfit name)) (Act.fault (.unfit name))

/-- A call on simulated pins of a name. -/
def callSim (name : String) (call : SimCall) : Act Bench Answer := do
  let rig ← rigNamed name
  onRig rig (Rig.onDevice (onSim name call.perform))

/-- A call on a pin through a handle. -/
def PinCall.throughHandle {β : Type} [Backend β] : PinCall → Act (Gpio β) Answer
  | setMode pin m => quiet (Gpio.setMode pin m)
  | mode pin => (fun m => .text (Mode.word m)) <$> Gpio.mode pin
  | setPull pin p => quiet (Gpio.setPull pin p)
  | pull pin => (fun p => .text? (p.map Pull.word)) <$> Gpio.pull pin
  | write pin high => quiet (Gpio.write pin high)
  | read pin => .flag <$> Gpio.read pin
  | toggle pin => quiet (Gpio.toggle pin)

/-- The world around a port on this handle. -/
def surroundings (handle : Nat) : Surroundings Bench where
  read mcu := onHandle handle (Gpio.readMcu mcu)
  pause d b := { b with clock := ⟨b.clock.nanos + d.nanos⟩ }
  now b := b.clock.millis
  note n b := { b with hub := { b.hub with log := b.hub.log ++ [n] } }

/-- A port on a bench that is being called. -/
abbrev PortDesk : Type := Desk Assignment Bench

def lookAt (f : InputPort Assignment → Answer) : Act PortDesk Answer :=
  Act.gets fun d => f d.port

def InputCall.perform (handle : Nat) : InputCall Callback → Act PortDesk Answer
  | size => lookAt fun p => .number p.size
  | references => Act.gets fun d => .number (d.around.hub.refs handle)
  | pin index => (fun i => .inputPin i.pin) <$> Desk.onPort (InputPort.input index)
  | read index => .flag <$> Desk.read (surroundings handle) index
  | readAll => .pins <$> Desk.readAll (surroundings handle)
  | setEdge index trigger => quiet (Desk.onPort (InputPort.setEdge index trigger))
  | edge index => (fun t => .text (Trigger.word t)) <$> Desk.onPort (InputPort.edge index)
  | takeEdge index => (fun e => .text (Edge.wordOf? e)) <$> Desk.onPort (InputPort.takeEdge index)
  | install index callback =>
    quiet (Desk.onPort (InputPort.install index ⟨.input index, callback⟩))
  | uninstall index => quiet (Desk.onPort (InputPort.uninstall index))
  | isInstalled index => .flag <$> Desk.onPort (InputPort.isInstalled index)
  | installGroup callback => quiet (Desk.onPort (InputPort.installGroup ⟨.group, callback⟩))
  | uninstallGroup => quiet (Desk.onPort InputPort.uninstallGroup)
  | isGroupInstalled => lookAt fun p => .flag p.group.isSome
  | installSwitch callback => quiet (Desk.onPort (InputPort.installSwitch ⟨.switch, callback⟩))
  | isMonitoring => lookAt fun p => .flag p.monitoring
  | stats samples => lookAt fun p => .stats p.stats samples
  | shown => lookAt fun p => .text p.shown

/-- Whether the monitor of a port waits for a cycle of the program to end: its own next cycle was due
while that one went on. -/
def isOverdue (b : Bench) (p : InputPort Assignment) : Bool :=
  b.polling.any fun start => p.settings.pollInterval.nanos < b.clock.nanos - start.nanos

/-- A call on the port from one of its callbacks. A monitor that it stops is waited for, unless the
callback was called by that monitor. -/
def callBack (handle : Nat) (call : InputCall Callback) : Act PortDesk Answer := do
  let running ← Act.gets fun d => d.port.monitoring
  let answer ← call.perform handle
  Act.modify fun d =>
    let stopped := running && !d.port.monitoring
    let waits := stopped && d.around.isOverdue d.port
    { d with around := { d.around with deadlocked := d.around.deadlocked || waits } }
  pure answer

/-- One thing that a callback does. -/
def CallbackStep.perform (handle : Nat) : CallbackStep Callback → Act PortDesk Answer
  | port call => callBack handle call
  | sim name call => Desk.onWorld (callSim name call)
  | pin call => Desk.onWorld (onHandle handle call.throughHandle)
  | refused why => Act.lift (.error why)

/-- Does things in turn, whether or not they go well; gives what came of each. -/
def performAll (handle : Nat) : List (CallbackStep Callback) → PortDesk → List Reply × PortDesk
  | [], d => ([], d)
  | s :: steps, d =>
    let (reply, d) := s.perform handle d
    let (replies, d) := performAll handle steps d
    (reply :: replies, d)

/-- What a callback in this role is told. -/
def Role.kind : Role → Occasion → EventKind
  | .input index, .single e => .input index e
  | .input index, .group _ _ e => .input index e
  | .group, .group active index e => .group index active e
  | .group, .single e => .group 0 .empty e
  | .switch, .group active index _ => .switch index active
  | .switch, .single _ => .switch 0 .empty

/-- Calling a callback: it makes its calls, leaves an event, and then perhaps fails. -/
def invoke (handle : Nat) : Invoke Assignment Bench := fun a occasion d =>
  let (replies, d) := performAll handle a.callback.steps d
  let event : Event := ⟨a.role.kind occasion, a.callback.tag, replies⟩
  (a.callback.failure, { d with around := { d.around with events := d.around.events ++ [event] } })

def onInput {α : Type} (name : String) (x : Nat → Act PortDesk α) : Act Bench α := fun b =>
  match b.object? name with
  | some (.input handle port) =>
    let (r, d) := x handle ⟨port, b⟩
    (r, d.around.withObject name (.input handle d.port))
  | _ => (.error (.fault (.unfit name)), b)

/-- One sampling cycle. It never ends if a callback waits for a monitor that waits for it to end. -/
def pollInput (handle : Nat) : Act PortDesk Answer := fun d =>
  let entered := { d with around := { d.around with polling := some d.around.clock } }
  let (r, d) := Desk.poll (surroundings handle) (invoke handle) entered
  let d := { d with around := { d.around with polling := none } }
  if d.around.deadlocked then (.error (.fault .deadlock), d) else (r.map fun _ => .done, d)

/-- One cycle of the monitor of a port; what it tells the log is not seen from here. -/
def monitorInput (name : String) : Act Bench Unit := fun b =>
  let log := b.hub.log
  let (r, b) := onInput name (fun h => Desk.monitorCycle (surroundings h) (invoke h)) b
  (r, { b with hub := { b.hub with log := log } })

/-- The names of the ports whose monitors sample within this time. -/
def monitored (b : Bench) (within : Duration) : List String :=
  b.objects.filterMap fun (name, o) =>
    match o with
    | .input _ port =>
      if port.monitoring && port.settings.pollInterval.nanos ≤ within.nanos then some name
      else none
    | _ => none

/-- One cycle of every monitor that samples within this time. -/
def round (within : Duration) (b : Bench) : Bench :=
  (b.monitored within).foldl (fun b name => (monitorInput name b).2) b

/-- Rounds until something holds, but no more than a given number. -/
def rounds (within : Duration) (done : Bench → Bool) : Nat → Bench → Bench
  | 0, b => b
  | n + 1, b => if done b then b else rounds within done n (round within b)

/-- The longest time between two samples of a monitor that a bench waits for. -/
def patience : Duration := .ofMillis 60000

/-- Number of rounds that a bench waits for one more event. -/
def roundsPerEvent : Nat := 1000

/-- Waits until this many events are there. -/
def awaitEvents (count : Nat) (b : Bench) : Bench :=
  rounds patience (fun b => count ≤ b.events.length) (roundsPerEvent * count) b

/-- Number of rounds that bring every monitor up to date, with what callbacks change in turn. -/
def settlingRounds : Nat := 32

def sleepMs (ms : Nat) (b : Bench) : Bench :=
  let b := rounds (.ofMillis ms) (fun _ => false) (min ms settlingRounds) b
  { b with clock := ⟨b.clock.nanos + (Duration.ofMillis ms).nanos⟩ }

end BoardGpio.Bench
