import BoardGpio.Bench.Perform

/-!
# Reports

What is told of every command: its reply, the records it made in the log, the changing calls that
reached the backends with a name, the state of a watched backend, and after a command that waits for
them the events since they were last told.
-/

set_option autoImplicit false

namespace BoardGpio.Bench

/-- A backend that is watched, and the pins that matter. -/
structure Watch where
  name : String
  pins : List Nat
  /-- The registers of each window as they were seen last. -/
  known : List Memory := []

/-- What is seen of a watched backend. -/
inductive View where
  /-- The watched pins, `none` for one the chip does not have, and the number of changes. -/
  | sim (pins : List (Option SimPin)) (mutations : Nat)
  /-- The registers that have changed, with the numbers of their windows and their own. -/
  | registers (changed : List (Nat × Nat × Word))

/-- What is told of a command. -/
structure Report where
  reply : Reply
  log : List Notice
  /-- Changing calls by the name of their backend. -/
  changes : List (String × List Change)
  view : Option View
  events : List Event

/-- The registers of windows, each window's by their numbers in it. -/
def snapshot (windows : List Window) : List Memory := windows.map fun w => ⟨w.touched⟩

/-- The registers that differ from an earlier snapshot, with the numbers of their windows and their
own; a window or a register that one of the snapshots lacks counts as zeros there. -/
def news (now before : List Memory) : List (Nat × Nat × Word) :=
  (List.range (max now.length before.length)).flatMap fun i =>
    ((now.getD i .zeros).changesSince (before.getD i .zeros)).map fun (j, v) => (i, j, v)

/-- What is seen of a device. -/
def Watch.look (w : Watch) (d : Device) : View × Watch :=
  match d with
  | .sim s => (.sim (w.pins.map fun pin => s.pins[pin]?) s.mutations, w)
  | d =>
    let now := snapshot d.windows
    (.registers (news now w.known), { w with known := now })

/-- What is seen of the bench, while the watched name stands for a backend. -/
def Watch.observe (w : Watch) (b : Bench) : Option View × Watch :=
  match b.object? w.name with
  | some (.rig rig) =>
    match b.device? rig with
    | some d =>
      let (view, w) := w.look d
      (some view, w)
    | none => (none, w)
  | _ => (none, w)

/-- The changing calls that reached a backend since they were last told. -/
def journal (b : Bench) (rig : Nat) : List Change :=
  (b.hub.rigs[rig]?.map Rig.journal).getD []

/-- The changing calls that reached the backends which still have a name. -/
def journals (b : Bench) : List (String × List Change) :=
  b.objects.filterMap fun (name, o) =>
    match o with
    | .rig rig => if (b.journal rig).isEmpty then none else some (name, b.journal rig)
    | _ => none

/-- The bench with an empty log and empty journals. -/
def cleared (b : Bench) : Bench :=
  { b with
    hub := { b.hub with log := [], rigs := b.hub.rigs.map fun r => { r with journal := [] } } }

/-- A bench with somebody who watches it. -/
structure Watched where
  bench : Bench := {}
  watch : Option Watch := none

/-- Does a command and tells of it. -/
def report (c : Command) (s : Watched) : Report × Watched :=
  let (reply, b) := performCommand c s.bench.cleared
  let b := b.tidied
  let (events, b) :=
    if c.reportsEvents then (b.events, { b with events := [] }) else ([], b)
  let (view, watch) :=
    match s.watch with
    | some w =>
      let (view, w) := w.observe b
      (view, some w)
    | none => (none, none)
  (⟨reply, b.hub.log, journals b, view, events⟩, ⟨b, watch⟩)

/-- Does commands in turn and tells of each. -/
def reports : List Command → Watched → List Report
  | [], _ => []
  | c :: rest, s =>
    let (r, s) := report c s
    r :: reports rest s

end BoardGpio.Bench
