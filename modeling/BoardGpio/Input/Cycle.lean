import BoardGpio.Input.Port
import BoardGpio.Log.Notice

/-!
# Sampling cycles

A cycle samples all inputs. If nothing changed it ends. Under debounce it waits and samples again,
and ends if the two samples differ. Otherwise the sample is accepted: every change that matches the
input's trigger either sets the input's edge flag or is put on a list of calls. The calls are then
made one after the other. A call whose callback was replaced or removed in the meantime is not made
and leaves its edge in the flag. A failing callback is counted and reported, and nothing else
changes. Main statements: an edge is matched exactly if the level changed that way and the trigger
lets it through (`Input.edgeTo?_eq_some_iff`), and after a sample was accepted its levels are the
ones that the next is compared with (`InputPort.levels_accept`).
-/

set_option autoImplicit false

namespace BoardGpio

/-- What a cycle needs of the world around its port. -/
structure Surroundings (ε : Type) where
  /-- The raw level of a chip pin. -/
  read : Nat → Act ε Bool
  /-- Lets time pass. -/
  pause : Duration → ε → ε
  /-- The time in milliseconds. -/
  now : ε → Nat
  /-- Adds a record to the log. -/
  note : Notice → ε → ε

/-- A port in its world. -/
structure Desk (κ ε : Type) where
  port : InputPort κ
  around : ε

/-- What a callback is called with: the edge, and in a group the active inputs and the number of
the one that changed. -/
inductive Occasion where
  | single (edge : Edge)
  | group (active : PinSet) (index : Nat) (edge : Edge)
  deriving DecidableEq, Repr

/-- Whose callback a change is told to. -/
inductive Target (κ : Type) where
  | own (callback : Installed κ)
  | group (callback : Installed κ)

/-- A call that is to be made. -/
structure PendingCall (κ : Type) where
  index : Nat
  edge : Edge
  target : Target κ

/-- Calling a callback: it may change the port and the world, and perhaps fails with a reason. -/
abbrev Invoke (κ ε : Type) : Type := κ → Occasion → Desk κ ε → Option String × Desk κ ε

namespace Input

variable {κ : Type}

/-- The edge to a new level, if it matches the trigger. -/
def edgeTo? (i : Input κ) (level : Bool) : Option Edge :=
  if i.level = level then none
  else if i.trigger.accepts (.toward level) then some (.toward level)
  else none

/-- Who is told of the edges of an input. -/
def target? (i : Input κ) (group : Option (Installed κ)) : Option (Target κ) :=
  match i.callback, group with
  | some callback, _ => some (.own callback)
  | none, some callback => some (.group callback)
  | none, none => none

/-- The input after a sample was accepted. -/
def accept (i : Input κ) (group : Option (Installed κ)) (level : Bool) : Input κ :=
  match i.edgeTo? level with
  | none => { i with level := level }
  | some e =>
    { i with level := level, occurred := if (i.target? group).isSome then none else some e }

/-- An edge is matched exactly if the level changed that way and the trigger lets it through. -/
theorem edgeTo?_eq_some_iff {i : Input κ} {level : Bool} {e : Edge} :
    i.edgeTo? level = some e ↔
      i.level ≠ level ∧ e = .toward level ∧ i.trigger.accepts e = true := by
  unfold edgeTo?
  split
  · rename_i h
    simp [h]
  · rename_i h
    split
    · rename_i ha
      constructor
      · intro he
        injection he with he
        subst he
        exact ⟨h, rfl, ha⟩
      · rintro ⟨-, rfl, -⟩
        rfl
    · rename_i ha
      simp only [reduceCtorEq, false_iff]
      rintro ⟨-, rfl, h'⟩
      exact ha h'

@[simp] theorem level_accept (i : Input κ) (group : Option (Installed κ)) (level : Bool) :
    (i.accept group level).level = level := by
  unfold accept
  split <;> rfl

/-- Accepting a sample changes no trigger and no callback. -/
theorem accept_frame (i : Input κ) (group : Option (Installed κ)) (level : Bool) :
    (i.accept group level).trigger = i.trigger ∧ (i.accept group level).callback = i.callback ∧
      (i.accept group level).pin = i.pin ∧ (i.accept group level).mcu = i.mcu := by
  unfold accept
  split <;> simp

end Input

namespace PendingCall

variable {κ : Type}

def callback (c : PendingCall κ) : Installed κ :=
  match c.target with
  | .own callback => callback
  | .group callback => callback

/-- What the callback is called with. -/
def occasion (c : PendingCall κ) (active : PinSet) : Occasion :=
  match c.target with
  | .own _ => .single c.edge
  | .group _ => .group active c.index c.edge

/-- Whether the callback is still the one that the change is told to. -/
def isCurrent (c : PendingCall κ) (p : InputPort κ) : Bool :=
  match p.inputs[c.index]?, c.target with
  | some i, .own callback => i.callback.any fun now => now.serial == callback.serial
  | some i, .group callback =>
    i.callback.isNone && p.group.any fun now => now.serial == callback.serial
  | none, _ => false

end PendingCall

namespace InputPort

variable {κ : Type}

/-- The calls for a sample, from the input with number `index` on. -/
def callsFrom (group : Option (Installed κ)) : Nat → List (Input κ) → List Bool →
    List (PendingCall κ)
  | index, i :: inputs, level :: levels =>
    let rest := callsFrom group (index + 1) inputs levels
    match i.edgeTo? level, i.target? group with
    | some e, some target => ⟨index, e, target⟩ :: rest
    | _, _ => rest
  | _, _, _ => []

/-- The calls for a sample, in ascending order of the inputs. -/
def calls (p : InputPort κ) (levels : List Bool) : List (PendingCall κ) :=
  callsFrom p.group 0 p.inputs levels

/-- How many changes of a sample match a trigger. -/
def matched (p : InputPort κ) (levels : List Bool) : Nat :=
  (List.zipWith Input.edgeTo? p.inputs levels).countP Option.isSome

/-- The port after a sample was accepted. -/
def accept (p : InputPort κ) (levels : List Bool) : InputPort κ :=
  { p with
    inputs := List.zipWith (fun i level => i.accept p.group level) p.inputs levels
    stats := { p.stats with edges := p.stats.edges + p.matched levels } }

private theorem map_level_accept (group : Option (Installed κ)) (inputs : List (Input κ))
    (levels : List Bool) (h : levels.length = inputs.length) :
    (List.zipWith (fun i level => i.accept group level) inputs levels).map Input.level =
      levels := by
  induction inputs generalizing levels with
  | nil => simpa using h
  | cons i inputs ih =>
    cases levels with
    | nil => simp at h
    | cons level levels =>
      simp only [List.length_cons, Nat.add_right_cancel_iff] at h
      simp [ih levels h]

/-- The last accepted sample is the one that was accepted last. -/
theorem levels_accept (p : InputPort κ) (levels : List Bool) (h : levels.length = p.size) :
    (p.accept levels).levels = levels :=
  map_level_accept p.group p.inputs levels h

/-- The port with one more sample counted. -/
def countSample (p : InputPort κ) : InputPort κ :=
  { p with stats := { p.stats with samples := p.stats.samples + 1 } }

/-- The port with one more call counted. -/
def countCall (p : InputPort κ) (failed : Bool) : InputPort κ :=
  { p with
    stats :=
      { p.stats with
        callbacks := p.stats.callbacks + 1
        failures := p.stats.failures + if failed then 1 else 0 } }

/-- The port with an edge put into an input's flag. -/
def flag (p : InputPort κ) (index : Nat) (e : Edge) : InputPort κ :=
  { p with inputs := p.inputs.modify index fun i => { i with occurred := some e } }

end InputPort

namespace Desk

variable {κ ε α : Type}

def onPort (x : Act (InputPort κ) α) : Act (Desk κ ε) α :=
  Act.within port (fun p d => { d with port := p }) x

def onWorld (x : Act ε α) : Act (Desk κ ε) α :=
  Act.within around (fun w d => { d with around := w }) x

/-- Reports a failure, unless too many were reported of late. -/
def report (s : Surroundings ε) (notice : Nat → Notice) (d : Desk κ ε) : Desk κ ε :=
  let (allowed, throttle) := d.port.throttle.allow (s.now d.around)
  if allowed then
    let (suppressed, throttle) := throttle.take
    { port := { d.port with throttle := throttle }, around := s.note (notice suppressed) d.around }
  else { d with port := { d.port with throttle := throttle } }

/-- The level of an input, true when active. -/
def level (s : Surroundings ε) (i : Input κ) : Act (Desk κ ε) Bool := do
  let high ← onWorld (s.read i.mcu)
  pure (i.pin.active.normalize high)

/-- The level of one input, which must be one of the port's. -/
def read (s : Surroundings ε) (index : Nat) : Act (Desk κ ε) Bool := do
  level s (← onPort (InputPort.input index))

/-- The levels of all inputs, in ascending order. -/
def sample (s : Surroundings ε) : Act (Desk κ ε) (List Bool) := do
  let inputs ← Act.gets fun d => d.port.inputs
  Act.collect (level s) inputs

def readAll (s : Surroundings ε) : Act (Desk κ ε) PinSet := do
  let levels ← sample s
  Act.lift (PinSet.ofLevels? levels)

/-- Makes one call, or leaves its edge in the flag if the callback is no longer the one to be
called. Tells whether the call was made. -/
def makeCall (s : Surroundings ε) (invoke : Invoke κ ε) (active : PinSet) (c : PendingCall κ)
    (d : Desk κ ε) : Bool × Desk κ ε :=
  if c.isCurrent d.port then
    let (failure, d) := invoke c.callback.action (c.occasion active) d
    let d := { d with port := d.port.countCall failure.isSome }
    match failure with
    | none => (true, d)
    | some reason =>
      (true, report s (fun suppressed => .callbackFailed c.index c.edge reason suppressed) d)
  else (false, { d with port := d.port.flag c.index c.edge })

/-- Makes calls in turn; gives those that were made. -/
def makeCalls (s : Surroundings ε) (invoke : Invoke κ ε) (active : PinSet) :
    List (PendingCall κ) → Desk κ ε → List (PendingCall κ) × Desk κ ε
  | [], d => ([], d)
  | c :: calls, d =>
    let (made, d) := makeCall s invoke active c d
    let (rest, d) := makeCalls s invoke active calls d
    (if made then c :: rest else rest, d)

/-- Accepts a sample and makes its calls. -/
def settle (s : Surroundings ε) (invoke : Invoke κ ε) (levels : List Bool) :
    Act (Desk κ ε) (List (PendingCall κ)) := do
  let active ← Act.lift (PinSet.ofLevels? levels)
  let calls ← Act.gets fun d => d.port.calls levels
  Act.modify fun d => { d with port := d.port.accept levels }
  fun d =>
    let (made, d) := makeCalls s invoke active calls d
    (.ok made, d)

/-- Waits, samples again, and settles if the levels are still the same. -/
def confirm (s : Surroundings ε) (invoke : Invoke κ ε) (delay : Duration) (levels : List Bool) :
    Act (Desk κ ε) (List (PendingCall κ)) := do
  Act.modify fun d => { d with around := s.pause delay d.around }
  let again ← sample s
  if again = levels then settle s invoke again
  else pure []

/-- One cycle; gives the calls that were made. -/
def poll (s : Surroundings ε) (invoke : Invoke κ ε) :
    Act (Desk κ ε) (List (PendingCall κ)) := do
  let levels ← sample s
  Act.modify fun d => { d with port := d.port.countSample }
  let port ← Act.gets Desk.port
  if levels = port.levels then pure []
  else
    match port.settings.debounce with
    | none => settle s invoke levels
    | some delay => confirm s invoke delay levels

/-- One cycle of the monitor, which reports a failing sample instead of ending with it. -/
def monitorCycle (s : Surroundings ε) (invoke : Invoke κ ε) : Act (Desk κ ε) Unit := do
  match (← Act.attempt (poll s invoke)) with
  | .ok _ => pure ()
  | .error e => Act.modify (report s fun suppressed => .samplingFailed e suppressed)

end Desk

end BoardGpio
