import BoardGpio.Proofs.Input.Poll

/-!
# Cycles step by step

Between two calls of callbacks anything may happen to a port: the callback that runs may change
triggers, take edges, and put callbacks in their place or take them away, and so may the program
beside it. A `Moment` is a port in the middle of a cycle; a `Trace` is a sequence of steps from one
moment to another, with the events they leave. What happens when a collected call comes up is a
matter of the port at that point and of what the callback does then (`turnEvents`). Main statement:
making the calls of a sample is a trace with just these events, and the callbacks that the world
sees called are theirs (`makeCalls_trace`).
-/

set_option autoImplicit false

namespace BoardGpio

namespace InputPort

variable {κ : Type}

/-- A call that a program may make on a port at any time, also from a callback. -/
inductive PortCall (κ : Type) where
  | setEdge (index : Nat) (trigger : Trigger)
  | takeEdge (index : Nat)
  | callback (call : CallbackCall κ)

/-- What the call does; taking an edge gives the edge. -/
def PortCall.perform : PortCall κ → Act (InputPort κ) (Option Edge)
  | setEdge index trigger => do
    InputPort.setEdge index trigger
    pure none
  | takeEdge index => InputPort.takeEdge index
  | callback call => do
    call.perform
    pure none

def after (p : InputPort κ) (call : PortCall κ) : InputPort κ := (call.perform.run p).2

def afterAll (p : InputPort κ) (calls : List (PortCall κ)) : InputPort κ := calls.foldl after p

end InputPort

open InputPort

/-- A port in the middle of a cycle: the calls that are still to be made, and the one that is being
made. -/
structure Moment (κ : Type) where
  port : InputPort κ
  pending : List (PendingCall κ) := []
  running : Option (PendingCall κ) := none

/-- What happens to an edge. -/
inductive Event (κ : Type) where
  /-- A change matched the trigger of an input; `told` is the callback that was collected for it, if
  there was one. -/
  | matched (index : Nat) (edge : Edge) (told : Option (Target κ))
  /-- The collected callback was called. -/
  | called (call : PendingCall κ) (active : PinSet)
  /-- The collected callback was not there any more, so the edge went into the flag. -/
  | flagged (call : PendingCall κ)
  /-- The flag of an input was taken. -/
  | taken (index : Nat) (edge : Option Edge)

def Event.index {κ : Type} : Event κ → Nat
  | matched index _ _ => index
  | called call _ => call.index
  | flagged call => call.index
  | taken index _ => index

/-- The calls of callbacks among some events: what was called, and what it was told. -/
def Event.invocations {κ : Type} (es : List (Event κ)) : List (κ × Occasion) :=
  es.filterMap fun e =>
    match e with
    | .called c active => some (c.callback.action, c.occasion active)
    | _ => none

theorem Event.invocations_append {κ : Type} (es es' : List (Event κ)) :
    invocations (es ++ es') = invocations es ++ invocations es' :=
  List.filterMap_append

namespace InputPort

variable {κ : Type}

/-- The matches of a sample, from the input with number `index` on. -/
def matchesFrom (group : Option (Installed κ)) :
    Nat → List (Input κ) → List Bool → List (Event κ)
  | index, i :: inputs, level :: levels =>
    let rest := matchesFrom group (index + 1) inputs levels
    match i.edgeTo? level with
    | some e => .matched index e (i.target? group) :: rest
    | none => rest
  | _, _, _ => []

/-- The matches of a sample, in ascending order of the inputs. -/
def matchesOf (p : InputPort κ) (levels : List Bool) : List (Event κ) :=
  matchesFrom p.group 0 p.inputs levels

def PortCall.events (call : PortCall κ) (p : InputPort κ) : List (Event κ) :=
  match call, (call.perform.run p).1 with
  | .takeEdge index, .ok edge => [.taken index edge]
  | _, _ => []

/-- The events of calls that are made one after the other. -/
def eventsOf : InputPort κ → List (PortCall κ) → List (Event κ)
  | _, [] => []
  | p, call :: calls => call.events p ++ eventsOf (p.after call) calls

/-- A call on a port calls no callback. -/
theorem PortCall.invocations_events (call : PortCall κ) (p : InputPort κ) :
    Event.invocations (call.events p) = [] := by
  unfold PortCall.events
  split <;> rfl

theorem invocations_eventsOf (p : InputPort κ) (calls : List (PortCall κ)) :
    Event.invocations (p.eventsOf calls) = [] := by
  induction calls generalizing p with
  | nil => rfl
  | cons call calls ih =>
    rw [eventsOf, Event.invocations_append, call.invocations_events, ih, List.append_nil]

end InputPort

/-- One step of a port. Calls may come at any moment; the others are the parts of a cycle. -/
inductive Moment.Step {κ : Type} : Moment κ → List (Event κ) → Moment κ → Prop where
  | call (m : Moment κ) (call : PortCall κ) :
      Step m (call.events m.port) { m with port := m.port.after call }
  | sample (p : InputPort κ) : Step ⟨p, [], none⟩ [] ⟨p.countSample, [], none⟩
  | accept (p : InputPort κ) (levels : List Bool) (hsize : levels.length = p.size) :
      Step ⟨p, [], none⟩ (p.matchesOf levels) ⟨p.accept levels, p.calls levels, none⟩
  | enter (p : InputPort κ) (c : PendingCall κ) (rest : List (PendingCall κ)) (active : PinSet)
      (hcurrent : c.isCurrent p = true) :
      Step ⟨p, c :: rest, none⟩ [.called c active] ⟨p, rest, some c⟩
  | leave (p : InputPort κ) (c : PendingCall κ) (rest : List (PendingCall κ)) (failed : Bool) :
      Step ⟨p, rest, some c⟩ [] ⟨p.countCall failed, rest, none⟩
  | skip (p : InputPort κ) (c : PendingCall κ) (rest : List (PendingCall κ))
      (hgone : ¬c.isCurrent p = true) :
      Step ⟨p, c :: rest, none⟩ [.flagged c] ⟨p.flag c.index c.edge, rest, none⟩
  | report (m : Moment κ) (throttle : Throttle) :
      Step m [] { m with port := { m.port with throttle := throttle } }

/-- Steps from one moment to another, with their events in order. -/
inductive Trace {κ : Type} : Moment κ → List (Event κ) → Moment κ → Prop where
  | none (m : Moment κ) : Trace m [] m
  | step {m m' m'' : Moment κ} {es es' : List (Event κ)} (h : Trace m es m')
      (hstep : m'.Step es' m'') : Trace m (es ++ es') m''

namespace Trace

variable {κ : Type} {m m' m'' : Moment κ} {es es' : List (Event κ)}

theorem single (h : m.Step es m') : Trace m es m' := by
  simpa using (Trace.none m).step h

theorem trans (h : Trace m es m') (h' : Trace m' es' m'') : Trace m (es ++ es') m'' := by
  induction h' with
  | none => simpa using h
  | step _ hstep ih =>
    rw [← List.append_assoc]
    exact ih.step hstep

/-- Calls at one moment are a trace. -/
theorem calls (m : Moment κ) (calls : List (PortCall κ)) :
    Trace m (m.port.eventsOf calls) { m with port := m.port.afterAll calls } := by
  induction calls generalizing m with
  | nil => exact .none m
  | cons call calls ih =>
    exact (single (.call m call)).trans (ih { m with port := m.port.after call })

/-- A callback that is called makes some calls. -/
theorem inside (active : PinSet) (c : PendingCall κ) (rest : List (PendingCall κ))
    (p : InputPort κ) (hcurrent : c.isCurrent p = true) (made : List (PortCall κ)) :
    Trace ⟨p, c :: rest, .none⟩ (.called c active :: p.eventsOf made)
      ⟨p.afterAll made, rest, some c⟩ :=
  (single (.enter p c rest active hcurrent)).trans (.calls ⟨p, rest, some c⟩ made)

end Trace

/-! ## Real cycles are traces -/

namespace InputPort

variable {κ : Type}

/-- The matches of a sample call nobody yet. -/
theorem invocations_matchesFrom (group : Option (Installed κ)) (index : Nat)
    (inputs : List (Input κ)) (levels : List Bool) :
    Event.invocations (matchesFrom group index inputs levels) = [] := by
  induction inputs generalizing index levels with
  | nil => cases levels <;> rfl
  | cons i inputs ih =>
    cases levels with
    | nil => rfl
    | cons level levels =>
      simp only [matchesFrom]
      split
      · exact ih (index + 1) levels
      · exact ih (index + 1) levels

end InputPort

namespace Desk

variable {κ ε : Type}

/-- The part of the world that sees callbacks being called, and sees nothing else. -/
structure Witnesses (log : ε → List (κ × Occasion)) (s : Surroundings ε) (invoke : Invoke κ ε) :
    Prop where
  read : ∀ mcu w, log ((s.read mcu).run w).2 = log w
  pause : ∀ d w, log (s.pause d w) = log w
  note : ∀ n w, log (s.note n w) = log w
  invoke : ∀ action occasion d,
    log (invoke action occasion d).2.around = log d.around ++ [(action, occasion)]

/-- Callbacks do nothing to their port but make calls on it. -/
def Behaved (invoke : Invoke κ ε) : Prop :=
  ∀ action occasion d, ∃ calls, (invoke action occasion d).2.port = d.port.afterAll calls

variable {log : ε → List (κ × Occasion)} {s : Surroundings ε} {invoke : Invoke κ ε}

/-- Reporting a failure changes nothing of the port but its throttle. -/
theorem report_port (s : Surroundings ε) (notice : Nat → Notice) (d : Desk κ ε) :
    ∃ throttle, (report s notice d).port = { d.port with throttle := throttle } := by
  rcases hallow : d.port.throttle.allow (s.now d.around) with ⟨allowed, throttle⟩
  simp only [report, hallow]
  cases allowed <;> exact ⟨_, rfl⟩

/-- Reporting a failure changes the throttle and what has been written to the log. -/
theorem report_cases (h : Witnesses log s invoke) (notice : Nat → Notice) (d : Desk κ ε) :
    (∃ throttle, (report s notice d).port = { d.port with throttle := throttle }) ∧
      log (report s notice d).around = log d.around := by
  refine ⟨report_port s notice d, ?_⟩
  rcases hallow : d.port.throttle.allow (s.now d.around) with ⟨allowed, throttle⟩
  simp only [report, hallow]
  cases allowed
  · rfl
  · exact h.note _ _

/-! ## When a call comes up -/

/-- The calls that callbacks make on their port: by the callback, what it is told, and the desk at
which it is called. -/
abbrev Conduct (κ ε : Type) : Type := κ → Occasion → Desk κ ε → List (PortCall κ)

/-- Callbacks make the calls of their conduct on their port, in this order, and do nothing else to
it. -/
def Follows (conduct : Conduct κ ε) (invoke : Invoke κ ε) : Prop :=
  ∀ action occasion d,
    (invoke action occasion d).2.port = d.port.afterAll (conduct action occasion d)

variable {conduct : Conduct κ ε}

theorem Follows.behaved (h : Follows conduct invoke) : Behaved invoke :=
  fun action occasion d => ⟨conduct action occasion d, h action occasion d⟩

/-- Callbacks that do nothing to their port but make calls have a conduct. -/
theorem Behaved.follows (h : Behaved invoke) : ∃ conduct, Follows conduct invoke := by
  choose conduct hconduct using h
  exact ⟨conduct, hconduct⟩

/-- The events of one call at a desk: its callback is called and makes its own calls, or its edge
goes into the flag. -/
def turnEvents (conduct : Conduct κ ε) (active : PinSet) (c : PendingCall κ) (d : Desk κ ε) :
    List (Event κ) :=
  if c.isCurrent d.port then
    .called c active :: d.port.eventsOf (conduct c.callback.action (c.occasion active) d)
  else [.flagged c]

/-- The events of calls that come up in turn, each at the desk that the ones before it have left. -/
def turnsEvents (s : Surroundings ε) (invoke : Invoke κ ε) (conduct : Conduct κ ε)
    (active : PinSet) : List (PendingCall κ) → Desk κ ε → List (Event κ)
  | [], _ => []
  | c :: calls, d => turnEvents conduct active c d ++
      turnsEvents s invoke conduct active calls (makeCall s invoke active c d).2

/-- Making one call is a trace that takes it off the list. -/
theorem makeCall_trace (hlog : Witnesses log s invoke) (hfollows : Follows conduct invoke)
    (active : PinSet) (c : PendingCall κ) (rest : List (PendingCall κ)) (d : Desk κ ε) :
    Trace ⟨d.port, c :: rest, none⟩ (turnEvents conduct active c d)
        ⟨(makeCall s invoke active c d).2.port, rest, none⟩ ∧
      log (makeCall s invoke active c d).2.around =
        log d.around ++ Event.invocations (turnEvents conduct active c d) := by
  unfold makeCall turnEvents
  by_cases hc : c.isCurrent d.port = true
  · rw [if_pos hc, if_pos hc]
    have hcalls := hfollows c.callback.action (c.occasion active) d
    have hseen := hlog.invoke c.callback.action (c.occasion active) d
    -- what the callback does to the port happens between `enter` and `leave`
    have hinside := Trace.inside active c rest d.port hc
      (conduct c.callback.action (c.occasion active) d)
    have htold : Event.invocations (.called c active ::
        d.port.eventsOf (conduct c.callback.action (c.occasion active) d)) =
          [(c.callback.action, c.occasion active)] :=
      congrArg (_ :: ·) (invocations_eventsOf _ _)
    rw [htold]
    rcases hinv : invoke c.callback.action (c.occasion active) d with ⟨failure, d'⟩
    rw [hinv] at hcalls hseen
    simp only at hcalls hseen ⊢
    have hleave := hinside.step (.leave _ c rest failure.isSome)
    rw [← hcalls, List.append_nil] at hleave
    cases failure with
    | none => exact ⟨hleave, hseen⟩
    | some reason =>
      obtain ⟨⟨throttle, hport⟩, haround⟩ := report_cases hlog
        (fun suppressed => .callbackFailed c.index c.edge reason suppressed)
        { d' with port := d'.port.countCall true }
      simp only [Option.isSome_some] at hleave ⊢
      rw [hport, haround]
      have hreport := hleave.step (.report _ throttle)
      rw [List.append_nil] at hreport
      exact ⟨hreport, hseen⟩
  · rw [if_neg hc, if_neg hc]
    exact ⟨Trace.single (.skip d.port c rest hc), (List.append_nil _).symm⟩

/-- Making all calls of a sample is a trace that empties the list. -/
theorem makeCalls_trace (hlog : Witnesses log s invoke) (hfollows : Follows conduct invoke)
    (active : PinSet) (calls : List (PendingCall κ)) (d : Desk κ ε) :
    Trace ⟨d.port, calls, none⟩ (turnsEvents s invoke conduct active calls d)
        ⟨(makeCalls s invoke active calls d).2.port, [], none⟩ ∧
      log (makeCalls s invoke active calls d).2.around =
        log d.around ++ Event.invocations (turnsEvents s invoke conduct active calls d) := by
  induction calls generalizing d with
  | nil => exact ⟨.none _, (List.append_nil _).symm⟩
  | cons c rest ih =>
    obtain ⟨hfirst, hlog₁⟩ := makeCall_trace hlog hfollows active c rest d
    obtain ⟨hrest, hlog₂⟩ := ih (makeCall s invoke active c d).2
    refine ⟨hfirst.trans hrest, ?_⟩
    rw [turnsEvents, Event.invocations_append, ← List.append_assoc, ← hlog₁]
    exact hlog₂

/-- A session with a port: cycles of the program and of the monitor, in any surroundings and with
any callbacks that make calls on the port at most, calls of the program, and changes of the world
that call no callback. -/
inductive Session (log : ε → List (κ × Occasion)) (d₀ : Desk κ ε) : Desk κ ε → Prop where
  | start : Session log d₀ d₀
  | call {d : Desk κ ε} (h : Session log d₀ d) (call : PortCall κ) :
      Session log d₀ ((onPort call.perform).run d).2
  | poll {d : Desk κ ε} (h : Session log d₀ d) {s : Surroundings ε} {invoke : Invoke κ ε}
      (hlog : Witnesses log s invoke) (hbehaved : Behaved invoke) :
      Session log d₀ ((Desk.poll s invoke).run d).2
  | monitor {d : Desk κ ε} (h : Session log d₀ d) {s : Surroundings ε} {invoke : Invoke κ ε}
      (hlog : Witnesses log s invoke) (hbehaved : Behaved invoke) :
      Session log d₀ ((monitorCycle s invoke).run d).2
  | elsewhere {d : Desk κ ε} (h : Session log d₀ d) (w : ε) (hw : log w = log d.around) :
      Session log d₀ ⟨d.port, w⟩

end Desk

end BoardGpio
