import BoardGpio.Proofs.Act.Match
import BoardGpio.Proofs.Input.Attended

/-!
# Ports that agree but for their failures

Two ports agree if they differ at most in the number of failed callbacks and in the throttle of the
reports about them (`InputPort.Agree`). No call on a port, and no part of a cycle, goes by these two,
so a cycle takes every step alike on desks whose ports agree and in whose worlds the same levels are
read (`Desk.Twin`, `Desk.Twin.poll`), also if a callback fails on one of the desks and not on the
other.
-/

set_option autoImplicit false

namespace BoardGpio

open InputPort

variable {κ ε ε' : Type}

namespace InputPort

/-- The ports differ at most in the number of failures and in the throttle of their reports. -/
structure Agree (p q : InputPort κ) : Prop where
  inputs : p.inputs = q.inputs
  settings : p.settings = q.settings
  group : p.group = q.group
  monitoring : p.monitoring = q.monitoring
  installs : p.installs = q.installs
  samples : p.stats.samples = q.stats.samples
  edges : p.stats.edges = q.stats.edges
  callbacks : p.stats.callbacks = q.stats.callbacks

theorem Agree.refl (p : InputPort κ) : Agree p p := ⟨rfl, rfl, rfl, rfl, rfl, rfl, rfl, rfl⟩

theorem Agree.setInputs {p q : InputPort κ} (h : Agree p q) (f : List (Input κ) → List (Input κ)) :
    Agree { p with inputs := f p.inputs } { q with inputs := f q.inputs } :=
  { h with inputs := congrArg f h.inputs }

theorem Agree.setGroup {p q : InputPort κ} (h : Agree p q) (group : Option (Installed κ)) :
    Agree { p with group := group } { q with group := group } :=
  { h with group := rfl }

theorem Agree.synced {p q : InputPort κ} (h : Agree p q) : Agree p.synced q.synced := by
  refine { h with monitoring := ?_ }
  rw [monitoring_synced, monitoring_synced, hasCallbacks, hasCallbacks, h.group, h.inputs]

theorem matches_input (index : Nat) :
    Act.Matches Agree (input index : Act (InputPort κ) (Input κ)) (input index) := by
  intro p q h
  unfold Act.MatchesAt
  rw [run_input, run_input, size, size, h.inputs]
  cases q.inputs[index]? <;> exact ⟨rfl, h⟩

theorem matches_change (index : Nat) (f : Input κ → Input κ) :
    Act.Matches Agree (change index f) (change index f) :=
  (matches_input index).bind fun _ =>
    Act.Matches.modify fun _ _ h => h.setInputs fun inputs => inputs.modify index f

theorem matches_number (action : κ) : Act.Matches Agree (number action) (number action) := by
  intro p q h
  refine ⟨?_, { h with installs := congrArg (· + 1) h.installs }⟩
  show Except.ok (⟨p.installs, action⟩ : Installed κ) = Except.ok ⟨q.installs, action⟩
  rw [h.installs]

theorem matches_place (call : CallbackCall κ) :
    Act.Matches Agree call.place call.place := by
  cases call with
  | install index action =>
    exact (matches_input index).bind fun _ => (matches_number action).bind fun callback =>
      matches_change index _
  | uninstall index => exact matches_change index _
  | installGroup action =>
    exact (matches_number action).bind fun callback =>
      Act.Matches.modify fun _ _ h => h.setGroup (some callback)
  | uninstallGroup => exact Act.Matches.modify fun _ _ h => h.setGroup none

theorem matches_call (call : PortCall κ) : Act.Matches Agree call.perform call.perform := by
  cases call with
  | setEdge index trigger => exact (matches_change index _).bind fun _ => Act.Matches.pure none
  | takeEdge index =>
    exact (matches_input index).bind fun i => (matches_change index _).bind fun _ =>
      Act.Matches.pure i.occurred
  | callback call =>
    exact ((matches_place call).bind fun _ => Act.Matches.modify fun _ _ h => h.synced).bind
      fun _ => Act.Matches.pure none

theorem Agree.afterAll {p q : InputPort κ} (h : Agree p q) (calls : List (PortCall κ)) :
    Agree (p.afterAll calls) (q.afterAll calls) := by
  induction calls generalizing p q with
  | nil => exact h
  | cons call calls ih => exact ih (matches_call call p q h).2

theorem Agree.countSample {p q : InputPort κ} (h : Agree p q) :
    Agree p.countSample q.countSample :=
  { h with samples := congrArg (· + 1) h.samples }

theorem Agree.accept {p q : InputPort κ} (h : Agree p q) (levels : List Bool) :
    Agree (p.accept levels) (q.accept levels) := by
  refine { h with inputs := ?_, edges := ?_ }
  · show List.zipWith _ p.inputs levels = List.zipWith _ q.inputs levels
    rw [h.inputs, h.group]
  · show p.stats.edges + p.matched levels = q.stats.edges + q.matched levels
    rw [h.edges, matched, matched, h.inputs]

theorem Agree.flag {p q : InputPort κ} (h : Agree p q) (index : Nat) (e : Edge) :
    Agree (p.flag index e) (q.flag index e) :=
  h.setInputs fun inputs => inputs.modify index fun i => { i with occurred := some e }

theorem Agree.countCall {p q : InputPort κ} (h : Agree p q) (failed failed' : Bool) :
    Agree (p.countCall failed) (q.countCall failed') :=
  { h with callbacks := congrArg (· + 1) h.callbacks }

theorem Agree.calls {p q : InputPort κ} (h : Agree p q) (levels : List Bool) :
    p.calls levels = q.calls levels := by
  rw [InputPort.calls, InputPort.calls, h.inputs, h.group]

theorem Agree.isCurrent {p q : InputPort κ} (h : Agree p q) (c : PendingCall κ) :
    c.isCurrent p = c.isCurrent q := by
  rw [PendingCall.isCurrent, PendingCall.isCurrent, h.inputs, h.group]

end InputPort

/-! ## Cycles in step -/

namespace Desk

variable {s : Surroundings ε} {s' : Surroundings ε'} {invoke : Invoke κ ε} {invoke' : Invoke κ ε'}
  {Q : Desk κ ε → Desk κ ε' → Prop}

/-- The desk after a callback has been called and the call counted, and whether it failed. -/
def invoked (invoke : Invoke κ ε) (action : κ) (occasion : Occasion) (d : Desk κ ε) :
    Option String × Desk κ ε :=
  let (failure, d) := invoke action occasion d
  (failure, { d with port := d.port.countCall failure.isSome })

/-- A relation of desks whose ports agree, and which every part of a cycle keeps. What one of the
desks reports does not matter to it. -/
structure Twin (Q : Desk κ ε → Desk κ ε' → Prop) (s : Surroundings ε) (s' : Surroundings ε')
    (invoke : Invoke κ ε) (invoke' : Invoke κ ε') : Prop where
  agree : ∀ {d d'}, Q d d' → Agree d.port d'.port
  read : ∀ mcu, Act.Matches Q (onWorld (s.read mcu)) (onWorld (s'.read mcu))
  pause : ∀ delay {d d'}, Q d d' →
    Q { d with around := s.pause delay d.around } { d' with around := s'.pause delay d'.around }
  countSample : ∀ {d d'}, Q d d' →
    Q { d with port := d.port.countSample } { d' with port := d'.port.countSample }
  accept : ∀ levels {d d'}, Q d d' →
    Q { d with port := d.port.accept levels } { d' with port := d'.port.accept levels }
  flag : ∀ index e {d d'}, Q d d' →
    Q { d with port := d.port.flag index e } { d' with port := d'.port.flag index e }
  invoked : ∀ action occasion {d d'}, Q d d' →
    Q (invoked invoke action occasion d).2 (invoked invoke' action occasion d').2
  report : ∀ notice {d d'}, Q d d' → Q (report s notice d) d'
  report' : ∀ notice {d d'}, Q d d' → Q d (Desk.report s' notice d')

/-- Making a call: it ends with the report of the failure, if there was one. -/
theorem makeCall_eq (s : Surroundings ε) (invoke : Invoke κ ε) (active : PinSet)
    (c : PendingCall κ) (d : Desk κ ε) :
    makeCall s invoke active c d =
      if c.isCurrent d.port then
        (true, (invoked invoke c.callback.action (c.occasion active) d).1.elim
          (invoked invoke c.callback.action (c.occasion active) d).2 fun reason =>
            report s (fun suppressed => .callbackFailed c.index c.edge reason suppressed)
              (invoked invoke c.callback.action (c.occasion active) d).2)
      else (false, { d with port := d.port.flag c.index c.edge }) := by
  unfold makeCall invoked
  split
  · rcases invoke c.callback.action (c.occasion active) d with ⟨_ | reason, d'⟩ <;> rfl
  · rfl

theorem Twin.sample (h : Twin Q s s' invoke invoke') :
    Act.Matches Q (sample s) (Desk.sample s') := by
  have hinputs : Act.Matches Q (Act.gets fun d : Desk κ ε => d.port.inputs)
      (Act.gets fun d : Desk κ ε' => d.port.inputs) :=
    Act.Matches.gets fun d d' hd => (h.agree hd).inputs
  refine hinputs.bind fun inputs => ?_
  exact Act.Matches.collect (fun i => (h.read i.mcu).bind fun high => Act.Matches.pure _) inputs

/-- A call is made on both desks or on neither, and a failure on one of them does not part them. -/
theorem Twin.makeCall (h : Twin Q s s' invoke invoke') (active : PinSet) (c : PendingCall κ)
    {d : Desk κ ε} {d' : Desk κ ε'} (hd : Q d d') :
    (makeCall s invoke active c d).1 = (Desk.makeCall s' invoke' active c d').1 ∧
      Q (Desk.makeCall s invoke active c d).2 (Desk.makeCall s' invoke' active c d').2 := by
  rw [makeCall_eq, makeCall_eq, (h.agree hd).isCurrent c]
  split
  · have hinvoked := h.invoked c.callback.action (c.occasion active) hd
    generalize Desk.invoked invoke c.callback.action (c.occasion active) d = r at hinvoked ⊢
    generalize Desk.invoked invoke' c.callback.action (c.occasion active) d' = r' at hinvoked ⊢
    refine ⟨rfl, ?_⟩
    rcases r with ⟨_ | reason, e⟩ <;> rcases r' with ⟨_ | reason', e'⟩
    · exact hinvoked
    · exact h.report' _ hinvoked
    · exact h.report _ hinvoked
    · exact h.report _ (h.report' _ hinvoked)
  · exact ⟨rfl, h.flag c.index c.edge hd⟩

theorem Twin.makeCalls (h : Twin Q s s' invoke invoke') (active : PinSet)
    (calls : List (PendingCall κ)) {d : Desk κ ε} {d' : Desk κ ε'} (hd : Q d d') :
    (makeCalls s invoke active calls d).1 = (Desk.makeCalls s' invoke' active calls d').1 ∧
      Q (Desk.makeCalls s invoke active calls d).2
        (Desk.makeCalls s' invoke' active calls d').2 := by
  induction calls generalizing d d' with
  | nil => exact ⟨rfl, hd⟩
  | cons c calls ih =>
    obtain ⟨hmade, hnext⟩ := h.makeCall active c hd
    obtain ⟨hrest, hlast⟩ := ih hnext
    refine ⟨?_, hlast⟩
    rw [fst_makeCalls_cons, fst_makeCalls_cons, hmade, hrest]

theorem Twin.settle (h : Twin Q s s' invoke invoke') (levels : List Bool) :
    Act.Matches Q (settle s invoke levels) (Desk.settle s' invoke' levels) := by
  refine (Act.Matches.lift _).bind fun active => ?_
  have hcalls : Act.Matches Q (Act.gets fun d : Desk κ ε => d.port.calls levels)
      (Act.gets fun d : Desk κ ε' => d.port.calls levels) :=
    Act.Matches.gets fun d d' hd => (h.agree hd).calls levels
  refine hcalls.bind fun calls => ?_
  refine (Act.Matches.modify fun d d' hd => h.accept levels hd).bind fun _ d d' hd => ?_
  obtain ⟨hmade, hlast⟩ := h.makeCalls active calls hd
  exact ⟨congrArg Except.ok hmade, hlast⟩

theorem Twin.confirm (h : Twin Q s s' invoke invoke') (delay : Duration) (levels : List Bool) :
    Act.Matches Q (confirm s invoke delay levels) (Desk.confirm s' invoke' delay levels) := by
  refine (Act.Matches.modify fun d d' hd => h.pause delay hd).bind fun _ => ?_
  refine h.sample.bind fun again => ?_
  split
  · exact h.settle again
  · exact Act.Matches.pure []

/-- Cycles on twin desks have the same result and leave twin desks. -/
theorem Twin.poll (h : Twin Q s s' invoke invoke') :
    Act.Matches Q (poll s invoke) (Desk.poll s' invoke') := by
  refine h.sample.bind fun levels => ?_
  refine (Act.Matches.modify fun d d' hd => h.countSample hd).bind fun _ d d' hd => ?_
  -- the ports are not the same, but what the cycle goes by is
  have hagree := h.agree hd
  unfold Act.MatchesAt
  rw [Act.run_bind_ok _ (Act.run_gets _ d), Act.run_bind_ok _ (Act.run_gets _ d'),
    InputPort.levels, InputPort.levels, hagree.inputs, hagree.settings]
  split
  · exact ⟨rfl, hd⟩
  · split
    · exact h.settle levels d d' hd
    · exact h.confirm _ levels d d' hd

theorem Twin.monitorCycle (h : Twin Q s s' invoke invoke') :
    Act.Matches Q (monitorCycle s invoke) (Desk.monitorCycle s' invoke') := by
  refine h.poll.attempt.bind fun outcome => ?_
  cases outcome with
  | ok made => exact Act.Matches.pure ()
  | error e => exact Act.Matches.modify fun d d' hd => h.report _ (h.report' _ hd)

theorem Twin.readAll (h : Twin Q s s' invoke invoke') :
    Act.Matches Q (readAll s) (Desk.readAll s') :=
  h.sample.bind fun _ => Act.Matches.lift _

theorem Twin.readOne (h : Twin Q s s' invoke invoke') (index : Nat) :
    Act.Matches Q (Desk.read s index) (Desk.read s' index) := by
  refine Act.Matches.bind (fun d d' hd => ?_) fun i =>
    (h.read i.mcu).bind fun high => Act.Matches.pure _
  have hinput : ∀ {δ : Type} (e : Desk κ δ), (onPort (input index)).run e =
      (((input index).run e.port).1, e) := by
    intro δ e
    rw [onPort, Act.run_within, run_input]
    cases e.port.inputs[index]? <;> rfl
  unfold Act.MatchesAt
  rw [hinput, hinput]
  exact ⟨(matches_input index _ _ (h.agree hd)).1, hd⟩

end Desk

end BoardGpio
