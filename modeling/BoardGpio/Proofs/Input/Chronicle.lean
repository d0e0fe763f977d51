import BoardGpio.Proofs.Input.Sight

/-!
# Runs with their events

What happens to edges in a run is no matter of choice. A cycle matches the differences between the
sample that it accepts and the one that was accepted before, and what becomes of a collected call is
decided by the desk that the calls before it have left (`Desk.cycleEvents`). A flag is taken when
the program takes it, or a callback does. A `Desk.Chronicle` is a run together with the events of
its cycles and calls. Main statements: every cycle is a trace with its own events
(`Desk.poll_trace`), also up to any moment before or inside one of its calls (`Desk.Amid.trace`); so
is every chronicle, whose calls of callbacks are those that the world has seen
(`Desk.Chronicle.trace`); and every session has a chronicle (`Desk.Session.chronicle`).
-/

set_option autoImplicit false

namespace BoardGpio

open InputPort

/-! ## The differences of a sample -/

namespace InputPort

variable {κ : Type}

/-- The match of an input whose level differs between two samples, if its trigger lets the edge
through. -/
def difference? (group : Option (Installed κ)) (j : Nat) :
    Option (Input κ) → Option Bool → Option Bool → Option (Event κ)
  | some i, some last, some new =>
    if last ≠ new ∧ i.trigger.accepts (.toward new) = true then
      some (.matched j (.toward new) (i.target? group))
    else none
  | _, _, _ => none

/-- The differences between two samples that the triggers of the port let through, in ascending
order of the inputs. -/
def differences (p : InputPort κ) (last new : List Bool) : List (Event κ) :=
  (List.range p.size).filterMap fun j => difference? p.group j p.inputs[j]? last[j]? new[j]?

theorem mem_differences {p : InputPort κ} {last new : List Bool} {j : Nat} {i : Input κ}
    {old level : Bool} (hi : p.inputs[j]? = some i) (hlast : last[j]? = some old)
    (hnew : new[j]? = some level) (hchanged : old ≠ level)
    (haccepts : i.trigger.accepts (.toward level) = true) :
    .matched j (.toward level) (i.target? p.group) ∈ p.differences last new := by
  have hj : j < p.size := (List.getElem?_eq_some_iff.mp hi).1
  refine List.mem_filterMap.mpr ⟨j, List.mem_range.mpr hj, ?_⟩
  rw [hi, hlast, hnew, difference?, if_pos ⟨hchanged, haccepts⟩]

theorem difference?_level (group : Option (Installed κ)) (j : Nat) (i : Input κ) (new : Bool) :
    difference? group j (some i) (some i.level) (some new) =
      (i.edgeTo? new).map fun e => .matched j e (i.target? group) := by
  unfold difference? Input.edgeTo?
  by_cases hsame : i.level = new
  · simp [hsame]
  · by_cases haccepts : i.trigger.accepts (.toward new) = true
    · simp [hsame, haccepts]
    · simp [hsame, haccepts]

theorem matchesFrom_eq_filterMap (group : Option (Installed κ)) (first : Nat)
    (inputs : List (Input κ)) (levels : List Bool) :
    matchesFrom group first inputs levels = (List.range inputs.length).filterMap fun j =>
      difference? group (first + j) inputs[j]? (inputs.map Input.level)[j]? levels[j]? := by
  induction inputs generalizing first levels with
  | nil => cases levels <;> rfl
  | cons i inputs ih =>
    cases levels with
    | nil =>
      symm
      apply List.filterMap_eq_nil_iff.mpr
      intro j _
      rw [List.getElem?_nil]
      cases (i :: inputs)[j]? <;> cases ((i :: inputs).map Input.level)[j]? <;> rfl
    | cons level levels =>
      have hrest : ((List.range inputs.length).map Nat.succ).filterMap (fun j =>
          difference? group (first + j) (i :: inputs)[j]? ((i :: inputs).map Input.level)[j]?
            (level :: levels)[j]?) = matchesFrom group (first + 1) inputs levels := by
        rw [List.filterMap_map, ih (first + 1) levels]
        apply List.filterMap_congr
        intro j _
        simp only [Function.comp_apply, List.map_cons, List.getElem?_cons_succ,
          Nat.succ_eq_add_one]
        rw [show first + (j + 1) = first + 1 + j by omega]
      rw [List.length_cons, List.range_succ_eq_map, List.filterMap_cons, hrest, matchesFrom]
      simp only [List.map_cons, List.getElem?_cons_zero, Nat.add_zero, difference?_level]
      cases i.edgeTo? level <;> rfl

/-- The matches of a sample are its differences from the last one. -/
theorem matchesOf_eq_differences (p : InputPort κ) (new : List Bool) :
    p.matchesOf new = p.differences p.levels new := by
  rw [matchesOf, matchesFrom_eq_filterMap, differences]
  simp only [Nat.zero_add]
  rfl

/-- Differences call nobody yet. -/
theorem invocations_differences (p : InputPort κ) (new : List Bool) :
    Event.invocations (p.differences p.levels new) = [] := by
  rw [← matchesOf_eq_differences]
  exact invocations_matchesFrom p.group 0 p.inputs new

/-- Accepting a sample is a trace whose events are its differences from the last one. -/
theorem accept_trace (p : InputPort κ) {levels : List Bool} (hsize : levels.length = p.size) :
    Trace ⟨p, [], none⟩ (p.differences p.levels levels)
      ⟨p.countSample.accept levels, p.calls levels, none⟩ := by
  rw [← matchesOf_eq_differences]
  exact (Trace.single (.sample p)).trans (.single (.accept p.countSample levels hsize))

end InputPort

namespace Desk

variable {κ ε : Type} {log : ε → List (κ × Occasion)} {s : Surroundings ε} {invoke : Invoke κ ε}
  {conduct : Conduct κ ε}

/-! ## One cycle -/

/-- The events of a cycle that has seen `x` and has found the world `w` after its samples: the
differences of the sample that it accepts, and then what becomes of the collected calls. -/
def cycleEvents (s : Surroundings ε) (invoke : Invoke κ ε) (conduct : Conduct κ ε) (d : Desk κ ε)
    (x : Sight) (w : ε) : List (Event κ) :=
  match x.accepted? with
  | none => []
  | some levels =>
    match PinSet.ofLevels? levels with
    | .error _ => []
    | .ok active => d.port.differences d.port.levels levels ++
        turnsEvents s invoke conduct active (d.port.calls levels)
          ⟨d.port.countSample.accept levels, w⟩

theorem cycleEvents_accepted (s : Surroundings ε) (invoke : Invoke κ ε) (conduct : Conduct κ ε)
    (d : Desk κ ε) {x : Sight} (w : ε) {levels : List Bool} {active : PinSet}
    (hx : x.accepted? = some levels) (hactive : PinSet.ofLevels? levels = .ok active) :
    cycleEvents s invoke conduct d x w = d.port.differences d.port.levels levels ++
      turnsEvents s invoke conduct active (d.port.calls levels)
        ⟨d.port.countSample.accept levels, w⟩ := by
  simp only [cycleEvents, hx, hactive]

/-- A moment while calls come up in turn, and the events until then: before a call, or inside a
callback that has made some of its own calls. -/
inductive Calling (s : Surroundings ε) (invoke : Invoke κ ε) (conduct : Conduct κ ε)
    (active : PinSet) : List (PendingCall κ) → Desk κ ε → List (Event κ) → Moment κ → Prop where
  | before (calls : List (PendingCall κ)) (d : Desk κ ε) :
      Calling s invoke conduct active calls d [] ⟨d.port, calls, none⟩
  | inside (c : PendingCall κ) (rest : List (PendingCall κ)) (d : Desk κ ε)
      (hcurrent : c.isCurrent d.port = true) (made later : List (PortCall κ))
      (hmade : conduct c.callback.action (c.occasion active) d = made ++ later) :
      Calling s invoke conduct active (c :: rest) d (.called c active :: d.port.eventsOf made)
        ⟨d.port.afterAll made, rest, some c⟩
  | next (c : PendingCall κ) (rest : List (PendingCall κ)) (d : Desk κ ε) {es : List (Event κ)}
      {m : Moment κ}
      (h : Calling s invoke conduct active rest (makeCall s invoke active c d).2 es m) :
      Calling s invoke conduct active (c :: rest) d (turnEvents conduct active c d ++ es) m

/-- A moment of a cycle that has accepted its sample, and the events of the cycle until then. -/
inductive Amid (s : Surroundings ε) (invoke : Invoke κ ε) (conduct : Conduct κ ε) (d : Desk κ ε) :
    Sight → ε → List (Event κ) → Moment κ → Prop where
  | turn {x : Sight} {w : ε} {levels : List Bool} {active : PinSet} {es : List (Event κ)}
      {m : Moment κ} (hx : x.accepted? = some levels)
      (hactive : PinSet.ofLevels? levels = .ok active)
      (hcalling : Calling s invoke conduct active (d.port.calls levels)
        ⟨d.port.countSample.accept levels, w⟩ es m) :
      Amid s invoke conduct d x w (d.port.differences d.port.levels levels ++ es) m

theorem Calling.trace (hlog : Witnesses log s invoke) (hfollows : Follows conduct invoke)
    {active : PinSet} {calls : List (PendingCall κ)} {d : Desk κ ε} {es : List (Event κ)}
    {m : Moment κ} (h : Calling s invoke conduct active calls d es m) :
    Trace ⟨d.port, calls, none⟩ es m := by
  induction h with
  | before calls d => exact .none _
  | inside c rest d hcurrent made later hmade => exact .inside active c rest d.port hcurrent made
  | next c rest d _ ih => exact (makeCall_trace hlog hfollows active c rest d).1.trans ih

/-- Up to any moment of it a cycle is a trace with its own events. -/
theorem Amid.trace (hlog : Witnesses log s invoke) (hfollows : Follows conduct invoke)
    {d : Desk κ ε} {x : Sight} {w : ε} (hsees : Sees s d.port d.around x w)
    {es : List (Event κ)} {m : Moment κ} (h : Amid s invoke conduct d x w es m) :
    Trace ⟨d.port, [], none⟩ es m := by
  cases h with
  | turn hx hactive hcalling =>
    exact (accept_trace d.port (hsees.accepted hx).1).trans (hcalling.trace hlog hfollows)

/-- A cycle is a trace with its own events, and the callbacks that it calls are those of its events.
-/
theorem poll_trace (hlog : Witnesses log s invoke) (hfollows : Follows conduct invoke)
    {d : Desk κ ε} {x : Sight} {w : ε} (hsees : Sees s d.port d.around x w) :
    Trace ⟨d.port, [], none⟩ (cycleEvents s invoke conduct d x w)
        ⟨((poll s invoke).run d).2.port, [], none⟩ ∧
      log ((poll s invoke).run d).2.around =
        log d.around ++ Event.invocations (cycleEvents s invoke conduct d x w) := by
  have hseen : log w = log d.around ++ [] := by
    rw [List.append_nil]
    exact hsees.unseen hlog
  have hsample : Trace ⟨d.port, [], none⟩ [] ⟨d.port.countSample, [], none⟩ :=
    .single (.sample d.port)
  cases hx : x.accepted? with
  | none =>
    have hnothing : cycleEvents s invoke conduct d x w = [] := by rw [cycleEvents, hx]
    rw [hnothing, show d = ⟨d.port, d.around⟩ from rfl, run_poll_sees invoke hsees]
    cases x with
    | failed e taken =>
      cases taken
      · exact ⟨.none _, hseen⟩
      · exact ⟨hsample, hseen⟩
    | same => exact ⟨hsample, hseen⟩
    | bounced first again => exact ⟨hsample, hseen⟩
    | once levels => cases hx
    | twice levels => cases hx
  | some levels =>
    have hrun : (poll s invoke).run d = (settle s invoke levels).run ⟨d.port.countSample, w⟩ :=
      run_poll_accepts invoke hsees hx
    rw [hrun, run_settle]
    cases hactive : PinSet.ofLevels? levels with
    | error e =>
      have hnothing : cycleEvents s invoke conduct d x w = [] := by
        simp only [cycleEvents, hx, hactive]
      rw [hnothing]
      exact ⟨hsample, hseen⟩
    | ok active =>
      obtain ⟨hcalls, htold⟩ := makeCalls_trace hlog hfollows active (d.port.calls levels)
        ⟨d.port.countSample.accept levels, w⟩
      rw [cycleEvents_accepted s invoke conduct d w hx hactive]
      refine ⟨(accept_trace d.port (hsees.accepted hx).1).trans hcalls, ?_⟩
      rw [Event.invocations_append, invocations_differences, List.nil_append, ← hsees.unseen hlog]
      exact htold

/-- Reporting a failed sample calls no callback. -/
theorem around_monitorCycle (hlog : Witnesses log s invoke) (d : Desk κ ε) :
    log ((monitorCycle s invoke).run d).2.around = log ((poll s invoke).run d).2.around := by
  rw [monitorCycle, Act.run_bind, Act.run_attempt]
  rcases (poll s invoke).run d with ⟨(e | f) | made, d'⟩
  · exact (report_cases hlog (fun suppressed => .samplingFailed e suppressed) d').2
  · rfl
  · rfl

theorem monitorCycle_trace (hlog : Witnesses log s invoke) (hfollows : Follows conduct invoke)
    {d : Desk κ ε} {x : Sight} {w : ε} (hsees : Sees s d.port d.around x w) :
    Trace ⟨d.port, [], none⟩ (cycleEvents s invoke conduct d x w)
        ⟨((monitorCycle s invoke).run d).2.port, [], none⟩ ∧
      log ((monitorCycle s invoke).run d).2.around =
        log d.around ++ Event.invocations (cycleEvents s invoke conduct d x w) := by
  obtain ⟨htrace, hseen⟩ := poll_trace hlog hfollows hsees
  obtain ⟨throttle, hport⟩ := port_monitorCycle s invoke d
  rw [hport, around_monitorCycle hlog]
  have hreport := htrace.step (.report _ throttle)
  rw [List.append_nil] at hreport
  exact ⟨hreport, hseen⟩

/-! ## Runs -/

/-- A session with a port and its events. The events of a cycle are those of its samples and of the
calls that its callbacks make on the port; a call of the program is an event if it takes an edge. -/
inductive Chronicle (log : ε → List (κ × Occasion)) (d₀ : Desk κ ε) :
    List (Event κ) → Desk κ ε → Prop where
  | start : Chronicle log d₀ [] d₀
  | elsewhere {es : List (Event κ)} {d : Desk κ ε} (h : Chronicle log d₀ es d) (w : ε)
      (hw : log w = log d.around) : Chronicle log d₀ es ⟨d.port, w⟩
  | call {es : List (Event κ)} {d : Desk κ ε} (h : Chronicle log d₀ es d) (call : PortCall κ) :
      Chronicle log d₀ (es ++ call.events d.port) ((onPort call.perform).run d).2
  | poll {es : List (Event κ)} {d : Desk κ ε} (h : Chronicle log d₀ es d) {s : Surroundings ε}
      {invoke : Invoke κ ε} {conduct : Conduct κ ε} (hlog : Witnesses log s invoke)
      (hfollows : Follows conduct invoke) {x : Sight} {w : ε}
      (hsees : Sees s d.port d.around x w) :
      Chronicle log d₀ (es ++ cycleEvents s invoke conduct d x w) ((Desk.poll s invoke).run d).2
  | monitor {es : List (Event κ)} {d : Desk κ ε} (h : Chronicle log d₀ es d) {s : Surroundings ε}
      {invoke : Invoke κ ε} {conduct : Conduct κ ε} (hlog : Witnesses log s invoke)
      (hfollows : Follows conduct invoke) {x : Sight} {w : ε}
      (hsees : Sees s d.port d.around x w) :
      Chronicle log d₀ (es ++ cycleEvents s invoke conduct d x w) ((monitorCycle s invoke).run d).2

variable {d₀ d : Desk κ ε} {es : List (Event κ)}

/-- A chronicle is a trace with its events, and the callbacks called in it are those of its events.
-/
theorem Chronicle.trace (h : Chronicle log d₀ es d) :
    Trace ⟨d₀.port, [], none⟩ es ⟨d.port, [], none⟩ ∧
      log d.around = log d₀.around ++ Event.invocations es := by
  induction h with
  | start => exact ⟨.none _, (List.append_nil _).symm⟩
  | elsewhere _ w hw ih => exact ⟨ih.1, hw.trans ih.2⟩
  | call _ call ih =>
    obtain ⟨htrace, hseen⟩ := ih
    refine ⟨htrace.step (.call _ call), ?_⟩
    rw [Event.invocations_append, call.invocations_events, List.append_nil]
    exact hseen
  | poll _ hlog hfollows hsees ih =>
    obtain ⟨htrace, hseen⟩ := ih
    obtain ⟨hcycle, htold⟩ := poll_trace hlog hfollows hsees
    refine ⟨htrace.trans hcycle, ?_⟩
    rw [htold, hseen, Event.invocations_append, List.append_assoc]
  | monitor _ hlog hfollows hsees ih =>
    obtain ⟨htrace, hseen⟩ := ih
    obtain ⟨hcycle, htold⟩ := monitorCycle_trace hlog hfollows hsees
    refine ⟨htrace.trans hcycle, ?_⟩
    rw [htold, hseen, Event.invocations_append, List.append_assoc]

/-- Every session has a chronicle, since every cycle sees something and callbacks that make calls at
most have a conduct. -/
theorem Session.chronicle (h : Session log d₀ d) : ∃ es, Chronicle log d₀ es d := by
  induction h with
  | start => exact ⟨[], .start⟩
  | elsewhere _ w hw ih =>
    obtain ⟨es, hrun⟩ := ih
    exact ⟨es, hrun.elsewhere w hw⟩
  | call _ call ih =>
    obtain ⟨es, hrun⟩ := ih
    exact ⟨_, hrun.call call⟩
  | @poll d _ s _ hlog hbehaved ih =>
    obtain ⟨es, hrun⟩ := ih
    obtain ⟨conduct, hfollows⟩ := hbehaved.follows
    obtain ⟨x, w, hsees⟩ := Sees.exists s d.port d.around
    exact ⟨_, hrun.poll hlog hfollows hsees⟩
  | @monitor d _ s _ hlog hbehaved ih =>
    obtain ⟨es, hrun⟩ := ih
    obtain ⟨conduct, hfollows⟩ := hbehaved.follows
    obtain ⟨x, w, hsees⟩ := Sees.exists s d.port d.around
    exact ⟨_, hrun.monitor hlog hfollows hsees⟩

/-- A run with what its cycles have seen has a chronicle as well. -/
theorem Viewing.chronicle {xs : List Sight} (h : Viewing log Behaved d₀ xs d) :
    ∃ es, Chronicle log d₀ es d :=
  (h.session fun _ hbehaved => hbehaved).chronicle

end Desk

end BoardGpio
