import BoardGpio.Proofs.Input.Stream
import BoardGpio.Proofs.PinSet

/-!
# What a switch is told

A switch is a group callback on a port all of whose inputs react to both edges. As long as nobody
changes a trigger or a callback, every cycle makes one call for each input whose accepted level
changed, in ascending order: the input's own callback is called, or else the switch, which is told
the set of the inputs that are active in the accepted sample (`Steady.poll`). Main statement: so it
is in every cycle of every run, and two sets told one after the other differ in exactly the inputs
that were called for (`switch_delivers`).
-/

set_option autoImplicit false

namespace BoardGpio

open InputPort

/-! ## The sets of two samples -/

namespace PinSet

/-- The set of a sample has the inputs that are active in it. -/
theorem contains_ofLevels? {levels : List Bool} {s : PinSet} (h : ofLevels? levels = .ok s)
    (j : Nat) : s.contains j = true ↔ levels[j]? = some true := by
  rw [contains_insertAll? h, List.mem_filter, List.mem_range]
  simp only [contains_empty, List.getD_eq_getElem?_getD]
  cases hlevel : levels[j]? with
  | none => simp
  | some level =>
    have hj : j < levels.length := (List.getElem?_eq_some_iff.mp hlevel).1
    simp [hj]

end PinSet

/-- The inputs whose levels differ between two samples, in ascending order. -/
def changed (last new : List Bool) : List Nat :=
  (List.range new.length).filter fun j => last[j]? != new[j]?

theorem mem_changed {last new : List Bool} {j : Nat} :
    j ∈ changed last new ↔ j < new.length ∧ last[j]? ≠ new[j]? := by
  simp [changed]

@[simp] theorem changed_self (levels : List Bool) : changed levels levels = [] := by
  simp [changed]

/-- The sets of two samples differ in the inputs whose levels do. -/
theorem contains_symmDiff_ofLevels {last new : List Bool} {before active : PinSet}
    (hbefore : PinSet.ofLevels? last = .ok before) (hactive : PinSet.ofLevels? new = .ok active)
    (hlength : last.length = new.length) (j : Nat) :
    (before.symmDiff active).contains j = true ↔ j ∈ changed last new := by
  have hb := PinSet.contains_ofLevels? hbefore j
  have ha := PinSet.contains_ofLevels? hactive j
  rw [PinSet.contains_symmDiff, mem_changed]
  by_cases hj : j < new.length
  · have hj' : j < last.length := by omega
    rw [List.getElem?_eq_getElem hj', Option.some.injEq] at hb
    rw [List.getElem?_eq_getElem hj, Option.some.injEq] at ha
    rw [List.getElem?_eq_getElem hj, List.getElem?_eq_getElem hj', Bool.eq_iff_iff.mpr hb,
      Bool.eq_iff_iff.mpr ha]
    simp [hj]
  · have hlast : last[j]? = none := List.getElem?_eq_none (by omega)
    have hnew : new[j]? = none := List.getElem?_eq_none (by omega)
    rw [hlast] at hb
    rw [hnew] at ha
    have hout : before.contains j = false := Bool.eq_false_iff.mpr (mt hb.mp (by simp))
    have hout' : active.contains j = false := Bool.eq_false_iff.mpr (mt ha.mp (by simp))
    simp [hj, hout, hout']

/-! ## Ports with a switch -/

namespace InputPort

variable {κ : Type}

/-- The callback of an input's own. -/
def own? (p : InputPort κ) (j : Nat) : Option (Installed κ) :=
  p.inputs[j]?.bind Input.callback

/-- A port with a switch, all of whose inputs react to both edges. -/
structure OnSwitch (p : InputPort κ) (switch : Installed κ) : Prop where
  group : p.group = some switch
  both : ∀ i ∈ p.inputs, i.trigger = .both
  size : p.size ≤ PinSet.capacity

/-- The call for an input whose level changed: its own callback is told, or else the switch. -/
def callFor (p : InputPort κ) (switch : Installed κ) (new : List Bool) (j : Nat) :
    PendingCall κ where
  index := j
  edge := .toward (new.getD j false)
  target := (p.own? j).elim (.group switch) .own

theorem run_installSwitch (p : InputPort κ) (action : κ) :
    (installSwitch action).run p = (.ok (), synced
      { p with
        inputs := p.inputs.map fun i => { i with trigger := .both }
        group := some ⟨p.installs, action⟩
        installs := p.installs + 1 }) := rfl

/-- A switch that was installed is on its port, whose inputs keep their own callbacks. -/
theorem onSwitch_install {p q : InputPort κ} {action : κ} (hsize : p.size ≤ PinSet.capacity)
    (hinstall : (installSwitch action).run p = (.ok (), q)) :
    q.OnSwitch ⟨p.installs, action⟩ ∧ q.levels = p.levels ∧ ∀ j, q.own? j = p.own? j := by
  rw [run_installSwitch] at hinstall
  cases hinstall
  refine ⟨⟨rfl, ?_, ?_⟩, ?_, ?_⟩
  · intro i hi
    obtain ⟨i', -, rfl⟩ := List.mem_map.mp hi
    rfl
  · rw [size, synced, List.length_map]
    exact hsize
  · simp [levels, synced, Function.comp_def]
  · intro j
    simp only [own?, synced, List.getElem?_map]
    cases p.inputs[j]? <;> rfl

end InputPort

/-- Whether a callback is called for a group. -/
def Occasion.isGroup : Occasion → Bool
  | .single _ => false
  | .group _ _ _ => true

/-- What a cycle leaves alone of an input. -/
def Input.fixed {κ : Type} (i : Input κ) : InputPin × Nat × Trigger × Option (Installed κ) :=
  (i.pin, i.mcu, i.trigger, i.callback)

namespace InputPort

variable {κ : Type}

/-- The port `p` is `q` but for its flags and counters and for its levels, which are those of the
last accepted sample. -/
structure Steady (q : InputPort κ) (last : List Bool) (p : InputPort κ) : Prop where
  group : p.group = q.group
  inputs : p.inputs.map Input.fixed = q.inputs.map Input.fixed
  levels : p.levels = last

variable {q p : InputPort κ} {switch : Installed κ} {last new : List Bool}

theorem Steady.refl (q : InputPort κ) : Steady q q.levels q := ⟨rfl, rfl, rfl⟩

theorem Steady.size (h : Steady q last p) : p.size = q.size := by
  have hlength := congrArg List.length h.inputs
  rw [List.length_map, List.length_map] at hlength
  exact hlength

theorem Steady.length (h : Steady q last p) : last.length = q.size := by
  rw [← h.levels, InputPort.levels, List.length_map]
  exact h.size

theorem Steady.fixed (h : Steady q last p) (j : Nat) :
    p.inputs[j]?.map Input.fixed = q.inputs[j]?.map Input.fixed := by
  have hj := congrArg (fun fixed => fixed[j]?) h.inputs
  simp only [List.getElem?_map] at hj
  exact hj

theorem Steady.chipPins (h : Steady q last p) : p.chipPins = q.chipPins := by
  have hmcus := congrArg (List.map fun fixed => fixed.2.1) h.inputs
  rw [List.map_map, List.map_map] at hmcus
  exact hmcus

theorem Steady.view (h : Steady q last p) (raws : List Bool) : p.view raws = q.view raws := by
  have hview : ∀ r : InputPort κ, r.view raws =
      List.zipWith (fun fixed high => fixed.1.active.normalize high) (r.inputs.map Input.fixed)
        raws := by
    intro r
    rw [List.zipWith_map_left]
    rfl
  rw [hview, hview, h.inputs]

/-! ## What leaves a port steady -/

theorem Steady.count (h : Steady q last p) (stats : Stats) (throttle : Throttle) :
    Steady q last { p with stats := stats, throttle := throttle } :=
  ⟨h.group, h.inputs, h.levels⟩

theorem Steady.takeEdge (h : Steady q last p) (j : Nat) :
    Steady q last (p.after (.takeEdge j)) := by
  rw [after_takeEdge]
  cases p.inputs[j]? with
  | none => exact h
  | some i =>
    refine ⟨h.group, ?_, ?_⟩
    · rw [← h.inputs]
      apply map_modify_inputs
      intro i
      rfl
    · rw [← h.levels]
      apply map_modify_inputs
      intro i
      rfl

theorem Steady.takeEdges (h : Steady q last p) (indices : List Nat) :
    Steady q last (p.afterAll (indices.map .takeEdge)) := by
  induction indices generalizing p with
  | nil => exact h
  | cons j indices ih => exact ih (h.takeEdge j)

theorem Steady.accept (h : Steady q last p) (hsize : new.length = q.size) :
    Steady q new (p.accept new) := by
  have hnew : new.length = p.size := hsize.trans h.size.symm
  refine ⟨h.group, ?_, levels_accept p new hnew⟩
  rw [← h.inputs]
  apply map_accept_inputs p _ hnew
  intro i level
  obtain ⟨htrigger, hcallback, hpin, hmcu⟩ := i.accept_frame p.group level
  rw [Input.fixed, htrigger, hcallback, hpin, hmcu]
  rfl

/-! ## The calls of a sample -/

/-- The call for one input and its new level. -/
def callAt? (group : Option (Installed κ)) (j : Nat) :
    Option (Input κ) → Option Bool → Option (PendingCall κ)
  | some i, some level =>
    match i.edgeTo? level, i.target? group with
    | some e, some target => some ⟨j, e, target⟩
    | _, _ => none
  | _, _ => none

theorem callsFrom_eq_filterMap (group : Option (Installed κ)) (first : Nat)
    (inputs : List (Input κ)) (levels : List Bool) :
    callsFrom group first inputs levels =
      (List.range inputs.length).filterMap fun j =>
        callAt? group (first + j) inputs[j]? levels[j]? := by
  induction inputs generalizing first levels with
  | nil => cases levels <;> rfl
  | cons i inputs ih =>
    cases levels with
    | nil =>
      symm
      apply List.filterMap_eq_nil_iff.mpr
      intro j _
      rw [List.getElem?_nil]
      cases (i :: inputs)[j]? <;> rfl
    | cons level levels =>
      have hrest : ((List.range inputs.length).map Nat.succ).filterMap (fun j =>
          callAt? group (first + j) (i :: inputs)[j]? (level :: levels)[j]?) =
            callsFrom group (first + 1) inputs levels := by
        rw [List.filterMap_map, ih (first + 1) levels]
        apply List.filterMap_congr
        intro j _
        simp only [Function.comp_apply, List.getElem?_cons_succ, Nat.succ_eq_add_one]
        rw [show first + (j + 1) = first + 1 + j by omega]
      rw [List.length_cons, List.range_succ_eq_map, List.filterMap_cons, hrest, callsFrom]
      simp only [List.getElem?_cons_zero, callAt?, Nat.add_zero]
      cases i.edgeTo? level <;> cases i.target? group <;> rfl

/-- On a port with a switch there is one call for each change, and no other. -/
theorem Steady.calls (h : Steady q last p) (hq : q.OnSwitch switch) (hsize : new.length = q.size) :
    p.calls new = (changed last new).map (q.callFor switch new) := by
  have hcall : ∀ j ∈ List.range p.inputs.length,
      callAt? p.group (0 + j) p.inputs[j]? new[j]? =
        if last[j]? != new[j]? then some (q.callFor switch new j) else none := by
    intro j hj
    have hlt : j < p.inputs.length := List.mem_range.mp hj
    have hnew : j < new.length := by
      rw [hsize, ← h.size]
      exact hlt
    have hi : p.inputs[j]? = some p.inputs[j] := List.getElem?_eq_getElem hlt
    have hlast : last[j]? = some p.inputs[j].level := by
      rw [← h.levels, InputPort.levels, List.getElem?_map, hi]
      rfl
    have hfixed := h.fixed j
    rw [hi] at hfixed
    obtain ⟨i', hi', hsame⟩ := Option.map_eq_some_iff.mp hfixed.symm
    have htrigger : p.inputs[j].trigger = .both := by
      have htriggers : i'.trigger = p.inputs[j].trigger := congrArg (fun f => f.2.2.1) hsame
      rw [← htriggers]
      exact hq.both i' (List.mem_of_getElem? hi')
    have hown : q.own? j = p.inputs[j].callback := by
      rw [own?, hi', Option.bind_some]
      exact congrArg (fun f => f.2.2.2) hsame
    rw [hi, hlast, List.getElem?_eq_getElem hnew, Nat.zero_add, h.group, hq.group]
    simp only [callAt?, Input.edgeTo?, Input.target?, htrigger, Trigger.accepts_both, callFor, hown,
      List.getD_eq_getElem?_getD, List.getElem?_eq_getElem hnew, Option.getD_some]
    by_cases hlevel : p.inputs[j].level = new[j]
    · simp [hlevel]
    · cases p.inputs[j].callback <;> simp [hlevel]
  have hlength : p.inputs.length = new.length := by
    rw [hsize]
    exact h.size
  rw [InputPort.calls, callsFrom_eq_filterMap, List.filterMap_congr hcall, hlength, changed,
    ← List.filterMap_eq_map, List.filterMap_filter]
  rfl

theorem isCurrent_eq (c : PendingCall κ) (r : InputPort κ) :
    c.isCurrent r = (r.inputs[c.index]?.map Input.fixed).elim false fun fixed =>
      match c.target with
      | .own callback => fixed.2.2.2.any fun now => now.serial == callback.serial
      | .group callback =>
        fixed.2.2.2.isNone && r.group.any fun now => now.serial == callback.serial := by
  unfold PendingCall.isCurrent
  cases r.inputs[c.index]? <;> cases c.target <;> rfl

/-- What a cycle leaves alone decides which calls are still to be made. -/
theorem Steady.isCurrent (h : Steady q last p) (c : PendingCall κ) :
    c.isCurrent p = c.isCurrent q := by
  rw [isCurrent_eq, isCurrent_eq, h.fixed, h.group]

/-- The calls of a sample are to be made. -/
theorem OnSwitch.isCurrent (hq : q.OnSwitch switch) {j : Nat} (hj : j < q.size) (new : List Bool) :
    (q.callFor switch new j).isCurrent q = true := by
  have hi : q.inputs[j]? = some q.inputs[j] := List.getElem?_eq_getElem hj
  rw [PendingCall.isCurrent, callFor, own?, hi, Option.bind_some, hq.group]
  cases hown : q.inputs[j].callback with
  | none => simp [hown]
  | some own => simp [hown]

end InputPort

/-! ## Cycles -/

namespace Desk

variable {κ ε : Type} {log : ε → List (κ × Occasion)} {s : Surroundings ε} {invoke : Invoke κ ε}
  {q : InputPort κ} {switch : Installed κ} {last new : List Bool} {d : Desk κ ε}

/-- Callbacks that change no trigger and no callback of their port; they take edges at most. -/
def Taking (invoke : Invoke κ ε) : Prop :=
  ∀ action occasion d, ∃ indices : List Nat,
    (invoke action occasion d).2.port = d.port.afterAll (indices.map .takeEdge)

theorem makeCall_steady (htaking : Taking invoke) (active : PinSet) {c : PendingCall κ}
    (hc : c.isCurrent q = true) (h : Steady q last d.port) :
    (makeCall s invoke active c d).1 = true ∧
      Steady q last (makeCall s invoke active c d).2.port := by
  obtain ⟨indices, hport⟩ := htaking c.callback.action (c.occasion active) d
  have hafter := h.takeEdges indices
  rw [← hport] at hafter
  unfold makeCall
  rw [if_pos ((h.isCurrent c).trans hc)]
  rcases hinvoke : invoke c.callback.action (c.occasion active) d with ⟨_ | reason, d'⟩
  · rw [hinvoke] at hafter
    exact ⟨rfl, hafter.count _ _⟩
  · rw [hinvoke] at hafter
    obtain ⟨throttle, hreport⟩ := report_port s
      (fun suppressed => .callbackFailed c.index c.edge reason suppressed)
      { d' with port := d'.port.countCall true }
    refine ⟨rfl, ?_⟩
    simp only [Option.isSome_some]
    rw [hreport]
    exact hafter.count _ _

/-- Calls that are to be made in the port as it was are all made. -/
theorem makeCalls_steady (htaking : Taking invoke) (active : PinSet)
    (calls : List (PendingCall κ)) (hcalls : ∀ c ∈ calls, c.isCurrent q = true)
    (h : Steady q last d.port) :
    (makeCalls s invoke active calls d).1 = calls ∧
      Steady q last (makeCalls s invoke active calls d).2.port := by
  induction calls generalizing d with
  | nil => exact ⟨rfl, h⟩
  | cons c calls ih =>
    obtain ⟨hmade, hfirst⟩ := makeCall_steady htaking active (hcalls c List.mem_cons_self) h
    obtain ⟨hrest, hsteady⟩ := ih (fun c' h' => hcalls c' (List.mem_cons_of_mem _ h')) hfirst
    refine ⟨?_, hsteady⟩
    rw [fst_makeCalls_cons, if_pos hmade, hrest]

/-- A cycle that settles on a sample makes its calls and leaves the port with the new levels. -/
theorem settle_steady (hlog : Witnesses log s invoke) (htaking : Taking invoke)
    (hq : q.OnSwitch switch) (h : Steady q last d.port) (hsize : new.length = q.size)
    {active : PinSet} (hactive : PinSet.ofLevels? new = .ok active) :
    ∃ d', (settle s invoke new).run d = (.ok ((changed last new).map (q.callFor switch new)), d') ∧
      Steady q new d'.port ∧
        log d'.around = log d.around ++ ((changed last new).map (q.callFor switch new)).map
          fun c => (c.callback.action, c.occasion active) := by
  have hcurrent : ∀ c ∈ (changed last new).map (q.callFor switch new), c.isCurrent q = true := by
    intro c hc
    obtain ⟨j, hj, rfl⟩ := List.mem_map.mp hc
    have hlt : j < new.length := (mem_changed.mp hj).1
    exact hq.isCurrent (by omega) new
  have hseen := makeCalls_log hlog active ((changed last new).map (q.callFor switch new))
    { d with port := d.port.accept new }
  have haccept : Steady q new (d.port.accept new) := h.accept hsize
  obtain ⟨hmade, hsteady⟩ := makeCalls_steady (s := s) htaking active
    ((changed last new).map (q.callFor switch new)) hcurrent
    (d := { d with port := d.port.accept new }) haccept
  rw [hmade] at hseen
  refine ⟨_, ?_, hsteady, hseen⟩
  rw [run_settle, hactive]
  simp only
  rw [h.calls hq hsize, hmade]

/-- What a cycle whose reads go well does on a port with a switch: a sample that is accepted gets
its calls, and one that is dismissed gets none. -/
theorem poll_steady (hlog : Witnesses log s invoke) (htaking : Taking invoke)
    (hq : q.OnSwitch switch) (h : Steady q last d.port) {accepted : Option (List Bool)} {w : ε}
    (hsampling : Sampling s d.port d.around accepted w)
    (hnew : accepted.elim last q.view = new) {active : PinSet}
    (hactive : PinSet.ofLevels? new = .ok active) :
    ∃ d', (poll s invoke).run d = (.ok ((changed last new).map (q.callFor switch new)), d') ∧
      Steady q new d'.port ∧
        log d'.around = log d.around ++ ((changed last new).map (q.callFor switch new)).map
          fun c => (c.callback.action, c.occasion active) := by
  have hcounted : Steady q last d.port.countSample := h.count _ _
  have hw := hsampling.unseen hlog
  have hrun := run_poll invoke hsampling
  rw [show (⟨d.port, d.around⟩ : Desk κ ε) = d from rfl] at hrun
  rw [hrun]
  -- without a change there is nobody to be called
  have hquiet : new = last → ∃ d', ((.ok [], ⟨d.port.countSample, w⟩) :
        Except Failure (List (PendingCall κ)) × Desk κ ε) =
      (.ok ((changed last new).map (q.callFor switch new)), d') ∧ Steady q new d'.port ∧
        log d'.around = log d.around ++ ((changed last new).map (q.callFor switch new)).map
          fun c => (c.callback.action, c.occasion active) := by
    rintro rfl
    rw [changed_self]
    exact ⟨_, rfl, hcounted, hw.trans (List.append_nil _).symm⟩
  cases accepted with
  | none => exact hquiet hnew.symm
  | some raws =>
    have hview : d.port.view raws = new := (h.view raws).trans hnew
    simp only
    rw [hview, h.levels]
    by_cases hsame : new = last
    · rw [if_pos hsame]
      exact hquiet hsame
    · rw [if_neg hsame, ← hw]
      apply settle_steady hlog htaking hq hcounted _ hactive
      rw [← hview, hsampling.length_view]
      exact h.size

/-- A run during which nobody changes a trigger or a callback of a port, with the levels that were
accepted last. Between cycles the world may change as it likes, and edges may be taken. The cycles
are those of the program and of the monitor alike. -/
inductive Switching (log : ε → List (κ × Occasion)) (d₀ : Desk κ ε) :
    List Bool → Desk κ ε → Prop where
  | start : Switching log d₀ d₀.port.levels d₀
  | elsewhere {last : List Bool} {d : Desk κ ε} (h : Switching log d₀ last d) (w : ε)
      (hw : log w = log d.around) : Switching log d₀ last ⟨d.port, w⟩
  | take {last : List Bool} {d : Desk κ ε} (h : Switching log d₀ last d) (index : Nat) :
      Switching log d₀ last ((onPort (InputPort.takeEdge index)).run d).2
  | poll {last : List Bool} {d : Desk κ ε} (h : Switching log d₀ last d) {s : Surroundings ε}
      {invoke : Invoke κ ε} (hlog : Witnesses log s invoke) (htaking : Taking invoke)
      {accepted : Option (List Bool)} {w : ε} (hsampling : Sampling s d.port d.around accepted w)
      {made : List (PendingCall κ)} {d' : Desk κ ε}
      (hpoll : (poll s invoke).run d = (.ok made, d')) :
      Switching log d₀ (accepted.elim last d₀.port.view) d'

theorem length_accepted (h : Steady q last d.port) {accepted : Option (List Bool)} {w : ε}
    (hsampling : Sampling s d.port d.around accepted w) :
    (accepted.elim last q.view).length = q.size := by
  cases accepted with
  | none => exact h.length
  | some raws =>
    rw [Option.elim_some, ← h.view raws, hsampling.length_view]
    exact h.size

/-- Throughout such a run the port is as it was but for its levels. -/
theorem Switching.steady {d₀ : Desk κ ε} (hq : d₀.port.OnSwitch switch)
    (h : Switching log d₀ last d) : Steady d₀.port last d.port := by
  induction h with
  | start => exact .refl d₀.port
  | elsewhere _ w hw ih => exact ih
  | take _ index ih => exact ih.takeEdge index
  | poll _ hlog htaking hsampling hpoll ih =>
    have hlength := length_accepted ih hsampling
    obtain ⟨active, hactive⟩ := PinSet.ofLevels?_ok (hlength ▸ hq.size)
    obtain ⟨d', hrun, hsteady, -⟩ := poll_steady hlog htaking hq ih hsampling rfl hactive
    rw [hpoll] at hrun
    cases hrun
    exact hsteady

/-- What a cycle tells after the levels `last` were accepted, when `new` are the levels accepted at
its end. -/
structure Delivery (q : InputPort κ) (switch : Installed κ) (last new : List Bool)
    (before active : PinSet) (made : List (PendingCall κ)) (told : List (κ × Occasion)) : Prop where
  /-- There is one call for every input whose level changed, and no other. -/
  changes : made = (changed last new).map (q.callFor switch new)
  ascending : (made.map PendingCall.index).Pairwise (· < ·)
  /-- The callbacks see these calls in turn. -/
  seen : told = made.map fun c => (c.callback.action, c.occasion active)
  /-- The switch is told of the changed inputs without a callback of their own. -/
  switched : (told.filter fun call => call.2.isGroup) =
    ((changed last new).filter fun j => (q.own? j).isNone).map fun j =>
      (switch.action, Occasion.group active j (.toward (new.getD j false)))
  members : ∀ j, active.contains j = true ↔ new[j]? = some true
  difference : ∀ j, (before.symmDiff active).contains j = true ↔ ∃ c ∈ made, c.index = j

theorem delivery (q : InputPort κ) (switch : Installed κ) (hlength : last.length = new.length)
    {before active : PinSet} (hbefore : PinSet.ofLevels? last = .ok before)
    (hactive : PinSet.ofLevels? new = .ok active) :
    Delivery q switch last new before active ((changed last new).map (q.callFor switch new))
      (((changed last new).map (q.callFor switch new)).map
        fun c => (c.callback.action, c.occasion active)) := by
  have hindex : ((changed last new).map (q.callFor switch new)).map PendingCall.index =
      changed last new := by
    rw [List.map_map]
    exact List.map_id _
  refine ⟨rfl, ?_, rfl, ?_, PinSet.contains_ofLevels? hactive, ?_⟩
  · rw [hindex]
    exact List.pairwise_lt_range.filter _
  · rw [List.map_map]
    induction changed last new with
    | nil => rfl
    | cons j js ih =>
      rw [List.map_cons, List.filter_cons, List.filter_cons, ih]
      cases hown : q.own? j <;>
        simp [callFor, hown, PendingCall.occasion, PendingCall.callback, Occasion.isGroup]
  · intro j
    rw [contains_symmDiff_ofLevels hbefore hactive hlength, ← List.mem_map, hindex]

end Desk

/-- After a switch was installed on a port with no more inputs than a set can hold, and as long as
nobody changes a trigger or a callback: reading the port gives the set of the sample accepted last
while the levels stay what they were, and every cycle whose reads go well tells the switch and the
inputs' own callbacks what there is to be told. -/
theorem switch_delivers {κ ε : Type} {p q : InputPort κ} {action : κ}
    (hsize : p.size ≤ PinSet.capacity) (hinstall : (installSwitch action).run p = (.ok (), q)) :
    q.levels = p.levels ∧ (∀ j, q.own? j = p.own? j) ∧
      ∀ (log : ε → List (κ × Occasion)) (w₀ : ε) (last : List Bool) (d : Desk κ ε),
        Desk.Switching log ⟨q, w₀⟩ last d →
        ∃ before, PinSet.ofLevels? last = .ok before ∧
          (∀ (s : Surroundings ε) (raws : List Bool) (w : ε),
            (Act.collect s.read q.chipPins).run d.around = (.ok raws, w) → q.view raws = last →
              (Desk.readAll s).run d = (.ok before, ⟨d.port, w⟩)) ∧
          ∀ (s : Surroundings ε) (invoke : Invoke κ ε) (accepted : Option (List Bool)) (w : ε),
            Desk.Witnesses log s invoke → Desk.Taking invoke →
              Desk.Sampling s d.port d.around accepted w →
            ∃ active made d' told,
              PinSet.ofLevels? (accepted.elim last q.view) = .ok active ∧
                (Desk.poll s invoke).run d = (.ok made, d') ∧
                (Desk.monitorCycle s invoke).run d = (.ok (), d') ∧
                log d'.around = log d.around ++ told ∧
                Desk.Delivery q ⟨p.installs, action⟩ last (accepted.elim last q.view) before active
                  made told := by
  obtain ⟨hq, hlevels, hown⟩ := onSwitch_install hsize hinstall
  refine ⟨hlevels, hown, ?_⟩
  intro log w₀ last d hrun
  have hsteady : Steady q last d.port := hrun.steady hq
  obtain ⟨before, hbefore⟩ := PinSet.ofLevels?_ok (hsteady.length ▸ hq.size)
  refine ⟨before, hbefore, ?_, ?_⟩
  · intro s raws w hread hview
    have hsample : (Desk.sample s).run d = (.ok last, ⟨d.port, w⟩) := by
      rw [show d = ⟨d.port, d.around⟩ from rfl, Desk.run_sample_raw, hsteady.chipPins, hread]
      simp only
      rw [hsteady.view, hview]
    rw [Desk.readAll, Act.run_bind_ok _ hsample, hbefore]
    rfl
  · intro s invoke accepted w hlog htaking hsampling
    have hlength := Desk.length_accepted hsteady hsampling
    obtain ⟨active, hactive⟩ := PinSet.ofLevels?_ok (hlength ▸ hq.size)
    obtain ⟨d', hpoll, -, htold⟩ :=
      Desk.poll_steady hlog htaking hq hsteady hsampling rfl hactive
    refine ⟨active, _, d', _, hactive, hpoll, Desk.run_monitorCycle_ok hpoll, htold, ?_⟩
    exact Desk.delivery q _ (hsteady.length.trans hlength.symm) hbefore hactive

/-- A port with a switch, whose second input has a callback of its own. -/
def pairSwitched : InputPort Unit :=
  ((installSwitch ()).run (pairPort.after (.callback (.install 1 ())))).2

/-- The port after a cycle that saw both levels rise, in a world where they have fallen again. -/
def pairFallen : Desk Unit OneLevel :=
  let d := ((Desk.poll oneLevel beSeen).run ⟨pairSwitched, (true, [])⟩).2
  ⟨d.port, (false, d.around.2)⟩

/-- Both levels fall: the switch is told of the first input, and the second input's own callback of
the second. -/
theorem switch_delivers_fall :
    (installSwitch ()).run (pairPort.after (.callback (.install 1 ()))) = (.ok (), pairSwitched) ∧
      ∃ before active made d' told, PinSet.ofLevels? [true, true] = .ok before ∧
        (Desk.poll oneLevel beSeen).run pairFallen = (.ok made, d') ∧
          d'.around.2 = pairFallen.around.2 ++ told ∧ made.map PendingCall.index = [0, 1] ∧
            (told.filter fun call => call.2.isGroup) = [((), .group active 0 .falling)] ∧
              (before.symmDiff active).contains 1 = true := by
  have hsize : (pairPort.after (.callback (.install 1 ()))).size ≤ PinSet.capacity := by decide
  have hinstall : (installSwitch ()).run (pairPort.after (.callback (.install 1 ()))) =
      (.ok (), pairSwitched) := rfl
  have hlog : Desk.Witnesses Prod.snd oneLevel beSeen :=
    ⟨fun _ _ => rfl, fun _ _ => rfl, fun _ _ => rfl, fun _ _ _ => rfl⟩
  have htaking : Desk.Taking beSeen := fun _ _ _ => ⟨[], rfl⟩
  have hstart : Desk.Switching Prod.snd ⟨pairSwitched, (true, [])⟩ [false, false]
      ⟨pairSwitched, (true, [])⟩ := .start
  have hrisen := hstart.poll hlog htaking (.plain [true, true] (true, []) rfl rfl) rfl
  have hrun : Desk.Switching Prod.snd ⟨pairSwitched, (true, [])⟩ [true, true] pairFallen :=
    hrisen.elsewhere (false, _) rfl
  obtain ⟨-, -, hdeliver⟩ := switch_delivers hsize hinstall
  obtain ⟨before, hbefore, -, hcycle⟩ := hdeliver Prod.snd (true, []) _ _ hrun
  obtain ⟨active, made, d', told, -, hpoll, -, htold, hdelivery⟩ :=
    hcycle oneLevel beSeen (some [false, false]) _ hlog htaking (.plain _ _ rfl rfl)
  have hindex : made.map PendingCall.index = [0, 1] := by
    rw [hdelivery.changes]
    rfl
  have hsecond : ∃ c ∈ made, c.index = 1 := by
    rw [← List.mem_map, hindex]
    simp
  refine ⟨hinstall, before, active, made, d', told, hbefore, hpoll, htold, hindex, ?_, ?_⟩
  · rw [hdelivery.switched]
    rfl
  · exact (hdelivery.difference 1).mpr hsecond

end BoardGpio
