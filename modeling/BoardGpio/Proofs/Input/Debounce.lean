import BoardGpio.Proofs.Input.Agree
import BoardGpio.Proofs.Input.Reported

/-!
# Debounce

Under debounce a changed sample is accepted only if a second one, taken after the wait, has the same
levels at all inputs. A cycle whose samples differ counts a sample and does nothing else. A cycle
whose samples agree does what a cycle without debounce does that sees the same levels, since
settling on a sample goes neither by the wait nor by the number of samples (`settle_mapPort`). Main
statements: no level is accepted that was not read twice in a row, and every run is one without
debounce that sees the confirmed samples only (`glitches_filtered`); a change of one input is
accepted exactly if the other inputs did not change between the two samples
(`confirmed_with_others`).
-/

set_option autoImplicit false

namespace BoardGpio

open InputPort

variable {κ ε : Type}

/-! ## What settling does not go by -/

namespace InputPort

/-- Forgetting something about a port that settling on a sample does not go by. -/
structure Forgets (f : InputPort κ → InputPort κ) : Prop where
  inputs : ∀ p, (f p).inputs = p.inputs
  group : ∀ p, (f p).group = p.group
  throttle : ∀ p, (f p).throttle = p.throttle
  accept : ∀ p levels, f (p.accept levels) = (f p).accept levels
  flag : ∀ p index e, f (p.flag index e) = (f p).flag index e
  countCall : ∀ p failed, f (p.countCall failed) = (f p).countCall failed
  report : ∀ p throttle, f { p with throttle := throttle } = { f p with throttle := throttle }

/-- The port without debounce. -/
def undebounced (p : InputPort κ) : InputPort κ :=
  { p with settings := { p.settings with debounce := none } }

/-- The port without debounce and without its number of samples. -/
def bare (p : InputPort κ) : InputPort κ :=
  { p.undebounced with stats := { p.stats with samples := 0 } }

theorem forgets_undebounced : Forgets (undebounced : InputPort κ → InputPort κ) :=
  ⟨fun _ => rfl, fun _ => rfl, fun _ => rfl, fun _ _ => rfl, fun _ _ _ => rfl, fun _ _ => rfl,
    fun _ _ => rfl⟩

theorem forgets_bare : Forgets (bare : InputPort κ → InputPort κ) :=
  ⟨fun _ => rfl, fun _ => rfl, fun _ => rfl, fun _ _ => rfl, fun _ _ _ => rfl, fun _ _ => rfl,
    fun _ _ => rfl⟩

variable {f : InputPort κ → InputPort κ}

theorem Forgets.calls (hf : Forgets f) (p : InputPort κ) (levels : List Bool) :
    (f p).calls levels = p.calls levels := by
  rw [InputPort.calls, InputPort.calls, hf.inputs, hf.group]

theorem Forgets.isCurrent (hf : Forgets f) (p : InputPort κ) (c : PendingCall κ) :
    c.isCurrent (f p) = c.isCurrent p := by
  rw [PendingCall.isCurrent, PendingCall.isCurrent, hf.inputs, hf.group]

/-- No call on a port goes by its debounce or its number of samples. -/
theorem bare_after (p : InputPort κ) (call : PortCall κ) :
    (p.after call).bare = p.bare.after call := by
  have hinputs : p.bare.inputs = p.inputs := rfl
  cases call with
  | setEdge j trigger =>
    rw [after_setEdge, after_setEdge, hinputs]
    cases p.inputs[j]? <;> rfl
  | takeEdge j =>
    rw [after_takeEdge, after_takeEdge, hinputs]
    cases p.inputs[j]? <;> rfl
  | callback call =>
    rw [after_callback, after_callback, run_perform, run_perform, run_place, run_place]
    cases call with
    | install j action =>
      dsimp only
      rw [hinputs]
      cases p.inputs[j]? <;> rfl
    | uninstall j =>
      dsimp only
      rw [hinputs]
      cases p.inputs[j]? <;> rfl
    | installGroup action => rfl
    | uninstallGroup => rfl

end InputPort

namespace Desk

variable {log : ε → List (κ × Occasion)} {s : Surroundings ε} {invoke : Invoke κ ε}
  {f : InputPort κ → InputPort κ}

/-- The desk with its port seen through `f`. -/
def mapPort (f : InputPort κ → InputPort κ) (d : Desk κ ε) : Desk κ ε := ⟨f d.port, d.around⟩

theorem mapPort_eq_iff {d d' : Desk κ ε} :
    d'.mapPort f = d.mapPort f ↔ f d'.port = f d.port ∧ d'.around = d.around := by
  rw [mapPort, mapPort, Desk.mk.injEq]

/-- Callbacks that do not go by what `f` forgets of their port, and leave it alone. -/
def Blind (f : InputPort κ → InputPort κ) (invoke : Invoke κ ε) : Prop :=
  ∀ action occasion d, invoke action occasion (d.mapPort f) =
    ((invoke action occasion d).1, (invoke action occasion d).2.mapPort f)

theorem report_mapPort (hf : Forgets f) (s : Surroundings ε) (notice : Nat → Notice)
    (d : Desk κ ε) : report s notice (d.mapPort f) = (report s notice d).mapPort f := by
  have hthrottle : (d.mapPort f).port.throttle = d.port.throttle := hf.throttle d.port
  rcases hallow : d.port.throttle.allow (s.now d.around) with ⟨allowed, throttle⟩
  have hallow' : (d.mapPort f).port.throttle.allow (s.now (d.mapPort f).around) =
      (allowed, throttle) := by
    rw [hthrottle]
    exact hallow
  simp only [report, hallow, hallow']
  cases allowed
  · show (⟨{ f d.port with throttle := throttle }, d.around⟩ : Desk κ ε) = _
    rw [← hf.report]
    rfl
  · show (⟨{ f d.port with throttle := throttle.take.2 }, _⟩ : Desk κ ε) = _
    rw [← hf.report]
    rfl

theorem invoked_mapPort (hf : Forgets f) (hblind : Blind f invoke) (action : κ)
    (occasion : Occasion) (d : Desk κ ε) :
    invoked invoke action occasion (d.mapPort f) =
      ((invoked invoke action occasion d).1, (invoked invoke action occasion d).2.mapPort f) := by
  unfold invoked
  rw [hblind action occasion d]
  show (_, (⟨(f _).countCall _, _⟩ : Desk κ ε)) = _
  rw [← hf.countCall]
  rfl

theorem makeCall_mapPort (hf : Forgets f) (hblind : Blind f invoke) (active : PinSet)
    (c : PendingCall κ) (d : Desk κ ε) :
    makeCall s invoke active c (d.mapPort f) =
      ((makeCall s invoke active c d).1, (makeCall s invoke active c d).2.mapPort f) := by
  have hcurrent : c.isCurrent (d.mapPort f).port = c.isCurrent d.port := hf.isCurrent d.port c
  rw [makeCall_eq, makeCall_eq, hcurrent]
  by_cases hc : c.isCurrent d.port = true
  · rw [if_pos hc, if_pos hc, invoked_mapPort hf hblind]
    rcases invoked invoke c.callback.action (c.occasion active) d with ⟨_ | reason, d'⟩
    · rfl
    · exact congrArg (Prod.mk true) (report_mapPort hf s _ d')
  · rw [if_neg hc, if_neg hc]
    show (false, (⟨(f d.port).flag c.index c.edge, d.around⟩ : Desk κ ε)) = _
    rw [← hf.flag]
    rfl

theorem makeCalls_mapPort (hf : Forgets f) (hblind : Blind f invoke) (active : PinSet)
    (calls : List (PendingCall κ)) (d : Desk κ ε) :
    makeCalls s invoke active calls (d.mapPort f) =
      ((makeCalls s invoke active calls d).1, (makeCalls s invoke active calls d).2.mapPort f) := by
  induction calls generalizing d with
  | nil => rfl
  | cons c calls ih =>
    rw [makeCalls, makeCall_mapPort hf hblind active c d]
    simp only
    rw [ih (makeCall s invoke active c d).2]
    rfl

/-- Settling on a sample does not go by what is forgotten. -/
theorem settle_mapPort (hf : Forgets f) (hblind : Blind f invoke) (levels : List Bool)
    (d : Desk κ ε) :
    (settle s invoke levels).run (d.mapPort f) =
      (((settle s invoke levels).run d).1, ((settle s invoke levels).run d).2.mapPort f) := by
  rw [run_settle, run_settle]
  cases PinSet.ofLevels? levels with
  | error e => rfl
  | ok active =>
    have haccept : ({ d.mapPort f with port := (d.mapPort f).port.accept levels } : Desk κ ε) =
        ({ d with port := d.port.accept levels } : Desk κ ε).mapPort f := by
      show (⟨(f d.port).accept levels, d.around⟩ : Desk κ ε) = _
      rw [← hf.accept]
      rfl
    have hcalls : (d.mapPort f).port.calls levels = d.port.calls levels := hf.calls d.port levels
    simp only [haccept, hcalls, makeCalls_mapPort hf hblind]

theorem settle_congr_mapPort (hf : Forgets f) (hblind : Blind f invoke) (levels : List Bool)
    {d d' : Desk κ ε} (h : d'.mapPort f = d.mapPort f) :
    ((settle s invoke levels).run d').1 = ((settle s invoke levels).run d).1 ∧
      ((settle s invoke levels).run d').2.mapPort f =
        ((settle s invoke levels).run d).2.mapPort f := by
  have hsame := congrArg (settle s invoke levels).run h
  rw [settle_mapPort hf hblind, settle_mapPort hf hblind] at hsame
  exact Prod.mk.inj hsame

/-! ## Cycles without debounce -/

/-- After a cycle whose samples agree there is a world in which a cycle without debounce sees the
same levels: that of the second sample. -/
theorem Sees.undebounced {p : InputPort κ} {w w' : ε} {levels : List Bool}
    (h : Sees s p w (.twice levels) w') : ∃ v, Sees s p.undebounced v (.once levels) w' := by
  cases h with
  | twice _ hchanged _ hagain hagree => exact ⟨_, .once hagain (hagree ▸ hchanged) rfl⟩

/-- The cycle does what that one does. -/
theorem poll_undebounced (hblind : Blind InputPort.undebounced invoke) {d : Desk κ ε} {w v : ε}
    {levels : List Bool} (hsees : Sees s d.port d.around (.twice levels) w)
    (hplain : Sees s d.port.undebounced v (.once levels) w) :
    (poll s invoke).run ⟨d.port.undebounced, v⟩ =
      (((poll s invoke).run d).1,
        ((poll s invoke).run d).2.mapPort InputPort.undebounced) := by
  rw [show d = ⟨d.port, d.around⟩ from rfl, run_poll_sees invoke hsees,
    run_poll_sees invoke hplain]
  exact settle_mapPort forgets_undebounced hblind levels ⟨d.port.countSample, w⟩

/-- A cycle whose samples agree tells the callbacks of the edges in turn, with the set of the inputs
that are active in both samples. -/
theorem poll_twice (hlog : Witnesses log s invoke) {d : Desk κ ε}
    (hfew : d.port.size ≤ PinSet.capacity) {w : ε} {levels : List Bool}
    (hsees : Sees s d.port d.around (.twice levels) w) :
    ∃ made active d', (poll s invoke).run d = (.ok made, d') ∧
      PinSet.ofLevels? levels = .ok active ∧
        log d'.around = log d.around ++ made.map fun c =>
          (c.callback.action, c.occasion active) := by
  obtain ⟨hsize, -⟩ := hsees.accepted rfl
  obtain ⟨active, hactive⟩ := PinSet.ofLevels?_ok (hsize ▸ hfew)
  have hrun := run_poll_sees invoke hsees
  simp only [run_settle, hactive] at hrun
  refine ⟨_, active, _, hrun, hactive, ?_⟩
  rw [makeCalls_log hlog, ← hsees.unseen hlog]

end Desk

/-- What a cycle without debounce sees in place of a cycle: what was confirmed, and nothing of what
was not. -/
def Sight.plain? : Sight → Option Sight
  | .failed e _ => some (.failed e false)
  | .same => some .same
  | .once levels => some (.once levels)
  | .twice levels => some (.once levels)
  | .bounced _ _ => none

namespace Desk

variable {log : ε → List (κ × Occasion)} {s : Surroundings ε} {invoke : Invoke κ ε}

/-- In place of a cycle that was not dismissed, a port that differs in no more than its debounce and
its number of samples can see the same without debounce. -/
theorem Sees.plain {p q : InputPort κ} {w w' : ε} {x y : Sight} (h : Sees s p w x w')
    (hbare : q.bare = p.bare) (hplain : q.settings.debounce = none) (hy : x.plain? = some y) :
    ∃ v, (∀ {log : ε → List (κ × Occasion)} {invoke : Invoke κ ε},
      Witnesses log s invoke → log v = log w) ∧ Sees s q v y w' := by
  have hinputs : q.bare.inputs = p.bare.inputs := by rw [hbare]
  change q.inputs = p.inputs at hinputs
  have hpins : q.chipPins = p.chipPins := congrArg (List.map Input.mcu) hinputs
  have hlevels : q.levels = p.levels := congrArg (List.map Input.level) hinputs
  have hview : ∀ raws, q.view raws = p.view raws := by
    intro raws
    rw [InputPort.view, InputPort.view, hinputs]
  cases h with
  | unread hfails =>
    cases hy
    rw [← hpins] at hfails
    exact ⟨w, fun _ => rfl, .unread hfails⟩
  | same hread hsame =>
    cases hy
    rw [← hpins] at hread
    exact ⟨w, fun _ => rfl, .same hread (by rw [hview, hsame, hlevels])⟩
  | once hread hchanged _ =>
    cases hy
    rw [← hpins] at hread
    rw [← hview, ← hlevels] at hchanged
    rw [← hview]
    exact ⟨w, fun _ => rfl, .once hread hchanged hplain⟩
  | unconfirmed hread _ _ hfails =>
    cases hy
    rw [← hpins] at hfails
    exact ⟨_, fun hlog => unseen_pause hlog hread _, .unread hfails⟩
  | twice hread hchanged _ hagain hagree =>
    cases hy
    rw [← hagree, ← hview, ← hlevels] at hchanged
    rw [← hpins] at hagain
    rw [← hview]
    exact ⟨_, fun hlog => unseen_pause hlog hread _, .once hagain hchanged hplain⟩
  | bounced _ _ _ _ _ => cases hy

/-- A cycle in place of another one has the same result, and leaves the same but for the number of
samples. -/
theorem poll_plain (hblind : Blind bare invoke) {d d' : Desk κ ε}
    (h : d'.mapPort bare = d.mapPort bare) {x y : Sight} {v w : ε}
    (hsees : Sees s d.port d.around x w) (hy : x.plain? = some y) (hplain : Sees s d'.port v y w) :
    ((poll s invoke).run ⟨d'.port, v⟩).1 = ((poll s invoke).run d).1 ∧
      ((poll s invoke).run ⟨d'.port, v⟩).2.mapPort bare =
        ((poll s invoke).run d).2.mapPort bare := by
  obtain ⟨hbare, -⟩ := mapPort_eq_iff.mp h
  have hcounted : (⟨d'.port.countSample, w⟩ : Desk κ ε).mapPort bare =
      (⟨d.port.countSample, w⟩ : Desk κ ε).mapPort bare := mapPort_eq_iff.mpr ⟨hbare, rfl⟩
  rw [show d = ⟨d.port, d.around⟩ from rfl, run_poll_sees invoke hsees,
    run_poll_sees invoke hplain]
  cases x with
  | failed e taken =>
    cases hy
    refine ⟨rfl, ?_⟩
    cases taken
    · exact mapPort_eq_iff.mpr ⟨hbare, rfl⟩
    · exact hcounted
  | same =>
    cases hy
    exact ⟨rfl, hcounted⟩
  | once levels =>
    cases hy
    exact settle_congr_mapPort forgets_bare hblind levels hcounted
  | twice levels =>
    cases hy
    exact settle_congr_mapPort forgets_bare hblind levels hcounted
  | bounced first again => cases hy

/-- So it is with cycles of the monitor. -/
theorem monitorCycle_mapPort {f : InputPort κ → InputPort κ} (hf : Forgets f) {d d' : Desk κ ε}
    (hresult : ((poll s invoke).run d').1 = ((poll s invoke).run d).1)
    (hleft : ((poll s invoke).run d').2.mapPort f = ((poll s invoke).run d).2.mapPort f) :
    ((monitorCycle s invoke).run d').2.mapPort f = ((monitorCycle s invoke).run d).2.mapPort f := by
  rw [monitorCycle, Act.run_bind, Act.run_bind, Act.run_attempt, Act.run_attempt]
  generalize (poll s invoke).run d' = left' at hresult hleft ⊢
  generalize (poll s invoke).run d = left at hresult hleft ⊢
  obtain ⟨r', e'⟩ := left'
  obtain ⟨r, e⟩ := left
  cases hresult
  rcases r' with (why | why) | made
  · have hreport := congrArg (report s fun suppressed => .samplingFailed why suppressed) hleft
    rw [report_mapPort hf, report_mapPort hf] at hreport
    exact hreport
  · exact hleft
  · exact hleft

/-- Callbacks that make calls on their port at most, and go neither by its debounce nor by its
number of samples. -/
def Plain (invoke : Invoke κ ε) : Prop := Behaved invoke ∧ Blind bare invoke

/-- A cycle at the end of a run that has been taken without debounce so far: either a cycle without
debounce can take its place, or it was dismissed and only the world goes on. -/
theorem Viewing.plain_cycle {d₀ d d' : Desk κ ε} {xs : List Sight} {x : Sight} {w : ε}
    (hrun : Viewing log Plain d₀ (xs.filterMap Sight.plain?) d')
    (hplain : d₀.port.settings.debounce = none) (hsame : d'.mapPort bare = d.mapPort bare)
    (hlog : Witnesses log s invoke) (hsees : Sees s d.port d.around x w) :
    (∃ v y, Viewing log Plain d₀ (xs.filterMap Sight.plain?) ⟨d'.port, v⟩ ∧
        Sees s d'.port v y w ∧ x.plain? = some y ∧
          (xs ++ [x]).filterMap Sight.plain? = xs.filterMap Sight.plain? ++ [y]) ∨
      (Viewing log Plain d₀ ((xs ++ [x]).filterMap Sight.plain?) ⟨d'.port, w⟩ ∧
        (Desk.poll s invoke).run d = (.ok [], ⟨d.port.countSample, w⟩) ∧
          (⟨d'.port, w⟩ : Desk κ ε).mapPort bare =
            (⟨d.port.countSample, w⟩ : Desk κ ε).mapPort bare) := by
  obtain ⟨hbare, haround⟩ := mapPort_eq_iff.mp hsame
  have hlist : ∀ y?, x.plain? = y? →
      (xs ++ [x]).filterMap Sight.plain? = xs.filterMap Sight.plain? ++ y?.toList := by
    rintro y? rfl
    rw [List.filterMap_append]
    cases hy : x.plain? <;> simp [hy]
  cases hy : x.plain? with
  | some y =>
    have hwait : d'.port.settings.debounce = none := by
      rw [hrun.settings fun _ h => h.1]
      exact hplain
    obtain ⟨v, hv, hsees'⟩ := hsees.plain hbare hwait hy
    exact .inl ⟨v, y, hrun.elsewhere v (by rw [hv hlog, haround]), hsees', rfl, hlist _ hy⟩
  | none =>
    cases x with
    | bounced first again =>
      refine .inr ⟨?_, run_poll_sees invoke hsees, mapPort_eq_iff.mpr ⟨hbare, rfl⟩⟩
      rw [hlist _ hy, Option.toList_none, List.append_nil]
      exact hrun.elsewhere w (by rw [hsees.unseen hlog, haround])
    | failed e taken => cases hy
    | same => cases hy
    | once levels => cases hy
    | twice levels => cases hy

/-- Every run is one without debounce that sees what was confirmed: the port that it leaves, but for
the number of samples, and the world. -/
theorem Viewing.plain {d₀ d₀' d : Desk κ ε} {xs : List Sight} (h : Viewing log Plain d₀ xs d)
    (hstart : d₀'.mapPort bare = d₀.mapPort bare) (hplain : d₀'.port.settings.debounce = none) :
    ∃ d', Viewing log Plain d₀' (xs.filterMap Sight.plain?) d' ∧
      d'.mapPort bare = d.mapPort bare := by
  induction h with
  | start => exact ⟨d₀', .start, hstart⟩
  | @elsewhere xs d _ w hw ih =>
    obtain ⟨d', hrun, hsame⟩ := ih
    obtain ⟨hbare, haround⟩ := mapPort_eq_iff.mp hsame
    exact ⟨⟨d'.port, w⟩, hrun.elsewhere w (by rw [hw, haround]),
      mapPort_eq_iff.mpr ⟨hbare, rfl⟩⟩
  | @call xs d _ call ih =>
    obtain ⟨d', hrun, hsame⟩ := ih
    obtain ⟨hbare, haround⟩ := mapPort_eq_iff.mp hsame
    refine ⟨_, hrun.call call, mapPort_eq_iff.mpr ⟨?_, haround⟩⟩
    show (d'.port.after call).bare = (d.port.after call).bare
    rw [bare_after, bare_after, hbare]
  | @poll xs d _ s invoke hlog hcallbacks x w hsees ih =>
    obtain ⟨d', hrun, hsame⟩ := ih
    rcases hrun.plain_cycle hplain hsame hlog hsees with
      ⟨v, y, hrun', hsees', hy, hlist⟩ | ⟨hrun', hpoll, hleft⟩
    · rw [hlist]
      exact ⟨_, hrun'.poll hlog hcallbacks hsees',
        (poll_plain hcallbacks.2 hsame hsees hy hsees').2⟩
    · rw [hpoll]
      exact ⟨_, hrun', hleft⟩
  | @monitor xs d _ s invoke hlog hcallbacks x w hsees ih =>
    obtain ⟨d', hrun, hsame⟩ := ih
    rcases hrun.plain_cycle hplain hsame hlog hsees with
      ⟨v, y, hrun', hsees', hy, hlist⟩ | ⟨hrun', hpoll, hleft⟩
    · obtain ⟨hresult, hleft⟩ := poll_plain hcallbacks.2 hsame hsees hy hsees'
      rw [hlist]
      exact ⟨_, hrun'.monitor hlog hcallbacks hsees',
        monitorCycle_mapPort forgets_bare hresult hleft⟩
    · rw [run_monitorCycle_ok hpoll]
      exact ⟨_, hrun', hleft⟩

/-- A port with debounce accepts nothing that its second sample did not show again. -/
theorem Viewing.confirmed {callbacks : Invoke κ ε → Prop} {d₀ d : Desk κ ε} {xs : List Sight}
    (hbehaved : ∀ invoke, callbacks invoke → Behaved invoke) {delay : Duration}
    (hwait : d₀.port.settings.debounce = some delay) (h : Viewing log callbacks d₀ xs d) :
    ∀ x ∈ xs, ∀ levels, x.accepted? = some levels → x = .twice levels := by
  have hsees : ∀ {xs : List Sight} {d : Desk κ ε} {s : Surroundings ε} {x : Sight} {w : ε},
      Viewing log callbacks d₀ xs d → Sees s d.port d.around x w →
        ∀ levels, x.accepted? = some levels → x = .twice levels := by
    intro xs d s x w hrun hsees levels hx
    cases hsees with
    | once _ _ hplain =>
      rw [hrun.settings hbehaved, hwait] at hplain
      cases hplain
    | twice _ _ _ _ _ =>
      cases hx
      rfl
    | unread _ => cases hx
    | same _ _ => cases hx
    | unconfirmed _ _ _ _ => cases hx
    | bounced _ _ _ _ _ => cases hx
  induction h with
  | start => simp
  | elsewhere _ _ _ ih => exact ih
  | call _ _ ih => exact ih
  | poll hrun _ _ hx ih =>
    rw [List.forall_mem_append, List.forall_mem_singleton]
    exact ⟨ih, hsees hrun hx⟩
  | monitor hrun _ _ hx ih =>
    rw [List.forall_mem_append, List.forall_mem_singleton]
    exact ⟨ih, hsees hrun hx⟩

end Desk

/-- A port that was opened with debounce, whatever is done with it and whatever its cycles read. The
levels that the next sample is compared with are those of the reference sample, or one cycle read
them twice in a row. A cycle whose samples differ does no more than count a sample. A cycle whose
samples agree tells the callbacks with the set of the inputs that are active in both, and does what
a cycle without debounce does that sees the same levels. And every run is one without debounce in
which only the confirmed samples are seen. -/
theorem glitches_filtered {β : Type} [Backend β] {pins : List InputPin} {settings : InputSettings}
    {now : Nat} {g g' : Gpio β} {p : InputPort κ}
    (hopen : (openPort pins settings now).run g = (.ok p, g')) {delay : Duration}
    (hwait : settings.debounce = some delay) (log : ε → List (κ × Occasion)) (w₀ : ε) :
    (∀ index pin, pins[index]? = some pin →
      ∃ mcu level, Reference pins g index mcu level ∧ p.levels[index]? = some level) ∧
      (∀ xs d, Desk.Viewing log Desk.Behaved ⟨p, w₀⟩ xs d →
        (d.port.levels = p.levels ∨ .twice d.port.levels ∈ xs) ∧
          ∀ s invoke, Desk.Witnesses log s invoke →
            (∀ first again w, Desk.Sees s d.port d.around (.bounced first again) w →
              (Desk.poll s invoke).run d = (.ok [], ⟨{ d.port with
                stats := { d.port.stats with samples := d.port.stats.samples + 1 } }, w⟩) ∧
                log w = log d.around) ∧
            ∀ levels w, Desk.Sees s d.port d.around (.twice levels) w →
              (∃ made active d', (Desk.poll s invoke).run d = (.ok made, d') ∧
                PinSet.ofLevels? levels = .ok active ∧
                  log d'.around = log d.around ++ made.map fun c =>
                    (c.callback.action, c.occasion active)) ∧
              (∃ v, Desk.Sees s d.port.undebounced v (.once levels) w) ∧
              ∀ v, Desk.Sees s d.port.undebounced v (.once levels) w →
                Desk.Blind InputPort.undebounced invoke →
                  (Desk.poll s invoke).run ⟨d.port.undebounced, v⟩ =
                    (((Desk.poll s invoke).run d).1,
                      ((Desk.poll s invoke).run d).2.mapPort InputPort.undebounced)) ∧
      ∀ xs d, Desk.Viewing log Desk.Plain ⟨p, w₀⟩ xs d →
        ∃ d', Desk.Viewing log Desk.Plain ⟨p.undebounced, w₀⟩ (xs.filterMap Sight.plain?) d' ∧
          d'.mapPort InputPort.bare = d.mapPort InputPort.bare := by
  have hkind : ∀ invoke : Invoke κ ε, Desk.Behaved invoke → Desk.Behaved invoke := fun _ h => h
  obtain ⟨hopened, hshows⟩ := reference_openPort hopen
  refine ⟨fun index pin hpin => ?_, fun xs d hrun => ⟨?_, fun s invoke hlog => ⟨?_, ?_⟩⟩,
    fun xs d hrun => hrun.plain rfl rfl⟩
  · obtain ⟨mcu, level, hreference, i, hi, -, -, -, hlevel⟩ := hshows index pin hpin
    refine ⟨mcu, level, hreference, ?_⟩
    rw [InputPort.levels, List.getElem?_map, hi, Option.map_some, hlevel]
  · have hdelay : p.settings.debounce = some delay := by
      rw [settings_openPort hopen]
      exact hwait
    rw [hrun.levels hkind hopened]
    rcases lastAccepted_cases p.levels xs with hsame | ⟨x, hx, haccepted⟩
    · exact .inl hsame
    · rw [hrun.confirmed hkind hdelay x hx _ haccepted] at hx
      exact .inr hx
  · intro first again w hsees
    exact ⟨Desk.run_poll_sees invoke hsees, hsees.unseen hlog⟩
  · intro levels w hsees
    exact ⟨Desk.poll_twice hlog (hrun.few hopen) hsees, hsees.undebounced, fun v hplain hblind =>
      Desk.poll_undebounced hblind hsees hplain⟩

/-! ## A neighbour that bounces -/

def openDebounced : Act (Gpio Sim) (InputPort Unit) :=
  InputPort.openPort [{ pin := 0 }, { pin := 1 }] { debounce := some (.ofMillis 5) } 0

def pairDebounced : InputPort Unit :=
  { pairPort with settings := { debounce := some (.ofMillis 5) } }

theorem run_openDebounced :
    openDebounced.run pairGpio = (.ok pairDebounced, (openDebounced.run pairGpio).2) := by
  have hport : (openDebounced.run pairGpio).1 = .ok pairDebounced := rfl
  rw [← hport]

/-- Both levels have risen, but the second falls again before the second sample. -/
def pairBouncing : Desk Unit Readings :=
  ⟨pairDebounced.after (.setEdge 0 .both), ([true, true, true, false], [])⟩

/-- The port after that cycle, in a world where both levels stay. -/
def pairCalm : Desk Unit Readings :=
  ⟨((Desk.poll readings beHeard).run pairBouncing).2.port, ([true, true, true, true], [])⟩

theorem plain_beHeard : Desk.Plain beHeard := ⟨behaved_beHeard, fun _ _ _ => rfl⟩

theorem sees_pairBouncing : Desk.Sees readings pairBouncing.port pairBouncing.around
    (.bounced [true, true] [true, false]) ([], []) := by
  have hread : (Act.collect readings.read pairBouncing.port.chipPins).run pairBouncing.around =
      (.ok [true, true], ([true, false], [])) := rfl
  have hagain : (Act.collect readings.read pairBouncing.port.chipPins).run ([true, false], []) =
      (.ok [true, false], ([], [])) := rfl
  exact .bounced hread (by decide) rfl hagain (by decide)

theorem sees_pairCalm : Desk.Sees readings pairCalm.port pairCalm.around (.twice [true, true])
    ([], []) := by
  have hread : (Act.collect readings.read pairCalm.port.chipPins).run pairCalm.around =
      (.ok [true, true], ([true, true], [])) := rfl
  have hagain : (Act.collect readings.read pairCalm.port.chipPins).run ([true, true], []) =
      (.ok [true, true], ([], [])) := rfl
  exact .twice hread (by decide) rfl hagain rfl

/-- A run whose first cycle is dismissed and whose second one accepts its sample. -/
theorem viewing_pairCalm {callbacks : Invoke Unit Readings → Prop} (h : callbacks beHeard) :
    Desk.Viewing Prod.snd callbacks ⟨pairDebounced, pairBouncing.around⟩
      [.bounced [true, true] [true, false]] pairCalm := by
  have hstart : Desk.Viewing Prod.snd callbacks ⟨pairDebounced, pairBouncing.around⟩ []
      pairBouncing := Desk.Viewing.start.call (.setEdge 0 .both)
  exact (hstart.poll witnesses_readings h sees_pairBouncing).elsewhere _ rfl

/-- The second sample differs and nothing is accepted; the next cycle is confirmed, and a run
without debounce that sees only its levels leaves the same flag. -/
theorem glitches_filtered_bounce :
    openDebounced.run pairGpio = (.ok pairDebounced, (openDebounced.run pairGpio).2) ∧
      (Desk.poll readings beHeard).run pairBouncing = (.ok [], ⟨pairCalm.port, ([], [])⟩) ∧
        pairCalm.port.levels = [false, false] ∧
          ∃ d', Desk.Viewing Prod.snd Desk.Plain
              ⟨pairDebounced.undebounced, pairBouncing.around⟩ [.once [true, true]] d' ∧
            d'.port.bare = ((Desk.poll readings beHeard).run pairCalm).2.port.bare ∧
              d'.port.flagOf 0 = some .rising := by
  obtain ⟨-, hcycles, hplain⟩ :=
    glitches_filtered run_openDebounced rfl Prod.snd pairBouncing.around
  have hfirst : Desk.Viewing Prod.snd Desk.Behaved ⟨pairDebounced, pairBouncing.around⟩ []
      pairBouncing := Desk.Viewing.start.call (.setEdge 0 .both)
  obtain ⟨-, hcycle⟩ := hcycles _ _ hfirst
  have hbounced := (hcycle readings beHeard witnesses_readings).1 _ _ _ sees_pairBouncing
  have hlast : pairCalm.port.levels = [false, false] := rfl
  obtain ⟨d', hrun, hsame⟩ := hplain _ _
    ((viewing_pairCalm plain_beHeard).poll witnesses_readings plain_beHeard sees_pairCalm)
  obtain ⟨hbare, -⟩ := Desk.mapPort_eq_iff.mp hsame
  refine ⟨run_openDebounced, hbounced.1, hlast, d', hrun, hbare, ?_⟩
  have hflag : d'.port.bare.flagOf 0 = some .rising := by
    rw [hbare]
    rfl
  exact hflag

/-- A cycle of a port with debounce that reads the same new level of an input in both samples. If
the other inputs have not changed between the samples either, the change is accepted: the sample is
reported, and the input's edge is told or left in its flag if its trigger lets it through. If any
other input has changed, nothing is accepted, and the cycle counts a sample. -/
theorem confirmed_with_others {β : Type} [Backend β] {pins : List InputPin}
    {settings : InputSettings} {now : Nat} {g g' : Gpio β} {p : InputPort κ}
    (hopen : (openPort pins settings now).run g = (.ok p, g')) {delay : Duration}
    (hwait : settings.debounce = some delay) {log : ε → List (κ × Occasion)} {w₀ : ε}
    {xs : List Sight} {d : Desk κ ε} (hrun : Desk.Viewing log Desk.Behaved ⟨p, w₀⟩ xs d)
    {s : Surroundings ε} {invoke : Invoke κ ε} {conduct : Desk.Conduct κ ε}
    (hlog : Desk.Witnesses log s invoke) (hfollows : Desk.Follows conduct invoke)
    {raws again : List Bool} {w w' : ε}
    (hread : (Act.collect s.read d.port.chipPins).run d.around = (.ok raws, w))
    (hagain : (Act.collect s.read d.port.chipPins).run (s.pause delay w) = (.ok again, w'))
    {index : Nat} {i : Input κ} {level : Bool} (hi : d.port.inputs[index]? = some i)
    (hfirst : (d.port.view raws)[index]? = some level)
    (hsecond : (d.port.view again)[index]? = some level) (hchanged : i.level ≠ level) :
    ((∀ j, j ≠ index → (d.port.view again)[j]? = (d.port.view raws)[j]?) →
      ∃ made d' es, (Desk.poll s invoke).run d = (.ok made, d') ∧
        es = Desk.cycleEvents s invoke conduct d (.twice (d.port.view again)) w' ∧
          d'.port.levels[index]? = some level ∧
            Reports log d.port.levels (d.port.view again) d es d' ∧
              (i.trigger.accepts (.toward level) = true →
                .matched index (.toward level) (i.target? d.port.group) ∈ es ∧
                  Ends es d'.port index (.toward level) (i.target? d.port.group))) ∧
      ((∃ j, j ≠ index ∧ (d.port.view again)[j]? ≠ (d.port.view raws)[j]?) →
        (Desk.poll s invoke).run d = (.ok [], ⟨d.port.countSample, w'⟩)) := by
  have hdelay : d.port.settings.debounce = some delay := by
    rw [hrun.settings fun _ h => h, settings_openPort hopen]
    exact hwait
  have hlast : d.port.levels[index]? = some i.level := by
    rw [InputPort.levels, List.getElem?_map, hi, Option.map_some]
  -- the input alone makes the first sample a changed one
  have hnew : d.port.view raws ≠ d.port.levels := by
    intro hsame
    rw [hsame, hlast] at hfirst
    exact hchanged (Option.some.inj hfirst)
  constructor
  · intro hothers
    have hagree : d.port.view again = d.port.view raws := by
      apply List.ext_getElem?
      intro j
      by_cases hj : j = index
      · rw [hj, hfirst, hsecond]
      · exact hothers j hj
    obtain ⟨made, d', hpoll, hreports⟩ := hrun.reports hopen hlog hfollows
      (.twice hread hnew hdelay hagain hagree) rfl
    refine ⟨made, d', _, hpoll, rfl, ?_, hreports, fun haccepts => ?_⟩
    · rw [hreports.levels, hsecond]
    · have hmem := mem_differences hi hlast hsecond hchanged haccepts
      refine ⟨?_, hreports.ends _ _ _ hmem⟩
      rw [← hreports.matched] at hmem
      exact (List.mem_filter.mp hmem).1
  · rintro ⟨j, -, hdiffer⟩
    have hbounced : d.port.view again ≠ d.port.view raws := fun hsame => hdiffer (by rw [hsame])
    exact Desk.run_poll_sees invoke (.bounced hread hnew hdelay hagain hbounced)

/-- Both levels stay, so the rise of the first is accepted. -/
theorem confirmed_with_others_calm :
    openDebounced.run pairGpio = (.ok pairDebounced, (openDebounced.run pairGpio).2) ∧
      ∃ made d' es, (Desk.poll readings beHeard).run pairCalm = (.ok made, d') ∧
        d'.port.levels[0]? = some true ∧
          Reports Prod.snd [false, false] [true, true] pairCalm es d' ∧
            es = [.matched 0 .rising none] ∧ Ends es d'.port 0 .rising none := by
  have hread : (Act.collect readings.read pairCalm.port.chipPins).run pairCalm.around =
      (.ok [true, true], ([true, true], [])) := rfl
  have hagain : (Act.collect readings.read pairCalm.port.chipPins).run ([true, true], []) =
      (.ok [true, true], ([], [])) := rfl
  have hi : pairCalm.port.inputs[0]? =
      some { pin := { pin := 0 }, mcu := 0, level := false, trigger := .both } := rfl
  obtain ⟨haccepts, -⟩ := confirmed_with_others run_openDebounced rfl
    (viewing_pairCalm behaved_beHeard) witnesses_readings follows_beHeard hread hagain hi rfl rfl
    (by decide)
  obtain ⟨made, d', es, hpoll, hevents, hlevel, hreports, hmatched⟩ := haccepts fun _ _ => rfl
  exact ⟨run_openDebounced, made, d', es, hpoll, hlevel, hreports, hevents, (hmatched rfl).2⟩

/-- The first input has risen and stays, but the second does not: the rise is not accepted, although
both samples have shown it and the trigger lets it through. -/
theorem held_back_by_neighbour :
    openDebounced.run pairGpio = (.ok pairDebounced, (openDebounced.run pairGpio).2) ∧
      Desk.Viewing Prod.snd Desk.Behaved ⟨pairDebounced, pairBouncing.around⟩ [] pairBouncing ∧
        Desk.Sees readings pairBouncing.port pairBouncing.around
          (.bounced [true, true] [true, false]) ([], []) ∧
          pairBouncing.port.levels[0]? = some false ∧
            (pairBouncing.port.inputs[0]?.map Input.trigger) = some .both ∧
              ∃ d', (Desk.poll readings beHeard).run pairBouncing = (.ok [], d') ∧
                d'.port.levels[0]? = some false ∧ d'.port.flagOf 0 = none ∧
                  d'.port.stats.edges = 0 :=
  ⟨run_openDebounced, Desk.Viewing.start.call (.setEdge 0 .both), sees_pairBouncing, rfl, rfl, _,
    rfl, rfl, rfl, rfl⟩

end BoardGpio
