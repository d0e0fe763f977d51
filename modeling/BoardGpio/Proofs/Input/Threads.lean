import BoardGpio.Proofs.Input.Trace
import BoardGpio.Proofs.Input.Calls
import Mathlib.Logic.Function.Basic

/-!
# Monitors and the threads that call them

A port in a program of many threads. A call that installs a callback or takes one away has two
parts: it changes the callbacks, and then it decides about the monitor. Either part happens at once,
but between the two, and between any two calls, other threads may run, the monitors among them,
whose callbacks make such calls as well. A monitor that is to end is sent a message, which it takes
when it next waits; a cycle starts when the wait ends without one. Whoever decides to stop a monitor
waits for it to end, unless it is that monitor itself. Main statement: every step keeps what belongs
together (`Scene.Step.sound`).
-/

set_option autoImplicit false

namespace BoardGpio

open InputPort

/-- What a monitor is doing. -/
inductive MonitorPhase where
  /-- Waiting for a message, or for the time of the next cycle. -/
  | waiting
  | cycling
  | ended
  deriving DecidableEq

/-- The thread of a monitor. -/
structure MonitorThread where
  /-- Whether the message to stop has been sent. -/
  stopSent : Bool := false
  phase : MonitorPhase := .waiting
  deriving DecidableEq

/-- A thread that calls: one of the program, which may be polling, or a monitor. -/
inductive Caller where
  | program (number : Nat)
  | monitor (number : Nat)
  deriving DecidableEq

/-- How far a thread is with its call. -/
inductive CallStage where
  | idle
  /-- The callbacks have been changed, and nothing has been decided yet. -/
  | undecided
  /-- The call returns, perhaps as soon as a monitor has ended. -/
  | leaving (join : Option Nat)
  deriving DecidableEq

/-- A port with its monitors, by number, and with the calls that are being made on it. -/
structure Scene (κ : Type) where
  port : InputPort κ
  /-- The monitor that runs. -/
  slot : Option Nat := none
  threads : List MonitorThread := []
  stage : Caller → CallStage := fun _ => .idle

/-- What happens in a step. -/
inductive Happening (κ : Type) where
  | placed (caller : Caller) (call : CallbackCall κ)
  | refused (caller : Caller) (call : CallbackCall κ) (e : Failure)
  | decided (caller : Caller)
  | returned (caller : Caller)
  /-- A monitor starts a cycle. -/
  | started (number : Nat)
  | finished (number : Nat)
  | ended (number : Nat)
  | other

namespace InputPort

variable {κ : Type}

def CallbackCall.installs : CallbackCall κ → Bool
  | install _ _ => true
  | uninstall _ => false
  | installGroup _ => true
  | uninstallGroup => false

/-- Two ports with a callback installed in both or in neither, and a monitor in both or in neither.
-/
structure Calm (p q : InputPort κ) : Prop where
  callbacks : q.hasCallbacks = p.hasCallbacks
  monitoring : q.monitoring = p.monitoring

end InputPort

variable {κ : Type}

namespace InputPort

theorem hasCallbacks_eq_false_iff {p : InputPort κ} :
    p.hasCallbacks = false ↔ p.group = none ∧ ∀ i ∈ p.inputs, i.callback = none := by
  rw [hasCallbacks, Bool.or_eq_false_iff, Option.isSome_eq_false_iff, Option.isNone_iff_eq_none,
    List.any_eq_false]
  simp

/-- Taking a callback away, or leaving it, at some input. -/
theorem hasCallbacks_modify {p : InputPort κ} (h : p.hasCallbacks = false) (index : Nat)
    {f : Input κ → Input κ} (hf : ∀ i, i.callback = none → (f i).callback = none) :
    ({ p with inputs := p.inputs.modify index f } : InputPort κ).hasCallbacks = false := by
  obtain ⟨hgroup, hinputs⟩ := hasCallbacks_eq_false_iff.mp h
  refine hasCallbacks_eq_false_iff.mpr ⟨hgroup, fun i hi => ?_⟩
  obtain ⟨j, hj⟩ := List.mem_iff_getElem?.mp hi
  rw [List.getElem?_modify] at hj
  obtain ⟨i', hi', rfl⟩ := Option.map_eq_some_iff.mp hj
  have hnone := hinputs i' (List.mem_of_getElem? hi')
  split
  · exact hf i' hnone
  · exact hnone

/-- Changing inputs but for their callbacks. -/
theorem Calm.of_inputs {p q : InputPort κ} (hgroup : q.group = p.group)
    (hmonitoring : q.monitoring = p.monitoring)
    (hinputs : q.inputs.map Input.callback = p.inputs.map Input.callback) : p.Calm q := by
  refine ⟨?_, hmonitoring⟩
  have hany : ∀ inputs : List (Input κ), (inputs.any fun i => i.callback.isSome) =
      (inputs.map Input.callback).any Option.isSome := by
    intro inputs
    rw [List.any_map]
    rfl
  rw [hasCallbacks, hasCallbacks, hgroup, hany, hany, hinputs]

theorem Calm.modify (p : InputPort κ) (index : Nat) {f : Input κ → Input κ}
    (hf : ∀ i, (f i).callback = i.callback) :
    p.Calm { p with inputs := p.inputs.modify index f } :=
  .of_inputs rfl rfl (map_modify_inputs hf p.inputs index)

theorem Calm.accept (p : InputPort κ) {levels : List Bool} (hsize : levels.length = p.size) :
    p.Calm (p.accept levels) :=
  .of_inputs rfl rfl (map_accept_inputs p (fun i _ => (i.accept_frame p.group _).2.1) hsize)

/-- What a call comes to: it fails for an input that the port does not have and changes nothing, or
it goes well, decides nothing, and brings in a callback only if it installs one. -/
theorem place_outcome (p : InputPort κ) (call : CallbackCall κ) :
    (∃ index, p.size ≤ index ∧
        call.place.run p = (.error (.error (.invalidPortIndex index p.size)), p)) ∨
      ∃ q, call.place.run p = (.ok (), q) ∧ q.monitoring = p.monitoring ∧
        (call.installs = false → p.hasCallbacks = false → q.hasCallbacks = false) := by
  have hplace := run_place p call
  cases call with
  | install index action =>
    dsimp only at hplace
    cases hi : p.inputs[index]? with
    | none =>
      rw [hi] at hplace
      exact .inl ⟨index, List.getElem?_eq_none_iff.mp hi, hplace⟩
    | some i =>
      rw [hi] at hplace
      exact .inr ⟨_, hplace, rfl, fun hinstalls => by cases hinstalls⟩
  | uninstall index =>
    dsimp only at hplace
    cases hi : p.inputs[index]? with
    | none =>
      rw [hi] at hplace
      exact .inl ⟨index, List.getElem?_eq_none_iff.mp hi, hplace⟩
    | some i =>
      rw [hi] at hplace
      exact .inr ⟨_, hplace, rfl, fun _ h => hasCallbacks_modify h index fun _ _ => rfl⟩
  | installGroup action => exact .inr ⟨_, hplace, rfl, fun hinstalls => by cases hinstalls⟩
  | uninstallGroup =>
    refine .inr ⟨_, hplace, rfl, fun _ h => ?_⟩
    exact hasCallbacks_eq_false_iff.mpr ⟨rfl, (hasCallbacks_eq_false_iff.mp h).2⟩

end InputPort

/-- Whatever else a cycle does, and whatever other calls do, installs no callback and takes none
away, and decides nothing about the monitor. -/
theorem Moment.Step.calm {m m' : Moment κ} {es : List (Event κ)} (h : m.Step es m') :
    m.port.Calm m'.port ∨ ∃ call : CallbackCall κ, m'.port = (call.perform.run m.port).2 := by
  cases h with
  | call m call =>
    cases call with
    | setEdge index trigger =>
      left
      show m.port.Calm (m.port.after _)
      rw [after_setEdge]
      cases m.port.inputs[index]? with
      | none => exact ⟨rfl, rfl⟩
      | some i => exact .modify m.port index fun i => rfl
    | takeEdge index =>
      left
      show m.port.Calm (m.port.after _)
      rw [after_takeEdge]
      cases m.port.inputs[index]? with
      | none => exact ⟨rfl, rfl⟩
      | some i => exact .modify m.port index fun i => rfl
    | callback call => exact .inr ⟨call, after_callback m.port call⟩
  | sample p => exact .inl ⟨rfl, rfl⟩
  | accept p levels hsize => exact .inl (.accept p hsize)
  | enter p c rest active hcurrent => exact .inl ⟨rfl, rfl⟩
  | leave p c rest failed => exact .inl ⟨rfl, rfl⟩
  | skip p c rest hgone => exact .inl (.modify p c.index fun i => rfl)
  | report m throttle => exact .inl ⟨rfl, rfl⟩

def Happening.installs : Happening κ → Bool
  | placed _ call => call.installs
  | _ => false

namespace Scene

/-- The scene after a thread has decided about the monitor: it starts one, or it sends the one that
runs the message to stop. -/
def decide (s : Scene κ) (c : Caller) : Scene κ :=
  let port := (sync.run s.port).2
  match MonitorStep.decide s.port.hasCallbacks s.port.monitoring, s.slot with
  | .start, _ =>
    { port := port, slot := some s.threads.length, threads := s.threads ++ [{}]
      stage := Function.update s.stage c (.leaving none) }
  | .stop, some m =>
    { port := port, slot := none
      threads := s.threads.modify m fun t => { t with stopSent := true }
      stage := Function.update s.stage c (.leaving (if c = .monitor m then none else some m)) }
  | _, _ => { s with port := port, stage := Function.update s.stage c (.leaving none) }

/-- One step of one thread. -/
inductive Step : Scene κ → Happening κ → Scene κ → Prop where
  /-- A thread changes the callbacks; a monitor does so from a callback, in a cycle. -/
  | place (s : Scene κ) (c : Caller) (call : CallbackCall κ) {q : InputPort κ}
      (hidle : s.stage c = .idle)
      (hinside : ∀ m, c = .monitor m → ∃ t, s.threads[m]? = some t ∧ t.phase = .cycling)
      (hplace : call.place.run s.port = (.ok (), q)) :
      Step s (.placed c call) { s with port := q, stage := Function.update s.stage c .undecided }
  /-- The call fails, and returns at once. -/
  | refuse (s : Scene κ) (c : Caller) (call : CallbackCall κ) {e : Failure} {q : InputPort κ}
      (hidle : s.stage c = .idle)
      (hinside : ∀ m, c = .monitor m → ∃ t, s.threads[m]? = some t ∧ t.phase = .cycling)
      (hplace : call.place.run s.port = (.error e, q)) :
      Step s (.refused c call e) { s with port := q }
  | decide (s : Scene κ) (c : Caller) (hstage : s.stage c = .undecided) :
      Step s (.decided c) (s.decide c)
  | leave (s : Scene κ) (c : Caller) {join : Option Nat} (hstage : s.stage c = .leaving join)
      (hjoin : ∀ m, join = some m → ∃ t, s.threads[m]? = some t ∧ t.phase = .ended) :
      Step s (.returned c) { s with stage := Function.update s.stage c .idle }
  /-- The wait of a monitor ends without a message. -/
  | tick (s : Scene κ) (m : Nat) {t : MonitorThread} (ht : s.threads[m]? = some t)
      (hphase : t.phase = .waiting) (hsent : t.stopSent = false) :
      Step s (.started m)
        { s with threads := s.threads.modify m fun t => { t with phase := .cycling } }
  /-- The cycle of a monitor ends when no callback of it is in a call any more. -/
  | finish (s : Scene κ) (m : Nat) {t : MonitorThread} (ht : s.threads[m]? = some t)
      (hphase : t.phase = .cycling) (hidle : s.stage (.monitor m) = .idle) :
      Step s (.finished m)
        { s with threads := s.threads.modify m fun t => { t with phase := .waiting } }
  /-- A monitor takes the message. -/
  | hear (s : Scene κ) (m : Nat) {t : MonitorThread} (ht : s.threads[m]? = some t)
      (hphase : t.phase = .waiting) (hsent : t.stopSent = true) :
      Step s (.ended m) { s with threads := s.threads.modify m fun t => { t with phase := .ended } }
  /-- Anything else that is done with the port. -/
  | other (s : Scene κ) {q : InputPort κ} (hcalm : s.port.Calm q) :
      Step s .other { s with port := q }

/-- Steps from one scene to another, with what happens in them. -/
inductive Run : Scene κ → List (Happening κ) → Scene κ → Prop where
  | none (s : Scene κ) : Run s [] s
  | step {s s' s'' : Scene κ} {hs : List (Happening κ)} {h : Happening κ} (hrun : Run s hs s')
      (hstep : s'.Step h s'') : Run s (hs ++ [h]) s''

/-- What belongs together in a scene. -/
structure Sound (s : Scene κ) : Prop where
  /-- The port says that it is monitoring while there is a monitor that runs. -/
  running : s.port.monitoring = s.slot.isSome
  /-- The monitor that runs has not been told to stop. -/
  occupant : ∀ m, s.slot = some m → ∃ t, s.threads[m]? = some t ∧ t.stopSent = false
  /-- Every other monitor has been. -/
  sole : ∀ m t, s.threads[m]? = some t → t.stopSent = false → s.slot = some m
  /-- Only a monitor that was told to stop has ended. -/
  live : ∀ (m : Nat) t, s.threads[m]? = some t → t.phase = .ended → t.stopSent = true
  /-- With no decision to be made, the monitor runs exactly if a callback is installed. -/
  settled : (∀ c, s.stage c ≠ .undecided) → s.port.monitoring = s.port.hasCallbacks

variable {s s' s'' : Scene κ} {h : Happening κ} {hs hs' : List (Happening κ)} {c : Caller}

/-- A step that moves one monitor from one phase to another. -/
theorem Sound.move (h : s.Sound) (m : Nat) {t : MonitorThread} (ht : s.threads[m]? = some t)
    (phase : MonitorPhase) (hphase : phase = .ended → t.stopSent = true) :
    Sound { s with threads := s.threads.modify m fun t => { t with phase := phase } } := by
  have hthread : ∀ (j : Nat) u,
      (s.threads.modify m fun t => { t with phase := phase })[j]? = some u →
        ∃ u', s.threads[j]? = some u' ∧ u.stopSent = u'.stopSent ∧
          (u.phase = .ended → u'.stopSent = true) := by
    intro j u hu
    rw [List.getElem?_modify] at hu
    obtain ⟨u', hu', rfl⟩ := Option.map_eq_some_iff.mp hu
    refine ⟨u', hu', ?_, fun hended => ?_⟩
    · split <;> rfl
    · by_cases hj : m = j
      · subst hj
        rw [if_pos rfl] at hended
        rw [ht] at hu'
        injection hu' with hu'
        exact hu' ▸ hphase hended
      · rw [if_neg hj] at hended
        exact h.live j u' hu' hended
  refine ⟨h.running, fun j hj => ?_, fun j u hu hsent => ?_, fun j u hu hended => ?_, h.settled⟩
  · obtain ⟨u, hu, hsent⟩ := h.occupant j hj
    refine ⟨_, (List.getElem?_modify ..).trans (by rw [hu]; rfl), ?_⟩
    split
    · exact hsent
    · exact hsent
  · obtain ⟨u', hu', hsame, -⟩ := hthread j u hu
    exact h.sole j u' hu' (hsame ▸ hsent)
  · obtain ⟨u', -, hsame, hsent⟩ := hthread j u hu
    rw [hsame]
    exact hsent hended

theorem decide_start (c : Caller) (hwanted : s.port.hasCallbacks = true)
    (hruns : s.port.monitoring = false) :
    s.decide c = { port := s.port.synced, slot := some s.threads.length
                   threads := s.threads ++ [{}]
                   stage := Function.update s.stage c (.leaving none) } := by
  unfold decide
  rw [hwanted, hruns]
  rfl

theorem decide_stop (c : Caller) {m : Nat} (hwanted : s.port.hasCallbacks = false)
    (hruns : s.port.monitoring = true) (hslot : s.slot = some m) :
    s.decide c = { port := s.port.synced, slot := none
                   threads := s.threads.modify m fun t => { t with stopSent := true }
                   stage := Function.update s.stage c
                     (.leaving (if c = .monitor m then none else some m)) } := by
  unfold decide
  rw [hwanted, hruns, hslot]
  rfl

theorem decide_keep (c : Caller) (hsame : s.port.hasCallbacks = s.port.monitoring) :
    s.decide c = { s with port := s.port.synced
                          stage := Function.update s.stage c (.leaving none) } := by
  unfold decide
  rw [hsame]
  cases s.port.monitoring <;> rfl

/-- What is decided is what the callbacks ask for. -/
theorem settled_synced (p : InputPort κ) : p.synced.monitoring = p.synced.hasCallbacks :=
  monitoring_synced p

theorem Sound.keep (h : s.Sound) (c : Caller) (hsame : s.port.hasCallbacks = s.port.monitoring) :
    (s.decide c).Sound := by
  rw [decide_keep c hsame]
  refine ⟨?_, h.occupant, h.sole, h.live, fun _ => settled_synced s.port⟩
  show s.port.synced.monitoring = s.slot.isSome
  rw [monitoring_synced, hsame, h.running]

theorem Sound.start (h : s.Sound) (c : Caller) (hwanted : s.port.hasCallbacks = true)
    (hruns : s.port.monitoring = false) : (s.decide c).Sound := by
  have hnone : s.slot = none := by
    have hrunning := h.running
    rw [hruns] at hrunning
    exact Option.isNone_iff_eq_none.mp (Option.isSome_eq_false_iff.mp hrunning.symm)
  -- a thread is one of the old ones, which have all been told, or the new one
  have hthread : ∀ (m : Nat) t, (s.threads ++ [({} : MonitorThread)])[m]? = some t →
      s.threads[m]? = some t ∨ m = s.threads.length ∧ t = {} := by
    intro m t ht
    rcases Nat.lt_or_ge m s.threads.length with hlt | hge
    · rw [List.getElem?_append_left hlt] at ht
      exact .inl ht
    · rw [List.getElem?_append_right hge] at ht
      cases hm : m - s.threads.length with
      | zero =>
        rw [hm] at ht
        injection ht with ht
        exact .inr ⟨by omega, ht.symm⟩
      | succ k =>
        rw [hm] at ht
        cases ht
  rw [decide_start c hwanted hruns]
  refine ⟨?_, fun m hm => ?_, fun m t ht hsent => ?_, fun m t ht hended => ?_,
    fun _ => settled_synced s.port⟩
  · show s.port.synced.monitoring = true
    rw [monitoring_synced, hwanted]
  · injection hm with hm
    subst hm
    exact ⟨{}, List.getElem?_concat_length, rfl⟩
  · rcases hthread m t ht with hold | ⟨hnew, -⟩
    · have hslot := h.sole m t hold hsent
      rw [hnone] at hslot
      cases hslot
    · rw [hnew]
  · rcases hthread m t ht with hold | ⟨-, rfl⟩
    · exact h.live m t hold hended
    · cases hended

theorem Sound.stop (h : s.Sound) (c : Caller) (hwanted : s.port.hasCallbacks = false)
    (hruns : s.port.monitoring = true) : (s.decide c).Sound := by
  obtain ⟨m, hm⟩ : ∃ m, s.slot = some m := by
    have hrunning := h.running
    rw [hruns] at hrunning
    exact Option.isSome_iff_exists.mp hrunning.symm
  have hthread : ∀ (j : Nat) u,
      (s.threads.modify m fun t => { t with stopSent := true })[j]? = some u →
        ∃ u', s.threads[j]? = some u' ∧ u.phase = u'.phase ∧
          u.stopSent = if m = j then true else u'.stopSent := by
    intro j u hu
    rw [List.getElem?_modify] at hu
    obtain ⟨u', hu', rfl⟩ := Option.map_eq_some_iff.mp hu
    refine ⟨u', hu', ?_, ?_⟩
    · split <;> rfl
    · split <;> rfl
  rw [decide_stop c hwanted hruns hm]
  refine ⟨?_, fun j hj => (nomatch hj), fun j u hu hsent => ?_, fun j u hu hended => ?_,
    fun _ => settled_synced s.port⟩
  · show s.port.synced.monitoring = false
    rw [monitoring_synced, hwanted]
  · -- The monitor that was running is told now, and the others have been.
    obtain ⟨u', hu', -, hsame⟩ := hthread j u hu
    rw [hsent] at hsame
    by_cases hj : m = j
    · rw [if_pos hj] at hsame
      cases hsame
    · rw [if_neg hj] at hsame
      have hslot := h.sole j u' hu' hsame.symm
      rw [hm] at hslot
      injection hslot with hslot
      exact absurd hslot hj
  · obtain ⟨u', hu', hphase, hsame⟩ := hthread j u hu
    rw [hsame]
    split
    · rfl
    · exact h.live j u' hu' (hphase ▸ hended)

/-- Whatever is decided, it keeps what belongs together. -/
theorem Sound.decide (h : s.Sound) (c : Caller) : (s.decide c).Sound := by
  cases hwanted : s.port.hasCallbacks with
  | true =>
    cases hruns : s.port.monitoring with
    | true => exact h.keep c (hwanted.trans hruns.symm)
    | false => exact h.start c hwanted hruns
  | false =>
    cases hruns : s.port.monitoring with
    | true => exact h.stop c hwanted hruns
    | false => exact h.keep c (hwanted.trans hruns.symm)

theorem Step.sound (hstep : s.Step h s') (hs : s.Sound) : s'.Sound := by
  cases hstep with
  | place c call hidle hinside hplace =>
    rcases place_outcome s.port call with ⟨index, -, hfailed⟩ | ⟨q, hgood, hmonitoring, -⟩
    · rw [hplace] at hfailed
      cases hfailed
    rw [hplace] at hgood
    cases hgood
    -- the callbacks may ask for another decision now, which this thread has yet to make
    refine ⟨hmonitoring.trans hs.running, hs.occupant, hs.sole, hs.live, fun hnone => ?_⟩
    exact absurd (Function.update_self c .undecided s.stage) (hnone c)
  | refuse c call hidle hinside hplace =>
    rcases place_outcome s.port call with ⟨index, -, hfailed⟩ | ⟨q, hgood, -⟩
    · rw [hplace] at hfailed
      cases hfailed
      exact hs
    · rw [hplace] at hgood
      cases hgood
  | decide c hstage => exact hs.decide c
  | leave c hstage hjoin =>
    refine ⟨hs.running, hs.occupant, hs.sole, hs.live, fun hnone => hs.settled fun c' hc' => ?_⟩
    by_cases hc : c' = c
    · rw [hc, hstage] at hc'
      cases hc'
    · exact hnone c' ((Function.update_of_ne hc _ _).trans hc')
  | tick m ht hphase hsent => exact hs.move m ht .cycling fun hended => by cases hended
  | finish m ht hphase hidle => exact hs.move m ht .waiting fun hended => by cases hended
  | hear m ht hphase hsent => exact hs.move m ht .ended fun _ => hsent
  | other hcalm =>
    refine ⟨hcalm.monitoring.trans hs.running, hs.occupant, hs.sole, hs.live, fun hnone => ?_⟩
    show _ = InputPort.hasCallbacks _
    rw [hcalm.monitoring, hcalm.callbacks]
    exact hs.settled hnone

theorem Run.sound (hrun : Run s hs s') (h : s.Sound) : s'.Sound := by
  induction hrun with
  | none => exact h
  | step _ hstep ih => exact hstep.sound ih

end Scene

end BoardGpio
