import BoardGpio.Proofs.Input.Account
import BoardGpio.Proofs.Input.Agree
import BoardGpio.Proofs.Input.Opened

/-!
# Failing callbacks

A callback that fails is counted and reported, and nothing else comes of it. Main statement: two
runs in which the same is done with a port, the same levels are read and the callbacks make the same
calls, but may fail in one run and succeed in the other, give the same answers, call the same
callbacks with the same occasions in the same order, and leave ports that agree in everything but
the number of failures and what is reported of them. Each number of failures is that of the
invocations that failed (`failures_indifferent`).
-/

set_option autoImplicit false

namespace BoardGpio

open InputPort

variable {κ ξ ε ε' : Type}

/-! ## Runs side by side -/

/-- What surrounds a port in a run: the world, the callbacks, and what happens in the world
besides. -/
structure Environs (κ ξ ε : Type) extends Surroundings ε where
  invoke : Invoke κ ε
  happen : ξ → ε → ε

/-- What is done in a run. -/
inductive Doing (κ ξ : Type) where
  | call (call : PortCall κ)
  | read (index : Nat)
  | readAll
  | poll
  /-- A cycle of the monitor. -/
  | monitor
  | elsewhere (x : ξ)

/-- What is answered. The monitor answers nobody, but the calls that its cycle makes are seen. -/
inductive Answered (κ : Type) where
  | edge (r : Except Failure (Option Edge))
  | level (r : Except Failure Bool)
  | pins (r : Except Failure PinSet)
  | made (r : Except Failure (List (PendingCall κ)))
  | nothing

/-- A callback that was called, what it was called with, and whether it failed. -/
structure Invocation (κ : Type) where
  action : κ
  occasion : Occasion
  failed : Bool

def Invocation.call (i : Invocation κ) : κ × Occasion := (i.action, i.occasion)

namespace Environs

/-- The answer to an action, and the desk that it leaves. -/
def answer {α : Type} (f : Except Failure α → Answered κ) (x : Act (Desk κ ε) α) (d : Desk κ ε) :
    Answered κ × Desk κ ε :=
  (f (x.run d).1, (x.run d).2)

def perform (c : Environs κ ξ ε) : Doing κ ξ → Desk κ ε → Answered κ × Desk κ ε
  | .call call => answer .edge (Desk.onPort call.perform)
  | .read index => answer .level (Desk.read c.toSurroundings index)
  | .readAll => answer .pins (Desk.readAll c.toSurroundings)
  | .poll => answer .made (Desk.poll c.toSurroundings c.invoke)
  | .monitor => fun d =>
    (.made ((Desk.poll c.toSurroundings c.invoke).run d).1,
      ((Desk.monitorCycle c.toSurroundings c.invoke).run d).2)
  | .elsewhere x => fun d => (.nothing, { d with around := c.happen x d.around })

/-- The answers in the course of a run, and the desk in the end. -/
def run (c : Environs κ ξ ε) : List (Doing κ ξ) → Desk κ ε → List (Answered κ) × Desk κ ε
  | [], d => ([], d)
  | x :: xs, d =>
    let (answer, d) := c.perform x d
    let (answers, d) := run c xs d
    (answer :: answers, d)

/-- The part of the world that sees callbacks being called and coming back, and sees nothing else.
-/
structure Tells (told : ε → List (Invocation κ)) (c : Environs κ ξ ε) : Prop where
  read : ∀ mcu w, told ((c.read mcu).run w).2 = told w
  pause : ∀ delay w, told (c.pause delay w) = told w
  note : ∀ n w, told (c.note n w) = told w
  happen : ∀ x w, told (c.happen x w) = told w
  invoke : ∀ action occasion d, told (c.invoke action occasion d).2.around =
    told d.around ++ [⟨action, occasion, (c.invoke action occasion d).1.isSome⟩]

/-- The same levels are read in worlds that are related, and the same happens in them. Callbacks
make the same calls on their ports; whether they fail is up to each of them. Nothing but the log
records what is noted. -/
structure Paired (R : ε → ε' → Prop) (c : Environs κ ξ ε) (c' : Environs κ ξ ε') : Prop where
  read : ∀ mcu, Act.Matches R (c.read mcu) (c'.read mcu)
  pause : ∀ delay {w w'}, R w w' → R (c.pause delay w) (c'.pause delay w')
  note : ∀ n {w w'}, R w w' → R (c.note n w) w'
  note' : ∀ n {w w'}, R w w' → R w (c'.note n w')
  happen : ∀ x {w w'}, R w w' → R (c.happen x w) (c'.happen x w')
  invoke : ∀ action occasion {d d'}, Agree d.port d'.port → R d.around d'.around →
    ∃ calls, (c.invoke action occasion d).2.port = d.port.afterAll calls ∧
      (c'.invoke action occasion d').2.port = d'.port.afterAll calls ∧
        R (c.invoke action occasion d).2.around (c'.invoke action occasion d').2.around

/-- Two desks at the same point of two runs: the ports agree, the same callbacks were called with
the same occasions in the same order, and each port has counted the invocations and those that
failed. -/
structure Abreast (R : ε → ε' → Prop) (told : ε → List (Invocation κ))
    (told' : ε' → List (Invocation κ)) (d : Desk κ ε) (d' : Desk κ ε') : Prop where
  port : Agree d.port d'.port
  around : R d.around d'.around
  invocations : (told d.around).map Invocation.call = (told' d'.around).map Invocation.call
  callbacks : d.port.stats.callbacks = (told d.around).length
  failures : d.port.stats.failures = (told d.around).countP Invocation.failed
  failures' : d'.port.stats.failures = (told' d'.around).countP Invocation.failed

variable {R : ε → ε' → Prop} {told : ε → List (Invocation κ)} {told' : ε' → List (Invocation κ)}
  {c : Environs κ ξ ε} {c' : Environs κ ξ ε'} {d : Desk κ ε} {d' : Desk κ ε'}

theorem Abreast.worlds (h : Abreast R told told' d d') {w : ε} {w' : ε'} (hw : R w w')
    (htold : told w = told d.around) (htold' : told' w' = told' d'.around) :
    Abreast R told told' { d with around := w } { d' with around := w' } where
  port := h.port
  around := hw
  invocations := by
    rw [htold, htold']
    exact h.invocations
  callbacks := by
    rw [htold]
    exact h.callbacks
  failures := by
    rw [htold]
    exact h.failures
  failures' := by
    rw [htold']
    exact h.failures'

theorem Abreast.ports (h : Abreast R told told' d d') {p q : InputPort κ} (hagree : Agree p q)
    (hcallbacks : p.stats.callbacks = d.port.stats.callbacks)
    (hfailures : p.stats.failures = d.port.stats.failures)
    (hfailures' : q.stats.failures = d'.port.stats.failures) :
    Abreast R told told' { d with port := p } { d' with port := q } :=
  ⟨hagree, h.around, h.invocations, hcallbacks.trans h.callbacks, hfailures.trans h.failures,
    hfailures'.trans h.failures'⟩

theorem countP_failed_concat (is : List (Invocation κ)) (i : Invocation κ) :
    (is ++ [i]).countP Invocation.failed =
      is.countP Invocation.failed + if i.failed then 1 else 0 := by
  rw [List.countP_append, List.countP_singleton]

/-- A callback is called on both sides and does the same to its port. -/
theorem Abreast.invoked (h : Abreast R told told' d d') (hpair : Paired R c c')
    (htold : c.Tells told) (htold' : c'.Tells told') (action : κ) (occasion : Occasion) :
    Abreast R told told' (Desk.invoked c.invoke action occasion d).2
      (Desk.invoked c'.invoke action occasion d').2 := by
  -- the calls made on the ports leave the counters alone, which are then raised by one
  obtain ⟨calls, hport, hport', hworlds⟩ := hpair.invoke action occasion h.port h.around
  have hseen := htold.invoke action occasion d
  have hseen' := htold'.invoke action occasion d'
  have hagree := (h.port.afterAll calls).countCall (c.invoke action occasion d).1.isSome
    (c'.invoke action occasion d').1.isSome
  rw [← hport, ← hport'] at hagree
  refine ⟨hagree, hworlds, ?_, ?_, ?_, ?_⟩
  · show (told (c.invoke action occasion d).2.around).map Invocation.call =
      (told' (c'.invoke action occasion d').2.around).map Invocation.call
    rw [hseen, hseen', List.map_append, List.map_append, h.invocations]
    rfl
  · show (c.invoke action occasion d).2.port.stats.callbacks + 1 =
      (told (c.invoke action occasion d).2.around).length
    rw [hseen, hport, stats_afterAll, h.callbacks, List.length_append]
    rfl
  · show (c.invoke action occasion d).2.port.stats.failures + _ =
      (told (c.invoke action occasion d).2.around).countP Invocation.failed
    rw [hseen, hport, stats_afterAll, h.failures, countP_failed_concat]
  · show (c'.invoke action occasion d').2.port.stats.failures + _ =
      (told' (c'.invoke action occasion d').2.around).countP Invocation.failed
    rw [hseen', hport', stats_afterAll, h.failures', countP_failed_concat]

theorem report_around {P : ε → Prop} (c : Environs κ ξ ε) (notice : Nat → Notice) {d : Desk κ ε}
    (hd : P d.around) (hnote : ∀ n, P (c.note n d.around)) :
    P (Desk.report c.toSurroundings notice d).around := by
  rcases hallow : d.port.throttle.allow (c.now d.around) with ⟨allowed, throttle⟩
  simp only [Desk.report, hallow]
  cases allowed
  · exact hd
  · exact hnote _

theorem Abreast.report (h : Abreast R told told' d d') (hpair : Paired R c c')
    (htold : c.Tells told) (notice : Nat → Notice) :
    Abreast R told told' (Desk.report c.toSurroundings notice d) d' := by
  obtain ⟨throttle, hport⟩ := Desk.report_port c.toSurroundings notice d
  have hsame : told (Desk.report c.toSurroundings notice d).around = told d.around :=
    report_around (P := fun w => told w = told d.around) c notice rfl fun n => htold.note n _
  refine ⟨?_, report_around (P := fun w => R w d'.around) c notice h.around fun n =>
    hpair.note n h.around, ?_, ?_, ?_, h.failures'⟩
  · rw [hport]
    exact { h.port with }
  · rw [hsame]
    exact h.invocations
  · rw [hport, hsame]
    exact h.callbacks
  · rw [hport, hsame]
    exact h.failures

theorem Abreast.report' (h : Abreast R told told' d d') (hpair : Paired R c c')
    (htold' : c'.Tells told') (notice : Nat → Notice) :
    Abreast R told told' d (Desk.report c'.toSurroundings notice d') := by
  obtain ⟨throttle, hport⟩ := Desk.report_port c'.toSurroundings notice d'
  have hsame : told' (Desk.report c'.toSurroundings notice d').around = told' d'.around :=
    report_around (P := fun w => told' w = told' d'.around) c' notice rfl fun n => htold'.note n _
  refine ⟨?_, report_around (P := fun w => R d.around w) c' notice h.around fun n =>
    hpair.note' n h.around, ?_, h.callbacks, h.failures, ?_⟩
  · rw [hport]
    exact { h.port with }
  · rw [hsame]
    exact h.invocations
  · rw [hport, hsame]
    exact h.failures'

theorem Paired.twin (hpair : Paired R c c') (htold : c.Tells told) (htold' : c'.Tells told') :
    Desk.Twin (Abreast R told told') c.toSurroundings c'.toSurroundings c.invoke c'.invoke where
  agree h := h.port
  read mcu d d' h := by
    obtain ⟨hlevel, hw⟩ := hpair.read mcu _ _ h.around
    exact ⟨hlevel, h.worlds hw (htold.read mcu _) (htold'.read mcu _)⟩
  pause delay _ _ h :=
    h.worlds (hpair.pause delay h.around) (htold.pause delay _) (htold'.pause delay _)
  countSample h := h.ports h.port.countSample rfl rfl rfl
  accept levels _ _ h := h.ports (h.port.accept levels) rfl rfl rfl
  flag index e _ _ h := h.ports (h.port.flag index e) rfl rfl rfl
  invoked action occasion _ _ h := h.invoked hpair htold htold' action occasion
  report notice _ _ h := h.report hpair htold notice
  report' notice _ _ h := h.report' hpair htold' notice

/-- Whatever is done on both sides is answered alike, and leaves the desks abreast. -/
theorem Abreast.perform (h : Abreast R told told' d d') (hpair : Paired R c c')
    (htold : c.Tells told) (htold' : c'.Tells told') (x : Doing κ ξ) :
    (c.perform x d).1 = (c'.perform x d').1 ∧
      Abreast R told told' (c.perform x d).2 (c'.perform x d').2 := by
  have htwin := hpair.twin htold htold'
  have hanswer : ∀ {α : Type} (f : Except Failure α → Answered κ) {x : Act (Desk κ ε) α}
      {y : Act (Desk κ ε') α}, Act.Matches (Abreast R told told') x y →
        (answer f x d).1 = (answer f y d').1 ∧
          Abreast R told told' (answer f x d).2 (answer f y d').2 := by
    intro α f x y hmatch
    obtain ⟨hres, hnext⟩ := hmatch d d' h
    exact ⟨congrArg f hres, hnext⟩
  cases x with
  | call call =>
    obtain ⟨hres, hagree⟩ := matches_call call _ _ h.port
    exact ⟨congrArg Answered.edge hres, h.ports hagree
      (congrArg Stats.callbacks (stats_after d.port call))
      (congrArg Stats.failures (stats_after d.port call))
      (congrArg Stats.failures (stats_after d'.port call))⟩
  | read index => exact hanswer .level (htwin.readOne index)
  | readAll => exact hanswer .pins htwin.readAll
  | poll => exact hanswer .made htwin.poll
  | monitor =>
    exact ⟨congrArg Answered.made (htwin.poll d d' h).1, (htwin.monitorCycle d d' h).2⟩
  | elsewhere x => exact ⟨rfl, h.worlds (hpair.happen x h.around) (htold.happen x _)
      (htold'.happen x _)⟩

theorem Abreast.run (h : Abreast R told told' d d') (hpair : Paired R c c')
    (htold : c.Tells told) (htold' : c'.Tells told') (xs : List (Doing κ ξ)) :
    (c.run xs d).1 = (c'.run xs d').1 ∧
      Abreast R told told' (c.run xs d).2 (c'.run xs d').2 := by
  induction xs generalizing d d' with
  | nil => exact ⟨rfl, h⟩
  | cons x xs ih =>
    obtain ⟨hfirst, hnext⟩ := h.perform hpair htold htold' x
    obtain ⟨hrest, hlast⟩ := ih hnext
    exact ⟨congrArg₂ List.cons hfirst hrest, hlast⟩

end Environs

/-- Two runs from the opening of a port on, with the same levels to read and callbacks that make the
same calls. Whichever invocations fail in the one run or in the other, the same is answered, and the
runs stay abreast. -/
theorem failures_indifferent {β : Type} [Backend β] {pins : List InputPin}
    {settings : InputSettings} {now : Nat} {g g' : Gpio β} {p : InputPort κ}
    (hopen : (openPort pins settings now).run g = (.ok p, g')) {R : ε → ε' → Prop}
    {told : ε → List (Invocation κ)} {told' : ε' → List (Invocation κ)} {c : Environs κ ξ ε}
    {c' : Environs κ ξ ε'} (hpair : Environs.Paired R c c') (htold : c.Tells told)
    (htold' : c'.Tells told') {w : ε} {w' : ε'} (hw : R w w') (hnone : told w = [])
    (hnone' : told' w' = []) (xs : List (Doing κ ξ)) :
    (c.run xs ⟨p, w⟩).1 = (c'.run xs ⟨p, w'⟩).1 ∧
      Environs.Abreast R told told' (c.run xs ⟨p, w⟩).2 (c'.run xs ⟨p, w'⟩).2 := by
  have hstats : p.stats = {} := (fresh_openPort hopen).1
  have hstart : Environs.Abreast R told told' (⟨p, w⟩ : Desk κ ε) ⟨p, w'⟩ := by
    refine ⟨Agree.refl p, hw, ?_, ?_, ?_, ?_⟩
    · rw [hnone, hnone']
    · rw [hnone, hstats]
      rfl
    · rw [hnone, hstats]
      rfl
    · rw [hnone', hstats]
      rfl
  exact hstart.run hpair htold htold' xs

/-! ## A callback that fails on some occasions -/

abbrev Witnessed : Type := Bool × List (Invocation Unit)

/-- Every callback takes the group callback away, and fails on the occasions of `fails`. -/
def moody (fails : Occasion → Bool) : Environs Unit Bool Witnessed where
  read _ := Act.gets Prod.fst
  pause _ w := w
  now _ := 0
  note _ w := w
  invoke action occasion d :=
    (if fails occasion then some "no" else none,
      ⟨d.port.afterAll [.callback .uninstallGroup],
        (d.around.1, d.around.2 ++ [⟨action, occasion, fails occasion⟩])⟩)
  happen level w := (level, w.2)

theorem moody_tells (fails : Occasion → Bool) : (moody fails).Tells Prod.snd where
  read _ _ := rfl
  pause _ _ := rfl
  note _ _ := rfl
  happen _ _ := rfl
  invoke action occasion d := by
    have hfailed : ((moody fails).invoke action occasion d).1.isSome = fails occasion := by
      show (if fails occasion then some "no" else none).isSome = fails occasion
      cases fails occasion <;> rfl
    rw [hfailed]
    rfl

theorem moody_paired (fails fails' : Occasion → Bool) :
    Environs.Paired (fun w w' : Witnessed => w.1 = w'.1) (moody fails) (moody fails') where
  read _ := Act.Matches.gets fun _ _ h => h
  pause _ _ _ h := h
  note _ _ _ h := h
  note' _ _ _ h := h
  happen _ _ _ _ := rfl
  invoke _ _ _ _ _ h := ⟨[.callback .uninstallGroup], rfl, rfl, h⟩

/-- Both levels rise and fall. The first input has a callback of its own. -/
def bothRiseAndFall : List (Doing Unit Bool) :=
  [.call (.setEdge 0 .both), .call (.setEdge 1 .both), .call (.callback (.install 0 ())),
    .call (.callback (.installGroup ())), .elsewhere true, .poll, .call (.takeEdge 1),
    .elsewhere false, .monitor]

def mayFail (fails : Occasion → Bool) : List (Answered Unit) × Desk Unit Witnessed :=
  (moody fails).run bothRiseAndFall ⟨pairPort, (false, [])⟩

/-- The callback of the first input is called for both edges. In one run the first of these calls
fails, in the other none does. -/
theorem failures_indifferent_moody :
    openPair.run pairGpio = (.ok pairPort, (openPair.run pairGpio).2) ∧
      (mayFail (· == .single .rising)).1 = (mayFail fun _ => false).1 ∧
        (mayFail (· == .single .rising)).2.port.stats.callbacks = 2 ∧
          (mayFail (· == .single .rising)).2.port.stats.failures = 1 ∧
            (mayFail fun _ => false).2.port.stats.failures = 0 ∧
              (mayFail fun _ => false).2.port.flagOf 1 = some .falling := by
  have hworlds : ((false, []) : Witnessed).1 = ((false, []) : Witnessed).1 := rfl
  have hsame := failures_indifferent run_openPair
    (moody_paired (· == .single .rising) fun _ => false) (moody_tells _) (moody_tells _) hworlds
    rfl rfl bothRiseAndFall
  exact ⟨run_openPair, hsame.1, by decide +kernel, by decide +kernel, by decide +kernel,
    by decide +kernel⟩

end BoardGpio
