import BoardGpio.Proofs.Input.Account
import BoardGpio.Proofs.Input.Attended
import BoardGpio.Proofs.Input.Face
import BoardGpio.Proofs.Input.Opened

/-!
# Inputs do not interfere

A cycle compares whole samples and goes through all inputs in one pass. Yet what becomes of one
input is decided by what is done about that input alone: the raw levels read at its chip pin, the
calls on it, and whether a group callback is in place when a cycle runs. The face of the input
follows the port through any run whose callbacks leave the port alone, and tells all that is heard
of the input (`Desk.Listen.follows`). Main statement: two runs on two ports that agree in this about
an input have the same to tell of it, whatever the other inputs do (`inputs_apart`).
-/

set_option autoImplicit false

namespace BoardGpio

open InputPort

variable {κ ε : Type}

/-! ## Cycles whose callbacks leave the port alone -/

namespace Desk

variable {s : Surroundings ε} {invoke : Invoke κ ε}

/-- Callbacks that make no call on their port. -/
def Quiet (invoke : Invoke κ ε) : Prop :=
  ∀ action occasion d, (invoke action occasion d).2.port = d.port

theorem makeCall_quiet (s : Surroundings ε) (hquiet : Quiet invoke) (active : PinSet)
    {call : PendingCall κ} {d : Desk κ ε} (hcurrent : call.isCurrent d.port = true) :
    (makeCall s invoke active call d).1 = true ∧ ∃ stats throttle,
      (makeCall s invoke active call d).2.port =
        { d.port with stats := stats, throttle := throttle } := by
  have hport := hquiet call.callback.action (call.occasion active) d
  unfold makeCall
  rw [if_pos hcurrent]
  rcases hinv : invoke call.callback.action (call.occasion active) d with ⟨_ | reason, d'⟩
  · rw [hinv] at hport
    refine ⟨rfl, (d.port.countCall false).stats, d.port.throttle, ?_⟩
    show d'.port.countCall false = _
    rw [show d'.port = d.port from hport]
    rfl
  · rw [hinv] at hport
    obtain ⟨throttle, hreport⟩ := report_port s
      (fun suppressed => .callbackFailed call.index call.edge reason suppressed)
      { d' with port := d'.port.countCall true }
    refine ⟨rfl, (d.port.countCall true).stats, throttle, ?_⟩
    simp only [Option.isSome_some]
    rw [hreport, show d'.port = d.port from hport]
    rfl

theorem makeCalls_quiet (s : Surroundings ε) (hquiet : Quiet invoke) (active : PinSet)
    {calls : List (PendingCall κ)} {d : Desk κ ε}
    (hcurrent : ∀ call ∈ calls, call.isCurrent d.port = true) :
    (makeCalls s invoke active calls d).1 = calls ∧ ∃ stats throttle,
      (makeCalls s invoke active calls d).2.port =
        { d.port with stats := stats, throttle := throttle } := by
  induction calls generalizing d with
  | nil => exact ⟨rfl, _, _, rfl⟩
  | cons call calls ih =>
    obtain ⟨hmade, stats, throttle, hport⟩ :=
      makeCall_quiet s hquiet active (hcurrent call List.mem_cons_self)
    -- no counter decides whether a call is due
    have hrest : ∀ call' ∈ calls,
        call'.isCurrent (makeCall s invoke active call d).2.port = true := by
      intro call' hcall'
      rw [hport]
      exact hcurrent call' (List.mem_cons_of_mem _ hcall')
    obtain ⟨hall, stats', throttle', hport'⟩ := ih hrest
    refine ⟨?_, stats', throttle', ?_⟩
    · rw [fst_makeCalls_cons, if_pos hmade, hall]
    · show (makeCalls s invoke active calls (makeCall s invoke active call d).2).2.port = _
      rw [hport', hport]

/-- A port without debounce at which an input has a face, with no more inputs than a set can hold.
-/
structure Faces (p : InputPort κ) (index : Nat) (f : Face) : Prop where
  face : p.face? index = some f
  few : p.size ≤ PinSet.capacity
  prompt : p.settings.debounce = none

variable {p : InputPort κ} {index : Nat} {f : Face}

theorem Faces.after (h : Faces p index f) (call : PortCall κ) :
    Faces (p.after call) index (f.afterAll (call.turns index)) where
  face := face?_after call h.face
  few := by
    rw [size_after]
    exact h.few
  prompt := by
    rw [settings_after]
    exact h.prompt

/-- A cycle whose reads go well does not fail, turns the face by the raw level of its input, and
dispatches for the input what the face has to be told. -/
theorem Faces.poll (h : Faces p index f) (hquiet : Quiet invoke) {w w' : ε} {raws : List Bool}
    (hread : (Act.collect s.read p.chipPins).run w = (.ok raws, w')) {high : Bool}
    (hhigh : raws[index]? = some high) :
    ∃ made d, (poll s invoke).run ⟨p, w⟩ = (.ok made, d) ∧
      heardOf index made = f.heard (.poll high p.group.isSome) ∧
        Faces d.port index (f.after (.poll high p.group.isSome)) := by
  obtain ⟨i, hi, rfl⟩ := face?_eq_some_iff.mp h.face
  have hsampling : Sampling s p w (some raws) w' := .plain raws w' h.prompt hread
  have hlen := hsampling.length_view
  have hview : (p.view raws)[index]? = some (i.pin.active.normalize high) :=
    getElem?_view hi hhigh
  have hrun := run_poll invoke hsampling
  simp only at hrun
  by_cases hsame : p.view raws = p.levels
  · -- the input's own level is the same, too, so its face has nothing to tell
    have hlevel : i.level = i.pin.active.normalize high := by
      rw [hsame, InputPort.levels, List.getElem?_map, hi] at hview
      exact Option.some.inj hview
    obtain ⟨hsilent, hkept⟩ := Face.steady (f := i.face) hlevel p.group.isSome
    rw [if_pos hsame] at hrun
    refine ⟨[], _, hrun, hsilent.symm, ⟨?_, h.few, h.prompt⟩⟩
    rw [hkept]
    exact h.face
  · rw [if_neg hsame] at hrun
    obtain ⟨active, hsettle⟩ :=
      run_settle_ok s invoke (hlen ▸ h.few) ⟨p.countSample, w'⟩
    have hcurrent : ∀ call ∈ p.countSample.calls (p.view raws),
        call.isCurrent (p.countSample.accept (p.view raws)) = true := fun call hcall =>
      isCurrent_of_mem_calls (p := p.countSample) hlen hcall
    obtain ⟨hmade, stats, throttle, hport⟩ := makeCalls_quiet s hquiet active
      (d := ⟨p.countSample.accept (p.view raws), w'⟩) hcurrent
    refine ⟨_, _, hrun.trans hsettle, ?_, ⟨?_, ?_, ?_⟩⟩
    · simp only
      rw [hmade]
      exact heardOf_calls (p := p.countSample) hi hview
    · simp only
      rw [hport]
      exact face?_accept (p := p.countSample) hi hview
    · simp only
      rw [hport]
      exact Nat.le_trans (Nat.le_of_eq (size_accept p.countSample hlen)) h.few
    · simp only
      rw [hport]
      exact h.prompt

/-! ## Runs -/

/-- A run with what it does about one input and what is heard of that input. Between cycles the
world may change as it likes, and calls may be made on the port. Cycles may have any surroundings
and callbacks, as long as their reads go well and the callbacks make no calls on the port. -/
inductive Listen (index : Nat) (d₀ : Desk κ ε) : List Turn → List Heard → Desk κ ε → Prop where
  | start : Listen index d₀ [] [] d₀
  | elsewhere {turns : List Turn} {heard : List Heard} {d : Desk κ ε}
      (h : Listen index d₀ turns heard d) (w : ε) : Listen index d₀ turns heard ⟨d.port, w⟩
  | call {turns : List Turn} {heard : List Heard} {d : Desk κ ε}
      (h : Listen index d₀ turns heard d) (call : PortCall κ) :
      Listen index d₀ (turns ++ call.turns index) (heard ++ call.heard index d.port)
        ((onPort call.perform).run d).2
  | poll {turns : List Turn} {heard : List Heard} {d : Desk κ ε}
      (h : Listen index d₀ turns heard d) {s : Surroundings ε} {invoke : Invoke κ ε}
      (hquiet : Quiet invoke) {raws : List Bool} {w : ε}
      (hread : (Act.collect s.read d.port.chipPins).run d.around = (.ok raws, w)) {high : Bool}
      (hhigh : raws[index]? = some high) {made : List (PendingCall κ)} {d' : Desk κ ε}
      (hpoll : (poll s invoke).run d = (.ok made, d')) :
      Listen index d₀ (turns ++ [.poll high d.port.group.isSome]) (heard ++ heardOf index made) d'

variable {turns : List Turn} {heard : List Heard} {d d₀ : Desk κ ε}

/-- The face of an input follows the port through every run, and what is heard of the input is what
the face has to tell. -/
theorem Listen.follows (h₀ : Faces d₀.port index f) (h : Listen index d₀ turns heard d) :
    Faces d.port index (f.afterAll turns) ∧ heard = f.heardIn turns := by
  -- on the run; every step of it is a list of turns of the face, which may be empty
  induction h with
  | start => exact ⟨h₀, rfl⟩
  | elsewhere _ w ih => exact ih
  | call _ call ih =>
    obtain ⟨hfaces, rfl⟩ := ih
    rw [Face.afterAll_append, Face.heardIn_append, heard_call call hfaces.face]
    exact ⟨hfaces.after call, rfl⟩
  | poll _ hquiet hread hhigh hpoll ih =>
    obtain ⟨hfaces, rfl⟩ := ih
    obtain ⟨made, d', hrun, hheard, hnext⟩ := hfaces.poll hquiet hread hhigh
    rw [hpoll] at hrun
    cases hrun
    rw [Face.afterAll_append, Face.heardIn_append, hheard]
    exact ⟨hnext, congrArg _ (List.append_nil _).symm⟩

end Desk

namespace InputPort

theorem faces_openPort {β : Type} [Backend β] {pins : List InputPin} {settings : InputSettings}
    {now : Nat} {g g' : Gpio β} {p : InputPort κ}
    (hopen : (openPort pins settings now).run g = (.ok p, g'))
    (hprompt : settings.debounce = none) {index : Nat} {pin : InputPin}
    (hpin : pins[index]? = some pin) :
    ∃ level, p.levels[index]? = some level ∧
      Desk.Faces p index { active := pin.active, level := level } := by
  obtain ⟨hfew, hall⟩ := reference_openPort hopen
  obtain ⟨hstats, hflags, hplaced, -⟩ := fresh_openPort hopen
  obtain ⟨mcu, level, -, i, hi, hactive, -, htrigger, hlevel⟩ := hall index pin hpin
  have hflag : i.occurred = none := by
    have hnone := hflags index
    rw [flagOf, hi] at hnone
    exact hnone
  have hown : i.callback = none := by
    cases hc : i.callback with
    | none => rfl
    | some c => exact absurd (.inr ⟨index, i, hi, hc⟩) (hplaced c)
  refine ⟨level, ?_, face?_eq_some_iff.mpr ⟨i, hi, ?_⟩, hfew, ?_⟩
  · rw [levels, List.getElem?_map, hi, Option.map_some, hlevel]
  · rw [Input.face, hactive, hlevel, htrigger, hflag, hown]
    rfl
  · rw [settings_openPort hopen]
    exact hprompt

end InputPort

/-- Two ports that were opened without debounce, with the same pin at one place and the same
reference level there, and a run on each. If the runs do the same about that input, and have a group
callback in place at the same cycles, then the same is heard of it: the edges dispatched to its own
callback or to the group's, and the flags taken. And no cycle whose reads go well fails; the calls
that it gives back, from which the dispatched edges are heard, are those that the world sees. -/
theorem inputs_apart {β β' κ κ' ε ε' : Type} [Backend β] [Backend β']
    {pins pins' : List InputPin} {settings settings' : InputSettings} {now now' : Nat}
    {g₀ g₁ : Gpio β} {g₀' g₁' : Gpio β'} {p : InputPort κ} {p' : InputPort κ'}
    (hopen : (openPort pins settings now).run g₀ = (.ok p, g₁))
    (hopen' : (openPort pins' settings' now').run g₀' = (.ok p', g₁'))
    (hprompt : settings.debounce = none) (hprompt' : settings'.debounce = none)
    {index : Nat} {pin : InputPin} (hpin : pins[index]? = some pin)
    (hpin' : pins'[index]? = some pin) (href : p.levels[index]? = p'.levels[index]?)
    {w₀ : ε} {w₀' : ε'} {turns : List Turn} {heard heard' : List Heard} {d : Desk κ ε}
    {d' : Desk κ' ε'} (hrun : Desk.Listen index ⟨p, w₀⟩ turns heard d)
    (hrun' : Desk.Listen index ⟨p', w₀'⟩ turns heard' d') :
    heard = heard' ∧ d.port.face? index = d'.port.face? index ∧
      ∀ (s : Surroundings ε) (invoke : Invoke κ ε) (raws : List Bool) (w : ε),
        Desk.Quiet invoke → (Act.collect s.read d.port.chipPins).run d.around = (.ok raws, w) →
          ∃ made d'', (Desk.poll s invoke).run d = (.ok made, d'') ∧
            ∀ log : ε → List (κ × Occasion), Desk.Witnesses log s invoke →
              ∃ active, log d''.around = log d.around ++ made.map fun call =>
                (call.callback.action, call.occasion active) := by
  obtain ⟨level, hlevel, hfaces⟩ := faces_openPort hopen hprompt hpin
  obtain ⟨level', hlevel', hfaces'⟩ := faces_openPort hopen' hprompt' hpin'
  have hsame : level = level' := by
    rw [hlevel, hlevel'] at href
    exact Option.some.inj href
  subst hsame
  obtain ⟨hend, rfl⟩ := hrun.follows hfaces
  obtain ⟨hend', rfl⟩ := hrun'.follows hfaces'
  refine ⟨rfl, hend.face.trans hend'.face.symm, fun s invoke raws w hquiet hread => ?_⟩
  obtain ⟨i, hi, -⟩ := face?_eq_some_iff.mp hend.face
  have hlt : index < raws.length := by
    rw [Act.collect_length _ hread, chipPins, List.length_map]
    exact (List.getElem?_eq_some_iff.mp hi).1
  obtain ⟨made, d'', hpoll, -⟩ := hend.poll hquiet hread (List.getElem?_eq_getElem hlt)
  have hsampling : Desk.Sampling s d.port d.around (some raws) w := .plain raws w hend.prompt hread
  exact ⟨made, d'', hpoll, fun log hlog => Desk.poll_log hlog hsampling hpoll⟩

/-! ## A restless neighbour -/

/-- The same two pins, the second of them active when it is low. -/
def openTurned : Act (Gpio Sim) (InputPort Unit) :=
  InputPort.openPort [{ pin := 0 }, { pin := 1, active := .low }] {} 0

def turnedPort : InputPort Unit where
  inputs := [{ pin := { pin := 0 }, mcu := 0, level := false },
    { pin := { pin := 1, active := .low }, mcu := 1, level := true }]
  settings := {}
  throttle := .begin InputPort.reportWindowMs InputPort.reportCap 0

theorem run_openTurned :
    openTurned.run pairGpio = (.ok turnedPort, (openTurned.run pairGpio).2) := by
  have hport : (openTurned.run pairGpio).1 = .ok turnedPort := rfl
  rw [← hport]

def twoLevels : Surroundings (Bool × Bool) where
  read mcu := Act.gets fun w => if mcu = 0 then w.1 else w.2
  pause _ w := w
  now _ := 0
  note _ w := w

theorem read_twoLevels (w : Bool × Bool) :
    (Act.collect twoLevels.read [0, 1]).run w = (.ok [w.1, w.2], w) := rfl

def idle : Invoke Unit (Bool × Bool) := fun _ _ d => (none, d)

/-- The first input gets a callback and rises, loses the callback and falls, and its flag is taken.
-/
def riseAndFall : List Turn :=
  [.setEdge .both, .install, .poll true false, .uninstall, .poll false false, .takeEdge]

def riseAndFallHeard : List Heard := [.told true .rising, .taken (some .falling)]

/-- The second input stays quiet in one run. In the other it is active when low, has a trigger and a
callback, changes at other times, and its flag is taken. -/
theorem inputs_apart_neighbour :
    openPair.run pairGpio = (.ok pairPort, (openPair.run pairGpio).2) ∧
      openTurned.run pairGpio = (.ok turnedPort, (openTurned.run pairGpio).2) ∧
        ∃ (heard : List Heard) (d d' : Desk Unit (Bool × Bool)),
          Desk.Listen 0 ⟨pairPort, (false, false)⟩ riseAndFall riseAndFallHeard d ∧
            Desk.Listen 0 ⟨turnedPort, (false, false)⟩ riseAndFall heard d' ∧
              riseAndFallHeard = heard := by
  have hquiet : Desk.Quiet idle := fun _ _ _ => rfl
  have hstart : Desk.Listen 0 ⟨pairPort, (false, false)⟩ [] [] ⟨pairPort, (false, false)⟩ := .start
  have hready := (hstart.call (.setEdge 0 .both)).call (.callback (.install 0 ()))
  have hrisen := (hready.elsewhere (true, false)).poll hquiet (read_twoLevels _) rfl rfl
  have hfallen := ((hrisen.call (.callback (.uninstall 0))).elsewhere (false, false)).poll hquiet
    (read_twoLevels _) rfl rfl
  have hrun : Desk.Listen 0 ⟨pairPort, (false, false)⟩ riseAndFall riseAndFallHeard _ :=
    hfallen.call (.takeEdge 0)
  have hstart' : Desk.Listen 0 ⟨turnedPort, (false, false)⟩ [] [] ⟨turnedPort, (false, false)⟩ :=
    .start
  have hready' := (((hstart'.call (.setEdge 1 .both)).call (.setEdge 0 .both)).call
    (.callback (.install 1 ()))).call (.callback (.install 0 ()))
  have hrisen' := (hready'.elsewhere (true, true)).poll hquiet (read_twoLevels _) rfl rfl
  have hfallen' := (((hrisen'.call (.takeEdge 1)).call (.callback (.uninstall 0))).elsewhere
    (false, false)).poll hquiet (read_twoLevels _) rfl rfl
  have hrun' : Desk.Listen 0 ⟨turnedPort, (false, false)⟩ riseAndFall _ _ :=
    hfallen'.call (.takeEdge 0)
  exact ⟨run_openPair, run_openTurned, _, _, _, hrun, hrun',
    (inputs_apart run_openPair run_openTurned rfl rfl rfl rfl rfl hrun hrun').1⟩

end BoardGpio
