import BoardGpio.Proofs.Input.Account
import BoardGpio.Proofs.Input.Attended
import Mathlib.Data.List.Forall2

/-!
# The edges that a callback is told of

Seen from one input, a run is a sequence of accepted levels, each with the trigger in force when it
was accepted (`Seen`). The edges that the input's own callback has to be told of can be read off
that sequence alone: whenever a level differs from the one before and the trigger lets the edge
through, the edge is told, and otherwise it is lost (`stream`). Main statement: that is what the
callback is told, from the opening of the port on, whatever else happens on the port and around it
(`edges_streamed`).
-/

set_option autoImplicit false

namespace BoardGpio

open InputPort

/-- A level that was accepted, and the trigger in force then. -/
structure Seen where
  trigger : Trigger
  level : Bool

/-- The edges to be told, from a first level on. -/
def stream : Bool → List Seen → List Edge
  | _, [] => []
  | last, x :: xs => edgesOf x.trigger last x.level ++ stream x.level xs

/-- The level that was accepted last. -/
def lastLevel : Bool → List Seen → Bool
  | last, [] => last
  | _, x :: xs => lastLevel x.level xs

/-- Edges that take turns, the first of them away from a level. -/
def Alternating : Bool → List Edge → Prop
  | _, [] => True
  | level, e :: es => e = .toward (!level) ∧ Alternating (!level) es

theorem lastLevel_append (last : Bool) (xs : List Seen) (x : Seen) :
    lastLevel last (xs ++ [x]) = x.level := by
  induction xs generalizing last with
  | nil => rfl
  | cons y xs ih => exact ih y.level

/-- A newly accepted level adds its own edge at the end. -/
theorem stream_append (last : Bool) (xs : List Seen) (x : Seen) :
    stream last (xs ++ [x]) = stream last xs ++ edgesOf x.trigger (lastLevel last xs) x.level := by
  induction xs generalizing last with
  | nil => simp [stream, lastLevel]
  | cons y xs ih =>
    rw [List.cons_append, stream, stream, ih, List.append_assoc]
    rfl

/-- With a trigger for both edges no edge is lost, so they take turns. -/
theorem stream_alternating (last : Bool) (xs : List Seen) (h : ∀ x ∈ xs, x.trigger = .both) :
    Alternating last (stream last xs) := by
  induction xs generalizing last with
  | nil => exact True.intro
  | cons x xs ih =>
    have hrest := ih x.level fun y hy => h y (List.mem_cons_of_mem _ hy)
    have hboth : x.trigger = .both := h x (by simp)
    rw [stream, edgesOf, hboth]
    by_cases hsame : x.level = last
    · rw [if_neg fun hne => hne.1 hsame, ← hsame]
      exact hrest
    · have hflip : x.level = !last := by
        cases hx : x.level <;> cases last <;> simp_all
      rw [if_pos ⟨hsame, Trigger.accepts_both _⟩]
      refine ⟨by rw [hflip], ?_⟩
      rw [← hflip]
      exact hrest

namespace Desk

variable {κ ε : Type} {log : ε → List (κ × Occasion)} {s : Surroundings ε} {invoke : Invoke κ ε}
  {index : Nat} {c : Installed κ} {pin : InputPin} {mcu : Nat} {t : Trigger}

/-- What a cycle shows of one input: the level it accepted, if it accepted one. -/
def seen (index : Nat) (pin : InputPin) (t : Trigger) (accepted : Option (List Bool)) : List Seen :=
  match accepted.bind fun raws => raws[index]? with
  | some high => [⟨t, pin.active.normalize high⟩]
  | none => []

/-- A run during which an input's own callback stays in its place, with the trigger in force, what
was seen of the input, and the calls that the cycles made. Between cycles the world may change as it
likes, and so may the port but for that callback. -/
inductive Watch (log : ε → List (κ × Occasion)) (index : Nat) (pin : InputPin) (d₀ : Desk κ ε)
    (t₀ : Trigger) : Trigger → List Seen → List (PendingCall κ) → Desk κ ε → Prop where
  | start : Watch log index pin d₀ t₀ t₀ [] [] d₀
  | elsewhere {t : Trigger} {xs : List Seen} {made : List (PendingCall κ)} {d : Desk κ ε}
      (h : Watch log index pin d₀ t₀ t xs made d) (w : ε) (hw : log w = log d.around) :
      Watch log index pin d₀ t₀ t xs made ⟨d.port, w⟩
  | call {t : Trigger} {xs : List Seen} {made : List (PendingCall κ)} {d : Desk κ ε}
      (h : Watch log index pin d₀ t₀ t xs made d) (call : PortCall κ)
      (hcall : call.LeavesOwn index) :
      Watch log index pin d₀ t₀ (call.triggerAt index t) xs made ((onPort call.perform).run d).2
  | poll {t : Trigger} {xs : List Seen} {made : List (PendingCall κ)} {d : Desk κ ε}
      (h : Watch log index pin d₀ t₀ t xs made d) {s : Surroundings ε} {invoke : Invoke κ ε}
      (hlog : Witnesses log s invoke) (hinvoke : Sparing index invoke)
      {accepted : Option (List Bool)} {w : ε} (hsampling : Sampling s d.port d.around accepted w)
      {now : List (PendingCall κ)} {d' : Desk κ ε} (hpoll : (poll s invoke).run d = (.ok now, d')) :
      Watch log index pin d₀ t₀ t (xs ++ seen index pin t accepted) (made ++ now) d'

/-- What a call that was made looks like to the world. -/
def Saw (call : PendingCall κ) (seen : κ × Occasion) : Prop :=
  seen.1 = call.callback.action ∧ ∃ active, seen.2 = call.occasion active

/-- What is true at every point of such a run. -/
structure Watched (log : ε → List (κ × Occasion)) (index : Nat) (c : Installed κ) (pin : InputPin)
    (mcu : Nat) (first : Bool) (w₀ : ε) (t : Trigger) (xs : List Seen) (made : List (PendingCall κ))
    (d : Desk κ ε) : Prop where
  attended : d.port.Attended index c pin mcu t (lastLevel first xs)
  /-- The callback was told of the edges that it had to be told of, in order and once each. -/
  told : made.filter (PendingCall.isFor c) =
    (stream first xs).map fun e => ⟨index, e, .own c⟩
  /-- The calls that were made are the ones that the world saw. -/
  witnessed : ∃ new, log d.around = log w₀ ++ new ∧ List.Forall₂ Saw made new

variable {first : Bool} {w₀ : ε} {xs : List Seen} {made : List (PendingCall κ)} {d : Desk κ ε}

theorem Watched.call (h : Watched log index c pin mcu first w₀ t xs made d) {call : PortCall κ}
    (hcall : call.LeavesOwn index) :
    Watched log index c pin mcu first w₀ (call.triggerAt index t) xs made
      ((onPort call.perform).run d).2 :=
  ⟨h.attended.after hcall, h.told, h.witnessed⟩

/-- A cycle that accepts nothing new. -/
theorem Watched.quiet (h : Watched log index c pin mcu first w₀ t xs made d) {w : ε}
    (hw : log w = log d.around) {more : List Seen}
    (hmore : more = [] ∨ more = [⟨t, lastLevel first xs⟩]) :
    Watched log index c pin mcu first w₀ t (xs ++ more) made ⟨d.port.countSample, w⟩ := by
  have hattended := h.attended.count
    { d.port.stats with samples := d.port.stats.samples + 1 } d.port.throttle
  have hwitnessed : ∃ new, log w = log w₀ ++ new ∧ List.Forall₂ Saw made new := by
    rw [hw]
    exact h.witnessed
  rcases hmore with rfl | rfl
  · rw [List.append_nil]
    exact ⟨hattended, h.told, hwitnessed⟩
  · refine ⟨?_, ?_, hwitnessed⟩
    · rw [lastLevel_append]
      exact hattended
    · rw [stream_append, edgesOf, if_neg fun hne => hne.1 rfl, List.append_nil]
      exact h.told

/-- A cycle that settles on a sample. -/
theorem Watched.settle (h : Watched log index c pin mcu first w₀ t xs made d)
    (hlog : Witnesses log s invoke) (hinvoke : Sparing index invoke) {levels : List Bool}
    {new : Bool} (hsize : levels.length = d.port.size) (hnew : levels[index]? = some new) {w : ε}
    (hw : log w = log d.around) {now : List (PendingCall κ)} {d' : Desk κ ε}
    (hsettle : (settle s invoke levels).run ⟨d.port.countSample, w⟩ = (.ok now, d')) :
    Watched log index c pin mcu first w₀ t (xs ++ [⟨t, new⟩]) (made ++ now) d' := by
  have hcounted : d.port.countSample.Attended index c pin mcu t (lastLevel first xs) :=
    h.attended.count { d.port.stats with samples := d.port.stats.samples + 1 } d.port.throttle
  have hcalls : ∀ call ∈ d.port.countSample.calls levels,
      call.callback.serial = c.serial → call.index = index ∧ call.target = .own c := by
    intro call hcall hmine
    obtain ⟨hiff, htarget⟩ := hcounted.own.of_mem_calls hcall
    exact ⟨hiff.mp hmine, htarget (hiff.mp hmine)⟩
  have hfew : levels.length ≤ PinSet.capacity := hsize ▸ h.attended.size
  obtain ⟨active, hrun⟩ := run_settle_ok s invoke hfew ⟨d.port.countSample, w⟩
  rw [hrun] at hsettle
  cases hsettle
  -- the edges that the sample asks for are told before the cycle ends, none of them to the flag
  obtain ⟨hattended, hfilter⟩ := makeCalls_attended hlog hinvoke active
    (d.port.countSample.calls levels) (d := ⟨d.port.countSample.accept levels, w⟩) hcalls
    (hcounted.accept hsize hnew)
  have hseen := makeCalls_log hlog active (d.port.countSample.calls levels)
    ⟨d.port.countSample.accept levels, w⟩
  have hmade : ∀ calls : List (PendingCall κ), List.Forall₂ Saw calls
      (calls.map fun call => (call.callback.action, call.occasion active)) := by
    intro calls
    rw [List.forall₂_map_right_iff, List.forall₂_same]
    exact fun call _ => ⟨rfl, active, rfl⟩
  obtain ⟨old, hold, hsaw⟩ := h.witnessed
  refine ⟨?_, ?_, _, ?_, List.rel_append hsaw (hmade _)⟩
  · rw [lastLevel_append]
    exact hattended
  · rw [List.filter_append, h.told, hfilter, hcounted.calls hnew, stream_append, List.map_append]
  · refine hseen.trans ?_
    rw [hw, hold, List.append_assoc]

/-- Every cycle whose reads go well. -/
theorem Watched.poll (h : Watched log index c pin mcu first w₀ t xs made d)
    (hlog : Witnesses log s invoke) (hinvoke : Sparing index invoke)
    {accepted : Option (List Bool)} {w : ε} (hsampling : Sampling s d.port d.around accepted w)
    {now : List (PendingCall κ)} {d' : Desk κ ε}
    (hpoll : (Desk.poll s invoke).run d = (.ok now, d')) :
    Watched log index c pin mcu first w₀ t (xs ++ seen index pin t accepted) (made ++ now) d' := by
  have hw := hsampling.unseen hlog
  have hrun := run_poll invoke hsampling
  rw [show (⟨d.port, d.around⟩ : Desk κ ε) = d from rfl, hpoll] at hrun
  cases accepted with
  | none =>
    cases hrun
    rw [List.append_nil]
    exact h.quiet hw (.inl rfl)
  | some raws =>
    obtain ⟨i, hi, hpin, -, -, hlevel⟩ := h.attended.shown
    have hlt : index < raws.length := by
      rw [hsampling.length]
      exact (List.getElem?_eq_some_iff.mp hi).1
    obtain ⟨high, hhigh⟩ : ∃ high, raws[index]? = some high :=
      ⟨_, List.getElem?_eq_getElem hlt⟩
    have hseen : seen index pin t (some raws) = [⟨t, pin.active.normalize high⟩] := by
      rw [seen, Option.bind_some, hhigh]
    have hview : (d.port.view raws)[index]? = some (pin.active.normalize high) := by
      rw [getElem?_view hi hhigh, hpin]
    rw [hseen]
    simp only at hrun
    by_cases hsame : d.port.view raws = d.port.levels
    · -- the sample is the last one, so this input's level is the one accepted last
      rw [if_pos hsame] at hrun
      cases hrun
      have hlast : pin.active.normalize high = lastLevel first xs := by
        have hlevels : d.port.levels[index]? = some i.level := by
          rw [InputPort.levels, List.getElem?_map, hi]
          rfl
        rw [hsame, hlevels, hlevel] at hview
        injection hview with hview
        exact hview.symm
      rw [List.append_nil, hlast]
      exact h.quiet hw (.inr rfl)
    · rw [if_neg hsame] at hrun
      exact h.settle hlog hinvoke hsampling.length_view hview hw hrun.symm

/-- What is true at the start stays true, with the callback told of what it has to be told of. -/
theorem Watch.watched {d₀ : Desk κ ε} {t₀ : Trigger}
    (h₀ : d₀.port.Attended index c pin mcu t₀ first) (h : Watch log index pin d₀ t₀ t xs made d) :
    Watched log index c pin mcu first d₀.around t xs made d := by
  induction h with
  | start => exact ⟨h₀, rfl, [], (List.append_nil _).symm, .nil⟩
  | elsewhere _ w hw ih =>
    obtain ⟨new, hnew, hsaw⟩ := ih.witnessed
    exact ⟨ih.attended, ih.told, new, hw.trans hnew, hsaw⟩
  | call _ call hcall ih => exact ih.call hcall
  | poll _ hlog hinvoke hsampling hpoll ih => exact ih.poll hlog hinvoke hsampling hpoll

theorem Watched.poll_ok (h : Watched log index c pin mcu first w₀ t xs made d)
    {accepted : Option (List Bool)} {w : ε} (hsampling : Sampling s d.port d.around accepted w) :
    ∃ now d', (Desk.poll s invoke).run d = (.ok now, d') := by
  have hrun := run_poll invoke hsampling
  rw [show (⟨d.port, d.around⟩ : Desk κ ε) = d from rfl] at hrun
  rw [hrun]
  cases accepted with
  | none => exact ⟨_, _, rfl⟩
  | some raws =>
    simp only
    split
    · exact ⟨_, _, rfl⟩
    · have hlen : (d.port.view raws).length ≤ PinSet.capacity := by
        rw [hsampling.length_view]
        exact h.attended.size
      obtain ⟨active, hsettle⟩ := run_settle_ok s invoke hlen
        ⟨d.port.countSample, w⟩
      exact ⟨_, _, hsettle⟩

end Desk

/-- An input that is given a callback before the first cycle, and keeps it. Whatever the polarities
and pulls, whatever else is done with the port, and whatever happens to the levels: the callback is
told of the edges between accepted levels that the trigger in force lets through, and of nothing
else. The first level is that of the reference sample. With a trigger for both edges they take
turns. -/
theorem edges_streamed {β κ : Type} [Backend β] {pins : List InputPin} {settings : InputSettings}
    {now : Nat} {g g' : Gpio β} {p : InputPort κ}
    (hopen : (openPort pins settings now).run g = (.ok p, g')) {index : Nat} {pin : InputPin}
    (hpin : pins[index]? = some pin) :
    ∃ (mcu : Nat) (first : Bool), Reference pins g index mcu first ∧
      ∀ (before : List (PortCall κ)) (action : κ) {ε : Type} (log : ε → List (κ × Occasion)) (w : ε)
        (t : Trigger) (xs : List Seen) (made : List (PendingCall κ)) (d : Desk κ ε),
        Desk.Watch log index pin
            ⟨(p.afterAll before).after (.callback (.install index action)), w⟩
            (before.foldl (PortCall.triggerAt index) .none) t xs made d →
          Desk.Watched log index ⟨(p.afterAll before).installs, action⟩ pin mcu first w t xs made
              d ∧
            ((∀ x ∈ xs, x.trigger = .both) → Alternating first (stream first xs)) ∧
              ∀ (s : Surroundings ε) (invoke : Invoke κ ε),
                (∀ mcu v, ∃ high, ((s.read mcu).run v).1 = .ok high) →
                  ∃ now d', (Desk.poll s invoke).run d = (.ok now, d') := by
  obtain ⟨hsize, hall⟩ := reference_openPort hopen
  obtain ⟨mcu, first, hfirst, hshows⟩ := hall index pin hpin
  refine ⟨mcu, first, hfirst, fun before action ε log w t xs made d hwatch => ?_⟩
  -- the calls before the installation gave out serial numbers below that of the new callback
  have hdistinct : Moment.Distinct (⟨p.afterAll before, [], none⟩ : Moment κ) :=
    (Trace.calls ⟨p, [], none⟩ before).distinct (distinct_openPort hopen)
  have hbefore := hshows.afterAll before
  have hindex : index < (p.afterAll before).size := by
    obtain ⟨i, hi, -⟩ := hbefore
    exact (List.getElem?_eq_some_iff.mp hi).1
  have hattended : ((p.afterAll before).after (.callback (.install index action))).Attended index
      ⟨(p.afterAll before).installs, action⟩ pin mcu
      (before.foldl (PortCall.triggerAt index) .none) first := by
    refine ⟨.install hdistinct hindex action, hbefore.after _, ?_⟩
    rw [size_after, size_afterAll]
    exact hsize
  have hwatched := hwatch.watched hattended
  refine ⟨hwatched, stream_alternating first xs, fun s invoke hreads => ?_⟩
  obtain ⟨accepted, v, hsampling⟩ := Desk.Sampling.exists hreads d.port d.around
  exact hwatched.poll_ok hsampling

/-- A world with one raw level for all pins, which keeps a list of the calls that it sees. -/
abbrev OneLevel : Type := Bool × List (Unit × Occasion)

def oneLevel : Surroundings OneLevel where
  read _ := Act.gets Prod.fst
  pause _ w := w
  now _ := 0
  note _ w := w

def beSeen : Invoke Unit OneLevel := fun action occasion d =>
  (none, { d with around := (d.around.1, d.around.2 ++ [(action, occasion)]) })

/-- The port with a trigger for both edges and a callback at its first input; the level has risen.
-/
def pairRisen : Desk Unit OneLevel :=
  ⟨(pairPort.after (.setEdge 0 .both)).after (.callback (.install 0 ())), (true, [])⟩

/-- The level rises on a port whose first input has a trigger for both edges: its callback is told.
-/
theorem edges_streamed_rise :
    openPair.run pairGpio = (.ok pairPort, (openPair.run pairGpio).2) ∧
      ∃ (made : List (PendingCall Unit)) (d : Desk Unit OneLevel),
        (Desk.poll oneLevel beSeen).run pairRisen = (.ok made, d) ∧
          made.filter (PendingCall.isFor ⟨0, ()⟩) = [⟨0, .rising, .own ⟨0, ()⟩⟩] := by
  have hopen : openPair.run pairGpio = (.ok pairPort, (openPair.run pairGpio).2) := rfl
  have hpin : ([{ pin := 0 }, { pin := 1 }] : List InputPin)[0]? = some { pin := 0 } := rfl
  obtain ⟨mcu, first, hfirst, hstream⟩ := edges_streamed hopen hpin
  have hlow : first = false := by
    obtain ⟨g₁, g₂, mcus, raws, pin, high, hmcus, hraws, hpin, -, hhigh, hlevel⟩ := hfirst
    have hpinned : ((Act.collect configure [{ pin := 0 }, { pin := 1 }]).run pairGpio).1 =
        .ok [0, 1] := rfl
    have hread : ((Act.collect Gpio.readMcu [0, 1]).run
        ((Act.collect configure [{ pin := 0 }, { pin := 1 }]).run pairGpio).2).1 =
          .ok [false, false] := rfl
    rw [hmcus] at hpinned hread
    have hpins : mcus = [0, 1] := Except.ok.inj hpinned
    rw [hpins] at hraws
    rw [hraws] at hread
    have hlevels : raws = [false, false] := Except.ok.inj hread
    rw [hlevels] at hhigh
    rw [hlevel, ← Option.some.inj hpin, ← Option.some.inj hhigh]
    rfl
  subst hlow
  have hlog : Desk.Witnesses Prod.snd oneLevel beSeen :=
    ⟨fun _ _ => rfl, fun _ _ => rfl, fun _ _ => rfl, fun _ _ _ => rfl⟩
  have hinvoke : Desk.Sparing 0 beSeen := fun _ _ _ => ⟨[], by simp, rfl⟩
  have hstart : Desk.Watch Prod.snd 0 { pin := 0 } pairRisen .both .both [] [] pairRisen := .start
  have hwatch := hstart.poll hlog hinvoke (.plain [true, true] (true, []) rfl rfl) rfl
  have htold := (hstream [.setEdge 0 .both] () Prod.snd (true, []) _ _ _ _ hwatch).1.told
  exact ⟨hopen, _, _, rfl, htold.trans rfl⟩

end BoardGpio
