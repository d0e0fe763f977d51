import BoardGpio.Handle.Ports
import BoardGpio.Proofs.Handle.LastClose

/-!
# Opening ports with wrong numbers

A port is opened pin by pin, and a number that stands for no pin is noticed when its turn comes.
What was done to the pins before it is not undone. Main statement: the opening ends with the error
of the first wrong number and leaves what configuring the pins before it has left, so nothing is
changed if it comes first, and the number of references in no case (`Hub.open_stopped`). So an
opening that fails is not without effect (`Hub.open_not_atomic`).
-/

set_option autoImplicit false

namespace BoardGpio

/-- Collecting ends at the first element whose action fails, and the rest is not begun. -/
theorem Act.run_collect_stop {σ α β : Type} {f : α → Act σ β} {e : Failure} {a : α}
    (before after : List α) {s : σ}
    (hstop : ∀ bs t, (Act.collect f before).run s = (.ok bs, t) → (f a).run t = (.error e, t)) :
    (Act.collect f (before ++ a :: after)).run s =
      (((Act.collect f before).run s).1.bind fun _ => .error e,
        ((Act.collect f before).run s).2) := by
  induction before generalizing s with
  | nil =>
    have hfirst := hstop [] s rfl
    exact Act.run_bind_error _ hfirst
  | cons b before ih =>
    rw [List.cons_append, Act.collect, Act.collect, Act.run_bind, Act.run_bind]
    rcases hb : (f b).run s with ⟨e' | c, t⟩
    · rfl
    · have hrest : ∀ bs u, (Act.collect f before).run t = (.ok bs, u) →
          (f a).run u = (.error e, u) := by
        intro bs u hbs
        refine hstop (c :: bs) u ?_
        rw [Act.collect, Act.run_bind_ok _ hb, Act.run_bind_ok _ hbs]
        rfl
      simp only
      rw [Act.run_bind, Act.run_bind, ih hrest]
      rcases (Act.collect f before).run t with ⟨e' | bs, u⟩ <;> rfl

/-! ## What numbers stand for -/

/-- The handles take numbers for the same pins. -/
structure Handle.SameNumbers (h h' : Handle) : Prop where
  table : h'.table = h.table
  numbering : h'.numbering = h.numbering
  size : h'.records.size = h.records.size

theorem Handle.SameNumbers.mcu? {h h' : Handle} (hs : h.SameNumbers h') (pin : Nat) :
    h'.mcu? pin = h.mcu? pin := by
  rw [Handle.mcu?, Handle.mcu?, hs.table, hs.numbering, hs.size]

theorem Handle.SameNumbers.resolve {h h' : Handle} (hs : h.SameNumbers h') (pin : Nat) :
    h'.resolve pin = h.resolve pin := by
  rw [Handle.resolve, Handle.resolve, hs.mcu?, hs.numbering]

namespace Gpio

variable {β α : Type} {h₀ : Handle}

/-- Numbers stand for the same pins as for the handle `h₀`. -/
def NumbersOf (h₀ : Handle) (g : Gpio β) : Prop := h₀.SameNumbers g.handle

theorem numbers_hardware (x : Act β α) : (hardware x).Keeps (NumbersOf h₀) := fun _ hg => hg

theorem numbers_note (n : Notice) : (note n : Act (Gpio β) Unit).Keeps (NumbersOf h₀) :=
  fun _ hg => hg

theorem numbers_record (mcu : Nat) (f : PinRecord → PinRecord) :
    (update fun h => h.updateRecord mcu f : Act (Gpio β) Unit).Keeps (NumbersOf h₀) :=
  fun _ hg => ⟨hg.table, hg.numbering, Array.size_modify.trans hg.size⟩

theorem numbers_mcuPin (pin : Nat) : (mcuPin pin : Act (Gpio β) Nat).Keeps (NumbersOf h₀) :=
  (leaves_mcuPin pin).keeps

variable [Backend β]

theorem numbers_switch (mcu : Nat) (m : Mode) :
    (switch mcu m : Act (Gpio β) Unit).Keeps (NumbersOf h₀) :=
  (numbers_hardware _).bind fun _ => Act.Keeps.modify fun _ hg => hg

theorem numbers_setMode (pin : Nat) (m : Mode) :
    (setMode pin m : Act (Gpio β) Unit).Keeps (NumbersOf h₀) :=
  (numbers_mcuPin pin).bind fun mcu => (numbers_hardware _).bind fun _ =>
    (numbers_switch mcu m).bind fun _ => (numbers_record mcu _).bind fun _ => numbers_note _

theorem numbers_setPull (pin : Nat) (u : Pull) :
    (setPull pin u : Act (Gpio β) Unit).Keeps (NumbersOf h₀) :=
  (numbers_mcuPin pin).bind fun mcu => (numbers_hardware _).bind fun _ =>
    (numbers_hardware _).bind fun _ => numbers_record mcu _

theorem numbers_output (pin : OutputPin) :
    (OutputPort.configure pin : Act (Gpio β) Output).Keeps (NumbersOf h₀) :=
  (numbers_mcuPin pin.pin).bind fun _ =>
    ((numbers_mcuPin pin.pin).bind fun _ => numbers_hardware _).bind fun _ =>
      (numbers_setMode pin.pin .output).bind fun _ => Act.Keeps.pure _

theorem numbers_input (pin : InputPin) :
    (InputPort.configure pin : Act (Gpio β) Nat).Keeps (NumbersOf h₀) :=
  (numbers_setMode pin.pin .input).bind fun _ =>
    (numbers_setPull pin.pin pin.pull).bind fun _ => numbers_mcuPin pin.pin

/-! ## A wrong number -/

omit [Backend β] in
theorem run_mcuPin_wrong {g : Gpio β} {pin : Nat} {e : Error}
    (hpin : g.handle.resolve pin = .error e) :
    (mcuPin pin).run g = (.error (.error e), g) := by
  rw [run_mcuPin, hpin]

theorem run_output_wrong {g : Gpio β} {pin : OutputPin} {e : Error}
    (hpin : g.handle.resolve pin.pin = .error e) :
    (OutputPort.configure pin).run g = (.error (.error e), g) := by
  rw [OutputPort.configure, Act.run_bind_error _ (run_mcuPin_wrong hpin)]

theorem run_input_wrong {g : Gpio β} {pin : InputPin} {e : Error}
    (hpin : g.handle.resolve pin.pin = .error e) :
    (InputPort.configure pin).run g = (.error (.error e), g) := by
  have hmode : (setMode pin.pin .input).run g = (.error (.error e), g) := by
    rw [setMode, Act.run_bind_error _ (run_mcuPin_wrong hpin)]
  rw [InputPort.configure, Act.run_bind_error _ hmode]

omit [Backend β] in
/-- A wrong number ends the configuring of pins where it stands. -/
theorem run_collect_wrong {π γ : Type} {configure : π → Act (Gpio β) γ} {g : Gpio β} {bad : π}
    {e : Error} (hkeeps : ∀ pin, (configure pin).Keeps (NumbersOf g.handle))
    (hbad : ∀ g' : Gpio β, NumbersOf g.handle g' → (configure bad).run g' = (.error (.error e), g'))
    (before after : List π) :
    (Act.collect configure (before ++ bad :: after)).run g =
      (((Act.collect configure before).run g).1.bind fun _ => .error (.error e),
        ((Act.collect configure before).run g).2) := by
  refine Act.run_collect_stop before after fun bs g' hrun => hbad g' ?_
  have hnumbers := Act.Keeps.collect hkeeps before g ⟨rfl, rfl, rfl⟩
  rw [hrun] at hnumbers
  exact hnumbers

end Gpio

namespace OutputPort

variable {β : Type} [Backend β]

/-- A port with a wrong number is refused after the pins before it were configured. -/
theorem run_openPort_wrong {g : Gpio β} {before after : List OutputPin} {bad : OutputPin}
    {e : Error} (hfew : (before ++ bad :: after).length ≤ PinSet.capacity)
    (hbad : g.handle.resolve bad.pin = .error e) :
    (openPort (before ++ bad :: after)).run g =
      (((Act.collect configure before).run g).1.bind fun _ => .error (.error e),
        ((Act.collect configure before).run g).2) := by
  have hstop := Gpio.run_collect_wrong Gpio.numbers_output
    (fun g' hg' => Gpio.run_output_wrong ((hg'.resolve bad.pin).trans hbad)) before after
  rw [openPort, if_neg (Nat.not_lt.mpr hfew), Act.run_bind, hstop]
  rcases (Act.collect configure before).run g with ⟨e' | outputs, g'⟩ <;> rfl

end OutputPort

namespace InputPort

variable {β : Type} [Backend β]

theorem run_prepare_wrong {g : Gpio β} {before after : List InputPin} {bad : InputPin} {e : Error}
    {settings : InputSettings} (hvalid : settings.validate = .ok ())
    (hfew : (before ++ bad :: after).length ≤ PinSet.capacity)
    (hbad : g.handle.resolve bad.pin = .error e) :
    (prepare (before ++ bad :: after) settings).run g =
      (((Act.collect configure before).run g).1.bind fun _ => .error (.error e),
        ((Act.collect configure before).run g).2) := by
  have hstop := Gpio.run_collect_wrong Gpio.numbers_input
    (fun g' hg' => Gpio.run_input_wrong ((hg'.resolve bad.pin).trans hbad)) before after
  rw [prepare, hvalid, Act.run_bind_ok _ (Act.run_lift_ok () g), if_neg (Nat.not_lt.mpr hfew),
    hstop]

end InputPort

namespace Hub

variable {β α γ π κ : Type} {s : Hub β} {h : Nat} {g : Gpio (Line β)}

/-- What is done with a handle leaves the hub as its site is left. -/
theorem run_onHandle_congr (hg : s.site? h = some g) {x : Act (Gpio (Line β)) α}
    {y : Act (Gpio (Line β)) γ} (hsame : (x.run g).2 = (y.run g).2) :
    ((onHandle h x).run s).2 = ((onHandle h y).run s).2 := by
  obtain ⟨shared, rig, hs, hr, rfl⟩ := site?_eq_some_iff.mp hg
  simp only [Act.run] at hsame
  simp only [Act.run, onHandle, hs, hr, hsame]

/-- What leaves the site of a handle as it is leaves the hub as it is. -/
theorem run_onHandle_leaves (hg : s.site? h = some g) {x : Act (Gpio (Line β)) α}
    (hleaves : (x.run g).2 = g) : ((onHandle h x).run s).2 = s := by
  obtain ⟨shared, rig, hs, hr, rfl⟩ := site?_eq_some_iff.mp hg
  obtain ⟨hh, hshared⟩ := Array.getElem?_eq_some_iff.mp hs
  obtain ⟨hi, hrig⟩ := Array.getElem?_eq_some_iff.mp hr
  have hhandles : s.handles.setIfInBounds h shared = s.handles := by
    simp [Array.setIfInBounds, hh, ← hshared]
  have hrigs : s.rigs.setIfInBounds shared.rig rig = s.rigs := by
    simp [Array.setIfInBounds, hi, ← hrig]
  simp only [Act.run] at hleaves
  simp only [Act.run, onHandle, hs, hr, hleaves, hrigs, hhandles, List.append_nil]

/-- How the opening of a port ends at a wrong number: with its error, if the pins before it could be
configured, and with what configuring them has left. No handle has gained or lost a reference. -/
structure Stopped (s : Hub β) (h : Nat) (configure : π → Act (Gpio (Line β)) α) (before : List π)
    (e : Error) (r : Except Failure γ × Hub β) : Prop where
  reply : r.1 =
    ((onHandle h (Act.collect configure before)).run s).1.bind fun _ => .error (.error e)
  hub : r.2 = ((onHandle h (Act.collect configure before)).run s).2
  refs : ∀ k, r.2.refs k = s.refs k
  untouched : before = [] → r.2 = s

theorem stopped_of_run (hg : s.site? h = some g) {configure : π → Act (Gpio (Line β)) α}
    {before : List π} {e : Error} {x : Act (Gpio (Line β)) γ}
    (hx : x.run g = (((Act.collect configure before).run g).1.bind fun _ => .error (.error e),
      ((Act.collect configure before).run g).2)) :
    Stopped s h configure before e ((onHandle h x).run s) := by
  refine ⟨?_, ?_, fun k => refs_onHandle s h k x, fun hnone => ?_⟩
  · rw [(run_onHandle hg x).1, (run_onHandle hg _).1, hx]
  · exact run_onHandle_congr hg (by rw [hx])
  · refine run_onHandle_leaves hg ?_
    subst hnone
    rw [hx]
    rfl

/-- A failure at the handle is the end of what was to follow. -/
theorem Stopped.bind {configure : π → Act (Gpio (Line β)) α} {before : List π} {e : Error}
    {x : Act (Hub β) γ} {δ : Type} (hx : Stopped s h configure before e (x.run s))
    (f : γ → Act (Hub β) δ) : Stopped s h configure before e ((x >>= f).run s) := by
  have hreply := hx.reply
  obtain ⟨failure, hfailure, hsame⟩ : ∃ failure, (x.run s).1 = .error failure ∧
      .error failure = ((onHandle h (Act.collect configure before)).run s).1.bind
        fun _ => (.error (.error e) : Except Failure δ) := by
    cases hbefore : ((onHandle h (Act.collect configure before)).run s).1 with
    | error e' =>
      rw [hbefore] at hreply
      exact ⟨e', hreply, rfl⟩
    | ok _ =>
      rw [hbefore] at hreply
      exact ⟨.error e, hreply, rfl⟩
  have hrun : (x >>= f).run s = (.error failure, (x.run s).2) :=
    Act.run_bind_error f (Prod.ext hfailure rfl)
  rw [hrun]
  exact ⟨hsame, hx.hub, hx.refs, hx.untouched⟩

theorem resolve_wrong {handle : Handle} {pin : Nat} (hpin : handle.mcu? pin = none) :
    handle.resolve pin = .error (.invalidPin pin handle.numbering) := by
  rw [Handle.resolve, hpin]

variable [Backend β]

/-- A port with a wrong number is not opened, but the pins before the first wrong one are
configured. -/
theorem open_stopped (hg : s.site? h = some g) :
    (∀ before bad after, (before ++ bad :: after).length ≤ PinSet.capacity →
      g.handle.mcu? bad.pin = none →
        Stopped s h OutputPort.configure before (.invalidPin bad.pin g.handle.numbering)
          ((openOutput h (before ++ bad :: after)).run s)) ∧
      ∀ settings now before bad after, settings.validate = .ok () →
        (before ++ bad :: after).length ≤ PinSet.capacity → g.handle.mcu? bad.pin = none →
          Stopped s h InputPort.configure before (.invalidPin bad.pin g.handle.numbering)
            ((openInput (κ := κ) h (before ++ bad :: after) settings now).run s) := by
  constructor
  · intro before bad after hfew hbad
    exact (stopped_of_run hg (OutputPort.run_openPort_wrong hfew (resolve_wrong hbad))).bind _
  · intro settings now before bad after hvalid hfew hbad
    exact (stopped_of_run hg
      (InputPort.run_prepare_wrong hvalid hfew (resolve_wrong hbad))).bind _

/-! ## An opening that is not atomic -/

/-- A handle on four simulated pins, whose table knows two of them. -/
def halfKnown : Hub Sim :=
  ((build twoPinsPlan).run { rigs := #[{ device := .fresh 4 }] }).2

def halfOpened : Except Failure OutputPort × Hub Sim :=
  (openOutput 0 [{ pin := 0 }, { pin := 5 }]).run halfKnown

/-- The second number stands for no pin, and the first pin is an output all the same, with a record
of the mode it had. -/
theorem open_not_atomic :
    halfOpened.1 = .error (.error (.invalidPin 5 .logical)) ∧
      (halfKnown.site? 0).map (fun g => (Backend.modeOf g.backend 0).toOption) = some (some .input) ∧
        (halfOpened.2.site? 0).map (fun g => (Backend.modeOf g.backend 0).toOption) =
          some (some .output) ∧
          (halfOpened.2.site? 0).map (fun g => (g.handle.record 0).restoreMode) =
            some (some .input) := by
  have hbad : ∀ g, halfKnown.site? 0 = some g →
      g.handle.mcu? 5 = none ∧ g.handle.numbering = .logical := by
    rintro g hg
    cases hg
    decide +kernel
  obtain ⟨g, hg⟩ : ∃ g, halfKnown.site? 0 = some g := ⟨_, rfl⟩
  have hstop := (open_stopped (κ := Unit) hg).1 [{ pin := 0 }] { pin := 5 } [] (by decide)
    (hbad g hg).1
  rw [(hbad g hg).2] at hstop
  refine ⟨hstop.reply, by decide +kernel, by decide +kernel, by decide +kernel⟩

end Hub

end BoardGpio
