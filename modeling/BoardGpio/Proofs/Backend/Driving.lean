import BoardGpio.Proofs.Backend.Apart
import BoardGpio.Proofs.Backend.Device
import BoardGpio.Proofs.Backend.SimH3
import BoardGpio.Proofs.Backend.Transcript

/-!
# Driving pins

A pin is driven to a level or to the other level than its own. On every device this is refused for
a pin that the chip does not have, and otherwise changes what the pin is latched to, and nothing
else that pins show (`Device.driving`).
-/

set_option autoImplicit false

namespace BoardGpio

open Backend Bench

/-- A way to drive pins. -/
inductive Drive where
  | write (high : Bool)
  | toggle
  deriving DecidableEq, Repr

namespace Drive

def kind : Drive → CallKind
  | write _ => .write
  | toggle => .toggle

def call {β : Type} [Backend β] : Drive → Nat → Act β Unit
  | write high, pin => Backend.write pin high
  | toggle, pin => Backend.toggle pin

/-- The call with its answer, in a transcript. -/
def exchange : Drive → Nat → Except Failure Unit → Exchange
  | write high, pin, answer => .write pin high answer
  | toggle, pin, answer => .toggle pin answer

/-- What a pin is latched to after it was driven, from what it was latched to before. -/
def latch : Drive → Bool → Bool
  | write high, _ => high
  | toggle, level => !level

def pinCall : Drive → Nat → PinCall
  | write high, pin => .write pin high
  | toggle, pin => .toggle pin

end Drive

namespace Device

/-- What a pin is latched to, where the device can tell. The data bit of an H3 pin is its latch. -/
def latchOf : Device → Nat → Option Bool
  | .sim s, pin => (s.latchOf pin).toOption
  | .bcm _, _ => none
  | .h3 h, pin => (levelOf h pin).toOption

/-- A pin was driven. No pin shows another mode or pull, and no other pin another level. -/
structure Drove (d : Drive) (pin : Nat) (e e' : Device) : Prop where
  full : e'.Full
  pinCount : pinCount e' = pinCount e
  modes : ∀ q, modeOf e' q = modeOf e q
  pulls : ∀ q, pullOf e' q = pullOf e q
  latches : ∀ q, e'.latchOf q = if q = pin then (e.latchOf q).map d.latch else e.latchOf q
  levels : ∀ q, q ≠ pin → levelOf e' q = levelOf e q

/-- What comes of driving a pin. -/
inductive Driving (d : Drive) (pin : Nat) (e : Device) : Except Failure Unit × Device → Prop where
  | refused (hpin : ¬pin < pinCount e) : Driving d pin e (.error (.error (noSuchPin pin)), e)
  | drove {e' : Device} (hpin : pin < pinCount e) (h : Drove d pin e e') :
      Driving d pin e (.ok (), e')

end Device

/-! ## Simulated pins -/

namespace Sim

theorem run_drive (s : Sim) (d : Drive) (pin : Nat) : (d.call pin : Act Sim Unit).run s =
    (mutate pin fun x => { x with latch := d.latch x.latch }).run s := by
  cases d <;> rfl

theorem latchOf_congr {s t : Sim} {pin : Nat}
    (h : (s.pins[pin]?).map SimPin.latch = (t.pins[pin]?).map SimPin.latch) :
    s.latchOf pin = t.latchOf pin := by
  rw [latchOf_eq, latchOf_eq]
  cases hs : s.pins[pin]? <;> cases ht : t.pins[pin]? <;> simp_all

theorem levelOf_congr {s t : Sim} {pin : Nat} (h : s.pins[pin]? = t.pins[pin]?) :
    levelOf s pin = levelOf t pin := by
  show ((look pin SimPin.level).run s).1 = ((look pin SimPin.level).run t).1
  simp only [look, Act.run, h]
  cases t.pins[pin]? <;> rfl

theorem drove {s : Sim} {pin : Nat} {x : SimPin} (hx : s.pins[pin]? = some x) (d : Drive) :
    Device.Drove d pin (.sim s) (.sim (s.replaced pin { x with latch := d.latch x.latch })) where
  full := trivial
  pinCount := Array.size_setIfInBounds
  modes q := modeOf_congr (map_replaced SimPin.mode hx (by rfl) q)
  pulls q := pullOf_congr rfl (map_replaced SimPin.pull hx (by rfl) q)
  latches q := by
    show ((s.replaced pin _).latchOf q).toOption = _
    by_cases hq : q = pin
    · subst hq
      rw [if_pos rfl, Device.latchOf, latchOf_eq, latchOf_eq, getElem?_replaced_same _ hx, hx]
      rfl
    · rw [if_neg hq]
      exact congrArg Except.toOption (latchOf_congr (by rw [getElem?_replaced_ne s _ hq]))
  levels q hq := levelOf_congr (getElem?_replaced_ne s _ hq)

theorem driving (s : Sim) (d : Drive) (pin : Nat) :
    Device.Driving d pin (.sim s) (carry .sim ((d.call pin : Act Sim Unit).run s)) := by
  rw [run_drive, run_mutate]
  cases hx : s.pins[pin]? with
  | none => exact .refused (Nat.not_lt.mpr (Array.getElem?_eq_none_iff.mp hx))
  | some x => exact .drove (Array.getElem?_eq_some_iff.mp hx).1 (drove hx d)

end Sim

/-! ## BCM283x pins -/

namespace Bcm

variable {b : Bcm} {pin : Nat}

/-- The registers that set and clear pins hold no field and no level. -/
theorem drove_put (hfull : b.Full) (d : Drive) {i : Nat} (hlo : 5 < i) (hhi : i < 13) (v : Word) :
    Device.Drove d pin (.bcm b) (.bcm (b.put i v)) where
  full := hfull
  pinCount := rfl
  modes q := modeOf_put b i v q fun hq heq => by
    have hlt : q < 54 := hq
    have hword : 5 < q / 10 := heq ▸ hlo
    omega
  pulls q := pullOf_put_below b (by omega) v q
  latches q := by
    show none = if q = pin then (none : Option Bool).map d.latch else none
    rw [Option.map_none, ite_self]
  levels q _ := by
    show levelOf (b.put i v) q = levelOf b q
    have hword : (b.put i v).window.word (13 + q / 32) = b.window.word (13 + q / 32) := by
      rw [word_put, if_neg (by omega)]
    rw [levelOf, levelOf, run_read, run_read, words_put, hword]
    by_cases hq : q < pinCount
    · rw [if_pos hq, if_pos hq]
      rfl
    · rw [if_neg hq, if_neg hq]

theorem drove_write (hfull : b.Full) (hpin : pin < pinCount) (d : Drive) (high : Bool) :
    ∃ b', (Backend.write pin high : Act Bcm Unit).run b = (.ok (), b') ∧
      Device.Drove d pin (.bcm b) (.bcm b') := by
  have hlt : pin < 54 := hpin
  have hfirst : driveWord high = 7 ∨ driveWord high = 10 := by
    cases high
    · exact .inr rfl
    · exact .inl rfl
  refine ⟨b.put (driveWord high + pin / 32) (Word.bit (pin % 32)), ?_,
    drove_put hfull d (by omega) (by omega) _⟩
  rw [run_write, if_pos hpin, if_pos (by rw [words_of_full hfull]; omega)]

theorem driving (hfull : b.Full) (d : Drive) (pin : Nat) :
    Device.Driving d pin (.bcm b) (carry .bcm ((d.call pin : Act Bcm Unit).run b)) := by
  by_cases hpin : pin < pinCount
  · obtain ⟨high, hrun⟩ : ∃ high, (d.call pin : Act Bcm Unit).run b =
        (Backend.write pin high : Act Bcm Unit).run b := by
      cases d with
      | write high => exact ⟨high, rfl⟩
      | toggle =>
        have hread : (Backend.read pin : Act Bcm Bool).run b = (.ok _, b) :=
          Prod.ext (levelOf_placed hfull hpin) (read_leaves pin b)
        refine ⟨!(b.window.word (13 + pin / 32)).getLsbD (pin % 32), ?_⟩
        rw [Drive.call, run_toggle, hread]
    obtain ⟨b', hwrite, hdrove⟩ := drove_write hfull hpin d high
    rw [hrun, hwrite]
    exact .drove hpin hdrove
  · have hrun : (d.call pin : Act Bcm Unit).run b = (.error (.error (noSuchPin pin)), b) := by
      cases d with
      | write high => rw [Drive.call, run_write, if_neg hpin]
      | toggle => rw [Drive.call, run_toggle, run_read, if_neg hpin]
    rw [hrun]
    exact .refused hpin

end Bcm

/-! ## H3 pins -/

namespace H3

variable {h : H3} {pin : Nat}

theorem call_drive (d : Drive) (pin : Nat) (h : H3) :
    Backend.call (d.pinCall pin) h = (((d.call pin).run h).1.map fun _ => Answer.done,
      ((d.call pin).run h).2) := by
  cases d <;> exact run_quiet _ _

theorem unchanged_drive (h : H3) (d : Drive) (pin : Nat) :
    Unchanged (fun _ : H3 => True) h ((d.call pin).run h).2 := by
  cases d with
  | write high => exact (restorable h).write_unchanged h pin high trivial
  | toggle => exact (restorable h).toggle_unchanged h pin trivial

/-- Driving a pin of the chip goes well and inverts or sets its level. -/
theorem call_latch (hfull : h.Full) {p : Place} (hp : place? pin = some p) (d : Drive) :
    ∃ level h', levelOf h pin = .ok level ∧ Backend.call (d.pinCall pin) h = (.ok .done, h') ∧
      levelOf h' pin = .ok (d.latch level) := by
  cases d with
  | write high =>
    obtain ⟨h', hrun, hlevel⟩ := call_write hfull hp high
    exact ⟨_, h', levelOf_placed hfull hp, hrun, hlevel⟩
  | toggle => exact call_toggle hfull hp

theorem levelOf_call_other (hfull : h.Full) (c : PinCall) {q : Nat} (hq : q ≠ c.pin) :
    levelOf (Backend.call c h).2 q = levelOf h q :=
  (shows_congr hfull (full_call hfull c) fun _ hr a => fetch_call_other hfull hr hq.symm a).2.2

theorem driving (hfull : h.Full) (d : Drive) (pin : Nat) :
    Device.Driving d pin (.h3 h) (carry .h3 ((d.call pin : Act H3 Unit).run h)) := by
  have hcall := call_drive d pin h
  have hpin : (d.pinCall pin).pin = pin := by cases d <;> rfl
  rcases hrun : (d.call pin : Act H3 Unit).run h with ⟨r, h'⟩
  rw [hrun] at hcall
  cases hp : place? pin with
  | none =>
    have hrefused := call_refused h (c := d.pinCall pin) (by rw [hpin]; exact hp)
    rw [hcall, hpin] at hrefused
    cases r with
    | ok u => cases hrefused
    | error e =>
      cases hrefused
      exact .refused fun hlt => absurd ((exists_place_iff pin).mpr hlt) (by simp [hp])
  | some p =>
    obtain ⟨level, h'', hlevel, hdone, hlevel'⟩ := call_latch hfull hp d
    rw [hcall] at hdone
    cases r with
    | error e => cases hdone
    | ok u =>
      cases hdone
      have hunchanged := hrun ▸ unchanged_drive h d pin
      have hfull' : h'.Full := by
        have hkept := full_call hfull (d.pinCall pin)
        rw [hcall] at hkept
        exact hkept
      have hothers : ∀ q, q ≠ pin → levelOf h' q = levelOf h q := by
        intro q hq
        have hkept := levelOf_call_other hfull (d.pinCall pin) (hpin.symm ▸ hq)
        rw [hcall] at hkept
        exact hkept
      refine .drove ((exists_place_iff pin).mp ⟨p, hp⟩) ⟨hfull', rfl, hunchanged.modes,
        hunchanged.pulls, fun q => ?_, hothers⟩
      show (levelOf h' q).toOption = if q = pin then (levelOf h q).toOption.map d.latch else _
      by_cases hq : q = pin
      · subst hq
        rw [if_pos rfl, hlevel, hlevel']
        rfl
      · rw [if_neg hq, hothers q hq]
        rfl

end H3

namespace Device

/-- On every device, driving a pin is refused or changes its latch alone. -/
theorem driving {e : Device} (hfull : e.Full) (d : Drive) (pin : Nat) :
    Driving d pin e ((d.call pin : Act Device Unit).run e) := by
  cases e with
  | sim s =>
    have hsim := Sim.driving s d pin
    cases d <;> exact hsim
  | bcm b =>
    have hbcm := Bcm.driving hfull d pin
    cases d <;> exact hbcm
  | h3 h =>
    have hh3 := H3.driving hfull d pin
    cases d <;> exact hh3

/-- A pin can be driven if the device has it. -/
theorem answer_drive {e : Device} (hfull : e.Full) (d : Drive) (pin : Nat) :
    ((d.call pin : Act Device Unit).run e).1 =
      if pin < pinCount e then .ok () else .error (.error (noSuchPin pin)) := by
  have hdriving := driving hfull d pin
  rcases hrun : (d.call pin : Act Device Unit).run e with ⟨r, e'⟩
  rw [hrun] at hdriving
  cases hdriving with
  | refused hpin => rw [if_neg hpin]
  | drove hpin _ => rw [if_pos hpin]

theorem mode_leaves (pin : Nat) : (Backend.mode pin : Act Device Mode).Leaves := by
  rintro (s | b | h)
  · show Device.sim ((Backend.mode pin : Act Sim Mode).run s).2 = .sim s
    rw [Sim.run_mode]
    cases s.pins[pin]? <;> rfl
  · show Device.bcm ((Backend.mode pin : Act Bcm Mode).run b).2 = .bcm b
    rw [Bcm.run_mode]
  · exact congrArg Device.h3 ((H3.restorable h).mode_leaves h pin trivial)

end Device

end BoardGpio
