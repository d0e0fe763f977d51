import BoardGpio.Proofs.Backend.Driving

/-!
# Switching pins to another mode

On simulated pins, and on H3 pins with all registers, it can be told what a pin is latched to
(`Device.Latched`). Switching a pin to a mode that all pins have is refused for a pin that the chip
does not have, and otherwise changes the mode of this pin and no latch (`Device.switching`). A pin
that is an output reads what it is latched to (`Device.levelOf_output`).
-/

set_option autoImplicit false

namespace BoardGpio

open Backend

namespace Device

/-- What pins are latched to can be told. -/
def Latched : Device → Prop
  | .sim _ => True
  | .bcm _ => False
  | .h3 h => h.Full

/-- A pin was switched to a mode. No other pin shows another mode, and no pin is latched to another
level. -/
structure Switched (pin : Nat) (m : Mode) (e e' : Device) : Prop where
  latched : e'.Latched
  pinCount : pinCount e' = pinCount e
  mode : modeOf e' pin = .ok m
  modes : ∀ q, q ≠ pin → modeOf e' q = modeOf e q
  latches : ∀ q, e'.latchOf q = e.latchOf q

/-- What comes of switching a pin to a mode. -/
inductive Switching (pin : Nat) (m : Mode) (e : Device) : Except Failure Unit × Device → Prop where
  | refused (hpin : ¬pin < pinCount e) : Switching pin m e (.error (.error (noSuchPin pin)), e)
  | switched {e' : Device} (hpin : pin < pinCount e) (h : Switched pin m e e') :
      Switching pin m e (.ok (), e')

theorem Latched.full {e : Device} (he : e.Latched) : e.Full := by
  cases e with
  | sim s => trivial
  | bcm b => cases he
  | h3 h => exact he

/-- A device that tells what some pin is latched to tells it of all its pins. -/
theorem latched_of_isSome {e : Device} (hfull : e.Full) {pin : Nat}
    (hsome : (e.latchOf pin).isSome = true) : e.Latched := by
  cases e with
  | sim s => trivial
  | bcm b => cases hsome
  | h3 h => exact hfull

theorem isSome_latchOf {e : Device} (he : e.Latched) {pin : Nat} (hpin : pin < pinCount e) :
    (e.latchOf pin).isSome = true := by
  cases e with
  | sim s =>
    have hlt : pin < s.pins.size := hpin
    simp [latchOf, Sim.latchOf_eq, hlt, Except.toOption]
  | bcm b => cases he
  | h3 h =>
    obtain ⟨p, hp⟩ := (H3.exists_place_iff pin).mpr hpin
    simp [latchOf, H3.levelOf_placed he hp, Except.toOption]

/-- Only pins of the chip are latched to anything. -/
theorem lt_pinCount_of_latchOf {e : Device} {pin : Nat} {level : Bool}
    (h : e.latchOf pin = some level) : pin < pinCount e := by
  cases e with
  | sim s =>
    by_contra hpin
    have hnone : s.pins[pin]? = none := Array.getElem?_eq_none_iff.mpr (Nat.le_of_not_lt hpin)
    rw [latchOf, Sim.latchOf_eq, hnone] at h
    cases h
  | bcm b => cases h
  | h3 h' =>
    refine (H3.exists_place_iff pin).mp (Option.ne_none_iff_exists'.mp fun hnone => ?_)
    rw [latchOf, levelOf, H3.run_read, hnone] at h
    cases h

/-- Driving pins keeps the latches told. -/
theorem Drove.latched {d : Drive} {pin : Nat} {e e' : Device} (h : Drove d pin e e')
    (he : e.Latched) (hpin : pin < Backend.pinCount e) : e'.Latched := by
  have hsome : (e'.latchOf pin).isSome = true := by
    rw [h.latches, if_pos rfl, Option.isSome_map]
    exact isSome_latchOf he hpin
  exact latched_of_isSome h.full hsome

/-- An output reads what it is latched to. -/
theorem levelOf_output {e : Device} {pin : Nat} {level : Bool} (hmode : modeOf e pin = .ok .output)
    (hlatch : e.latchOf pin = some level) : levelOf e pin = .ok level := by
  have hok : ∀ {x : Except Failure Bool}, x.toOption = some level → x = .ok level := by
    intro x hx
    cases x with
    | error e => cases hx
    | ok l => exact congrArg Except.ok (Option.some.inj hx)
  cases e with
  | sim s => exact (Sim.levelOf_output hmode).trans (hok hlatch)
  | bcm b => cases hlatch
  | h3 h => exact hok hlatch

end Device

namespace Sim

theorem switching (s : Sim) (pin : Nat) {m : Mode} (hm : m.Common) :
    Device.Switching pin m (.sim s)
      (carry .sim ((Backend.setMode pin m : Act Sim Unit).run s)) := by
  have heffective : s.effectiveMode? pin m = some m := if_neg hm.1
  rw [run_setMode, heffective]
  simp only
  rw [run_mutate]
  cases hx : s.pins[pin]? with
  | none => exact .refused (Nat.not_lt.mpr (Array.getElem?_eq_none_iff.mp hx))
  | some x =>
    refine .switched (Array.getElem?_eq_some_iff.mp hx).1
      ⟨trivial, Array.size_setIfInBounds, ?_, fun q hq => ?_, fun q => ?_⟩
    · exact modeOf_eq_ok_iff.mpr ⟨_, getElem?_replaced_same _ hx, rfl⟩
    · exact modeOf_congr (by rw [getElem?_replaced_ne s _ hq])
    · exact congrArg Except.toOption (latchOf_congr (map_replaced SimPin.latch hx (by rfl) q))

end Sim

namespace H3

variable {h : H3}

theorem switching (hfull : h.Full) (pin : Nat) {m : Mode} (hm : m.Common) :
    Device.Switching pin m (.h3 h) (carry .h3 ((Backend.setMode pin m : Act H3 Unit).run h)) := by
  rw [run_setMode]
  cases hp : place? pin with
  | none =>
    have hpin : ¬pin < pinCount := by
      rw [← exists_place_iff, hp]
      simp
    exact .refused hpin
  | some p =>
    obtain ⟨code, hcode, hback⟩ := functionCode_common hm pin
    have hlt : code < 1 <<< 4 := functionCode_lt hcode
    have hin : p.functionSlot.1 < (h.window p.low).words := field_inside hfull hp .function
    have hfull' : (h.store (p.field .function) code).Full := full_store hfull hlt
    simp only [hcode, if_pos hin]
    have hpin : pin < pinCount := (exists_place_iff pin).mp ⟨p, hp⟩
    refine .switched hpin ⟨hfull', rfl, ?_, fun q hq => ?_, fun q => ?_⟩
    · show modeOf (h.store (p.field .function) code) pin = .ok m
      rw [modeOf_placed hfull' hp, fetch_store_same h hlt (field_fits hp .function), hback]
    · show modeOf (h.store (p.field .function) code) q = modeOf h q
      cases hr : place? q with
      | none => rw [modeOf, modeOf, run_mode, run_mode, hr]
      | some r =>
        have hother : (h.store (p.field .function) code).fetch (r.field .function) =
            h.fetch (r.field .function) :=
          fetch_store_apart h hlt (place_apart hp hr (.inl hq.symm))
        rw [modeOf_placed hfull' hr, modeOf_placed hfull hr, hother]
    · show (levelOf (h.store (p.field .function) code) q).toOption = (levelOf h q).toOption
      cases hr : place? q with
      | none => rw [levelOf, levelOf, run_read, run_read, hr]
      | some r =>
        have hother : (h.store (p.field .function) code).fetch (r.field .data) =
            h.fetch (r.field .data) :=
          fetch_store_apart h hlt (place_apart hp hr (.inr (by decide)))
        rw [levelOf_placed hfull' hr, levelOf_placed hfull hr, hother]

end H3

/-- Switching a pin is refused or changes its mode alone. -/
theorem Device.switching {e : Device} (he : e.Latched) (pin : Nat) {m : Mode} (hm : m.Common) :
    Switching pin m e ((Backend.setMode pin m : Act Device Unit).run e) := by
  cases e with
  | sim s => exact Sim.switching s pin hm
  | bcm b => cases he
  | h3 h => exact H3.switching he pin hm

end BoardGpio
