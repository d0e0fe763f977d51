import BoardGpio.Backend.Device
import BoardGpio.Proofs.Backend.Bcm
import BoardGpio.Proofs.Backend.H3
import BoardGpio.Proofs.Backend.Sim

/-!
# What the pins of a device show

A device does what the backend of its kind does, and stays of its kind. So what can be put back on
that backend can be put back on the device (`Restorable.embed`, `Device.restorable`).
-/

set_option autoImplicit false

namespace BoardGpio

namespace Backend

variable {β γ : Type} [Backend β] [Backend γ]

/-- The result of a call with the state it leaves taken over into a larger kind of state. -/
def carry {α : Type} (put : β → γ) (r : Except Failure α × β) : Except Failure α × γ :=
  (r.1, put r.2)

/-- A backend whose calls are those of another, on states taken over from it. -/
structure Embeds (put : β → γ) : Prop where
  setMode : ∀ b pin m, (Backend.setMode pin m : Act γ Unit).run (put b) =
    carry put ((Backend.setMode pin m).run b)
  mode : ∀ b pin, (Backend.mode pin : Act γ Mode).run (put b) =
    carry put ((Backend.mode pin).run b)
  setPull : ∀ b pin u, (Backend.setPull pin u : Act γ Unit).run (put b) =
    carry put ((Backend.setPull pin u).run b)
  pull : ∀ b pin, (Backend.pull pin : Act γ (Option Pull)).run (put b) =
    carry put ((Backend.pull pin).run b)
  write : ∀ b pin high, (Backend.write pin high : Act γ Unit).run (put b) =
    carry put ((Backend.write pin high).run b)
  read : ∀ b pin, (Backend.read pin : Act γ Bool).run (put b) =
    carry put ((Backend.read pin).run b)
  toggle : ∀ b pin, (Backend.toggle pin : Act γ Unit).run (put b) =
    carry put ((Backend.toggle pin).run b)

namespace Embeds

variable {put : β → γ} {Still : β → Prop}

/-- The states taken over from those that a backend can get into. -/
def Taken (put : β → γ) (Still : β → Prop) (c : γ) : Prop := ∃ b, c = put b ∧ Still b

theorem modeOf_put (e : Embeds put) (b : β) (pin : Nat) : modeOf (put b) pin = modeOf b pin := by
  rw [modeOf, e.mode]
  rfl

theorem pullOf_put (e : Embeds put) (b : β) (pin : Nat) : pullOf (put b) pin = pullOf b pin := by
  rw [pullOf, e.pull]
  rfl

theorem unchanged (e : Embeds put) {b b' : β} (h : Unchanged Still b b') :
    Unchanged (Taken put Still) (put b) (put b') := by
  refine ⟨⟨b', rfl, h.still⟩, fun q => ?_, fun q => ?_⟩
  · rw [e.modeOf_put, e.modeOf_put, h.modes q]
  · rw [e.pullOf_put, e.pullOf_put, h.pulls q]

/-- What can be put back on a backend can be put back where its states are taken over. -/
theorem restorable (e : Embeds put) {b₀ : β} (h : Restorable b₀ Still) :
    Restorable (put b₀) (Taken put Still) where
  start := ⟨b₀, rfl, h.start⟩
  mode_leaves := by
    rintro _ pin ⟨b, rfl, hb⟩
    rw [e.mode, carry, h.mode_leaves b pin hb]
  pull_leaves := by
    rintro _ pin ⟨b, rfl, hb⟩
    rw [e.pull, carry, h.pull_leaves b pin hb]
  read_leaves := by
    rintro _ pin ⟨b, rfl, hb⟩
    rw [e.read, carry, h.read_leaves b pin hb]
  write_unchanged := by
    rintro _ pin high ⟨b, rfl, hb⟩
    rw [e.write]
    exact e.unchanged (h.write_unchanged b pin high hb)
  toggle_unchanged := by
    rintro _ pin ⟨b, rfl, hb⟩
    rw [e.toggle]
    exact e.unchanged (h.toggle_unchanged b pin hb)
  setMode_effect := by
    rintro _ pin m ⟨b, rfl, hb⟩
    rw [e.setMode]
    rcases h.setMode_effect b pin m hb with ⟨err, hr⟩ | ⟨b', hr, hshow⟩
    · exact .inl ⟨err, by rw [hr]; rfl⟩
    · obtain ⟨now, hnow⟩ := hshow.shows
      refine .inr ⟨put b', by rw [hr]; rfl, ⟨b', rfl, hshow.still⟩, ⟨now, ?_⟩, ?_, ?_⟩
      · rw [e.modeOf_put, hnow]
      · intro q hq
        rw [e.modeOf_put, e.modeOf_put, hshow.modes q hq]
      · intro q
        rw [e.pullOf_put, e.pullOf_put, hshow.pulls q]
  setPull_effect := by
    rintro _ pin u ⟨b, rfl, hb⟩
    rw [e.setPull]
    rcases h.setPull_effect b pin u hb with ⟨err, hr⟩ | ⟨b', hr, hshow⟩
    · exact .inl ⟨err, by rw [hr]; rfl⟩
    · obtain ⟨now, hnow⟩ := hshow.shows
      refine .inr ⟨put b', by rw [hr]; rfl, ⟨b', rfl, hshow.still⟩, ⟨now, ?_⟩, ?_, ?_⟩
      · rw [e.pullOf_put, hnow]
      · intro q
        rw [e.modeOf_put, e.modeOf_put, hshow.modes q]
      · intro q hq
        rw [e.pullOf_put, e.pullOf_put, hshow.pulls q hq]
  setMode_back := by
    rintro _ pin m now ⟨b, rfl, hb⟩ h₀ hnow
    rw [e.modeOf_put] at h₀ hnow
    obtain ⟨b', hr, hshow⟩ := h.setMode_back b pin m now hb h₀ hnow
    exact ⟨put b', by rw [e.setMode, hr]; rfl, by rw [e.modeOf_put, hshow]⟩
  setPull_back := by
    rintro _ pin u now ⟨b, rfl, hb⟩ h₀ hnow
    rw [e.pullOf_put] at h₀ hnow
    obtain ⟨b', hr, hshow⟩ := h.setPull_back b pin u now hb h₀ hnow
    exact ⟨put b', by rw [e.setPull, hr]; rfl, by rw [e.pullOf_put, hshow]⟩
  pull_known := by
    rintro _ pin u ⟨b, rfl, hb⟩ hu
    rw [e.pullOf_put] at hu
    exact h.pull_known b pin u hb hu

end Embeds

end Backend

namespace Device

open Backend

/-- Devices that report pulls and whose pins are in modes that can be set: simulated pins with
readable pulls, none of them parked in the pulse-width mode; a BCM2711; an H3. -/
def ReportsPulls : Device → Prop
  | .sim s => s.pullReadable = true ∧ ∀ x ∈ s.pins, x.mode ≠ .pwm
  | .bcm b => b.soc = .bcm2711
  | .h3 _ => True

/-- The devices that a device can become. -/
def Kin : Device → Device → Prop
  | .sim _ => Embeds.Taken Device.sim fun s => s.pullReadable = true
  | .bcm _ => Embeds.Taken Device.bcm fun b => b.soc = .bcm2711
  | .h3 _ => Embeds.Taken Device.h3 fun _ => True

theorem embeds_sim : Embeds Device.sim where
  setMode _ _ _ := rfl
  mode _ _ := rfl
  setPull _ _ _ := rfl
  pull _ _ := rfl
  write _ _ _ := rfl
  read _ _ := rfl
  toggle _ _ := rfl

theorem embeds_bcm : Embeds Device.bcm where
  setMode _ _ _ := rfl
  mode _ _ := rfl
  setPull _ _ _ := rfl
  pull _ _ := rfl
  write _ _ _ := rfl
  read _ _ := rfl
  toggle _ _ := rfl

theorem embeds_h3 : Embeds Device.h3 where
  setMode _ _ _ := rfl
  mode _ _ := rfl
  setPull _ _ _ := rfl
  pull _ _ := rfl
  write _ _ _ := rfl
  read _ _ := rfl
  toggle _ _ := rfl

/-- Every pin of a device that reports pulls can be put back. -/
theorem restorable {d₀ : Device} (h : d₀.ReportsPulls) : Restorable d₀ d₀.Kin := by
  cases d₀ with
  | sim s => exact embeds_sim.restorable (Sim.restorable h.1 h.2)
  | bcm b => exact embeds_bcm.restorable (Bcm.restorable h)
  | h3 chip => exact embeds_h3.restorable (H3.restorable chip)

end Device

end BoardGpio
