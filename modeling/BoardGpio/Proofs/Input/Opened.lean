import BoardGpio.Input.Open
import BoardGpio.Proofs.Input.Own

/-!
# Ports that have just been opened

An opened port has counted nothing, has no callbacks and no flags set (`fresh_openPort`), and shows
at every input the level of a sample taken after all pins were made inputs (`reference_openPort`).
-/

set_option autoImplicit false

namespace BoardGpio

namespace InputPort

variable {β κ : Type} [Backend β]

/-- A port that has just been opened has counted nothing, its flags are empty, no callback is in its
place, and no monitor runs. -/
theorem fresh_openPort {pins : List InputPin}
    {settings : InputSettings} {now : Nat} {g g' : Gpio β} {p : InputPort κ}
    (hopen : (openPort pins settings now).run g = (.ok p, g')) :
    p.stats = {} ∧ (∀ index, p.flagOf index = none) ∧ (∀ c, ¬p.InPlace c) ∧
      p.monitoring = false := by
  unfold openPort at hopen
  obtain ⟨_, g₁, -, hrest⟩ := Act.run_bind_eq_ok_iff.mp hopen
  split at hrest
  · cases hrest
  · obtain ⟨mcus, g₂, -, hrest⟩ := Act.run_bind_eq_ok_iff.mp hrest
    obtain ⟨inputs, g₃, hinputs, hrest⟩ := Act.run_bind_eq_ok_iff.mp hrest
    obtain ⟨_, g₄, -, hpure⟩ := Act.run_bind_eq_ok_iff.mp hrest
    have hempty : ∀ i ∈ inputs, i.occurred = none ∧ i.callback = none := by
      refine Act.collect_all ?_ _ hinputs
      rintro ⟨pin, mcu⟩ s i t hi
      obtain ⟨high, u, -, hi⟩ := Act.run_bind_eq_ok_iff.mp hi
      cases hi
      exact ⟨rfl, rfl⟩
    cases hpure
    refine ⟨rfl, fun index => ?_, fun c hc => ?_, rfl⟩
    · rw [flagOf]
      cases hi : inputs[index]? with
      | none => rfl
      | some i => exact (hempty i (List.mem_of_getElem? hi)).1
    · rcases hc with hgroup | ⟨index, i, hi, hown⟩
      · cases hgroup
      · rw [(hempty i (List.mem_of_getElem? hi)).2] at hown
        cases hown

/-- An opened port has the settings that it was opened with. -/
theorem settings_openPort {pins : List InputPin} {settings : InputSettings} {now : Nat}
    {g g' : Gpio β} {p : InputPort κ}
    (hopen : (openPort pins settings now).run g = (.ok p, g')) : p.settings = settings := by
  unfold openPort at hopen
  obtain ⟨_, g₁, -, hrest⟩ := Act.run_bind_eq_ok_iff.mp hopen
  split at hrest
  · cases hrest
  · obtain ⟨mcus, g₂, -, hrest⟩ := Act.run_bind_eq_ok_iff.mp hrest
    obtain ⟨inputs, g₃, -, hrest⟩ := Act.run_bind_eq_ok_iff.mp hrest
    obtain ⟨_, g₄, -, hpure⟩ := Act.run_bind_eq_ok_iff.mp hrest
    cases hpure
    rfl

theorem distinct_openPort {pins : List InputPin}
    {settings : InputSettings} {now : Nat} {g g' : Gpio β} {p : InputPort κ}
    (hopen : (openPort pins settings now).run g = (.ok p, g')) :
    Moment.Distinct (⟨p, [], none⟩ : Moment κ) := by
  have hknows : ∀ c, ¬Moment.Knows (⟨p, [], none⟩ : Moment κ) c := by
    rintro c (hplace | ⟨call, hcall, -⟩)
    · exact (fresh_openPort hopen).2.2.1 c hplace
    · cases hcall
  exact ⟨fun c hc => absurd hc (hknows c), fun c _ hc => absurd hc (hknows c)⟩

/-- The reference sample is what the polarities of the pins make of the raw levels. -/
theorem collect_reference (pins : List InputPin) (mcus : List Nat)
    (hlen : mcus.length = pins.length) {g g' : Gpio β} {inputs : List (Input κ)}
    (h : (Act.collect (fun (pin, mcu) => reference pin mcu) (pins.zip mcus)).run g =
      (.ok inputs, g')) :
    ∃ raws, (Act.collect Gpio.readMcu mcus).run g = (.ok raws, g') ∧
      ∀ (index : Nat) (pin : InputPin), pins[index]? = some pin →
        ∃ (mcu : Nat) (high : Bool) (i : Input κ),
          mcus[index]? = some mcu ∧ raws[index]? = some high ∧ inputs[index]? = some i ∧
            i.pin = pin ∧ i.mcu = mcu ∧ i.trigger = .none ∧
              i.level = pin.active.normalize high := by
  induction pins generalizing mcus g inputs with
  | nil =>
    have hnil : mcus = [] := List.length_eq_zero_iff.mp hlen
    subst hnil
    cases h
    exact ⟨[], rfl, fun index pin hpin => by cases hpin⟩
  | cons pin pins ih =>
    cases mcus with
    | nil => cases hlen
    | cons mcu mcus =>
      obtain ⟨i, g₁, hfirst, hrest⟩ := Act.run_bind_eq_ok_iff.mp h
      obtain ⟨inputs', g₂, hinputs, hpure⟩ := Act.run_bind_eq_ok_iff.mp hrest
      cases hpure
      obtain ⟨high, g₃, hread, hi⟩ := Act.run_bind_eq_ok_iff.mp hfirst
      cases hi
      obtain ⟨raws, hraws, hall⟩ := ih mcus (Nat.succ.inj hlen) hinputs
      refine ⟨high :: raws, ?_, fun index pin' hpin => ?_⟩
      · rw [Act.collect, Act.run_bind_ok _ hread, Act.run_bind_ok _ hraws]
        rfl
      · cases index with
        | zero =>
          cases hpin
          exact ⟨mcu, high, _, rfl, rfl, rfl, rfl, rfl, rfl, rfl⟩
        | succ index => exact hall index pin' hpin

/-- The chip pin of an input and its level in the reference sample: the raw level of the chip pin
after all pins were made inputs, seen through its polarity. -/
def Reference (pins : List InputPin) (g : Gpio β) (index mcu : Nat) (level : Bool) : Prop :=
  ∃ (g₁ g₂ : Gpio β) (mcus : List Nat) (raws : List Bool) (pin : InputPin) (high : Bool),
    (Act.collect configure pins).run g = (.ok mcus, g₁) ∧
      (Act.collect Gpio.readMcu mcus).run g₁ = (.ok raws, g₂) ∧ pins[index]? = some pin ∧
        mcus[index]? = some mcu ∧ raws[index]? = some high ∧ level = pin.active.normalize high

/-- An opened port has no more inputs than a set can hold, and shows at each its pin, no trigger,
and its reference level. -/
theorem reference_openPort {pins : List InputPin} {settings : InputSettings} {now : Nat}
    {g g' : Gpio β} {p : InputPort κ} (hopen : (openPort pins settings now).run g = (.ok p, g')) :
    p.size ≤ PinSet.capacity ∧ ∀ (index : Nat) (pin : InputPin), pins[index]? = some pin →
      ∃ mcu level, Reference pins g index mcu level ∧ p.Shows index pin mcu .none level := by
  unfold openPort at hopen
  obtain ⟨_, g₀, hvalid, hrest⟩ := Act.run_bind_eq_ok_iff.mp hopen
  have hg₀ : g₀ = g := by
    have hleaves := Act.Leaves.lift settings.validate g
    rw [hvalid] at hleaves
    exact hleaves
  subst hg₀
  split at hrest
  · cases hrest
  · rename_i hfew
    obtain ⟨mcus, g₁, hmcus, hrest⟩ := Act.run_bind_eq_ok_iff.mp hrest
    obtain ⟨inputs, g₂, hinputs, hrest⟩ := Act.run_bind_eq_ok_iff.mp hrest
    obtain ⟨_, g₃, -, hpure⟩ := Act.run_bind_eq_ok_iff.mp hrest
    cases hpure
    have hlen : mcus.length = pins.length := Act.collect_length pins hmcus
    obtain ⟨raws, hraws, hall⟩ := collect_reference pins mcus hlen hinputs
    refine ⟨?_, fun index pin hpin => ?_⟩
    · show inputs.length ≤ PinSet.capacity
      rw [Act.collect_length _ hinputs, List.length_zip, hlen, Nat.min_self]
      exact Nat.le_of_not_lt hfew
    · obtain ⟨mcu, high, i, hmcu, hhigh, hi, hshows⟩ := hall index pin hpin
      exact ⟨mcu, _, ⟨g₁, g₂, mcus, raws, pin, high, hmcus, hraws, hpin, hmcu, hhigh, rfl⟩, i, hi,
        hshows⟩

end InputPort

end BoardGpio
