import BoardGpio.Proofs.Handle.Kept

/-!
# Calls keep what the records tell

Every call on a pin leaves the records telling what every pin showed at first (`Gpio.Sound`), with
whatever failures on the way. Only two calls change modes or pulls, and they
change the record after the chip and never without it (`keeps_setMode`, `keeps_setPull`).
-/

set_option autoImplicit false

namespace BoardGpio.Gpio

open Backend

variable {α γ : Type}

theorem run_hardware (x : Act γ α) (g : Gpio γ) :
    (hardware x).run g = ((x.run g.backend).1, { g with backend := (x.run g.backend).2 }) := rfl

/-- A number stands for a chip pin that has a record, or is refused. -/
theorem run_mcuPin (pin : Nat) (g : Gpio γ) :
    (mcuPin pin).run g = match g.handle.resolve pin with
      | .ok mcu => (.ok mcu, g)
      | .error e => (.error (.error e), g) := by
  show (Act.lift (g.handle.resolve pin)).run g = _
  cases g.handle.resolve pin <;> rfl

theorem run_hardware_of {x : Act γ α} {g : Gpio γ} {r : Except Failure α} {b : γ}
    (h : x.run g.backend = (r, b)) : (hardware x).run g = (r, { g with backend := b }) := by
  rw [run_hardware, h]

/-- A number that stands for a pin is taken for it. -/
theorem run_resolved {g : Gpio γ} {pin mcu : Nat} (hmcu : g.handle.mcu? pin = some mcu)
    (f : Nat → Act (Gpio γ) α) : (mcuPin pin >>= f).run g = (f mcu).run g := by
  have hresolve : (mcuPin pin).run g = (.ok mcu, g) := by rw [run_mcuPin, Handle.resolve, hmcu]
  exact Act.run_bind_ok f hresolve

/-- Resolving a number changes nothing. -/
theorem leaves_mcuPin {γ : Type} (pin : Nat) : (mcuPin pin : Act (Gpio γ) Nat).Leaves := by
  intro g
  rw [run_mcuPin]
  cases g.handle.resolve pin <;> rfl

variable {β : Type} [Backend β] {b₀ : β} {Still : β → Prop}

def chip (g : Gpio (Line (Unsteady β))) : β := g.backend.chip

/-- The handle is open, and its records tell what every pin of its chip showed in the state `b₀`. -/
structure Sound (b₀ : β) (Still : β → Prop) (g : Gpio (Line (Unsteady β))) : Prop where
  kept : g.handle.Kept b₀ Still g.chip
  unreleased : g.handle.released = false

/-- What shows on no pin keeps the records telling the truth. -/
theorem keeps_hardware {x : Act (Line (Unsteady β)) α}
    (hx : ∀ l, Still l.chip → Unchanged Still l.chip (x.run l).2.chip) :
    (hardware x).Keeps (Sound b₀ Still) := fun g hg =>
  ⟨hg.kept.unchanged (hx g.backend hg.kept.still), hg.unreleased⟩

/-- A state that differs in the chip alone, which shows the same, is as good. -/
theorem Sound.rewire {g : Gpio (Line (Unsteady β))} (hg : g.Sound b₀ Still)
    {l : Line (Unsteady β)} (hl : l.chip = g.chip) :
    Sound b₀ Still { g with backend := l } := by
  refine ⟨?_, hg.unreleased⟩
  show g.handle.Kept b₀ Still l.chip
  rw [hl]
  exact hg.kept

theorem keeps_update {f : Handle → Handle}
    (hf : ∀ h, (f h).records = h.records ∧ (f h).released = h.released) :
    (update f).Keeps (Sound b₀ Still) := fun g hg =>
  ⟨hg.kept.beside (hf g.handle).1, (hf g.handle).2.trans hg.unreleased⟩

theorem keeps_note (n : Notice) : (note n).Keeps (Sound b₀ Still) := fun _ hg =>
  ⟨hg.kept, hg.unreleased⟩

/-- Switching a chip pin fails and leaves the chip alone, or changes the mode of the pin. -/
theorem switch_cases (hr : Restorable b₀ Still) (mcu : Nat) (m : Mode)
    (g : Gpio (Line (Unsteady β))) (hg : Still g.chip) :
    (∃ e l, (switch mcu m).run g = (.error e, { g with backend := l }) ∧ l.chip = g.chip) ∨
      ∃ l log, (switch mcu m).run g = (.ok (), { g with backend := l, log := log }) ∧
        ModeChanged Still mcu g.chip l.chip := by
  have hcall := (Line.outcome_setMode g.backend mcu m).allOrNothing
    (hr.setMode_effect g.chip mcu m hg)
  rw [switch, Act.run_bind, run_hardware]
  rcases hset : (Backend.setMode mcu m : Act (Line (Unsteady β)) Unit).run g.backend with ⟨r, l⟩
  rw [hset] at hcall
  rcases hcall with ⟨e, hres, hchip⟩ | ⟨hres, hchanged⟩
  · cases hres
    exact .inl ⟨e, l, rfl, hchip⟩
  · cases hres
    exact .inr ⟨l, _, rfl, hchanged⟩

/-- Switching a pin keeps the records telling the truth, wherever it stops. -/
theorem keeps_setMode (hr : Restorable b₀ Still) (pin : Nat) (m : Mode) :
    (setMode pin m).Keeps (Sound b₀ Still) := by
  intro g hg
  rw [setMode, Act.run_bind, run_mcuPin]
  cases hpin : g.handle.resolve pin with
  | error e => exact hg
  | ok mcu =>
    have hsize : mcu < g.handle.records.size := (Handle.resolve_eq_ok_iff.mp hpin).2
    obtain ⟨hchip, hanswer⟩ := Line.mode_answer hr hg.kept.still mcu
    simp only
    rw [Act.run_bind, run_hardware]
    rcases hask : (Backend.mode mcu : Act (Line (Unsteady β)) Mode).run g.backend with
      ⟨e | previous, l⟩
    · rw [hask] at hchip
      exact hg.rewire hchip
    · rw [hask] at hchip hanswer
      have hprev : modeOf g.chip mcu = .ok previous := hanswer previous rfl
      have hasked : Sound b₀ Still { g with backend := l } := hg.rewire hchip
      simp only
      rw [Act.run_bind]
      rcases switch_cases hr mcu m { g with backend := l } hasked.kept.still with
        ⟨e, l', hrun, hl'⟩ | ⟨l', log, hrun, hchanged⟩
      · rw [hrun]
        exact hasked.rewire hl'
      · rw [hrun]
        -- from here on nothing can fail, so the change and its record stay together
        have hchanged : ModeChanged Still mcu g.chip l'.chip := by
          rw [show g.chip = l.chip from hchip.symm]
          exact hchanged
        exact ⟨hg.kept.noteMode hchanged hprev hsize, hg.unreleased⟩

/-- Setting a pull keeps the records telling the truth, wherever it stops. -/
theorem keeps_setPull (hr : Restorable b₀ Still) (pin : Nat) (u : Pull) :
    (setPull pin u).Keeps (Sound b₀ Still) := by
  intro g hg
  rw [setPull, Act.run_bind, run_mcuPin]
  cases hpin : g.handle.resolve pin with
  | error e => exact hg
  | ok mcu =>
    have hsize : mcu < g.handle.records.size := (Handle.resolve_eq_ok_iff.mp hpin).2
    obtain ⟨hchip, hanswer⟩ := Line.pull_answer hr hg.kept.still mcu
    simp only
    rw [Act.run_bind, run_hardware]
    rcases hask : (Backend.pull mcu : Act (Line (Unsteady β)) (Option Pull)).run g.backend with
      ⟨e | previous, l⟩
    · rw [hask] at hchip
      exact hg.rewire hchip
    · rw [hask] at hchip hanswer
      have hprev : pullOf g.chip mcu = .ok previous := hanswer previous rfl
      have hl : Still l.chip := (hg.rewire hchip).kept.still
      have hcall := (Line.outcome_setPull l mcu u).allOrNothing (hr.setPull_effect l.chip mcu u hl)
      simp only
      rw [Act.run_bind, run_hardware]
      rcases hset : (Backend.setPull mcu u : Act (Line (Unsteady β)) Unit).run l with ⟨r, l'⟩
      rw [hset] at hcall
      rw [hchip] at hcall
      rcases hcall with ⟨e, hres, hl'⟩ | ⟨hres, hchanged⟩
      · cases hres
        exact hg.rewire hl'
      · cases hres
        exact ⟨hg.kept.notePull hchanged hprev hsize, hg.unreleased⟩

/-! ## Calls that change no mode and no pull -/

section Neutral

variable (hr : Restorable b₀ Still)
include hr

theorem keeps_askMode (mcu : Nat) :
    (hardware (Backend.mode mcu) : Act (Gpio (Line (Unsteady β))) Mode).Keeps (Sound b₀ Still) :=
  keeps_hardware fun l hl => by
    rw [(Line.mode_answer hr hl mcu).1]
    exact Unchanged.refl hl

theorem keeps_askPull (mcu : Nat) :
    (hardware (Backend.pull mcu) : Act (Gpio (Line (Unsteady β))) (Option Pull)).Keeps
      (Sound b₀ Still) :=
  keeps_hardware fun l hl => by
    rw [(Line.pull_answer hr hl mcu).1]
    exact Unchanged.refl hl

theorem keeps_writeMcu (mcu : Nat) (high : Bool) : (writeMcu mcu high).Keeps (Sound b₀ Still) :=
  keeps_hardware fun l hl =>
    (Line.outcome_write l mcu high).unchanged hl (hr.write_unchanged l.chip mcu high hl)

theorem keeps_toggleMcu (mcu : Nat) : (toggleMcu mcu).Keeps (Sound b₀ Still) :=
  keeps_hardware fun l hl =>
    (Line.outcome_toggle l mcu).unchanged hl (hr.toggle_unchanged l.chip mcu hl)

theorem keeps_readMcu (mcu : Nat) : (readMcu mcu).Keeps (Sound b₀ Still) :=
  keeps_hardware fun l hl => by
    rw [Line.chip_read l mcu (hr.read_leaves l.chip mcu hl)]
    exact Unchanged.refl hl

end Neutral

end BoardGpio.Gpio
