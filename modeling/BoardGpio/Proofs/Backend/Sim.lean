import BoardGpio.Backend.Sim
import BoardGpio.Proofs.Backend.Restorable

/-!
# What simulated pins show

A call on a simulated pin either is refused and changes nothing, or replaces that one pin. With
readable pulls and no pin parked in the pulse-width mode that only a preset can give, every pin can
be brought back to what it showed (`restorable`).
-/

set_option autoImplicit false

namespace BoardGpio.Sim

open Backend

/-- The simulated pins with one of them replaced, and the change counted. -/
def replaced (s : Sim) (pin : Nat) (x : SimPin) : Sim :=
  { s with pins := s.pins.setIfInBounds pin x, mutations := s.mutations + 1 }

theorem run_mode (s : Sim) (pin : Nat) :
    (Backend.mode pin : Act Sim Mode).run s = match s.pins[pin]? with
      | some x => (.ok x.mode, s)
      | none => (.error (.error (noSuchPin pin)), s) := rfl

theorem run_pull (s : Sim) (pin : Nat) :
    (Backend.pull pin : Act Sim (Option Pull)).run s = match s.pins[pin]? with
      | some x => (.ok (if s.pullReadable then some x.pull else none), s)
      | none => (.error (.error (noSuchPin pin)), s) := by
  show (do
    let p ← look pin SimPin.pull
    let readable ← Act.gets pullReadable
    Pure.pure (if readable = true then some p else none) : Act Sim (Option Pull)).run s = _
  cases h : s.pins[pin]? with
  | none =>
    have hl : (look pin SimPin.pull).run s = (.error (.error (noSuchPin pin)), s) := by
      simp [look, Act.run, h]
    rw [Act.run_bind_error _ hl]
  | some x =>
    have hl : (look pin SimPin.pull).run s = (.ok x.pull, s) := by
      simp [look, Act.run, h]
    rw [Act.run_bind_ok _ hl]
    rfl

theorem run_look {α : Type} (s : Sim) (pin : Nat) (f : SimPin → α) :
    (look pin f).run s = match s.pins[pin]? with
      | some x => (.ok (f x), s)
      | none => (.error (.error (noSuchPin pin)), s) := rfl

/-- Looking at a pin changes nothing. -/
theorem leaves_look {α : Type} (pin : Nat) (f : SimPin → α) : (look pin f).Leaves := by
  intro s
  rw [run_look]
  cases s.pins[pin]? <;> rfl

theorem run_mutate (s : Sim) (pin : Nat) (f : SimPin → SimPin) :
    (mutate pin f).run s = match s.pins[pin]? with
      | some x => (.ok (), s.replaced pin (f x))
      | none => (.error (.error (noSuchPin pin)), s) := by
  cases h : s.pins[pin]? with
  | none =>
    have ho : (outside pin f).run s = (.error (.error (noSuchPin pin)), s) := by
      simp [outside, Act.run, h]
    rw [mutate, Act.run_bind_error _ ho]
  | some x =>
    have ho : (outside pin f).run s =
        (.ok (), { s with pins := s.pins.setIfInBounds pin (f x) }) := by
      simp [outside, Act.run, h]
    rw [mutate, Act.run_bind_ok _ ho]
    rfl

theorem modeOf_eq_ok_iff {s : Sim} {pin : Nat} {m : Mode} :
    modeOf s pin = .ok m ↔ ∃ x, s.pins[pin]? = some x ∧ x.mode = m := by
  rw [modeOf, run_mode]
  cases s.pins[pin]? <;> simp

theorem pullOf_eq_ok_iff {s : Sim} (h : s.pullReadable = true) {pin : Nat} {u : Option Pull} :
    pullOf s pin = .ok u ↔ ∃ x, s.pins[pin]? = some x ∧ some x.pull = u := by
  rw [pullOf, run_pull]
  cases s.pins[pin]? <;> simp [h]

/-- What pins show depends on the pins and on whether pulls can be read. -/
theorem modeOf_congr {s t : Sim} {pin : Nat}
    (h : (s.pins[pin]?).map SimPin.mode = (t.pins[pin]?).map SimPin.mode) :
    modeOf s pin = modeOf t pin := by
  rw [modeOf, modeOf, run_mode, run_mode]
  cases hs : s.pins[pin]? <;> cases ht : t.pins[pin]? <;> simp_all

theorem pullOf_congr {s t : Sim} {pin : Nat} (hr : s.pullReadable = t.pullReadable)
    (h : (s.pins[pin]?).map SimPin.pull = (t.pins[pin]?).map SimPin.pull) :
    pullOf s pin = pullOf t pin := by
  rw [pullOf, pullOf, run_pull, run_pull]
  cases hs : s.pins[pin]? <;> cases ht : t.pins[pin]? <;> simp_all

/-- Replacing a pin by one that is like it in some respect changes no pin in that respect. -/
theorem map_replaced {α : Type} (f : SimPin → α) {s : Sim} {pin : Nat} {x y : SimPin}
    (hx : s.pins[pin]? = some x) (hf : f y = f x) (q : Nat) :
    ((s.replaced pin y).pins[q]?).map f = (s.pins[q]?).map f := by
  have hlt : pin < s.pins.size := (Array.getElem?_eq_some_iff.mp hx).1
  by_cases hq : pin = q
  · subst hq
    rw [hx]
    simp [replaced, hlt, hf]
  · simp [replaced, hq]

theorem getElem?_replaced_ne (s : Sim) {pin q : Nat} (y : SimPin) (h : q ≠ pin) :
    (s.replaced pin y).pins[q]? = s.pins[q]? := by
  simp [replaced, Ne.symm h]

theorem getElem?_replaced_same {s : Sim} {pin : Nat} {x : SimPin} (y : SimPin)
    (hx : s.pins[pin]? = some x) : (s.replaced pin y).pins[pin]? = some y := by
  have hlt : pin < s.pins.size := (Array.getElem?_eq_some_iff.mp hx).1
  simp [replaced, hlt]

/-- Changing the latch of a pin changes no mode and no pull. -/
theorem mutate_latch_unchanged (s : Sim) (pin : Nat) (f : SimPin → Bool)
    (h : s.pullReadable = true) :
    Unchanged (fun t : Sim => t.pullReadable = true) s
      ((mutate pin fun p => { p with latch := f p }).run s).2 := by
  rw [run_mutate]
  cases hp : s.pins[pin]? with
  | none => exact Unchanged.refl h
  | some x =>
    simp only
    refine ⟨h, fun q => ?_, fun q => ?_⟩
    · exact modeOf_congr (map_replaced SimPin.mode hp (by rfl) q)
    · exact pullOf_congr rfl (map_replaced SimPin.pull hp (by rfl) q)

/-- Switching a pin is refused, or changes the mode of that pin to the one it can be switched to. -/
theorem run_setMode (s : Sim) (pin : Nat) (m : Mode) :
    (Backend.setMode pin m : Act Sim Unit).run s = match s.effectiveMode? pin m with
      | some m => (mutate pin fun p => { p with mode := m }).run s
      | none => (.error (.error (.unsupportedMode pin m)), s) := by
  show (setMode pin m).run s = _
  rw [setMode, Act.run_bind_ok _ (Act.run_gets _ s)]
  cases s.effectiveMode? pin m <;> rfl

theorem setMode_effect {s : Sim} (h : s.pullReadable = true) (pin : Nat) (m : Mode) :
    AllOrNothing (ModeChanged (fun t : Sim => t.pullReadable = true) pin s) s
      ((Backend.setMode pin m).run s) := by
  rw [run_setMode]
  cases s.effectiveMode? pin m with
  | none => exact .inl ⟨_, rfl⟩
  | some m' =>
    simp only
    rw [run_mutate]
    cases hp : s.pins[pin]? with
    | none => exact .inl ⟨_, rfl⟩
    | some x =>
      refine .inr ⟨_, rfl, h, ⟨m', ?_⟩, fun q hq => ?_, fun q => ?_⟩
      · exact modeOf_eq_ok_iff.mpr ⟨_, getElem?_replaced_same _ hp, rfl⟩
      · exact modeOf_congr (by rw [getElem?_replaced_ne s _ hq])
      · exact pullOf_congr rfl (map_replaced SimPin.pull hp (by rfl) q)

theorem setPull_effect {s : Sim} (h : s.pullReadable = true) (pin : Nat) (u : Pull) :
    AllOrNothing (PullChanged (fun t : Sim => t.pullReadable = true) pin s) s
      ((Backend.setPull pin u).run s) := by
  show AllOrNothing _ s ((mutate pin fun p => { p with pull := u }).run s)
  rw [run_mutate]
  cases hp : s.pins[pin]? with
  | none => exact .inl ⟨_, rfl⟩
  | some x =>
    refine .inr ⟨_, rfl, h, ⟨some u, ?_⟩, fun q => ?_, fun q hq => ?_⟩
    · exact (pullOf_eq_ok_iff (s := s.replaced pin _) h).mpr ⟨_, getElem?_replaced_same _ hp, rfl⟩
    · exact modeOf_congr (map_replaced SimPin.mode hp (by rfl) q)
    · exact pullOf_congr rfl (by rw [getElem?_replaced_ne s _ hq])

/-- Every mode but the pulse-width mode, which is parked in another, shows as it was set. -/
theorem setMode_back {s : Sim} {pin : Nat} {m now : Mode} (hm : m ≠ .pwm)
    (hnow : modeOf s pin = .ok now) :
    ∃ t, (Backend.setMode pin m).run s = (.ok (), t) ∧ modeOf t pin = .ok m := by
  obtain ⟨x, hx, -⟩ := modeOf_eq_ok_iff.mp hnow
  refine ⟨s.replaced pin { x with mode := m }, ?_, ?_⟩
  · rw [run_setMode, show s.effectiveMode? pin m = some m by simp [effectiveMode?, hm]]
    simp only
    rw [run_mutate, hx]
  · exact modeOf_eq_ok_iff.mpr ⟨_, getElem?_replaced_same _ hx, rfl⟩

theorem setPull_back {s : Sim} (h : s.pullReadable = true) {pin : Nat} {now : Option Pull}
    (hnow : pullOf s pin = .ok now) (u : Pull) :
    ∃ t, (Backend.setPull pin u).run s = (.ok (), t) ∧ pullOf t pin = .ok (some u) := by
  obtain ⟨x, hx, -⟩ := (pullOf_eq_ok_iff h).mp hnow
  refine ⟨s.replaced pin { x with pull := u }, ?_, ?_⟩
  · show (mutate pin fun p => { p with pull := u }).run s = _
    rw [run_mutate, hx]
  · exact (pullOf_eq_ok_iff (s := s.replaced pin _) h).mpr ⟨_, getElem?_replaced_same _ hx, rfl⟩

/-- With readable pulls and no pin parked in the pulse-width mode, simulated pins can be put
back. -/
theorem restorable {s₀ : Sim} (hread : s₀.pullReadable = true)
    (hpwm : ∀ x ∈ s₀.pins, x.mode ≠ .pwm) :
    Restorable s₀ fun s => s.pullReadable = true where
  start := hread
  mode_leaves s pin _ := leaves_look pin SimPin.mode s
  pull_leaves s pin _ := by
    rw [run_pull]
    cases s.pins[pin]? <;> rfl
  read_leaves s pin _ := leaves_look pin SimPin.level s
  write_unchanged s pin high h := mutate_latch_unchanged s pin (fun _ => high) h
  toggle_unchanged s pin h := mutate_latch_unchanged s pin (fun p => !p.latch) h
  setMode_effect s pin m h := setMode_effect h pin m
  setPull_effect s pin u h := setPull_effect h pin u
  setMode_back s pin m now _ h₀ hnow := by
    obtain ⟨x₀, hx₀, hm⟩ := modeOf_eq_ok_iff.mp h₀
    exact setMode_back (hm ▸ hpwm x₀ (Array.mem_of_getElem? hx₀)) hnow
  setPull_back s pin u now h _ hnow := setPull_back h hnow u
  pull_known s pin u h hu := by
    obtain ⟨x, -, rfl⟩ := (pullOf_eq_ok_iff h).mp hu
    exact Option.some_ne_none _

end BoardGpio.Sim
