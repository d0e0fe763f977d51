import BoardGpio.Backend.Basic
import BoardGpio.Proofs.Act.Invariant

/-!
# Backends whose pins can be put back

What a pin shows is what the backend answers when it is asked for the pin's mode and pull. A backend
is restorable from a state when every pin can be brought back to what it showed in that state,
whatever was done in between: a change of a mode or a pull either fails and leaves everything as it
was, or changes that one thing of that one pin; driving pins changes no mode and no pull; and a mode
or pull that a pin once showed can be set again and then shows again.
-/

set_option autoImplicit false

namespace BoardGpio.Backend

variable {β : Type} [Backend β]

/-- The mode that a pin shows, or why it shows none. -/
def modeOf (b : β) (pin : Nat) : Except Failure Mode :=
  ((Backend.mode pin : Act β Mode).run b).1

/-- The pull that a pin shows, if the chip can tell, or why it shows none. -/
def pullOf (b : β) (pin : Nat) : Except Failure (Option Pull) :=
  ((Backend.pull pin : Act β (Option Pull)).run b).1

/-- No pin shows another mode or pull than before, and the backend is still of its kind. -/
structure Unchanged (Still : β → Prop) (b b' : β) : Prop where
  still : Still b'
  modes : ∀ q, modeOf b' q = modeOf b q
  pulls : ∀ q, pullOf b' q = pullOf b q

/-- A pin may show another mode than before, and nothing else has changed. -/
structure ModeChanged (Still : β → Prop) (pin : Nat) (b b' : β) : Prop where
  still : Still b'
  shows : ∃ m, modeOf b' pin = .ok m
  modes : ∀ q, q ≠ pin → modeOf b' q = modeOf b q
  pulls : ∀ q, pullOf b' q = pullOf b q

/-- A pin may show another pull than before, and nothing else has changed. -/
structure PullChanged (Still : β → Prop) (pin : Nat) (b b' : β) : Prop where
  still : Still b'
  shows : ∃ u, pullOf b' pin = .ok u
  modes : ∀ q, modeOf b' q = modeOf b q
  pulls : ∀ q, q ≠ pin → pullOf b' q = pullOf b q

/-- The result of a call that fails without a trace or has an effect. -/
def AllOrNothing (effect : β → Prop) (b : β) (r : Except Failure Unit × β) : Prop :=
  (∃ e, r = (.error e, b)) ∨ ∃ b', r = (.ok (), b') ∧ effect b'

/-- Every pin can be brought back to what it shows in the state `b₀`, from every state that the
backend can get into; `Still` holds of those. -/
structure Restorable (b₀ : β) (Still : β → Prop) : Prop where
  start : Still b₀
  mode_leaves : ∀ b pin, Still b → ((Backend.mode pin : Act β Mode).run b).2 = b
  pull_leaves : ∀ b pin, Still b → ((Backend.pull pin : Act β (Option Pull)).run b).2 = b
  read_leaves : ∀ b pin, Still b → ((Backend.read pin : Act β Bool).run b).2 = b
  write_unchanged : ∀ b pin high, Still b →
    Unchanged Still b ((Backend.write pin high : Act β Unit).run b).2
  toggle_unchanged : ∀ b pin, Still b →
    Unchanged Still b ((Backend.toggle pin : Act β Unit).run b).2
  setMode_effect : ∀ b pin m, Still b →
    AllOrNothing (ModeChanged Still pin b) b ((Backend.setMode pin m).run b)
  setPull_effect : ∀ b pin u, Still b →
    AllOrNothing (PullChanged Still pin b) b ((Backend.setPull pin u).run b)
  /-- A mode that a pin showed at first can be set as long as the pin shows any. -/
  setMode_back : ∀ b pin m now, Still b → modeOf b₀ pin = .ok m → modeOf b pin = .ok now →
    ∃ b', (Backend.setMode pin m).run b = (.ok (), b') ∧ modeOf b' pin = .ok m
  /-- A pull that a pin showed at first can be set as long as the pin shows any. -/
  setPull_back : ∀ b pin u now, Still b → pullOf b₀ pin = .ok (some u) → pullOf b pin = .ok now →
    ∃ b', (Backend.setPull pin u).run b = (.ok (), b') ∧ pullOf b' pin = .ok (some u)
  pull_known : ∀ b pin u, Still b → pullOf b pin = .ok u → u ≠ none

variable {Still : β → Prop}

theorem Unchanged.refl {b : β} (h : Still b) : Unchanged Still b b :=
  ⟨h, fun _ => rfl, fun _ => rfl⟩

end BoardGpio.Backend
