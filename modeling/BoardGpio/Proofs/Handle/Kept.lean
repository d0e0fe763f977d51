import BoardGpio.Handle.Batch
import BoardGpio.Handle.Cursor
import BoardGpio.Proofs.Backend.Restorable
import BoardGpio.Proofs.Backend.Unsteady

/-!
# What the records of a handle tell

While a handle is open, the record of every pin tells what the pin showed at first: a pin without a
saved mode still shows the mode it had, and a saved mode is the mode it had; the same holds of
pulls. Every call of a handle keeps this, whether it goes well or fails half-way (`keeps_setMode`,
`keeps_setPull`, and the calls that change no mode and no pull).
-/

set_option autoImplicit false

namespace BoardGpio

open Backend

/-- What was saved of something that showed `first` at first and shows `now`: nothing as long as it
shows the same, or the value it showed at first. -/
inductive Saved {α : Type} (first now : Except Failure α) : Option α → Prop where
  | untouched (h : now = first) : Saved first now none
  | replaced (a : α) (h : first = .ok a) (shown : ∃ b, now = .ok b) : Saved first now (some a)

namespace Saved

variable {α : Type} {first now now' : Except Failure α} {saved : Option α}

/-- The first change saves the value it replaces, and later changes leave what is saved. -/
theorem replace (h : Saved first now saved) {b : α} (hnow : now = .ok b)
    (hnow' : ∃ c, now' = .ok c) : Saved first now' (some (saved.getD b)) := by
  cases h with
  | untouched h => exact .replaced b (by rw [← h, hnow]) hnow'
  | replaced a h _ => exact .replaced a h hnow'

theorem congr (h : Saved first now saved) (heq : now' = now) : Saved first now' saved := by
  rw [heq]
  exact h

end Saved

variable {β α : Type} [Backend β]

/-- The record of a pin tells what the pin showed when the chip was in the state `b₀`. -/
structure PinRecord.Tells (r : PinRecord) (b₀ b : β) (pin : Nat) : Prop where
  mode : Saved (modeOf b₀ pin) (modeOf b pin) r.restoreMode
  pull : Saved (pullOf b₀ pin) (pullOf b pin) r.restorePull

/-- The records of a handle tell what every pin showed when the chip was in the state `b₀`. -/
structure Handle.Kept (b₀ : β) (Still : β → Prop) (b : β) (h : Handle) : Prop where
  still : Still b
  tells : ∀ pin, (h.record pin).Tells b₀ b pin

namespace Handle

theorem record_updateRecord (h : Handle) (mcu pin : Nat) (f : PinRecord → PinRecord) :
    (h.updateRecord mcu f).record pin =
      if mcu = pin ∧ pin < h.records.size then f (h.record pin) else h.record pin := by
  simp only [record, updateRecord, Array.getD_eq_getD_getElem?, Array.getElem?_modify]
  by_cases hpin : mcu = pin
  · subst hpin
    by_cases hsize : mcu < h.records.size <;> simp [hsize]
  · simp [hpin]

namespace Kept

variable {b₀ b b' : β} {Still : β → Prop} {h h' : Handle}

/-- A change that shows on no pin keeps what the records tell. -/
theorem unchanged (hk : h.Kept b₀ Still b) (hb : Unchanged Still b b') : h.Kept b₀ Still b' := by
  refine ⟨hb.still, fun pin => ⟨?_, ?_⟩⟩
  · exact (hk.tells pin).mode.congr (hb.modes pin)
  · exact (hk.tells pin).pull.congr (hb.pulls pin)

/-- Bookkeeping beside the records keeps what they tell. -/
theorem beside (hk : h.Kept b₀ Still b) (hrec : h'.records = h.records) :
    h'.Kept b₀ Still b := by
  refine ⟨hk.still, fun pin => ?_⟩
  have heq : h'.record pin = h.record pin := by rw [record, record, hrec]
  rw [heq]
  exact hk.tells pin

/-- A mode change that is recorded together with the mode it replaced. -/
theorem noteMode (hk : h.Kept b₀ Still b) {pin : Nat} {previous : Mode}
    (hb : ModeChanged Still pin b b') (hprev : modeOf b pin = .ok previous)
    (hsize : pin < h.records.size) :
    (h.updateRecord pin fun r => r.noteMode previous).Kept b₀ Still b' := by
  refine ⟨hb.still, fun q => ?_⟩
  rw [record_updateRecord]
  have hq := hk.tells q
  by_cases heq : pin = q
  · subst heq
    rw [if_pos ⟨rfl, hsize⟩]
    exact ⟨hq.mode.replace hprev hb.shows, hq.pull.congr (hb.pulls pin)⟩
  · rw [if_neg fun hand => heq hand.1]
    exact ⟨hq.mode.congr (hb.modes q (Ne.symm heq)), hq.pull.congr (hb.pulls q)⟩

theorem notePull (hk : h.Kept b₀ Still b) {pin : Nat} {previous : Option Pull} {u : Pull}
    (hb : PullChanged Still pin b b') (hprev : pullOf b pin = .ok previous)
    (hsize : pin < h.records.size) :
    (h.updateRecord pin fun r => r.notePull previous u).Kept b₀ Still b' := by
  refine ⟨hb.still, fun q => ?_⟩
  rw [record_updateRecord]
  have hq := hk.tells q
  by_cases heq : pin = q
  · subst heq
    rw [if_pos ⟨rfl, hsize⟩]
    exact ⟨hq.mode.congr (hb.modes pin), hq.pull.replace hprev hb.shows⟩
  · rw [if_neg fun hand => heq hand.1]
    exact ⟨hq.mode.congr (hb.modes q), hq.pull.congr (hb.pulls q (Ne.symm heq))⟩

end Kept

end Handle

namespace Line

variable {b₀ : β} {Still : β → Prop} {l : Line (Unsteady β)}

namespace Outcome

variable {call : CallKind} {pin : Nat} {x : Act β α} {r : Except Failure α × Line (Unsteady β)}

/-- A call that shows on no pin where the chip does it shows on no pin at all. -/
theorem unchanged (h : Outcome call pin x l r) (hl : Still l.chip)
    (hx : Unchanged Still l.chip (x.run l.chip).2) : Unchanged Still l.chip r.2.chip := by
  rcases h.chip_cases with ⟨e, -, hchip⟩ | ⟨-, hchip⟩
  · rw [hchip]
    exact Unchanged.refl hl
  · rw [hchip]
    exact hx

omit [Backend β] in
/-- A call that the chip does wholly or not at all is done wholly or not at all. -/
theorem allOrNothing {x : Act β Unit} {r : Except Failure Unit × Line (Unsteady β)}
    {effect : β → Prop} (h : Outcome call pin x l r)
    (hx : AllOrNothing effect l.chip (x.run l.chip)) :
    (∃ e, r.1 = .error e ∧ r.2.chip = l.chip) ∨ (r.1 = .ok () ∧ effect r.2.chip) := by
  rcases h.chip_cases with hfail | ⟨hres, hchip⟩
  · exact .inl hfail
  · rcases hx with ⟨e, hrun⟩ | ⟨b', hrun, heff⟩
    · exact .inl ⟨e, by rw [hres, hrun], by rw [hchip, hrun]⟩
    · exact .inr ⟨by rw [hres, hrun], by rw [hchip, hrun]; exact heff⟩

end Outcome

/-- Asking for a mode leaves the chip as it is, and an answer is what the pin shows. -/
theorem mode_answer (hr : Restorable b₀ Still) (hl : Still l.chip) (pin : Nat) :
    ((Backend.mode pin).run l).2.chip = l.chip ∧
      ∀ m, ((Backend.mode pin).run l).1 = .ok m → modeOf l.chip pin = .ok m := by
  rcases (outcome_mode l pin).chip_cases with ⟨e, hres, hchip⟩ | ⟨hres, hchip⟩
  · exact ⟨hchip, fun m hm => by rw [hres] at hm; cases hm⟩
  · refine ⟨by rw [hchip, hr.mode_leaves l.chip pin hl], fun m hm => ?_⟩
    rw [modeOf, ← hres, hm]

theorem pull_answer (hr : Restorable b₀ Still) (hl : Still l.chip) (pin : Nat) :
    ((Backend.pull pin).run l).2.chip = l.chip ∧
      ∀ u, ((Backend.pull pin).run l).1 = .ok u → pullOf l.chip pin = .ok u := by
  rcases (outcome_pull l pin).chip_cases with ⟨e, hres, hchip⟩ | ⟨hres, hchip⟩
  · exact ⟨hchip, fun u hu => by rw [hres] at hu; cases hu⟩
  · refine ⟨by rw [hchip, hr.pull_leaves l.chip pin hl], fun u hu => ?_⟩
    rw [pullOf, ← hres, hu]

end Line

end BoardGpio
