import BoardGpio.Input.Cycle
import BoardGpio.Proofs.Act.Invariant

/-!
# What a cycle can come to

A sampling cycle ends in one of two ways (`PollOutcome`, `poll_outcome`): it accepts a sample and
makes its calls, or it leaves the port as it was but for the number of samples. The second covers a
failed sample, an unchanged one, and one that the second sample did not confirm.
-/

set_option autoImplicit false

namespace BoardGpio

namespace Desk

variable {κ ε : Type}

/-- A world that sampling and waiting lead to. -/
inductive Sampled (s : Surroundings ε) (w : ε) : ε → Prop where
  | none : Sampled s w w
  | read {v : ε} (mcu : Nat) (h : Sampled s w v) : Sampled s w ((s.read mcu).run v).2
  | pause {v : ε} (d : Duration) (h : Sampled s w v) : Sampled s w (s.pause d v)

/-- What one cycle can come to. -/
inductive PollOutcome (s : Surroundings ε) (invoke : Invoke κ ε) (d : Desk κ ε) :
    Except Failure (List (PendingCall κ)) × Desk κ ε → Prop where
  | idle (r : Except Failure (List (PendingCall κ))) (port : InputPort κ) (w : ε)
      (hr : r = .ok [] ∨ ∃ e, r = .error e)
      (hport : port = d.port ∨ port = d.port.countSample) (hw : Sampled s d.around w) :
      PollOutcome s invoke d (r, ⟨port, w⟩)
  | settled (levels : List Bool) (active : PinSet) (w : ε) (hsize : levels.length = d.port.size)
      (hw : Sampled s d.around w) :
      PollOutcome s invoke d
        (.ok (makeCalls s invoke active (d.port.countSample.calls levels)
            ⟨d.port.countSample.accept levels, w⟩).1,
          (makeCalls s invoke active (d.port.countSample.calls levels)
            ⟨d.port.countSample.accept levels, w⟩).2)

variable {s : Surroundings ε} {invoke : Invoke κ ε}

theorem Sampled.trans {u v w : ε} (h : Sampled s u v) (h' : Sampled s v w) : Sampled s u w := by
  induction h' with
  | none => exact h
  | read mcu _ ih => exact .read mcu ih
  | pause d _ ih => exact .pause d ih

theorem run_level (i : Input κ) (d : Desk κ ε) :
    (level s i).run d = match (s.read i.mcu).run d.around with
      | (.ok high, w) => (.ok (i.pin.active.normalize high), ⟨d.port, w⟩)
      | (.error e, w) => (.error e, ⟨d.port, w⟩) := by
  rw [level, Act.run_bind, onWorld, Act.run_within]
  rcases (s.read i.mcu).run d.around with ⟨_ | _, _⟩ <;> rfl

/-- Collecting the levels of some inputs leaves the port alone and gives one level for each. -/
theorem collect_level (inputs : List (Input κ)) (d : Desk κ ε) :
    ((Act.collect (level s) inputs).run d).2.port = d.port ∧
      Sampled s d.around ((Act.collect (level s) inputs).run d).2.around ∧
        ∀ levels, ((Act.collect (level s) inputs).run d).1 = .ok levels →
          levels.length = inputs.length := by
  induction inputs generalizing d with
  | nil =>
    refine ⟨rfl, .none, fun levels h => ?_⟩
    cases h
    rfl
  | cons i inputs ih =>
    have hread : Sampled s d.around ((s.read i.mcu).run d.around).2 := .read i.mcu .none
    rw [Act.collect, Act.run_bind, run_level]
    rcases hrun : (s.read i.mcu).run d.around with ⟨e | high, w⟩
    · rw [hrun] at hread
      exact ⟨rfl, hread, fun levels h => by cases h⟩
    · rw [hrun] at hread
      obtain ⟨hport, hw, hlen⟩ := ih ⟨d.port, w⟩
      simp only
      rw [Act.run_bind]
      rcases hrest : (Act.collect (level s) inputs).run ⟨d.port, w⟩ with ⟨e | levels, d'⟩
      · rw [hrest] at hport hw
        exact ⟨hport, hread.trans hw, fun levels h => by cases h⟩
      · rw [hrest] at hport hw hlen
        refine ⟨hport, hread.trans hw, fun all h => ?_⟩
        cases h
        rw [List.length_cons, List.length_cons, hlen levels rfl]

/-- A sample leaves the port alone and has one level for each input. -/
theorem run_sample (d : Desk κ ε) :
    ((sample s).run d).2.port = d.port ∧ Sampled s d.around ((sample s).run d).2.around ∧
      ∀ levels, ((sample s).run d).1 = .ok levels → levels.length = d.port.size := by
  have hrun : (sample s).run d = (Act.collect (level s) d.port.inputs).run d := by
    rw [sample, Act.run_bind_ok _ (Act.run_gets _ d)]
  rw [hrun]
  exact collect_level d.port.inputs d

/-- Settling accepts the sample and makes its calls, unless the levels are too many to be told. -/
theorem run_settle (levels : List Bool) (d : Desk κ ε) :
    (settle s invoke levels).run d = match PinSet.ofLevels? levels with
      | .ok active =>
        (.ok (makeCalls s invoke active (d.port.calls levels)
            { d with port := d.port.accept levels }).1,
          (makeCalls s invoke active (d.port.calls levels)
            { d with port := d.port.accept levels }).2)
      | .error e => (.error (.error e), d) := by
  rw [settle]
  cases PinSet.ofLevels? levels with
  | error e => rfl
  | ok active => rfl

theorem poll_outcome (d : Desk κ ε) : PollOutcome s invoke d ((poll s invoke).run d) := by
  have hsample := run_sample (s := s) d
  rw [poll, Act.run_bind]
  rcases hrun : (sample s).run d with ⟨e | levels, port, w⟩
  · rw [hrun] at hsample
    exact .idle _ _ _ (.inr ⟨e, rfl⟩) (.inl hsample.1) hsample.2.1
  · rw [hrun] at hsample
    obtain ⟨hport, hw, hlen⟩ := hsample
    cases hport
    have hcount : (Act.modify fun d : Desk κ ε => { d with port := d.port.countSample }).run
        ⟨d.port, w⟩ = (.ok (), ⟨d.port.countSample, w⟩) := rfl
    have hsettled : ∀ v, Sampled s d.around v → ∀ levels : List Bool,
        levels.length = d.port.size →
        PollOutcome s invoke d ((settle s invoke levels).run ⟨d.port.countSample, v⟩) := by
      intro v hv levels hlevels
      rw [run_settle]
      cases PinSet.ofLevels? levels with
      | error e => exact .idle _ _ _ (.inr ⟨_, rfl⟩) (.inr rfl) hv
      | ok active => exact .settled levels active v hlevels hv
    simp only
    rw [Act.run_bind_ok _ hcount, Act.run_bind_ok _ (Act.run_gets _ _)]
    by_cases hsame : levels = d.port.countSample.levels
    · rw [if_pos hsame]
      exact .idle _ _ _ (.inl rfl) (.inr rfl) hw
    · rw [if_neg hsame]
      cases d.port.countSample.settings.debounce with
      | none => exact hsettled w hw levels (hlen levels rfl)
      | some delay =>
        have hwait :
            (Act.modify fun d : Desk κ ε => { d with around := s.pause delay d.around }).run
              ⟨d.port.countSample, w⟩ = (.ok (), ⟨d.port.countSample, s.pause delay w⟩) := rfl
        have hagain := run_sample (s := s) ⟨d.port.countSample, s.pause delay w⟩
        simp only [confirm]
        rw [Act.run_bind_ok _ hwait, Act.run_bind]
        rcases hrun' : (sample s).run ⟨d.port.countSample, s.pause delay w⟩ with
          ⟨e | again, port', w'⟩
        · rw [hrun'] at hagain
          exact .idle _ _ _ (.inr ⟨e, rfl⟩) (.inr hagain.1)
            ((Sampled.pause delay hw).trans hagain.2.1)
        · rw [hrun'] at hagain
          obtain ⟨hport', hw', hlen'⟩ := hagain
          cases hport'
          have hv : Sampled s d.around w' := (Sampled.pause delay hw).trans hw'
          simp only
          by_cases hsteady : again = levels
          · rw [if_pos hsteady]
            exact hsettled w' hv again (hlen' again rfl)
          · rw [if_neg hsteady]
            exact .idle _ _ _ (.inl rfl) (.inr rfl) hv

/-- What a cycle does when it does not fail it does for the monitor, too. -/
theorem run_monitorCycle_ok {d d' : Desk κ ε} {made : List (PendingCall κ)}
    (hpoll : (poll s invoke).run d = (.ok made, d')) :
    (monitorCycle s invoke).run d = (.ok (), d') := by
  rw [monitorCycle, Act.run_bind, Act.run_attempt, hpoll]
  rfl

end Desk

end BoardGpio
