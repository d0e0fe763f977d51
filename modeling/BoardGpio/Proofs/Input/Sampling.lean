import BoardGpio.Proofs.Input.Poll

/-!
# Cycles whose samples go well

What a cycle accepts is decided by the raw levels that it reads. Without debounce the first sample
is accepted; under debounce a changed sample is accepted if a second one, taken after the wait,
agrees with it (`Sampling`). The cycle then settles on the levels that the polarities of the inputs
make of the raw ones (`run_poll`), and as long as a set of pins can hold all inputs it does not fail
(`run_settle_ok`).
-/

set_option autoImplicit false

namespace BoardGpio

namespace PinSet

theorem insertAll?_ok (pins : List Nat) (s : PinSet) (h : ∀ pin ∈ pins, pin < capacity) :
    ∃ t, s.insertAll? pins = .ok t := by
  induction pins generalizing s with
  | nil => exact ⟨s, rfl⟩
  | cons pin pins ih =>
    have hpin : pin < capacity := h pin (by simp)
    have hinsert : s.insert? pin = .ok ⟨s.bits ||| BitVec.twoPow 128 pin⟩ := if_pos hpin
    obtain ⟨t, ht⟩ := ih ⟨s.bits ||| BitVec.twoPow 128 pin⟩ fun q hq =>
      h q (List.mem_cons_of_mem _ hq)
    refine ⟨t, ?_⟩
    rw [insertAll?, hinsert]
    exact ht

/-- A sample of no more levels than a set can hold has a set of active inputs. -/
theorem ofLevels?_ok {levels : List Bool} (h : levels.length ≤ capacity) :
    ∃ active, ofLevels? levels = .ok active := by
  refine insertAll?_ok _ empty fun pin hpin => ?_
  have hlt : pin < levels.length := List.mem_range.mp (List.mem_filter.mp hpin).1
  omega

end PinSet

namespace InputPort

variable {κ : Type}

def chipPins (p : InputPort κ) : List Nat := p.inputs.map Input.mcu

/-- What the polarities of the inputs make of raw levels. -/
def view (p : InputPort κ) (raws : List Bool) : List Bool :=
  List.zipWith (fun i high => i.pin.active.normalize high) p.inputs raws

theorem getElem?_view {p : InputPort κ} {raws : List Bool} {index : Nat} {i : Input κ} {high : Bool}
    (hi : p.inputs[index]? = some i) (hhigh : raws[index]? = some high) :
    (p.view raws)[index]? = some (i.pin.active.normalize high) := by
  rw [view, List.getElem?_zipWith, hi, hhigh]

end InputPort

namespace Desk

variable {κ ε : Type} {s : Surroundings ε} {invoke : Invoke κ ε}

/-- The levels of some inputs are the raw levels of their chip pins, seen through their polarities.
-/
theorem run_collect_level (inputs : List (Input κ)) (d : Desk κ ε) :
    (Act.collect (level s) inputs).run d =
      match (Act.collect s.read (inputs.map Input.mcu)).run d.around with
      | (.ok raws, w) =>
        (.ok (List.zipWith (fun i high => i.pin.active.normalize high) inputs raws), ⟨d.port, w⟩)
      | (.error e, w) => (.error e, ⟨d.port, w⟩) := by
  induction inputs generalizing d with
  | nil => rfl
  | cons i inputs ih =>
    rw [List.map_cons, Act.collect, Act.collect, Act.run_bind, Act.run_bind, run_level]
    rcases (s.read i.mcu).run d.around with ⟨e | high, w⟩
    · rfl
    · simp only
      rw [Act.run_bind, Act.run_bind, ih ⟨d.port, w⟩]
      rcases (Act.collect s.read (inputs.map Input.mcu)).run w with ⟨e | raws, w'⟩ <;> rfl

theorem run_sample_raw (p : InputPort κ) (w : ε) :
    (sample s).run ⟨p, w⟩ = match (Act.collect s.read p.chipPins).run w with
      | (.ok raws, w) => (.ok (p.view raws), ⟨p, w⟩)
      | (.error e, w) => (.error e, ⟨p, w⟩) := by
  rw [sample, Act.run_bind_ok _ (Act.run_gets _ _)]
  exact run_collect_level p.inputs ⟨p, w⟩

/-- A cycle of a port whose reads all go well: the raw levels it accepts, if it accepts any, and the
world it leaves before its calls are made. -/
inductive Sampling (s : Surroundings ε) (p : InputPort κ) (w : ε) :
    Option (List Bool) → ε → Prop where
  /-- Without debounce the sample is accepted. -/
  | plain (raws : List Bool) (w' : ε) (hwait : p.settings.debounce = none)
      (hread : (Act.collect s.read p.chipPins).run w = (.ok raws, w')) :
      Sampling s p w (some raws) w'
  /-- Nothing changed, so there is nothing to wait for. -/
  | steady (raws : List Bool) (w' : ε) (delay : Duration) (hwait : p.settings.debounce = some delay)
      (hread : (Act.collect s.read p.chipPins).run w = (.ok raws, w'))
      (hsame : p.view raws = p.levels) :
      Sampling s p w (some raws) w'
  /-- A changed sample that the second one agrees with is accepted. -/
  | confirmed (raws again : List Bool) (w' w'' : ε) (delay : Duration)
      (hwait : p.settings.debounce = some delay)
      (hread : (Act.collect s.read p.chipPins).run w = (.ok raws, w'))
      (hchanged : p.view raws ≠ p.levels)
      (hagain : (Act.collect s.read p.chipPins).run (s.pause delay w') = (.ok again, w''))
      (hagree : p.view again = p.view raws) :
      Sampling s p w (some again) w''
  /-- A changed sample that the second one differs from is not. -/
  | dismissed (raws again : List Bool) (w' w'' : ε) (delay : Duration)
      (hwait : p.settings.debounce = some delay)
      (hread : (Act.collect s.read p.chipPins).run w = (.ok raws, w'))
      (hchanged : p.view raws ≠ p.levels)
      (hagain : (Act.collect s.read p.chipPins).run (s.pause delay w') = (.ok again, w''))
      (hdiffer : p.view again ≠ p.view raws) :
      Sampling s p w none w''

theorem collect_read_ok (hread : ∀ mcu w, ∃ high, ((s.read mcu).run w).1 = .ok high)
    (pins : List Nat) (w : ε) :
    ∃ raws w', (Act.collect s.read pins).run w = (.ok raws, w') := by
  induction pins generalizing w with
  | nil => exact ⟨[], w, rfl⟩
  | cons mcu pins ih =>
    obtain ⟨high, hhigh⟩ := hread mcu w
    obtain ⟨raws, w', hraws⟩ := ih ((s.read mcu).run w).2
    have hfirst : (s.read mcu).run w = (.ok high, ((s.read mcu).run w).2) := Prod.ext hhigh rfl
    refine ⟨high :: raws, w', ?_⟩
    rw [Act.collect, Act.run_bind_ok _ hfirst, Act.run_bind_ok _ hraws]
    rfl

/-- Where no read fails, every cycle is of this kind. -/
theorem Sampling.exists (hread : ∀ mcu w, ∃ high, ((s.read mcu).run w).1 = .ok high)
    (p : InputPort κ) (w : ε) : ∃ accepted w', Sampling s p w accepted w' := by
  obtain ⟨raws, w', hraws⟩ := collect_read_ok hread p.chipPins w
  cases hwait : p.settings.debounce with
  | none => exact ⟨_, _, .plain raws w' hwait hraws⟩
  | some delay =>
    by_cases hsame : p.view raws = p.levels
    · exact ⟨_, _, .steady raws w' delay hwait hraws hsame⟩
    · obtain ⟨again, w'', hagain⟩ := collect_read_ok hread p.chipPins (s.pause delay w')
      by_cases hagree : p.view again = p.view raws
      · exact ⟨_, _, .confirmed raws again w' w'' delay hwait hraws hsame hagain hagree⟩
      · exact ⟨_, _, .dismissed raws again w' w'' delay hwait hraws hsame hagain hagree⟩

theorem Sampling.length {p : InputPort κ} {w w' : ε} {raws : List Bool}
    (h : Sampling s p w (some raws) w') : raws.length = p.size := by
  have hlen : ∀ {w w' : ε} {raws : List Bool},
      (Act.collect s.read p.chipPins).run w = (.ok raws, w') → raws.length = p.size := by
    intro w w' raws hraws
    rw [Act.collect_length p.chipPins hraws, InputPort.chipPins, List.length_map]
    rfl
  cases h with
  | plain _ _ _ hread => exact hlen hread
  | steady _ _ _ _ hread _ => exact hlen hread
  | confirmed _ _ _ _ _ _ _ _ hagain _ => exact hlen hagain

theorem Sampling.length_view {p : InputPort κ} {w w' : ε} {raws : List Bool}
    (h : Sampling s p w (some raws) w') : (p.view raws).length = p.size := by
  rw [InputPort.view, List.length_zipWith, h.length]
  exact Nat.min_self _

/-- A cycle after its first sample. -/
theorem run_poll_read (invoke : Invoke κ ε) {p : InputPort κ} {w w' : ε} {raws : List Bool}
    (hread : (Act.collect s.read p.chipPins).run w = (.ok raws, w')) :
    (poll s invoke).run ⟨p, w⟩ =
      if p.view raws = p.levels then (.ok [], ⟨p.countSample, w'⟩)
      else (p.settings.debounce.elim (settle s invoke (p.view raws)) fun delay =>
        confirm s invoke delay (p.view raws)).run ⟨p.countSample, w'⟩ := by
  have hsample : (sample s).run ⟨p, w⟩ = (.ok (p.view raws), ⟨p, w'⟩) := by
    rw [run_sample_raw, hread]
  rw [poll, Act.run_bind_ok _ hsample, Act.run_bind_ok _ (Act.run_modify _ _),
    Act.run_bind_ok _ (Act.run_gets _ _)]
  show Act.run (if p.view raws = p.levels then _ else _) _ = _
  by_cases hsame : p.view raws = p.levels
  · rw [if_pos hsame, if_pos hsame]
    rfl
  · rw [if_neg hsame, if_neg hsame]
    split
    · rename_i hwait
      rw [show p.settings.debounce = none from hwait]
      rfl
    · rename_i delay hwait
      rw [show p.settings.debounce = some delay from hwait]
      rfl

/-- A cycle after its second sample. -/
theorem run_confirm_read (invoke : Invoke κ ε) {p : InputPort κ} {delay : Duration} {w w' : ε}
    {levels again : List Bool}
    (hagain : (Act.collect s.read p.chipPins).run (s.pause delay w) = (.ok again, w')) :
    (confirm s invoke delay levels).run ⟨p.countSample, w⟩ =
      if p.view again = levels then (settle s invoke (p.view again)).run ⟨p.countSample, w'⟩
      else (.ok [], ⟨p.countSample, w'⟩) := by
  have hcounted : (Act.collect s.read p.countSample.chipPins).run (s.pause delay w) =
      (.ok again, w') := hagain
  have hsample : (sample s).run ⟨p.countSample, s.pause delay w⟩ =
      (.ok (p.view again), ⟨p.countSample, w'⟩) := by
    rw [run_sample_raw, hcounted]
    rfl
  rw [confirm, Act.run_bind_ok _ (Act.run_modify _ _), Act.run_bind_ok _ hsample]
  by_cases hagree : p.view again = levels
  · rw [if_pos hagree, if_pos hagree]
  · rw [if_neg hagree, if_neg hagree]
    rfl

/-- A cycle whose reads go well ends where it began but for the number of samples, or settles on
what it accepted. -/
theorem run_poll (invoke : Invoke κ ε) {p : InputPort κ} {w w' : ε}
    {accepted : Option (List Bool)} (h : Sampling s p w accepted w') :
    (poll s invoke).run ⟨p, w⟩ = match accepted with
      | some raws =>
        if p.view raws = p.levels then (.ok [], ⟨p.countSample, w'⟩)
        else (settle s invoke (p.view raws)).run ⟨p.countSample, w'⟩
      | none => (.ok [], ⟨p.countSample, w'⟩) := by
  cases h with
  | plain raws _ hwait hread =>
    rw [run_poll_read invoke hread, hwait]
    rfl
  | steady raws _ delay hwait hread hsame =>
    rw [run_poll_read invoke hread]
    simp only
    rw [if_pos hsame, if_pos hsame]
  | confirmed raws again v _ delay hwait hread hchanged hagain hagree =>
    rw [run_poll_read invoke hread, if_neg hchanged, hwait, Option.elim_some,
      run_confirm_read invoke hagain, if_pos hagree]
    simp only
    rw [if_neg (hagree ▸ hchanged)]
  | dismissed raws again v _ delay hwait hread hchanged hagain hdiffer =>
    rw [run_poll_read invoke hread, if_neg hchanged, hwait, Option.elim_some,
      run_confirm_read invoke hagain, if_neg hdiffer]

/-- Settling does not fail when a set can hold all inputs. -/
theorem run_settle_ok (s : Surroundings ε) (invoke : Invoke κ ε) {levels : List Bool}
    (h : levels.length ≤ PinSet.capacity) (d : Desk κ ε) :
    ∃ active, (settle s invoke levels).run d =
      (.ok (makeCalls s invoke active (d.port.calls levels)
          { d with port := d.port.accept levels }).1,
        (makeCalls s invoke active (d.port.calls levels)
          { d with port := d.port.accept levels }).2) := by
  obtain ⟨active, hactive⟩ := PinSet.ofLevels?_ok h
  refine ⟨active, ?_⟩
  rw [run_settle, hactive]

end Desk

end BoardGpio
