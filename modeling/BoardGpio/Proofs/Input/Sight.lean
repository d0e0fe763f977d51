import BoardGpio.Proofs.Act.Failing
import BoardGpio.Proofs.Input.Calls
import BoardGpio.Proofs.Input.Sampling

/-!
# What a cycle gets to see

A cycle samples its inputs once, and under debounce a second time if something has changed. Any read
of either sample may fail. What the cycle has seen then (`Sight`) decides what it does: nothing at
all, one more sample counted, or a sample accepted (`run_poll_sees`). Main statement: at every point
of every run from the opening of a port on, the levels that the next sample is compared with are
those of the last sight that was accepted, or the reference sample if there was none
(`Viewing.levels`).
-/

set_option autoImplicit false

namespace BoardGpio

open InputPort

/-- What a cycle has seen of its inputs. -/
inductive Sight where
  /-- A read failed: in the first sample, or in the second after the first was taken. -/
  | failed (e : Failure) (taken : Bool)
  /-- The levels of the last accepted sample. -/
  | same
  /-- Other levels, in a port without debounce. -/
  | once (levels : List Bool)
  /-- Other levels, in the first sample and again in the second. -/
  | twice (levels : List Bool)
  /-- Other levels in the first sample, and not the same ones in the second. -/
  | bounced (first again : List Bool)
  deriving DecidableEq

/-- The levels that the cycle accepted. -/
def Sight.accepted? : Sight → Option (List Bool)
  | .once levels => some levels
  | .twice levels => some levels
  | _ => none

/-- The levels that were accepted last, from a reference sample on. -/
def lastAccepted (reference : List Bool) (xs : List Sight) : List Bool :=
  (xs.filterMap Sight.accepted?).getLast?.getD reference

theorem lastAccepted_concat (reference : List Bool) (xs : List Sight) (x : Sight) :
    lastAccepted reference (xs ++ [x]) = x.accepted?.getD (lastAccepted reference xs) := by
  rw [lastAccepted, List.filterMap_append]
  cases hx : x.accepted? with
  | none => simp [hx, lastAccepted]
  | some levels => simp [hx]

/-- Sights that were not accepted leave the last one that was. -/
theorem lastAccepted_append (reference : List Bool) (xs : List Sight) {ys : List Sight}
    (hys : ∀ y ∈ ys, y.accepted? = none) :
    lastAccepted reference (xs ++ ys) = lastAccepted reference xs := by
  have hnone : ys.filterMap Sight.accepted? = [] := List.filterMap_eq_nil_iff.mpr hys
  rw [lastAccepted, List.filterMap_append, hnone, List.append_nil]
  rfl

/-- The levels that were accepted last are the reference sample, or were seen. -/
theorem lastAccepted_cases (reference : List Bool) (xs : List Sight) :
    lastAccepted reference xs = reference ∨
      ∃ x ∈ xs, x.accepted? = some (lastAccepted reference xs) := by
  cases hlast : (xs.filterMap Sight.accepted?).getLast? with
  | none => exact .inl (by rw [lastAccepted, hlast, Option.getD_none])
  | some levels =>
    have hmem := List.mem_of_getLast? hlast
    obtain ⟨x, hx, haccepted⟩ := List.mem_filterMap.mp hmem
    exact .inr ⟨x, hx, by rw [lastAccepted, hlast, Option.getD_some, haccepted]⟩

namespace InputPort

variable {κ ρ : Type}

/-- Something about a port that no call changes, neither one on the port nor one of a callback. -/
structure Unmoved (v : InputPort κ → ρ) : Prop where
  after : ∀ p call, v (p.after call) = v p
  flag : ∀ p index e, v (p.flag index e) = v p
  countCall : ∀ p failed, v (p.countCall failed) = v p
  throttle : ∀ p throttle, v { p with throttle := throttle } = v p

theorem Unmoved.afterAll {v : InputPort κ → ρ} (hv : Unmoved v) (p : InputPort κ)
    (calls : List (PortCall κ)) : v (p.afterAll calls) = v p := by
  induction calls generalizing p with
  | nil => rfl
  | cons call calls ih => exact (ih (p.after call)).trans (hv.after p call)

theorem unmoved_settings : Unmoved (InputPort.settings : InputPort κ → InputSettings) :=
  ⟨settings_after, fun _ _ _ => rfl, fun _ _ => rfl, fun _ _ => rfl⟩

theorem unmoved_size : Unmoved (InputPort.size : InputPort κ → Nat) :=
  ⟨size_after, fun _ _ _ => List.length_modify .., fun _ _ => rfl, fun _ _ => rfl⟩

theorem levels_modify (p : InputPort κ) (index : Nat) {f : Input κ → Input κ}
    (hf : ∀ i, (f i).level = i.level) :
    (p.inputs.modify index f).map Input.level = p.levels :=
  map_modify_inputs hf p.inputs index

/-- No call on a port changes the levels that the next sample is compared with. -/
theorem levels_after (p : InputPort κ) (call : PortCall κ) : (p.after call).levels = p.levels := by
  cases call with
  | setEdge j trigger =>
    rw [after_setEdge]
    cases p.inputs[j]? with
    | none => rfl
    | some _ => exact levels_modify p j fun _ => rfl
  | takeEdge j =>
    rw [after_takeEdge]
    cases p.inputs[j]? with
    | none => rfl
    | some _ => exact levels_modify p j fun _ => rfl
  | callback call =>
    rw [after_callback, run_perform, run_place]
    cases call with
    | install j action =>
      dsimp only
      cases p.inputs[j]? with
      | none => rfl
      | some _ => exact levels_modify p j fun _ => rfl
    | uninstall j =>
      dsimp only
      cases p.inputs[j]? with
      | none => rfl
      | some _ => exact levels_modify p j fun _ => rfl
    | installGroup action => rfl
    | uninstallGroup => rfl

theorem unmoved_levels : Unmoved (InputPort.levels : InputPort κ → List Bool) :=
  ⟨levels_after, fun p index _ => levels_modify p index fun _ => rfl, fun _ _ => rfl,
    fun _ _ => rfl⟩

end InputPort

namespace Desk

variable {κ ε : Type} {log : ε → List (κ × Occasion)} {s : Surroundings ε} {invoke : Invoke κ ε}

/-! ## One cycle -/

/-- What a cycle of a port gets to see in a world, and the world after its samples. -/
inductive Sees (s : Surroundings ε) (p : InputPort κ) (w : ε) : Sight → ε → Prop where
  | unread {index : Nat} {e : Failure} {w' : ε}
      (hfails : Act.FailsAt s.read p.chipPins w index e w') : Sees s p w (.failed e false) w'
  | same {raws : List Bool} {w' : ε}
      (hread : (Act.collect s.read p.chipPins).run w = (.ok raws, w'))
      (hsame : p.view raws = p.levels) : Sees s p w .same w'
  | once {raws : List Bool} {w' : ε}
      (hread : (Act.collect s.read p.chipPins).run w = (.ok raws, w'))
      (hchanged : p.view raws ≠ p.levels) (hwait : p.settings.debounce = none) :
      Sees s p w (.once (p.view raws)) w'
  | unconfirmed {raws : List Bool} {delay : Duration} {index : Nat} {e : Failure} {w' w'' : ε}
      (hread : (Act.collect s.read p.chipPins).run w = (.ok raws, w'))
      (hchanged : p.view raws ≠ p.levels) (hwait : p.settings.debounce = some delay)
      (hfails : Act.FailsAt s.read p.chipPins (s.pause delay w') index e w'') :
      Sees s p w (.failed e true) w''
  | twice {raws again : List Bool} {delay : Duration} {w' w'' : ε}
      (hread : (Act.collect s.read p.chipPins).run w = (.ok raws, w'))
      (hchanged : p.view raws ≠ p.levels) (hwait : p.settings.debounce = some delay)
      (hagain : (Act.collect s.read p.chipPins).run (s.pause delay w') = (.ok again, w''))
      (hagree : p.view again = p.view raws) : Sees s p w (.twice (p.view again)) w''
  | bounced {raws again : List Bool} {delay : Duration} {w' w'' : ε}
      (hread : (Act.collect s.read p.chipPins).run w = (.ok raws, w'))
      (hchanged : p.view raws ≠ p.levels) (hwait : p.settings.debounce = some delay)
      (hagain : (Act.collect s.read p.chipPins).run (s.pause delay w') = (.ok again, w''))
      (hdiffer : p.view again ≠ p.view raws) :
      Sees s p w (.bounced (p.view raws) (p.view again)) w''

/-- Every cycle sees something. -/
theorem Sees.exists (s : Surroundings ε) (p : InputPort κ) (w : ε) : ∃ x w', Sees s p w x w' := by
  rcases hread : (Act.collect s.read p.chipPins).run w with ⟨e | raws, w'⟩
  · obtain ⟨index, hfails⟩ := Act.run_collect_eq_error_iff.mp hread
    exact ⟨_, _, .unread hfails⟩
  · by_cases hsame : p.view raws = p.levels
    · exact ⟨_, _, .same hread hsame⟩
    · cases hwait : p.settings.debounce with
      | none => exact ⟨_, _, .once hread hsame hwait⟩
      | some delay =>
        rcases hagain : (Act.collect s.read p.chipPins).run (s.pause delay w') with ⟨e | again, w''⟩
        · obtain ⟨index, hfails⟩ := Act.run_collect_eq_error_iff.mp hagain
          exact ⟨_, _, .unconfirmed hread hsame hwait hfails⟩
        · by_cases hagree : p.view again = p.view raws
          · exact ⟨_, _, .twice hread hsame hwait hagain hagree⟩
          · exact ⟨_, _, .bounced hread hsame hwait hagain hagree⟩

theorem length_view_collect {p : InputPort κ} {w w' : ε} {raws : List Bool}
    (hread : (Act.collect s.read p.chipPins).run w = (.ok raws, w')) :
    (p.view raws).length = p.size := by
  have hlength := Act.collect_length p.chipPins hread
  rw [InputPort.chipPins, List.length_map] at hlength
  rw [InputPort.view, List.length_zipWith, hlength]
  exact Nat.min_self _

/-- An accepted sample has one level for each input, and differs from the last one. -/
theorem Sees.accepted {p : InputPort κ} {w w' : ε} {x : Sight} {levels : List Bool}
    (h : Sees s p w x w') (hx : x.accepted? = some levels) :
    levels.length = p.size ∧ levels ≠ p.levels := by
  cases h with
  | once hread hchanged _ =>
    cases hx
    exact ⟨length_view_collect hread, hchanged⟩
  | twice _ hchanged _ hagain hagree =>
    cases hx
    exact ⟨length_view_collect hagain, hagree ▸ hchanged⟩
  | unread _ => cases hx
  | same _ _ => cases hx
  | unconfirmed _ _ _ _ => cases hx
  | bounced _ _ _ _ _ => cases hx

theorem unseen_collect (hlog : Witnesses log s invoke) {pins : List Nat} {w w' : ε}
    {r : Except Failure (List Bool)} (hr : (Act.collect s.read pins).run w = (r, w')) :
    log w' = log w := by
  have hkeeps : (Act.collect s.read pins).Keeps fun v => log v = log w :=
    Act.Keeps.collect (fun mcu v hv => (hlog.read mcu v).trans hv) pins
  have hw' := hkeeps w rfl
  rw [hr] at hw'
  exact hw'

/-- Nor is waiting after it. -/
theorem unseen_pause (hlog : Witnesses log s invoke) {pins : List Nat} {w w' : ε}
    {r : Except Failure (List Bool)} (hr : (Act.collect s.read pins).run w = (r, w'))
    (delay : Duration) : log (s.pause delay w') = log w :=
  (hlog.pause delay w').trans (unseen_collect hlog hr)

/-- Sampling is nothing that callbacks see, also if it fails. -/
theorem Sees.unseen (hlog : Witnesses log s invoke) {p : InputPort κ} {w w' : ε} {x : Sight}
    (h : Sees s p w x w') : log w' = log w := by
  cases h with
  | unread hfails => exact unseen_collect hlog (Act.run_collect_eq_error_iff.mpr ⟨_, hfails⟩)
  | same hread _ => exact unseen_collect hlog hread
  | once hread _ _ => exact unseen_collect hlog hread
  | unconfirmed hread _ _ hfails =>
    exact (unseen_collect hlog (Act.run_collect_eq_error_iff.mpr ⟨_, hfails⟩)).trans
      (unseen_pause hlog hread _)
  | twice hread _ _ hagain _ =>
    exact (unseen_collect hlog hagain).trans (unseen_pause hlog hread _)
  | bounced hread _ _ hagain _ =>
    exact (unseen_collect hlog hagain).trans (unseen_pause hlog hread _)

/-- What a cycle does about what it has seen. -/
theorem run_poll_sees (invoke : Invoke κ ε) {p : InputPort κ} {w w' : ε} {x : Sight}
    (h : Sees s p w x w') :
    (poll s invoke).run ⟨p, w⟩ = match x with
      | .failed e taken => (.error e, ⟨if taken then p.countSample else p, w'⟩)
      | .same => (.ok [], ⟨p.countSample, w'⟩)
      | .once levels => (settle s invoke levels).run ⟨p.countSample, w'⟩
      | .twice levels => (settle s invoke levels).run ⟨p.countSample, w'⟩
      | .bounced _ _ => (.ok [], ⟨p.countSample, w'⟩) := by
  cases h with
  | @unread _ e _ hfails =>
    have hsample : (sample s).run ⟨p, w⟩ = (.error e, ⟨p, w'⟩) := by
      rw [run_sample_raw, Act.run_collect_eq_error_iff.mpr ⟨_, hfails⟩]
    exact Act.run_bind_error _ hsample
  | same hread hsame => rw [run_poll_read invoke hread, if_pos hsame]
  | once hread hchanged hwait =>
    rw [run_poll_read invoke hread, if_neg hchanged, hwait]
    rfl
  | @unconfirmed raws delay _ e v _ hread hchanged hwait hfails =>
    have hsample : (sample s).run ⟨p.countSample, s.pause delay v⟩ =
        (.error e, ⟨p.countSample, w'⟩) := by
      have hcounted : (Act.collect s.read p.countSample.chipPins).run (s.pause delay v) =
          (.error e, w') := Act.run_collect_eq_error_iff.mpr ⟨_, hfails⟩
      rw [run_sample_raw, hcounted]
    rw [run_poll_read invoke hread, if_neg hchanged, hwait, Option.elim_some, confirm,
      Act.run_bind_ok _ (Act.run_modify _ _)]
    exact Act.run_bind_error _ hsample
  | twice hread hchanged hwait hagain hagree =>
    rw [run_poll_read invoke hread, if_neg hchanged, hwait, Option.elim_some,
      run_confirm_read invoke hagain, if_pos hagree]
  | bounced hread hchanged hwait hagain hdiffer =>
    rw [run_poll_read invoke hread, if_neg hchanged, hwait, Option.elim_some,
      run_confirm_read invoke hagain, if_neg hdiffer]

/-! ## The calls of a cycle -/

/-- What no call changes, the calls of a cycle leave alone. -/
theorem unmoved_makeCall {ρ : Type} {v : InputPort κ → ρ} (hv : Unmoved v)
    (hbehaved : Behaved invoke) (active : PinSet) (c : PendingCall κ) (d : Desk κ ε) :
    v (makeCall s invoke active c d).2.port = v d.port := by
  unfold makeCall
  by_cases hc : c.isCurrent d.port = true
  · rw [if_pos hc]
    obtain ⟨calls, hcalls⟩ := hbehaved c.callback.action (c.occasion active) d
    rcases hinvoke : invoke c.callback.action (c.occasion active) d with ⟨_ | reason, d'⟩
    · rw [hinvoke] at hcalls
      show v (d'.port.countCall false) = v d.port
      rw [hv.countCall, hcalls, hv.afterAll]
    · rw [hinvoke] at hcalls
      obtain ⟨throttle, hreport⟩ := report_port s
        (fun suppressed => .callbackFailed c.index c.edge reason suppressed)
        { d' with port := d'.port.countCall true }
      simp only [Option.isSome_some]
      rw [hreport, hv.throttle, hv.countCall, hcalls, hv.afterAll]
  · rw [if_neg hc]
    exact hv.flag d.port c.index c.edge

theorem unmoved_makeCalls {ρ : Type} {v : InputPort κ → ρ} (hv : Unmoved v)
    (hbehaved : Behaved invoke) (active : PinSet) (calls : List (PendingCall κ)) (d : Desk κ ε) :
    v (makeCalls s invoke active calls d).2.port = v d.port := by
  induction calls generalizing d with
  | nil => rfl
  | cons c calls ih =>
    exact (ih (makeCall s invoke active c d).2).trans (unmoved_makeCall hv hbehaved active c d)

/-- What no call, no sample and no report changes is left alone by a cycle. -/
theorem unmoved_poll {ρ : Type} {v : InputPort κ → ρ} (hv : Unmoved v)
    (hcount : ∀ p, v p.countSample = v p)
    (haccept : ∀ p (levels : List Bool), levels.length = p.size → v (p.accept levels) = v p)
    (hbehaved : Behaved invoke) (d : Desk κ ε) : v ((poll s invoke).run d).2.port = v d.port := by
  have hout : PollOutcome s invoke d ((poll s invoke).run d) := poll_outcome d
  generalize (poll s invoke).run d = r at hout
  cases hout with
  | idle _ _ _ _ hport _ =>
    rcases hport with rfl | rfl
    · rfl
    · exact hcount d.port
  | settled levels active w hsize _ =>
    exact (unmoved_makeCalls hv hbehaved active _ _).trans
      ((haccept d.port.countSample levels hsize).trans (hcount d.port))

/-- A cycle that accepts a sample settles on it. -/
theorem run_poll_accepts (invoke : Invoke κ ε) {p : InputPort κ} {w w' : ε} {x : Sight}
    {levels : List Bool} (h : Sees s p w x w') (hx : x.accepted? = some levels) :
    (poll s invoke).run ⟨p, w⟩ = (settle s invoke levels).run ⟨p.countSample, w'⟩ := by
  rw [run_poll_sees invoke h]
  cases x with
  | once seen =>
    cases hx
    rfl
  | twice seen =>
    cases hx
    rfl
  | failed e taken => cases hx
  | same => cases hx
  | bounced first again => cases hx

/-- After a cycle the levels are those that it accepted, or as before. -/
theorem levels_poll (hbehaved : Behaved invoke) {d : Desk κ ε}
    (hfew : d.port.size ≤ PinSet.capacity) {x : Sight} {w : ε} (h : Sees s d.port d.around x w) :
    ((poll s invoke).run d).2.port.levels = x.accepted?.getD d.port.levels := by
  cases hx : x.accepted? with
  | some levels =>
    obtain ⟨hsize, -⟩ := h.accepted hx
    obtain ⟨active, hsettle⟩ := run_settle_ok s invoke (hsize ▸ hfew) ⟨d.port.countSample, w⟩
    rw [show d = ⟨d.port, d.around⟩ from rfl, run_poll_accepts invoke h hx, hsettle]
    exact (unmoved_makeCalls unmoved_levels hbehaved active _ _).trans
      (levels_accept d.port.countSample levels hsize)
  | none =>
    rw [show d = ⟨d.port, d.around⟩ from rfl, run_poll_sees invoke h]
    cases x with
    | failed e taken => cases taken <;> rfl
    | same => rfl
    | bounced first again => rfl
    | once levels => cases hx
    | twice levels => cases hx

/-- The monitor's cycle is one of the program but for the throttle and the log. -/
theorem port_monitorCycle (s : Surroundings ε) (invoke : Invoke κ ε) (d : Desk κ ε) :
    ∃ throttle, ((monitorCycle s invoke).run d).2.port =
      { ((poll s invoke).run d).2.port with throttle := throttle } := by
  rw [monitorCycle, Act.run_bind, Act.run_attempt]
  rcases (poll s invoke).run d with ⟨(e | f) | made, d'⟩
  · exact report_port s (fun suppressed => .samplingFailed e suppressed) d'
  · exact ⟨_, rfl⟩
  · exact ⟨_, rfl⟩

/-! ## Runs -/

/-- A run with a port and what its cycles have seen. The cycles are those of the program and of the
monitor, in any surroundings; `callbacks` says which callbacks they may have. Between cycles calls
may be made on the port, and the world may change as it likes but for the calls of callbacks. -/
inductive Viewing (log : ε → List (κ × Occasion)) (callbacks : Invoke κ ε → Prop) (d₀ : Desk κ ε) :
    List Sight → Desk κ ε → Prop where
  | start : Viewing log callbacks d₀ [] d₀
  | elsewhere {xs : List Sight} {d : Desk κ ε} (h : Viewing log callbacks d₀ xs d) (w : ε)
      (hw : log w = log d.around) : Viewing log callbacks d₀ xs ⟨d.port, w⟩
  | call {xs : List Sight} {d : Desk κ ε} (h : Viewing log callbacks d₀ xs d) (call : PortCall κ) :
      Viewing log callbacks d₀ xs ((onPort call.perform).run d).2
  | poll {xs : List Sight} {d : Desk κ ε} (h : Viewing log callbacks d₀ xs d) {s : Surroundings ε}
      {invoke : Invoke κ ε} (hlog : Witnesses log s invoke) (hcallbacks : callbacks invoke)
      {x : Sight} {w : ε} (hsees : Sees s d.port d.around x w) :
      Viewing log callbacks d₀ (xs ++ [x]) ((poll s invoke).run d).2
  | monitor {xs : List Sight} {d : Desk κ ε} (h : Viewing log callbacks d₀ xs d)
      {s : Surroundings ε} {invoke : Invoke κ ε} (hlog : Witnesses log s invoke)
      (hcallbacks : callbacks invoke) {x : Sight} {w : ε}
      (hsees : Sees s d.port d.around x w) :
      Viewing log callbacks d₀ (xs ++ [x]) ((monitorCycle s invoke).run d).2

variable {callbacks : Invoke κ ε → Prop} {d₀ d : Desk κ ε} {xs : List Sight}

theorem Viewing.session (h : Viewing log callbacks d₀ xs d)
    (hbehaved : ∀ invoke, callbacks invoke → Behaved invoke) : Session log d₀ d := by
  induction h with
  | start => exact .start
  | elsewhere _ w hw ih => exact ih.elsewhere w hw
  | call _ call ih => exact ih.call call
  | poll _ hlog hcallbacks _ ih => exact ih.poll hlog (hbehaved _ hcallbacks)
  | monitor _ hlog hcallbacks _ ih => exact ih.monitor hlog (hbehaved _ hcallbacks)

/-- What no cycle and no call changes stays as it was. -/
theorem Viewing.unmoved {ρ : Type} {v : InputPort κ → ρ} (hv : Unmoved v)
    (hcount : ∀ p, v p.countSample = v p)
    (haccept : ∀ p (levels : List Bool), levels.length = p.size → v (p.accept levels) = v p)
    (hbehaved : ∀ invoke, callbacks invoke → Behaved invoke)
    (h : Viewing log callbacks d₀ xs d) : v d.port = v d₀.port := by
  induction h with
  | start => rfl
  | elsewhere _ _ _ ih => exact ih
  | @call _ d _ call ih => exact (hv.after d.port call).trans ih
  | poll _ _ hcallbacks _ ih =>
    exact (unmoved_poll hv hcount haccept (hbehaved _ hcallbacks) _).trans ih
  | @monitor _ d _ s invoke _ hcallbacks _ _ _ ih =>
    obtain ⟨throttle, hport⟩ := port_monitorCycle s invoke d
    rw [hport, hv.throttle, unmoved_poll hv hcount haccept (hbehaved _ hcallbacks)]
    exact ih

theorem Viewing.size (hbehaved : ∀ invoke, callbacks invoke → Behaved invoke)
    (h : Viewing log callbacks d₀ xs d) : d.port.size = d₀.port.size :=
  h.unmoved unmoved_size (fun _ => rfl) (fun p _ hsize => size_accept p hsize) hbehaved

theorem Viewing.settings (hbehaved : ∀ invoke, callbacks invoke → Behaved invoke)
    (h : Viewing log callbacks d₀ xs d) : d.port.settings = d₀.port.settings :=
  h.unmoved unmoved_settings (fun _ => rfl) (fun _ _ _ => rfl) hbehaved

/-- At every point of a run the next sample is compared with the one that was accepted last, however
many cycles have failed or accepted nothing since. -/
theorem Viewing.levels (hbehaved : ∀ invoke, callbacks invoke → Behaved invoke)
    (hfew : d₀.port.size ≤ PinSet.capacity) (h : Viewing log callbacks d₀ xs d) :
    d.port.levels = lastAccepted d₀.port.levels xs := by
  induction h with
  | start => rfl
  | elsewhere _ _ _ ih => exact ih
  | @call _ d _ call ih => exact (levels_after d.port call).trans ih
  | poll hrun _ hcallbacks hsees ih =>
    rw [lastAccepted_concat, ← ih]
    exact levels_poll (hbehaved _ hcallbacks) (hrun.size hbehaved ▸ hfew) hsees
  | @monitor _ d hrun s invoke _ hcallbacks _ _ hsees ih =>
    obtain ⟨throttle, hport⟩ := port_monitorCycle s invoke d
    rw [hport, unmoved_levels.throttle, lastAccepted_concat, ← ih]
    exact levels_poll (hbehaved _ hcallbacks) (hrun.size hbehaved ▸ hfew) hsees

end Desk

end BoardGpio
