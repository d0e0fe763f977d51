import BoardGpio.Handle.Hub
import BoardGpio.Proofs.Handle.Calls

/-!
# Putting pins back restores them

Putting a pin back either is hindered, by a rule of the rig or by a backend call that fails before
it takes effect, or makes the pin show what it showed at first and empties its record
(`restorePin_outcome`). So a release that nothing hinders goes well and leaves every pin as it was
at first (`release_restores`).
-/

set_option autoImplicit false

namespace BoardGpio

open Backend

/-- The calls that putting a pin back makes on a chip that can tell its pulls: the pull of a pin
that goes back to being an input is asked for, to see that the chip can tell it. -/
def PinRecord.restoringCalls (r : PinRecord) : List CallKind :=
  (match r.restoreMode with
    | some _ => [.setMode]
    | none => []) ++
  match r.restorePull with
  | some _ => [.setPull]
  | none => if r.restoreMode = some .input then [.pull] else []

namespace Line

variable {β : Type}

/-- A line after some calls: the rules are the same, and failures were only added. -/
structure Follows (l l' : Line (Unsteady β)) : Prop where
  failures : l.failures ≤ l'.failures
  faults : l'.rig.faults = l.rig.faults
  direct : l'.direct = l.direct

/-- Between `l` and `l'` one of these calls on the pin was kept from the backend, or a call that got
there failed. -/
def Hindered (calls : List CallKind) (pin : Nat) (l l' : Line (Unsteady β)) : Prop :=
  (∃ call ∈ calls, l.Barred call pin) ∨ l.failures < l'.failures

variable {l l' l'' : Line (Unsteady β)} {calls : List CallKind} {pin : Nat}

theorem Follows.refl (l : Line (Unsteady β)) : l.Follows l := ⟨Nat.le_refl _, rfl, rfl⟩

theorem Follows.trans (h : l.Follows l') (h' : l'.Follows l'') : l.Follows l'' :=
  ⟨Nat.le_trans h.failures h'.failures, h'.faults.trans h.faults, h'.direct.trans h.direct⟩

theorem Called.follows {α : Type} {r : Except Failure α} {c : β} (h : l.Called r c l') :
    l.Follows l' :=
  ⟨by rw [h.failures]; exact Nat.le_add_right _ _, h.faults, h.direct⟩

theorem Follows.barred (h : l.Follows l') {call : CallKind} (hb : l'.Barred call pin) :
    l.Barred call pin := by
  unfold Barred at hb ⊢
  rw [h.direct, h.faults] at hb
  exact hb

/-- What hinders the rest of some calls hinders them all. -/
theorem Hindered.after (h : Hindered calls pin l' l'') (hl : l.Follows l') {more : List CallKind}
    (hsub : ∀ call ∈ calls, call ∈ more) : Hindered more pin l l'' := by
  rcases h with ⟨call, hmem, hbar⟩ | hfail
  · exact .inl ⟨call, hsub call hmem, hl.barred hbar⟩
  · exact .inr (Nat.lt_of_le_of_lt hl.failures hfail)

theorem Hindered.among {call : CallKind} (h : Hindered [call] pin l l') (hmem : call ∈ calls) :
    Hindered calls pin l l' := by
  apply h.after (Follows.refl l)
  intro call' hcall'
  rw [List.mem_singleton.mp hcall']
  exact hmem

theorem Outcome.follows {α : Type} {call : CallKind} {x : Act β α}
    {r : Except Failure α × Line (Unsteady β)} (h : Outcome call pin x l r) : l.Follows r.2 := by
  cases h with
  | barred e _ => exact Follows.refl l
  | struck e l' after => exact after.follows
  | done l' after => exact after.follows

/-- A call is hindered, or the chip does it and it goes well. -/
theorem Outcome.hindered_or_done {α : Type} {call : CallKind} {x : Act β α}
    {r : Except Failure α × Line (Unsteady β)} (h : Outcome call pin x l r) :
    (∃ e, r.1 = .error e ∧ Hindered [call] pin l r.2) ∨
      ∃ a, r.1 = .ok a ∧ (x.run l.chip).1 = .ok a ∧ r.2.chip = (x.run l.chip).2 ∧
        l.Follows r.2 := by
  have hmore : ∀ {e : Failure} {c : β} {l' : Line (Unsteady β)},
      l.Called (.error e : Except Failure α) c l' → l.failures < l'.failures := by
    intro e c l' after
    rw [after.failures]
    exact Nat.lt_succ_self _
  cases h with
  | barred e hbar => exact .inl ⟨e, rfl, .inl ⟨call, List.mem_singleton.mpr rfl, hbar⟩⟩
  | struck e l' after => exact .inl ⟨e, rfl, .inr (hmore after)⟩
  | done l' after =>
    cases hres : (x.run l.chip).1 with
    | error e =>
      rw [hres] at after
      exact .inl ⟨e, rfl, .inr (hmore after)⟩
    | ok a => exact .inr ⟨a, rfl, rfl, after.chip, after.follows⟩

end Line

namespace Backend.Restorable

variable {β : Type} [Backend β] {b₀ b : β} {Still : β → Prop} {pin : Nat}

/-- The pin shows its first mode again, and nothing else that shows has changed. -/
structure ModeBack (b₀ : β) (Still : β → Prop) (pin : Nat) (b b' : β) : Prop where
  still : Still b'
  mode : modeOf b' pin = modeOf b₀ pin
  modes : ∀ q, q ≠ pin → modeOf b' q = modeOf b q
  pulls : ∀ q, pullOf b' q = pullOf b q

/-- The pin shows its first pull again, and nothing else that shows has changed. -/
structure PullBack (b₀ : β) (Still : β → Prop) (pin : Nat) (b b' : β) : Prop where
  still : Still b'
  pull : pullOf b' pin = pullOf b₀ pin
  modes : ∀ q, modeOf b' q = modeOf b q
  pulls : ∀ q, q ≠ pin → pullOf b' q = pullOf b q

/-- A mode that a pin showed at first is set without fail, and nothing else changes. -/
theorem setMode_restores (hr : Restorable b₀ Still) (hb : Still b) {m now : Mode}
    (h₀ : modeOf b₀ pin = .ok m) (hnow : modeOf b pin = .ok now) :
    ∃ b', (Backend.setMode pin m).run b = (.ok (), b') ∧ ModeBack b₀ Still pin b b' := by
  obtain ⟨b', hrun, hshow⟩ := hr.setMode_back b pin m now hb h₀ hnow
  rcases hr.setMode_effect b pin m hb with ⟨e, hfail⟩ | ⟨b'', hrun', hchanged⟩
  · rw [hrun] at hfail
    cases hfail
  · rw [hrun] at hrun'
    cases hrun'
    exact ⟨b', hrun, hchanged.still, hshow.trans h₀.symm, hchanged.modes, hchanged.pulls⟩

theorem setPull_restores (hr : Restorable b₀ Still) (hb : Still b) {u : Pull} {now : Option Pull}
    (h₀ : pullOf b₀ pin = .ok (some u)) (hnow : pullOf b pin = .ok now) :
    ∃ b', (Backend.setPull pin u).run b = (.ok (), b') ∧ PullBack b₀ Still pin b b' := by
  obtain ⟨b', hrun, hshow⟩ := hr.setPull_back b pin u now hb h₀ hnow
  rcases hr.setPull_effect b pin u hb with ⟨e, hfail⟩ | ⟨b'', hrun', hchanged⟩
  · rw [hrun] at hfail
    cases hfail
  · rw [hrun] at hrun'
    cases hrun'
    exact ⟨b', hrun, hchanged.still, hshow.trans h₀.symm, hchanged.modes, hchanged.pulls⟩

end Backend.Restorable

theorem Handle.record_emptied {h : Handle} {mcu : Nat} (hsize : mcu < h.records.size) (pin : Nat) :
    (h.updateRecord mcu fun _ => {}).record pin = if mcu = pin then {} else h.record pin := by
  rw [record_updateRecord]
  by_cases heq : mcu = pin
  · subst heq
    rw [if_pos ⟨rfl, hsize⟩, if_pos rfl]
  · rw [if_neg fun hand => heq hand.1, if_neg heq]

/-- A pin that shows again what it showed at first needs no record. -/
theorem Handle.Kept.forget {β : Type} [Backend β] {b₀ b b' : β} {Still : β → Prop} {h : Handle}
    (hk : h.Kept b₀ Still b) {mcu : Nat} (hstill : Still b') (hsize : mcu < h.records.size)
    (hmode : modeOf b' mcu = modeOf b₀ mcu) (hpull : pullOf b' mcu = pullOf b₀ mcu)
    (hmodes : ∀ q, q ≠ mcu → modeOf b' q = modeOf b q)
    (hpulls : ∀ q, q ≠ mcu → pullOf b' q = pullOf b q) :
    (h.updateRecord mcu fun _ => {}).Kept b₀ Still b' := by
  refine ⟨hstill, fun q => ?_⟩
  rw [record_emptied hsize]
  by_cases heq : mcu = q
  · subst heq
    rw [if_pos rfl]
    exact ⟨.untouched hmode, .untouched hpull⟩
  · rw [if_neg heq]
    have hq := hk.tells q
    exact ⟨hq.mode.congr (hmodes q (Ne.symm heq)), hq.pull.congr (hpulls q (Ne.symm heq))⟩

/-- Where no change is recorded, the pin shows what it showed at first. -/
theorem PinRecord.Tells.of_clean {β : Type} [Backend β] {r : PinRecord} {b₀ b : β} {pin : Nat}
    (h : r.Tells b₀ b pin) (hclean : r.isClean = true) :
    modeOf b pin = modeOf b₀ pin ∧ pullOf b pin = pullOf b₀ pin := by
  obtain ⟨hmode, hpull⟩ := h
  simp only [PinRecord.isClean, Bool.and_eq_true, Option.isNone_iff_eq_none] at hclean
  rw [hclean.1] at hmode
  rw [hclean.2] at hpull
  cases hmode with
  | untouched hm =>
    cases hpull with
    | untouched hp => exact ⟨hm, hp⟩

namespace Gpio

variable {β : Type} [Backend β] {b₀ : β} {Still : β → Prop}

/-- Puts back the mode of a pin, if it was changed. -/
def restoreMode {γ : Type} [Backend γ] (mcu : Nat) (record : PinRecord) : Act (Gpio γ) Unit :=
  match record.restoreMode with
  | some mode => do
    switch mcu mode
    note (.modeRestored mcu mode)
  | none => pure ()

/-- Putting a pin back empties its record first. If it tells of a change, the mode is then put back
and after it the pull. -/
theorem run_restorePin {γ : Type} [Backend γ] (mcu : Nat) (g : Gpio γ) :
    (restorePin mcu).run g =
      if (g.handle.record mcu).isClean = true then
        (.ok false, { g with handle := g.handle.updateRecord mcu fun _ => {} })
      else
        (do
          restoreMode mcu (g.handle.record mcu)
          restorePull mcu (g.handle.record mcu)
          pure true : Act (Gpio γ) Bool).run
          { g with handle := g.handle.updateRecord mcu fun _ => {} } := by
  have hempty : (update fun h => h.updateRecord mcu fun _ => {}).run g =
      (.ok (), { g with handle := g.handle.updateRecord mcu fun _ => {} }) := rfl
  rw [restorePin, Act.run_bind_ok _ (Act.run_gets _ g), Act.run_bind_ok _ hempty]
  by_cases hc : (g.handle.record mcu).isClean = true
  · rw [if_pos hc, if_pos hc]
    rfl
  · rw [if_neg hc, if_neg hc, restoreMode]
    cases (g.handle.record mcu).restoreMode with
    | none => rfl
    | some mode => simp only [bind_assoc]

/-- A state with another line and another log. -/
def rewired (g : Gpio (Line (Unsteady β))) (l : Line (Unsteady β)) (log : List Notice) :
    Gpio (Line (Unsteady β)) := { g with backend := l, log := log }

/-- Putting the mode of a pin back is hindered, or makes the pin show the mode it showed at first
and changes nothing else that shows. -/
theorem restoreMode_outcome (hr : Restorable b₀ Still) {mcu : Nat} {r : PinRecord}
    {g : Gpio (Line (Unsteady β))} (hg : Still g.chip)
    (hsaved : Saved (modeOf b₀ mcu) (modeOf g.chip mcu) r.restoreMode) :
    (∃ e l, (restoreMode mcu r).run g = (.error e, g.rewired l g.log) ∧
        Line.Hindered r.restoringCalls mcu g.backend l) ∨
      ∃ l log, (restoreMode mcu r).run g = (.ok (), g.rewired l log) ∧ g.backend.Follows l ∧
        Restorable.ModeBack b₀ Still mcu g.chip l.chip := by
  generalize hsave : r.restoreMode = save at hsaved
  cases hsaved with
  | untouched hsame =>
    rw [restoreMode, hsave]
    exact .inr ⟨g.backend, g.log, rfl, Line.Follows.refl _, hg, hsame, fun _ _ => rfl, fun _ => rfl⟩
  | replaced m hfirst hshown =>
    obtain ⟨now, hnow⟩ := hshown
    obtain ⟨b', hset, hback⟩ := hr.setMode_restores hg hfirst hnow
    have hcall : .setMode ∈ r.restoringCalls := by simp [PinRecord.restoringCalls, hsave]
    have hout := (Line.outcome_setMode g.backend mcu m).hindered_or_done
    rw [restoreMode, hsave]
    simp only [switch]
    rw [Act.run_bind, Act.run_bind, run_hardware]
    rcases hrun : (Backend.setMode mcu m : Act (Line (Unsteady β)) Unit).run g.backend with ⟨res, l⟩
    rw [hrun] at hout
    rcases hout with ⟨e, hres, hhind⟩ | ⟨_, hres, -, hchip, hfollows⟩
    · cases hres
      exact .inl ⟨e, l, rfl, hhind.among hcall⟩
    · cases hres
      have hset : (Backend.setMode mcu m).run g.backend.chip = (.ok (), b') := hset
      rw [hset] at hchip
      refine .inr ⟨l, _, rfl, hfollows, ?_⟩
      rw [show l.chip = b' from hchip]
      exact hback

theorem restorePull_outcome (hr : Restorable b₀ Still) {mcu : Nat} {r : PinRecord}
    {g : Gpio (Line (Unsteady β))} (hg : Still g.chip)
    (hsaved : Saved (pullOf b₀ mcu) (pullOf g.chip mcu) r.restorePull) :
    (∃ e l, (restorePull mcu r).run g = (.error e, g.rewired l g.log) ∧
        Line.Hindered r.restoringCalls mcu g.backend l) ∨
      ∃ l, (restorePull mcu r).run g = (.ok (), g.rewired l g.log) ∧ g.backend.Follows l ∧
        Restorable.PullBack b₀ Still mcu g.chip l.chip := by
  generalize hsave : r.restorePull = save at hsaved
  cases hsaved with
  | untouched hsame =>
    rw [restorePull, hsave]
    have hidle : Restorable.PullBack b₀ Still mcu g.chip g.chip :=
      ⟨hg, hsame, fun _ => rfl, fun _ _ => rfl⟩
    by_cases hinput : r.restoreMode = some .input
    · -- the pull is asked for, and on this chip the answer is never that it cannot be told
      simp only [hinput, if_true]
      have hcall : .pull ∈ r.restoringCalls := by simp [PinRecord.restoringCalls, hsave, hinput]
      have hout := (Line.outcome_pull g.backend mcu).hindered_or_done
      obtain ⟨hchip, hanswer⟩ := Line.pull_answer hr hg mcu
      rw [Act.run_bind, run_hardware]
      rcases hrun : (Backend.pull mcu : Act (Line (Unsteady β)) (Option Pull)).run g.backend with
        ⟨res, l⟩
      rw [hrun] at hout hchip hanswer
      rcases hout with ⟨e, hres, hhind⟩ | ⟨seen, hres, -, -, hfollows⟩
      · cases hres
        exact .inl ⟨e, l, rfl, hhind.among hcall⟩
      · cases hres
        have hseen : seen ≠ none := hr.pull_known g.chip mcu seen hg (hanswer seen rfl)
        simp only [hseen, if_false]
        refine .inr ⟨l, rfl, hfollows, ?_⟩
        rw [show l.chip = g.chip from hchip]
        exact hidle
    · simp only [hinput, if_false]
      exact .inr ⟨g.backend, rfl, Line.Follows.refl _, hidle⟩
  | replaced saved hfirst hshown =>
    obtain ⟨now, hnow⟩ := hshown
    have hknown : saved ≠ none := hr.pull_known b₀ mcu saved hr.start hfirst
    obtain ⟨u, rfl⟩ := Option.ne_none_iff_exists'.mp hknown
    obtain ⟨b', hset, hback⟩ := hr.setPull_restores hg hfirst hnow
    have hcall : .setPull ∈ r.restoringCalls := by simp [PinRecord.restoringCalls, hsave]
    have hout := (Line.outcome_setPull g.backend mcu u).hindered_or_done
    rw [restorePull, hsave]
    simp only
    rw [run_hardware]
    rcases hrun : (Backend.setPull mcu u : Act (Line (Unsteady β)) Unit).run g.backend with ⟨res, l⟩
    rw [hrun] at hout
    rcases hout with ⟨e, hres, hhind⟩ | ⟨_, hres, -, hchip, hfollows⟩
    · cases hres
      exact .inl ⟨e, l, rfl, hhind.among hcall⟩
    · cases hres
      have hset : (Backend.setPull mcu u).run g.backend.chip = (.ok (), b') := hset
      rw [hset] at hchip
      refine .inr ⟨l, rfl, hfollows, ?_⟩
      rw [show l.chip = b' from hchip]
      exact hback

/-- Putting one pin back is hindered, or restores it and empties its record. -/
theorem restorePin_outcome (hr : Restorable b₀ Still) {mcu : Nat} {g : Gpio (Line (Unsteady β))}
    (hg : g.handle.Kept b₀ Still g.chip) (hsize : mcu < g.handle.records.size) :
    Line.Hindered (g.handle.record mcu).restoringCalls mcu g.backend
        ((restorePin mcu).run g).2.backend ∨
      ∃ done l log, (restorePin mcu).run g =
          (.ok done,
            { handle := g.handle.updateRecord mcu fun _ => {}, backend := l, log := log }) ∧
        g.backend.Follows l ∧
        (g.handle.updateRecord mcu fun _ => {}).Kept b₀ Still l.chip := by
  have htells := hg.tells mcu
  rw [run_restorePin]
  by_cases hclean : (g.handle.record mcu).isClean = true
  · rw [if_pos hclean]
    obtain ⟨hmode, hpull⟩ := htells.of_clean hclean
    exact .inr ⟨false, g.backend, g.log, rfl, Line.Follows.refl _,
      hg.forget hg.still hsize hmode hpull (fun _ _ => rfl) fun _ _ => rfl⟩
  · rw [if_neg hclean, Act.run_bind]
    rcases restoreMode_outcome hr
        (g := { g with handle := g.handle.updateRecord mcu fun _ => {} }) hg.still htells.mode with
      ⟨e, l, hrun, hhind⟩ | ⟨l, log, hrun, hfollows, hback⟩
    · rw [hrun]
      exact .inl hhind
    · rw [hrun]
      simp only
      rw [Act.run_bind]
      -- the mode is back, and the pull that the record tells of is still the one that shows
      have hpull : Saved (pullOf b₀ mcu) (pullOf l.chip mcu) (g.handle.record mcu).restorePull :=
        htells.pull.congr (hback.pulls mcu)
      rcases restorePull_outcome hr (g := rewired _ l log) hback.still hpull with
        ⟨e, l', hrun', hhind⟩ | ⟨l', hrun', hfollows', hback'⟩
      · rw [hrun']
        exact .inl (hhind.after hfollows fun _ h => h)
      · rw [hrun']
        refine .inr ⟨true, l', log, rfl, hfollows.trans hfollows', ?_⟩
        refine hg.forget hback'.still hsize ?_ hback'.pull (fun q hq => ?_) fun q hq => ?_
        · exact (hback'.modes mcu).trans hback.mode
        · exact (hback'.modes q).trans (hback.modes q hq)
        · exact (hback'.pulls q hq).trans (hback.pulls q)

/-! ## Failures are only added -/

section Follows

variable {l : Line (Unsteady β)}

omit [Backend β] in
theorem follows_hardware {α : Type} {x : Act (Line (Unsteady β)) α}
    (hx : ∀ l : Line (Unsteady β), l.Follows (x.run l).2) :
    (hardware x).Keeps fun g : Gpio (Line (Unsteady β)) => l.Follows g.backend := fun g hg =>
  hg.trans (hx g.backend)

omit [Backend β] in
theorem follows_note (n : Notice) :
    (note n).Keeps fun g : Gpio (Line (Unsteady β)) => l.Follows g.backend := fun _ hg => hg

theorem follows_restoreMode (mcu : Nat) (r : PinRecord) :
    (restoreMode mcu r).Keeps fun g : Gpio (Line (Unsteady β)) => l.Follows g.backend := by
  unfold restoreMode
  cases r.restoreMode with
  | none => exact Act.Keeps.pure ()
  | some m =>
    refine Act.Keeps.bind (Act.Keeps.bind ?_ fun _ => fun _ hg => hg) fun _ => follows_note _
    exact follows_hardware fun l => (Line.outcome_setMode l mcu m).follows

theorem follows_restorePull (mcu : Nat) (r : PinRecord) :
    (restorePull mcu r).Keeps fun g : Gpio (Line (Unsteady β)) => l.Follows g.backend := by
  have hset : ∀ u, (hardware (Backend.setPull mcu u)).Keeps
      fun g : Gpio (Line (Unsteady β)) => l.Follows g.backend := fun u =>
    follows_hardware fun l => (Line.outcome_setPull l mcu u).follows
  unfold restorePull
  cases r.restorePull with
  | some saved =>
    cases saved with
    | some u => exact hset u
    | none => exact hset .down
  | none =>
    by_cases hinput : r.restoreMode = some .input
    · simp only [hinput, if_true]
      refine (follows_hardware fun l => (Line.outcome_pull l mcu).follows).bind fun seen => ?_
      by_cases hseen : seen = none
      · rw [if_pos hseen]
        exact hset .down
      · rw [if_neg hseen]
        exact Act.Keeps.pure ()
    · simp only [hinput, if_false]
      exact Act.Keeps.pure ()

theorem follows_restorePin (mcu : Nat) :
    (restorePin mcu).Keeps fun g : Gpio (Line (Unsteady β)) => l.Follows g.backend := by
  intro g hg
  rw [run_restorePin]
  split
  · exact hg
  · refine Act.Keeps.bind (follows_restoreMode mcu _) (fun _ => ?_)
      { g with handle := g.handle.updateRecord mcu fun _ => {} } hg
    exact (follows_restorePull mcu _).bind fun _ => Act.Keeps.pure true

/-- Whatever came of one pin, going on with the rest only adds failures. -/
theorem follows_rest {mcu : Nat} {rest : List Nat} {restored : Nat} {first : Option Error}
    (hrest : ∀ restored first, (restoreAll rest restored first).Keeps
      fun g : Gpio (Line (Unsteady β)) => l.Follows g.backend) (outcome : Except Error Bool) :
    (match outcome with
      | .ok true => restoreAll rest (restored + 1) first
      | .ok false => restoreAll rest restored first
      | .error e => do
        note (.restoreFailed mcu e)
        restoreAll rest restored (first.or (some e)) :
      Act (Gpio (Line (Unsteady β))) (Nat × Option Error)).Keeps
      fun g : Gpio (Line (Unsteady β)) => l.Follows g.backend := by
  rcases outcome with e | _ | _
  · exact (follows_note _).bind fun _ => hrest _ _
  · exact hrest _ _
  · exact hrest _ _

theorem follows_restoreAll (pins : List Nat) (restored : Nat) (first : Option Error) :
    (restoreAll pins restored first).Keeps
      fun g : Gpio (Line (Unsteady β)) => l.Follows g.backend := by
  induction pins generalizing restored first with
  | nil => exact Act.Keeps.pure _
  | cons mcu rest ih =>
    exact (follows_restorePin mcu).attempt.bind fun outcome => follows_rest ih outcome

end Follows

/-! ## Releasing a handle -/

/-- No rule keeps a call from the backend that putting a pin back makes. -/
def Clear (g : Gpio (Line (Unsteady β))) : Prop :=
  ∀ pin, ∀ call ∈ (g.handle.record pin).restoringCalls, ¬g.backend.Barred call pin

omit [Backend β] in
theorem Clear.emptied {g : Gpio (Line (Unsteady β))} (h : g.Clear) {mcu : Nat}
    (hsize : mcu < g.handle.records.size) {l : Line (Unsteady β)} (hl : g.backend.Follows l)
    (log : List Notice) :
    Clear { handle := g.handle.updateRecord mcu fun _ => {}, backend := l, log := log } := by
  intro pin call hcall hbar
  have hcall : call ∈ ((g.handle.updateRecord mcu fun _ => {}).record pin).restoringCalls := hcall
  rw [Handle.record_emptied hsize] at hcall
  by_cases heq : mcu = pin
  · rw [if_pos heq] at hcall
    simp [PinRecord.restoringCalls] at hcall
  · rw [if_neg heq] at hcall
    exact h pin call hcall (hl.barred hbar)

/-- Putting pins back without a failing call restores them all and empties their records. -/
theorem restoreAll_restores (hr : Restorable b₀ Still) (pins : List Nat) (restored : Nat)
    {g : Gpio (Line (Unsteady β))} (hg : g.handle.Kept b₀ Still g.chip)
    (hsize : ∀ pin ∈ pins, pin < g.handle.records.size) (hclear : g.Clear)
    (hquiet : ((restoreAll pins restored none).run g).2.backend.failures = g.backend.failures) :
    ∃ count g', (restoreAll pins restored none).run g = (.ok (count, none), g') ∧
      g'.handle.Kept b₀ Still g'.chip ∧
      ∀ pin, pin ∈ pins ∨ g.handle.record pin = {} → g'.handle.record pin = {} := by
  induction pins generalizing g restored with
  | nil => exact ⟨restored, g, rfl, hg, fun pin h => by simpa using h⟩
  | cons mcu rest ih =>
    have hmcu : mcu < g.handle.records.size := hsize mcu (by simp)
    have hlater : ((restorePin mcu).run g).2.backend.Follows
        ((restoreAll (mcu :: rest) restored none).run g).2.backend := by
      refine Act.Keeps.after_bind (fun outcome => follows_rest (follows_restoreAll rest) outcome) ?_
      rw [Act.run_attempt_state]
      exact Line.Follows.refl _
    have hfail := hlater.failures
    rcases restorePin_outcome hr hg hmcu with hhind | ⟨done, l, log, hrun, hfollows, hkept⟩
    · -- a hindered pin leaves a failure behind, which the rest can only add to
      rcases hhind with ⟨call, hmem, hbar⟩ | hmore
      · exact absurd hbar (hclear mcu call hmem)
      · omega
    · rw [hrun] at hfail
      have hattempt : (Act.attempt (restorePin mcu)).run g = (.ok (.ok done),
          { handle := g.handle.updateRecord mcu fun _ => {}, backend := l, log := log }) := by
        rw [Act.run_attempt, hrun]
      have hnext : (restoreAll (mcu :: rest) restored none).run g =
          (restoreAll rest (if done = true then restored + 1 else restored) none).run
            { handle := g.handle.updateRecord mcu fun _ => {}, backend := l, log := log } := by
        rw [restoreAll, Act.run_bind_ok _ hattempt]
        cases done <;> rfl
      rw [hnext] at hquiet hfail ⊢
      have hsize' : ∀ pin ∈ rest,
          pin < (g.handle.updateRecord mcu fun _ => {}).records.size := by
        intro pin hpin
        rw [Handle.updateRecord, Array.size_modify]
        exact hsize pin (List.mem_cons_of_mem _ hpin)
      -- failures never go down, so the pin and the rest are each without one
      have hstep : g.backend.failures ≤ l.failures := hfollows.failures
      have hlast : l.failures ≤ g.backend.failures := hquiet ▸ hfail
      have hquiet' : l.failures = g.backend.failures := by omega
      obtain ⟨count, g', hrest, hkept', hclean⟩ :=
        ih (g := { handle := g.handle.updateRecord mcu fun _ => {}, backend := l, log := log })
          (if done = true then restored + 1 else restored) hkept hsize'
          (hclear.emptied hmcu hfollows log) (hquiet.trans hquiet'.symm)
      refine ⟨count, g', hrest, hkept', fun pin hpin => hclean pin ?_⟩
      show pin ∈ rest ∨ (g.handle.updateRecord mcu fun _ => {}).record pin = {}
      rw [Handle.record_emptied hmcu]
      by_cases heq : mcu = pin
      · exact .inr (if_pos heq)
      · rw [if_neg heq]
        rcases hpin with hpin | hpin
        · exact .inl ((List.mem_cons.mp hpin).resolve_left (Ne.symm heq))
        · exact .inr hpin

/-- A released handle is not released again. -/
theorem run_release_again {γ : Type} [Backend γ] {g : Gpio γ} (hdone : g.handle.released = true) :
    release.run g = (.ok (), g) := by
  rw [release, Act.run_bind_ok _ (Act.run_gets _ g)]
  exact congrArg (fun x => Act.run x g) (if_pos hdone)

/-- What a release does to an open handle that is set to put its pins back. -/
theorem run_release {γ : Type} [Backend γ] {g : Gpio γ} (hopen : g.handle.released = false)
    (hset : g.handle.releaseOnClose = true) :
    release.run g =
      ((do
        let (restored, first) ← restoreAll (List.range g.handle.records.size) 0 none
        note (.closed restored)
        match first with
        | some e => Act.fail e
        | none => pure ()) : Act (Gpio γ) Unit).run
        { g with handle := { g.handle with released := true } } := by
  have hmark : (update fun h => { h with released := true }).run g =
      (.ok (), { g with handle := { g.handle with released := true } }) := rfl
  rw [release, Act.run_bind_ok _ (Act.run_gets _ g), if_neg (by rw [hopen]; decide),
    Act.run_bind_ok _ hmark]
  exact congrArg (fun x => Act.run x _) (if_neg (by rw [hset]; decide))

/-- A release that nothing hinders goes well and leaves every pin as it was at first. -/
theorem release_restores (hr : Restorable b₀ Still) {g : Gpio (Line (Unsteady β))}
    (hg : g.Sound b₀ Still) (hset : g.handle.releaseOnClose = true) (hclear : g.Clear)
    (hquiet : (release.run g).2.backend.failures = g.backend.failures) :
    ∃ g', release.run g = (.ok (), g') ∧
      ∀ pin, modeOf g'.chip pin = modeOf b₀ pin ∧ pullOf g'.chip pin = pullOf b₀ pin := by
  have hkept : Handle.Kept b₀ Still g.chip { g.handle with released := true } :=
    hg.kept.beside rfl
  have hsize : ∀ pin ∈ List.range g.handle.records.size,
      pin < ({ g.handle with released := true } : Handle).records.size :=
    fun pin hpin => List.mem_range.mp hpin
  rw [run_release hg.unreleased hset] at hquiet ⊢
  have hall : ((restoreAll (List.range g.handle.records.size) 0 none).run
      { g with handle := { g.handle with released := true } }).2.backend.failures =
        g.backend.failures := by
    -- what comes after the restores makes no call
    rw [Act.run_bind] at hquiet
    rcases hres : (restoreAll (List.range g.handle.records.size) 0 none).run
        { g with handle := { g.handle with released := true } } with ⟨e | ⟨count, first⟩, g'⟩
    · rw [hres] at hquiet
      exact hquiet
    · rw [hres] at hquiet
      cases first <;> exact hquiet
  obtain ⟨count, g', hrun, hkept', hclean⟩ :=
    restoreAll_restores hr _ 0 (g := { g with handle := { g.handle with released := true } })
      hkept hsize hclear hall
  rw [Act.run_bind_ok _ hrun]
  refine ⟨_, rfl, fun pin => ?_⟩
  have hrecord : g'.handle.record pin = {} := by
    apply hclean
    by_cases hpin : pin < g.handle.records.size
    · exact .inl (List.mem_range.mpr hpin)
    · refine .inr ?_
      show g.handle.records.getD pin {} = {}
      simp [Array.getD_eq_getD_getElem?, Nat.le_of_not_lt hpin]
  exact (hkept'.tells pin).of_clean (by rw [hrecord]; rfl)

/-- A release that is set to leave the pins alone makes no call. -/
theorem release_asIs {γ : Type} [Backend γ] {g : Gpio γ} (hopen : g.handle.released = false)
    (hset : g.handle.releaseOnClose = false) :
    ∃ g', release.run g = (.ok (), g') ∧ g'.backend = g.backend := by
  have hmark : (update fun h => { h with released := true }).run g =
      (.ok (), { g with handle := { g.handle with released := true } }) := rfl
  rw [release, Act.run_bind_ok _ (Act.run_gets _ g), if_neg (by rw [hopen]; decide),
    Act.run_bind_ok _ hmark, if_pos (by rw [hset]; decide)]
  exact ⟨_, rfl, rfl⟩

theorem run_abandon {γ : Type} [Backend γ] (g : Gpio γ) :
    (abandon.run g).2.backend = (release.run g).2.backend ∧
      ∀ g', release.run g = (.ok (), g') → abandon.run g = (.ok (), g') := by
  rw [abandon, Act.run_bind, Act.run_attempt]
  rcases release.run g with ⟨(_ | _) | _, _⟩
  · exact ⟨rfl, fun g' h => by cases h⟩
  · exact ⟨rfl, fun g' h => by cases h⟩
  · exact ⟨rfl, fun g' h => by cases h; rfl⟩

theorem run_abandon_again {γ : Type} [Backend γ] {g : Gpio γ} (hdone : g.handle.released = true) :
    abandon.run g = (.ok (), g) :=
  (run_abandon g).2 g (run_release_again hdone)

/-- However the last reference goes, the pins are put back if nothing hinders it. -/
theorem farewell_restores (hr : Restorable b₀ Still) {g : Gpio (Line (Unsteady β))}
    (hg : g.Sound b₀ Still) (hset : g.handle.releaseOnClose = true) (hclear : g.Clear)
    (how : Farewell)
    (hquiet : ((Hub.farewell how).run g).2.backend.failures = g.backend.failures) :
    ∃ g', (Hub.farewell how).run g = (.ok (), g') ∧
      ∀ pin, modeOf g'.chip pin = modeOf b₀ pin ∧ pullOf g'.chip pin = pullOf b₀ pin := by
  cases how with
  | closed => exact release_restores hr hg hset hclear hquiet
  | dropped =>
    have hquiet : (abandon.run g).2.backend.failures = g.backend.failures := hquiet
    rw [(run_abandon g).1] at hquiet
    obtain ⟨g', hrun, hback⟩ := release_restores hr hg hset hclear hquiet
    exact ⟨g', (run_abandon g).2 g' hrun, hback⟩

theorem farewell_asIs {g : Gpio (Line (Unsteady β))} (hopen : g.handle.released = false)
    (hset : g.handle.releaseOnClose = false) (how : Farewell) :
    ∃ g', (Hub.farewell how).run g = (.ok (), g') ∧ g'.backend = g.backend := by
  obtain ⟨g', hrun, hback⟩ := release_asIs hopen hset
  cases how with
  | closed => exact ⟨g', hrun, hback⟩
  | dropped => exact ⟨g', (run_abandon g).2 g' hrun, hback⟩

end Gpio

end BoardGpio
