import BoardGpio.Handle.Ports
import BoardGpio.Proofs.Handle.LastClose
import BoardGpio.Proofs.Handle.Paired

/-!
# How a handle stands

A handle stands with a number of references and with or without the mark of its release
(`Hub.Stands`). Nothing but a release touches the mark (`Gpio.twin_marked`), and a released handle
is not released again (`Gpio.farewell_again`). What counts references up or down changes their
number as it says, and opening a port takes a reference exactly if it succeeds
(`Hub.Stands.openInput`, `Hub.Stands.openOutput`).
-/

set_option autoImplicit false

namespace BoardGpio

open Bench

/-! ## The mark of a release -/

namespace Gpio

variable {β α : Type} [Backend β] {r : Bool}

/-- The handle is marked as released, or not. -/
def Marked (r : Bool) (g : Gpio β) : Prop := g.handle.released = r

omit [Backend β] in
theorem marked_hardware (x : Act β α) : (hardware x).Keeps (Marked r) := fun _ hg => hg

omit [Backend β] in
theorem marked_record (mcu : Nat) (f : PinRecord → PinRecord) :
    (update fun h => h.updateRecord mcu f : Act (Gpio β) Unit).Keeps (Marked r) := fun _ hg => hg

omit [Backend β] in
theorem marked_note (n : Notice) : (note n : Act (Gpio β) Unit).Keeps (Marked r) := fun _ hg => hg

omit [Backend β] in
theorem marked_mcuPin (pin : Nat) : (mcuPin pin : Act (Gpio β) Nat).Keeps (Marked r) :=
  (leaves_mcuPin pin).keeps

theorem marked_switch (mcu : Nat) (m : Mode) :
    (switch mcu m : Act (Gpio β) Unit).Keeps (Marked r) :=
  (marked_hardware _).bind fun _ => Act.Keeps.modify fun _ hg => hg

theorem marked_restorePull (mcu : Nat) (record : PinRecord) :
    (restorePull mcu record : Act (Gpio β) Unit).Keeps (Marked r) := by
  unfold restorePull
  split
  · exact marked_hardware _
  · exact marked_hardware _
  · split
    · refine (marked_hardware _).bind fun seen => ?_
      split
      · exact marked_hardware _
      · exact Act.Keeps.pure ()
    · exact Act.Keeps.pure ()

theorem marked_restoreMode (mcu : Nat) (record : PinRecord) :
    (restoreMode mcu record : Act (Gpio β) Unit).Keeps (Marked r) := by
  unfold restoreMode
  split
  · exact (marked_switch mcu _).bind fun _ => marked_note _
  · exact Act.Keeps.pure ()

theorem marked_restorePin (mcu : Nat) :
    (restorePin mcu : Act (Gpio β) Bool).Keeps (Marked r) := by
  intro g hg
  rw [run_restorePin]
  split
  · exact hg
  · refine Act.Keeps.bind (marked_restoreMode mcu _) (fun _ => ?_)
      { g with handle := g.handle.updateRecord mcu fun _ => {} } hg
    exact (marked_restorePull mcu _).bind fun _ => Act.Keeps.pure true

/-- Whatever is done with a handle, short of releasing it, leaves the mark as it is. -/
theorem twin_marked (r : Bool) :
    Twin (fun g g' : Gpio β => g = g' ∧ Marked r g) fun _ => True where
  settable_input := trivial
  settable_output := trivial
  handle g g' hg := by rw [hg.1]
  name g g' hg := by rw [hg.1]
  askMode mcu := (marked_hardware _).matches
  askPull mcu := (marked_hardware _).matches
  writeMcu mcu high := (marked_hardware _).matches
  toggleMcu mcu := (marked_hardware _).matches
  readMcu mcu := (marked_hardware _).matches
  setMode pin m _ := Act.Keeps.matches <|
    (marked_mcuPin pin).bind fun mcu => (marked_hardware _).bind fun _ =>
      (marked_switch mcu m).bind fun _ => (marked_record mcu _).bind fun _ => marked_note _
  setPull pin u := Act.Keeps.matches <|
    (marked_mcuPin pin).bind fun mcu => (marked_hardware _).bind fun _ =>
      (marked_hardware _).bind fun _ => marked_record mcu _
  restorePin mcu := (marked_restorePin mcu).matches
  update f hf := Act.Keeps.matches fun g hg => (hf g.handle).2.trans hg
  note n := (marked_note n).matches

/-- A release marks the handle, whatever comes of it. -/
theorem marked_release (g : Gpio β) : Marked true (release.run g).2 := by
  have hrest : ∀ rest : Act (Gpio β) Unit, rest.Keeps (Marked true) →
      Marked true ((update (fun h => { h with released := true }) >>= fun _ => rest).run g).2 :=
    fun rest hrest => Act.Keeps.after_bind (fun _ => hrest) rfl
  rw [release, Act.run_bind_ok _ (Act.run_gets _ g)]
  split
  case isTrue hdone => exact hdone
  case isFalse =>
    apply hrest
    split
    · exact marked_note _
    · refine Act.Keeps.bind ((twin_marked true).restoreAll _ 0 none).keeps fun outcome => ?_
      refine (marked_note _).bind fun _ => ?_
      split
      · exact (Act.Leaves.fail _).keeps
      · exact Act.Keeps.pure ()

theorem marked_farewell (how : Farewell) (g : Gpio (Line β)) :
    Marked true ((Hub.farewell how).run g).2 := by
  cases how with
  | closed => exact marked_release g
  | dropped =>
    refine Act.Keeps.after_bind (fun outcome => ?_) ?_
    · split
      · exact Act.Keeps.pure ()
      · exact marked_note _
    · rw [Act.run_attempt_state]
      exact marked_release g

/-- A released handle is not released again, by nobody. -/
theorem farewell_again (how : Farewell) {g : Gpio (Line β)} (hg : Marked true g) :
    (Hub.farewell how).run g = (.ok (), g) := by
  cases how with
  | closed => exact run_release_again hg
  | dropped => exact run_abandon_again hg

end Gpio

/-! ## The number of references -/

namespace Hub

variable {β κ α : Type} {s : Hub β} {h n : Nat} {m : Bool}

/-- The handle has `n` references, and the mark of its release is `m`. -/
structure Stands (h n : Nat) (m : Bool) (s : Hub β) : Prop where
  refs : s.refs h = n
  site : ∃ g, s.site? h = some g ∧ g.handle.released = m

/-- What leaves the mark as it is may be done with the handle. -/
theorem Stands.onHandle (hs : Stands h n m s) {x : Act (Gpio (Line β)) α}
    (hx : x.Keeps (Gpio.Marked m)) : Stands h n m ((onHandle h x).run s).2 := by
  obtain ⟨g, hg, hm⟩ := hs.site
  refine ⟨(refs_onHandle s h h x).trans hs.refs, _, (run_onHandle hg x).2.1, ?_⟩
  exact hx g hm

theorem Stands.countRefs (hs : Stands h n m s) (f : Nat → Nat) :
    Stands h (f n) m ((countRefs h f).run s).2 := by
  obtain ⟨g, hg, hm⟩ := hs.site
  obtain ⟨shared, rig, hshared, -, -⟩ := site?_eq_some_iff.mp hg
  have hsize : h < s.handles.size := (Array.getElem?_eq_some_iff.mp hshared).1
  refine ⟨?_, g, by rw [site?_countRefs, hg], hm⟩
  rw [refs_countRefs, if_pos ⟨rfl, hsize⟩, hs.refs]

variable [Backend β]

/-- Giving up a reference while others are left changes their number only. -/
theorem Stands.letGo (hs : Stands h n m s) (hmore : 1 < n) (how : Farewell) :
    ∃ s', (letGo h how).run s = (.ok (), s') ∧ Stands h (n - 1) m s' ∧ s'.rigs = s.rigs :=
  ⟨_, run_letGo_more (by rw [hs.refs]; exact hmore) how, hs.countRefs (· - 1), rfl⟩

/-- Joining the current handle takes one more reference to it. -/
theorem Stands.join (hs : Stands h n m s) (hjoin : s.joinable? = some h) (plan : HandlePlan) :
    ∃ s', (openShared plan).run s = (.ok h, s') ∧ Stands h (n + 1) m s' := by
  have hretain := hs.countRefs (· + 1)
  rw [openShared, Act.run_bind_ok _ (Act.run_gets _ s), hjoin]
  exact ⟨_, rfl, hretain.refs, hretain.site⟩

/-- Opening an input port takes one more reference, or none if it fails, also if it fails at the
reference sample. -/
theorem Stands.openInput (hs : Stands h n m s) (hlive : 0 < n) (pins : List InputPin)
    (settings : InputSettings) (now : Nat) {r : Except Failure (InputPort κ)} {s' : Hub β}
    (hrun : (openInput h pins settings now).run s = (r, s')) :
    Stands h (n + r.isOk.toNat) m s' := by
  have hprepare := hs.onHandle ((Gpio.twin_marked m).prepare pins settings).keeps
  rw [Hub.openInput, Act.run_bind] at hrun
  rcases hfirst : (Hub.onHandle h (InputPort.prepare pins settings)).run s with ⟨e | mcus, s₁⟩
  · rw [hfirst] at hrun hprepare
    cases hrun
    exact hprepare
  · rw [hfirst] at hrun hprepare
    obtain ⟨s₂, hretained, hretain⟩ :
        ∃ s₂, (retain h).run s₁ = (.ok (), s₂) ∧ Stands h (n + 1) m s₂ :=
      ⟨_, rfl, hprepare.countRefs (· + 1)⟩
    have hfinish := hretain.onHandle
      ((Gpio.twin_marked m).finish (κ := κ) pins mcus settings now).keeps
    simp only at hrun
    rw [Act.run_bind_ok _ hretained, Act.run_orCleanUp] at hrun
    rcases hsecond : (Hub.onHandle h (InputPort.finish pins mcus settings now :
        Act (Gpio (Line β)) (InputPort κ))).run s₂ with ⟨e | port, s₃⟩
    · rw [hsecond] at hrun hfinish
      simp only at hrun hfinish
      obtain ⟨s₄, hback, hstands, -⟩ := hfinish.letGo (by omega) .dropped
      rw [hback] at hrun
      cases hrun
      exact hstands
    · rw [hsecond] at hrun hfinish
      cases hrun
      exact hfinish

theorem Stands.openOutput (hs : Stands h n m s) (pins : List OutputPin)
    {r : Except Failure OutputPort} {s' : Hub β} (hrun : (openOutput h pins).run s = (r, s')) :
    Stands h (n + r.isOk.toNat) m s' := by
  have hopen := hs.onHandle ((Gpio.twin_marked m).openOutput pins).keeps
  rw [Hub.openOutput, Act.run_bind] at hrun
  rcases hfirst : (Hub.onHandle h (OutputPort.openPort pins)).run s with ⟨e | port, s₁⟩
  · rw [hfirst] at hrun hopen
    cases hrun
    exact hopen
  · rw [hfirst] at hrun hopen
    cases hrun
    exact hopen.countRefs (· + 1)

end Hub

end BoardGpio
