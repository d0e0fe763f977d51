import BoardGpio.Proofs.Backend.Faulty
import BoardGpio.Proofs.Handle.Conversation
import BoardGpio.Proofs.Handle.Standing

/-!
# Failures while pins are put back

Where a backend keeps its pins apart, putting one pin back is about that pin (`Gpio.restorePin_agree`),
and since a release goes on past a failure, so is what all of it does to a pin
(`Gpio.release_agree`). Hence a release does to every pin what it would do if no call on another pin
failed, and says the same about it. It ends with the failure of the lowest pin that was not put
back, and is not done a second time (`Gpio.release_isolated`).
-/

set_option autoImplicit false

namespace BoardGpio

open Backend Exchange

namespace Gpio

variable {β α : Type}

/-- The backends agree about a pin. -/
def Agree (R : Nat → β → β → Prop) (pin : Nat) (g g' : Gpio β) : Prop := R pin g.backend g'.backend

/-- The handle on a backend where, of the calls that fail, only those on one pin still do. -/
def only (pin : Nat) (g : Gpio (Faulty β)) : Gpio (Faulty β) :=
  { g with backend := g.backend.only pin }

variable {R : Nat → β → β → Prop} {pin : Nat}

theorem confined_hardware {x : Act β α} (hx : Act.Confined R pin x) :
    Act.Confined (Agree R) pin (hardware x) :=
  ⟨fun _ _ h => hx.own _ _ h, fun p hp _ _ h => hx.others p hp _ _ h,
    fun p _ _ h => hx.calm p _ _ h⟩

variable [Backend β]

theorem confined_note (hR : Apart R) (n : Notice) : Act.Confined (Agree R) pin (note n) :=
  Act.Confined.modify (fun _ _ _ h => h) fun _ _ _ h => hR.symm _ _ _ h

theorem confined_restoreMode (hR : Apart R) (pin : Nat) (r : PinRecord) :
    Act.Confined (Agree R) pin (restoreMode pin r) := by
  unfold restoreMode
  split
  · refine Act.Confined.bind (Act.Confined.bind (confined_hardware (hR.setMode pin _)) ?_)
      fun _ => confined_note hR _
    exact fun _ => Act.Confined.modify (fun _ _ _ h => h) fun _ _ _ h => hR.symm _ _ _ h
  · exact Act.Confined.pure ()

theorem confined_restorePull (hR : Apart R) (pin : Nat) (r : PinRecord) :
    Act.Confined (Agree R) pin (restorePull pin r) := by
  have hset := fun u => confined_hardware (hR.setPull pin u)
  unfold restorePull
  split
  · exact hset _
  · exact hset .down
  · split
    · refine (confined_hardware (hR.pull pin)).bind fun told => ?_
      split
      · exact hset .down
      · exact Act.Confined.pure ()
    · exact Act.Confined.pure ()

/-- Putting a pin back empties its record, and leaves the rest of the bookkeeping alone. -/
theorem handle_restorePin (mcu : Nat) (g : Gpio β) :
    ((restorePin mcu).run g).2.handle = g.handle.updateRecord mcu fun _ => {} := by
  obtain ⟨_, -, -, hhandle⟩ := restorePin_said mcu g.transcribed
  exact (copied_restorePin mcu g g.transcribed g.copied_transcribed).2.handle.symm.trans hhandle

/-! ## One pin -/

/-- What is done for a pin whose record is not empty is about that pin. -/
theorem confined_restore (hR : Apart R) (pin : Nat) (r : PinRecord) :
    Act.Confined (Agree R) pin (do
      restoreMode pin r
      restorePull pin r
      pure true : Act (Gpio β) Bool) :=
  (confined_restoreMode hR pin r).bind fun _ =>
    (confined_restorePull hR pin r).bind fun _ => Act.Confined.pure true

/-- Handles with equal records whose backends agree about a pin put pins back so that the backends
agree about it still. -/
theorem restorePin_agree (hR : Apart R) (mcu : Nat) {g g' : Gpio β} (hhandle : g.handle = g'.handle)
    (h : R pin g.backend g'.backend) :
    R pin ((restorePin mcu).run g).2.backend ((restorePin mcu).run g').2.backend := by
  rw [run_restorePin, run_restorePin, ← hhandle]
  split
  · exact h
  · exact (confined_restore hR mcu _).agree (fun _ _ _ => hR.symm _ _ _) h

theorem restorePin_calm (hR : Apart R) (mcu : Nat) {g g' : Gpio β}
    (h : R pin g.backend g'.backend) (f : Fault) :
    ((restorePin mcu).run g).1 ≠ .error (.fault f) := by
  rw [run_restorePin]
  split
  · exact nofun
  · refine (confined_restore hR mcu _).calm pin _ g' ?_ f
    exact h

/-! ## All pins -/

/-- However many pins were put back on either side, and whatever failed, the backends agree about a
pin after the rest if they did so before. -/
theorem restoreAll_agree (hR : Apart R) (pins : List Nat) (n n' : Nat) (first first' : Option Error)
    {g g' : Gpio β} (hhandle : g.handle = g'.handle) (h : R pin g.backend g'.backend) :
    R pin ((restoreAll pins n first).run g).2.backend
      ((restoreAll pins n' first').run g').2.backend := by
  induction pins generalizing n n' first first' g g' with
  | nil => exact h
  | cons mcu rest ih =>
    obtain ⟨m, next, s, hs, hb, hrun, -⟩ :=
      run_restoreAll_cons mcu rest n first g (restorePin_calm hR mcu h)
    obtain ⟨m', next', s', hs', hb', hrun', -⟩ :=
      run_restoreAll_cons mcu rest n' first' g' (restorePin_calm hR mcu (hR.symm _ _ _ h))
    rw [hrun, hrun']
    refine ih m m' next next' ?_ ?_
    · rw [hs, hs', handle_restorePin, handle_restorePin, hhandle]
    · rw [hb, hb']
      exact restorePin_agree hR mcu hhandle h

theorem backend_release {g : Gpio β} (hopen : g.handle.released = false)
    (hset : g.handle.releaseOnClose = true) :
    (release.run g).2.backend = ((restoreAll (List.range g.handle.records.size) 0 none).run
      { g with handle := { g.handle with released := true } }).2.backend := by
  rw [run_release_closing hopen hset]
  rcases (restoreAll (List.range g.handle.records.size) 0 none).run
    { g with handle := { g.handle with released := true } } with ⟨_ | _, _⟩ <;> rfl

/-- A handle that is not to put pins back, or has done so, is released without a call. -/
theorem release_idle {g : Gpio β}
    (hidle : ¬(g.handle.released = false ∧ g.handle.releaseOnClose = true)) :
    (release.run g).1 = .ok () ∧ (release.run g).2.backend = g.backend := by
  cases hopen : g.handle.released with
  | true =>
    rw [run_release_again hopen]
    exact ⟨rfl, rfl⟩
  | false =>
    cases hset : g.handle.releaseOnClose with
    | true => exact absurd ⟨hopen, hset⟩ hidle
    | false =>
      obtain ⟨g', hrun, hback⟩ := release_asIs hopen hset
      rw [hrun]
      exact ⟨rfl, hback⟩

/-- Releases of equal handles on backends that agree about a pin leave backends that agree about
it. -/
theorem release_agree (hR : Apart R) {g g' : Gpio β} (hhandle : g.handle = g'.handle)
    (h : R pin g.backend g'.backend) :
    R pin (release.run g).2.backend (release.run g').2.backend := by
  by_cases hactive : g.handle.released = false ∧ g.handle.releaseOnClose = true
  · rw [backend_release hactive.1 hactive.2, backend_release (hhandle ▸ hactive.1)
      (hhandle ▸ hactive.2), hhandle]
    exact restoreAll_agree hR _ 0 0 none none rfl h
  · rw [(release_idle hactive).2, (release_idle (hhandle ▸ hactive)).2]
    exact h

/-! ## The first failure -/

/-- A conversation of one call ends as the call does. -/
theorem ending_single {x y : Exchange} {e : Failure} (hx : x ∈ [y]) (he : x.failure? = some e) :
    ending [y] = .error e := by
  rw [List.mem_singleton] at hx
  subst hx
  exact ending_eq_error_iff.mpr (List.findSome?_singleton.trans he)

/-- After a call that went well the conversation ends as the rest of it, where a failure is. -/
theorem ending_cons_well {x y : Exchange} {told : List Exchange} {e : Failure}
    (hwell : y.failure? = none) (hx : x ∈ y :: told) (he : x.failure? = some e) :
    x ∈ told ∧ ending (y :: told) = ending told := by
  refine ⟨(List.mem_cons.mp hx).resolve_left ?_, ?_⟩
  · rintro rfl
    exact absurd (hwell.symm.trans he) nofun
  · rw [ending, ending, List.findSome?_cons_of_isNone (by rw [hwell]; rfl)]

theorem ending_pullBack {mcu : Nat} {mode : Option Mode} {pull : Option (Option Pull)} {a : Answers}
    {x : Exchange} {e : Failure} (hx : x ∈ pullBack mcu mode pull a) (he : x.failure? = some e) :
    ending (pullBack mcu mode pull a) = .error e := by
  unfold pullBack at hx ⊢
  cases pull with
  | some previous => exact ending_single hx he
  | none =>
    by_cases hinput : mode = some .input
    · simp only [hinput, if_true] at hx ⊢
      by_cases htold : a.pull = .ok none
      · have hwell : (Exchange.pull mcu a.pull).failure? = none := by
          rw [htold]
          rfl
        rw [if_pos htold] at hx ⊢
        obtain ⟨hx, hends⟩ := ending_cons_well hwell hx he
        rw [hends]
        exact ending_single hx he
      · rw [if_neg htold] at hx ⊢
        exact ending_single hx he
    · simp only [hinput, if_false] at hx
      cases hx

/-- At most one of the calls that put a pin back fails, as the failure breaks the rest off. -/
theorem ending_putBack {mcu : Nat} {mode : Option Mode} {pull : Option (Option Pull)} {a : Answers}
    {x : Exchange} {e : Failure} (hx : x ∈ putBack mcu mode pull a) (he : x.failure? = some e) :
    ending (putBack mcu mode pull a) = .error e := by
  unfold putBack at hx ⊢
  cases mode with
  | none => exact ending_pullBack hx he
  | some m =>
    by_cases hset : a.setMode = .ok ()
    · have hwell : (Exchange.setMode mcu m a.setMode).failure? = none := by
        rw [hset]
        rfl
      simp only [if_pos hset] at hx ⊢
      obtain ⟨hx, hends⟩ := ending_cons_well hwell hx he
      rw [hends]
      exact ending_pullBack hx he
    · simp only [if_neg hset] at hx ⊢
      exact ending_single hx he

/-- What is said pin by pin in ascending order ends with the failure of the lowest pin that one is
about. -/
theorem ending_lowest {n : Nat} {mode : Nat → Option Mode} {pull : Nat → Option (Option Pull)}
    {a : Nat → Answers} {x : Exchange} {e : Failure}
    (hx : x ∈ (List.range n).flatMap fun pin => putBack pin (mode pin) (pull pin) (a pin))
    (he : x.failure? = some e)
    (hlow : ∀ y ∈ (List.range n).flatMap fun pin => putBack pin (mode pin) (pull pin) (a pin),
      y.failure? ≠ none → x.pin ≤ y.pin) :
    ending ((List.range n).flatMap fun pin => putBack pin (mode pin) (pull pin) (a pin)) =
      .error e := by
  obtain ⟨mcu, hmcu, hx⟩ := List.mem_flatMap.mp hx
  obtain ⟨before, after, hsplit⟩ := List.append_of_mem hmcu
  have hbefore : ∀ q ∈ before, q < mcu := by
    intro q hq
    have hsorted := hsplit ▸ List.pairwise_lt_range (n := n)
    exact (List.pairwise_append.mp hsorted).2.2 q hq mcu List.mem_cons_self
  have hcalm : ending (before.flatMap fun pin => putBack pin (mode pin) (pull pin) (a pin)) =
      .ok () := by
    refine ending_eq_ok_iff.mpr fun y hy => ?_
    obtain ⟨q, hq, hy⟩ := List.mem_flatMap.mp hy
    refine Classical.by_contradiction fun hfail => ?_
    have hle := hlow y (List.mem_flatMap.mpr ⟨q, hsplit ▸ List.mem_append_left _ hq, hy⟩) hfail
    rw [pin_of_mem_putBack hx, pin_of_mem_putBack hy] at hle
    exact absurd (hbefore q hq) (Nat.not_lt.mpr hle)
  rw [hsplit, List.flatMap_append, List.flatMap_cons, ending_append, hcalm, ending_append,
    ending_putBack hx he]
  rfl

/-! ## Releases where calls fail -/

/-- Two releases say the same about a pin, and it shows the same after both. -/
structure ReleasedAlike (pin : Nat) (g g' : Gpio (Faulty Device)) : Prop where
  said : (g.said release).filter (fun x => x.pin = pin) =
    (g'.said release).filter fun x => x.pin = pin
  mode : modeOf (release.run g).2.backend.device pin = modeOf (release.run g').2.backend.device pin
  pull : pullOf (release.run g).2.backend.device pin = pullOf (release.run g').2.backend.device pin

/-- What agrees about a pin, after releases of equal handles on backends that do. -/
theorem transcribed_release_agree {g g' : Gpio (Faulty Device)} (hhandle : g.handle = g'.handle)
    (h : Faulty.Agree Device.Agree pin g.backend g'.backend) :
    Transcribed.Agree (Faulty.Agree Device.Agree) pin (release.run g.transcribed).2.backend
      (release.run g'.transcribed).2.backend := by
  have hsame : g.transcribed.handle = g'.transcribed.handle := hhandle
  have hstart : Transcribed.Agree (Faulty.Agree Device.Agree) pin g.transcribed.backend
      g'.transcribed.backend := ⟨h, rfl, List.forall_mem_nil _, List.forall_mem_nil _⟩
  exact release_agree (Transcribed.apart (Faulty.apart Device.apart)) hsame hstart

theorem releasedAlike {g g' : Gpio (Faulty Device)} (hhandle : g.handle = g'.handle)
    (h : Faulty.Agree Device.Agree pin g.backend g'.backend) : ReleasedAlike pin g g' := by
  have hagree := transcribed_release_agree hhandle h
  have hdevice : ∀ g : Gpio (Faulty Device), (release.run g.transcribed).2.backend.device =
      (release.run g).2.backend := fun g =>
    (copied_release g g.transcribed g.copied_transcribed).2.device
  have hshows := (hdevice g ▸ hdevice g' ▸ hagree.device).device.shows
  exact ⟨hagree.told, hshows.1, hshows.2⟩

theorem said_release_idle {g : Gpio β}
    (hidle : ¬(g.handle.released = false ∧ g.handle.releaseOnClose = true)) :
    g.said release = [] :=
  congrArg Transcribed.transcript (release_idle (g := g.transcribed) hidle).2

/-- A release ends well if no call failed, and otherwise with the failure of the lowest pin that one
was about. -/
theorem release_lowest {g : Gpio β}
    (hcalm : ∀ x ∈ g.said release, ∀ f, x.failure? ≠ some (.fault f)) :
    ((∀ x ∈ g.said release, x.failure? = none) → (release.run g).1 = .ok ()) ∧
      ∀ x ∈ g.said release, ∀ e, x.failure? = some e →
        (∀ y ∈ g.said release, y.failure? ≠ none → x.pin ≤ y.pin) →
          (release.run g).1 = .error e := by
  by_cases hactive : g.handle.released = false ∧ g.handle.releaseOnClose = true
  · obtain ⟨a, hsaid, hends⟩ := release_said hactive.1 hactive.2 hcalm
    rw [hends]
    refine ⟨ending_eq_ok_iff.mpr, fun x hx e he hlow => ?_⟩
    rw [hsaid] at hx hlow ⊢
    exact ending_lowest hx he hlow
  · rw [said_release_idle hactive]
    exact ⟨fun _ => (release_idle hactive).1, List.forall_mem_nil _⟩

/-- A release does to every pin what it would do if no call on another pin failed. It ends with the
failure of the lowest pin that was not put back, and letting go of the handle then makes no call. -/
theorem release_isolated (g : Gpio (Faulty Device)) (hfull : g.backend.device.Full) :
    (∀ pin, ReleasedAlike pin g (g.only pin)) ∧
      ((∀ x ∈ g.said release, x.failure? = none) → (release.run g).1 = .ok ()) ∧
      (∀ x ∈ g.said release, ∀ e, x.failure? = some e →
        (∀ y ∈ g.said release, y.failure? ≠ none → x.pin ≤ y.pin) →
          (release.run g).1 = .error e) ∧
      (release.run g).2.said abandon = [] ∧
        abandon.run (release.run g).2 = (.ok (), (release.run g).2) := by
  have hself : ∀ pin, Faulty.Agree Device.Agree pin g.backend g.backend := fun pin =>
    ⟨Device.Agree.refl hfull pin, fun _ => rfl⟩
  obtain ⟨hwell, hlowest⟩ := release_lowest (transcribed_release_agree rfl (hself 0)).calm
  have hdone : (release.run g).2.handle.released = true := marked_release g
  refine ⟨fun pin => releasedAlike rfl (g.backend.agree_only pin (hself pin).device), hwell,
    hlowest, ?_, run_abandon_again hdone⟩
  rw [said, run_abandon_again (g := (release.run g).2.transcribed) hdone]
  rfl

/-- Three simulated pins. Through the handle the first and the last were made outputs and the second
was pulled up. No more mode can be set on the first, nor any pull on the second. -/
def hindered : Gpio (Faulty Device) where
  handle :=
    { Handle.create ⟨"three", [some 0, some 1, some 2], []⟩ {} 3 with
      records := #[{ restoreMode := some .input }, { restorePull := some (some .off) },
        { restoreMode := some .alt0 }] }
  backend :=
    { device := .sim { pins := #[{ mode := .output }, { pull := .up }, { mode := .output }] }
      fails := fun kind pin =>
        if kind = .setMode ∧ pin = 0 ∨ kind = .setPull ∧ pin = 1 then
          some (.config (.injected kind.word pin))
        else none }

/-- The close goes on past both failures, puts the last pin back, and tells of the first. -/
theorem release_isolated_hindered :
    hindered.backend.device.Full ∧
      ReleasedAlike 2 hindered (hindered.only 2) ∧
      (hindered.said release).filterMap change? =
        [.setMode 0 .input, .setPull 1 .off, .setMode 2 .alt0] ∧
      (release.run hindered).1 = .error (.error (.config (.injected "set_mode" 0))) ∧
      (release.run hindered).2.said abandon = [] := by
  obtain ⟨halike, -, hlowest, hagain, -⟩ := release_isolated hindered trivial
  refine ⟨trivial, halike 2, by decide +kernel, ?_, hagain⟩
  exact hlowest (.setMode 0 .input (.error (.error (.config (.injected "set_mode" 0)))))
    (by decide +kernel) _ rfl (by decide +kernel)

end Gpio

end BoardGpio
