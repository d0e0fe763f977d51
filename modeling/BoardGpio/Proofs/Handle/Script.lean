import BoardGpio.Proofs.Handle.Conversation
import BoardGpio.Proofs.Handle.Recounted
import BoardGpio.Proofs.Handle.Sited

/-!
# What the last close says

A handle that was opened is used, shared, and used beside other clients of its backend, which may do
what they like to the backend (`Hub.Course`). All along, its records recount what it has said to its
backend and been answered, and nothing else (`Hub.Course.recounts`). So the last close can be told
from that conversation alone: it makes the changes that undo the first changes in it, in ascending
order of the pins and for no other pin (`Hub.close_script`). For one pin the mode goes before the
pull, and a mode that cannot be put back costs the pin its pull (`Hub.pull_after_mode`).
-/

set_option autoImplicit false

namespace BoardGpio

open Exchange

/-- Only pins that the chip has are recorded. -/
theorem Handle.lt_size_of_recorded {h : Handle} {pin : Nat}
    (hrec : (h.record pin).restoreMode ≠ none ∨ (h.record pin).restorePull ≠ none) :
    pin < h.records.size := by
  refine Nat.lt_of_not_le fun hle => ?_
  have hempty : h.record pin = {} := by simp [Handle.record, Array.getD_eq_getD_getElem?, hle]
  rw [hempty] at hrec
  simp at hrec

namespace Gpio

/-- The changes that put back a pin whose mode and pull are to become these, if the backend tells
this pull of it. -/
def changesBack (pin : Nat) (mode : Option Mode) (pull : Option (Option Pull))
    (told : Option Pull) : List Change :=
  (mode.map (Change.setMode pin)).toList ++
    match pull with
    | some previous => [.setPull pin (previous.getD .down)]
    | none => if mode = some .input ∧ told = none then [.setPull pin .down] else []

theorem change_pullBack (pin : Nat) (mode : Option Mode) (pull : Option (Option Pull))
    (told : Option Pull) :
    (pullBack pin mode pull (.well told)).filterMap change? = match pull with
      | some previous => [.setPull pin (previous.getD .down)]
      | none => if mode = some .input ∧ told = none then [.setPull pin .down] else [] := by
  cases pull with
  | some previous => rfl
  | none =>
    by_cases hinput : mode = some .input
    · subst hinput
      cases told <;> rfl
    · simp [pullBack, hinput]

/-- Where nothing fails, putting a pin back makes these changes. -/
theorem change_putBack (pin : Nat) (mode : Option Mode) (pull : Option (Option Pull))
    (told : Option Pull) :
    (putBack pin mode pull (.well told)).filterMap change? = changesBack pin mode pull told := by
  have hpull := change_pullBack pin mode pull told
  cases mode with
  | none => exact hpull
  | some m =>
    have hset : (Answers.well told).setMode = .ok () := rfl
    simp only [putBack, hset, if_true]
    rw [List.filterMap_cons_some
      (show change? (.setMode pin m (.ok ())) = some (.setMode pin m) from rfl), hpull]
    rfl

theorem pullBack_well {pin : Nat} {mode : Option Mode} {pull : Option (Option Pull)} {a : Answers}
    (hwell : ∀ x ∈ pullBack pin mode pull a, x.failure? = none) :
    ∃ told, pullBack pin mode pull a = pullBack pin mode pull (.well told) ∧
      (mode = some .input → pull = none → .pull pin (.ok told) ∈ pullBack pin mode pull a) := by
  have hdone : ∀ {r : Except Failure Unit}, Failure.of? r = none → r = .ok () := by
    rintro (_ | _) hr
    · cases hr
    · rfl
  unfold pullBack at hwell ⊢
  cases pull with
  | some previous =>
    have hset : a.setPull = .ok () := hdone (hwell _ (List.mem_singleton.mpr rfl))
    exact ⟨none, by rw [hset]; rfl, nofun⟩
  | none =>
    by_cases hinput : mode = some .input
    · simp only [hinput, if_true] at hwell ⊢
      cases hpull : a.pull with
      | error e =>
        have hfail := hwell _ List.mem_cons_self
        rw [hpull] at hfail
        cases hfail
      | ok told =>
        refine ⟨told, ?_, fun _ _ => List.mem_cons_self⟩
        cases told with
        | some u => rfl
        | none =>
          have hset : a.setPull = .ok () :=
            hdone (hwell (.setPull pin .down a.setPull) (by simp [hpull]))
          rw [hset]
          rfl
    · refine ⟨none, ?_, fun h => absurd h hinput⟩
      simp only [hinput, if_false]

/-- Where nothing fails, only the pull that the backend tells is left open. -/
theorem putBack_well {pin : Nat} {mode : Option Mode} {pull : Option (Option Pull)} {a : Answers}
    (hwell : ∀ x ∈ putBack pin mode pull a, x.failure? = none) :
    ∃ told, putBack pin mode pull a = putBack pin mode pull (.well told) ∧
      (mode = some .input → pull = none → .pull pin (.ok told) ∈ putBack pin mode pull a) := by
  cases mode with
  | none => exact pullBack_well hwell
  | some m =>
    unfold putBack at hwell ⊢
    cases hset : a.setMode with
    | error e =>
      have hfail := hwell _ List.mem_cons_self
      rw [hset] at hfail
      cases hfail
    | ok u =>
      simp only [hset, if_true] at hwell ⊢
      obtain ⟨told, hsame, htold⟩ := pullBack_well fun x hx => hwell x (List.mem_cons_of_mem _ hx)
      refine ⟨told, ?_, fun hinput hpull => ?_⟩
      · rw [hsame]
        rfl
      exact List.mem_cons_of_mem _ (htold hinput hpull)

end Gpio

namespace Hub

variable {β : Type} [Backend β]

/-- A course of a program on the handle `h` since the state `s₀`, with what passed between the handle
and its backend on the way. Elsewhere anything may happen, also to the backend, but for the handle's
own entry. -/
inductive Course (h : Nat) (s₀ : Hub β) : List Exchange → Hub β → Prop where
  | opened : Course h s₀ [] s₀
  | use {told : List Exchange} {s : Hub β} {g : Gpio (Line β)} (hs : Course h s₀ told s)
      (hg : s.site? h = some g) (u : Gpio.Use) :
      Course h s₀ (told ++ g.said u.perform) ((onHandle h u.perform).run s).2
  | clone {told : List Exchange} {s : Hub β} (hs : Course h s₀ told s) :
      Course h s₀ told ((retain h).run s).2
  | part {told : List Exchange} {s : Hub β} (hs : Course h s₀ told s) (hmore : 1 < s.refs h)
      (how : Farewell) : Course h s₀ told ((letGo h how).run s).2
  | elsewhere {told : List Exchange} {s t : Hub β} (hs : Course h s₀ told s)
      (hentry : t.handles[h]? = s.handles[h]?) (hsite : (t.site? h).isSome) : Course h s₀ told t

variable {plan : HandlePlan} {s s₀ s₁ : Hub β} {h : Nat} {told : List Exchange}
  {g : Gpio (Line β)}

/-- On every course the records of the handle recount its conversation. -/
theorem Course.recounts (hbuild : (build plan).run s = (.ok h, s₀)) (hc : Course h s₀ told s₁) :
    ∃ g, s₁.site? h = some g ∧ g.handle.Recounts told := by
  induction hc with
  | opened =>
    obtain ⟨i, table, rig, -, -, -, -, -, -, hsite⟩ := built hbuild
    refine ⟨_, hsite, fun pin => ?_, fun pin => ?_, rfl⟩
    · rw [create_fresh]
      exact .never (List.forall_mem_nil _)
    · rw [create_fresh]
      exact .never (List.forall_mem_nil _)
  | use hs hg u ih =>
    obtain ⟨g', hg', hr⟩ := ih
    rw [hg] at hg'
    cases hg'
    exact ⟨_, (run_onHandle hg _).2.1, Gpio.recounts_perform hr u⟩
  | clone hs ih =>
    obtain ⟨g, hg, hr⟩ := ih
    exact ⟨g, by rw [retain, site?_countRefs, hg], hr⟩
  | part hs hmore how ih =>
    obtain ⟨g, hg, hr⟩ := ih
    exact ⟨g, by rw [run_letGo_more hmore, site?_countRefs, hg], hr⟩
  | elsewhere hs hentry hsite ih =>
    obtain ⟨g, hg, hr⟩ := ih
    obtain ⟨g', hg'⟩ := Option.isSome_iff_exists.mp hsite
    have hsame := handle_of_same_entry hentry hg hg'
    exact ⟨g', hg', hr.beside (by rw [hsame]) (by rw [hsame])⟩

/-- The last close releases the handle where it stands. -/
theorem run_letGo_closed (hlast : s.refs h = 1) (hg : s.site? h = some g) :
    ((letGo h .closed).run s).1 = (Gpio.release.run g).1 ∧
      ((letGo h .closed).run s).2.site? h = some (g.moved (Gpio.release.run g).2) := by
  have hg' : ((countRefs h (· - 1)).run s).2.site? h = some g := by rw [site?_countRefs, hg]
  obtain ⟨hres, hsite, -⟩ := run_onHandle hg' (farewell .closed)
  rw [run_letGo_last hlast, hres]
  exact ⟨rfl, hsite⟩

/-- On a course every pin that is put back was changed. -/
theorem changed_of_said {h : Handle} (hr : h.Recounts told) {x : Exchange} {a : Nat → Gpio.Answers}
    (hx : x ∈ (List.range h.records.size).flatMap fun pin =>
      Gpio.putBack pin (h.record pin).restoreMode (h.record pin).restorePull (a pin)) :
    ∃ y ∈ told, y.Switched x.pin ∨ y.Pulled x.pin := by
  obtain ⟨pin, -, hx⟩ := List.mem_flatMap.mp hx
  rw [Gpio.pin_of_mem_putBack hx]
  refine Classical.by_contradiction fun hnone => ?_
  have hnone : ∀ y ∈ told, ¬y.Switched pin ∧ ¬y.Pulled pin := fun y hy =>
    not_or.mp fun hchange => hnone ⟨y, hy, hchange⟩
  rw [(hr.modes pin).eq_none_iff.mpr fun y hy => (hnone y hy).1,
    (hr.pulls pin).eq_none_iff.mpr fun y hy => (hnone y hy).2] at hx
  cases hx

/-- The last close makes, in ascending order, the changes that undo the first changes of every pin,
and no other, if it is to put pins back and nothing fails. -/
theorem close_script (hbuild : (build plan).run s = (.ok h, s₀)) (hcourse : Course h s₀ told s₁)
    (hlast : s₁.refs h = 1) :
    ∃ g, s₁.site? h = some g ∧
      ((letGo h .closed).run s₁).2.site? h = some (g.moved (Gpio.release.run g).2) ∧
      (g.handle.releaseOnClose = true → (∀ x ∈ g.said Gpio.release, x.failure? = none) →
        ((letGo h .closed).run s₁).1 = .ok () ∧
        ∃ (modes : Nat → Option Mode) (pulls : Nat → Option (Option Pull))
            (now : Nat → Option Pull),
          (∀ pin, FirstMode pin told (modes pin) ∧ FirstPull pin told (pulls pin)) ∧
          (∀ pin, modes pin ≠ none ∨ pulls pin ≠ none → pin < g.handle.records.size) ∧
          (∀ pin, modes pin = some .input → pulls pin = none →
            .pull pin (.ok (now pin)) ∈ g.said Gpio.release) ∧
          (g.said Gpio.release).filterMap change? =
            (List.range g.handle.records.size).flatMap (fun pin =>
              Gpio.changesBack pin (modes pin) (pulls pin) (now pin)) ∧
          ∀ x ∈ g.said Gpio.release, ∃ y ∈ told, y.Switched x.pin ∨ y.Pulled x.pin) := by
  obtain ⟨g, hg, hr⟩ := hcourse.recounts hbuild
  obtain ⟨hres, hsite⟩ := run_letGo_closed hlast hg
  refine ⟨g, hg, hsite, fun hset hwell => ?_⟩
  obtain ⟨a, hsaid, hends⟩ := Gpio.release_said hr.unreleased hset fun x hx f => by
    rw [hwell x hx]
    exact nofun
  have hback : ∀ pin, ∃ now, pin < g.handle.records.size →
      Gpio.putBack pin (g.handle.record pin).restoreMode (g.handle.record pin).restorePull (a pin) =
        Gpio.putBack pin (g.handle.record pin).restoreMode (g.handle.record pin).restorePull
          (.well now) ∧
      ((g.handle.record pin).restoreMode = some .input → (g.handle.record pin).restorePull = none →
        .pull pin (.ok now) ∈ g.said Gpio.release) := by
    intro pin
    by_cases hlt : pin < g.handle.records.size
    · have hmem : ∀ x ∈ Gpio.putBack pin (g.handle.record pin).restoreMode
          (g.handle.record pin).restorePull (a pin), x ∈ g.said Gpio.release := by
        intro x hx
        rw [hsaid]
        exact List.mem_flatMap.mpr ⟨pin, List.mem_range.mpr hlt, hx⟩
      obtain ⟨now, hsame, hasked⟩ := Gpio.putBack_well fun x hx => hwell x (hmem x hx)
      exact ⟨now, fun _ => ⟨hsame, fun hinput hpull => hmem _ (hasked hinput hpull)⟩⟩
    · exact ⟨none, fun h => absurd h hlt⟩
  choose now hnow using hback
  have hrecorded : ∀ pin, (g.handle.record pin).restoreMode ≠ none ∨
      (g.handle.record pin).restorePull ≠ none → pin < g.handle.records.size := fun pin =>
    Handle.lt_size_of_recorded
  refine ⟨by rw [hres, hends, ending_eq_ok_iff]; exact hwell,
    fun pin => (g.handle.record pin).restoreMode, fun pin => (g.handle.record pin).restorePull, now,
    fun pin => ⟨hr.modes pin, hr.pulls pin⟩, hrecorded, fun pin hinput hpull => ?_, ?_,
    fun x hx => changed_of_said hr (hsaid ▸ hx)⟩
  · have hmode : (g.handle.record pin).restoreMode ≠ none :=
      Option.ne_none_iff_exists'.mpr ⟨.input, hinput⟩
    exact (hnow pin (hrecorded pin (.inl hmode))).2 hinput hpull
  · rw [hsaid, List.filterMap_flatMap]
    refine List.flatMap_congr fun pin hpin => ?_
    rw [(hnow pin (List.mem_range.mp hpin)).1, Gpio.change_putBack]

/-! ## A close on pins that tell no pull -/

/-- Two simulated pins that tell no pull, with a handle on them. -/
def blind : Hub Sim :=
  ((build twoPinsPlan).run
    { rigs := #[{ device := { pins := #[{}, {}], pullReadable := false } }] }).2

/-- The handle has made the first pin an output, and pulled up the second. -/
def blindUsed : Hub Sim :=
  ((onHandle 0 (Gpio.Use.pin (.setPull 1 .up)).perform).run
    ((onHandle 0 (Gpio.Use.pin (.setMode 0 .output)).perform).run blind).2).2

/-- Another client of the pins has pulled up the first one meanwhile. -/
def blindDisturbed : Hub Sim :=
  ((onRig 0 (Rig.onDevice (Backend.setPull 0 .up))).run blindUsed).2

/-- The first pin becomes an input again and is pulled down, as nobody can tell how it was pulled.
So is the second, and nothing else is changed. -/
theorem close_script_blind :
    ((letGo 0 .closed).run blindDisturbed).1 = .ok () ∧
      (blindDisturbed.site? 0).map (fun g => (g.said Gpio.release).filterMap change?) =
        some [.setMode 0 .input, .setPull 0 .down, .setPull 1 .down] := by
  have hcourse : ∃ told, Course 0 blind told blindDisturbed :=
    ⟨_, .elsewhere (.use (.use .opened (rfl : blind.site? 0 = some _) (.pin (.setMode 0 .output)))
      (rfl : Hub.site? _ 0 = some _) (.pin (.setPull 1 .up))) rfl rfl⟩
  obtain ⟨told, hcourse⟩ := hcourse
  have hbuild : (build twoPinsPlan).run
      { rigs := #[{ device := { pins := #[{}, {}], pullReadable := false } }] } =
        (.ok 0, blind) := rfl
  obtain ⟨g, hg, -, hclose⟩ := close_script hbuild hcourse (by decide +kernel)
  have hset : (blindDisturbed.site? 0).map (fun g => g.handle.releaseOnClose) = some true := by
    decide +kernel
  have hwell : (blindDisturbed.site? 0).map (fun g => ending (g.said Gpio.release)) =
      some (.ok ()) := by decide +kernel
  rw [hg] at hset hwell
  have hok := (hclose (Option.some.inj hset) (ending_eq_ok_iff.mp (Option.some.inj hwell))).1
  exact ⟨hok, by decide +kernel⟩

/-- At the last close a pin whose mode and pull were changed gets its mode back first. It gets its
pull back if that goes well, and otherwise not, and the close ends with a failure. -/
theorem pull_after_mode (hbuild : (build plan).run s = (.ok h, s₀))
    (hcourse : Course h s₀ told s₁) (hlast : s₁.refs h = 1) (pin : Nat)
    (hswitched : ∃ x ∈ told, x.Switched pin) (hpulled : ∃ x ∈ told, x.Pulled pin) :
    ∃ g, s₁.site? h = some g ∧ (g.handle.releaseOnClose = true →
      (∀ x ∈ g.said Gpio.release, ∀ f, x.failure? ≠ some (.fault f)) →
        ∃ m u, FirstMode pin told (some m) ∧ FirstPull pin told (some u) ∧
          ((∃ r, (g.said Gpio.release).filter (fun x => x.pin = pin) =
              [.setMode pin m (.ok ()), .setPull pin (u.getD .down) r]) ∨
            ∃ e, (g.said Gpio.release).filter (fun x => x.pin = pin) =
                [.setMode pin m (.error (.error e))] ∧
              ∃ e', ((letGo h .closed).run s₁).1 = .error (.error e'))) := by
  obtain ⟨g, hg, hr⟩ := hcourse.recounts hbuild
  refine ⟨g, hg, fun hset hcalm => ?_⟩
  obtain ⟨a, hsaid, hends⟩ := Gpio.release_said hr.unreleased hset hcalm
  have hmode : (g.handle.record pin).restoreMode ≠ none := fun hnone =>
    let ⟨x, hx, hchange⟩ := hswitched
    (hr.modes pin).eq_none_iff.mp hnone x hx hchange
  have hpull : (g.handle.record pin).restorePull ≠ none := fun hnone =>
    let ⟨x, hx, hchange⟩ := hpulled
    (hr.pulls pin).eq_none_iff.mp hnone x hx hchange
  have hlt := Handle.lt_size_of_recorded (.inl hmode)
  have habout : (g.said Gpio.release).filter (fun x => x.pin = pin) =
      Gpio.putBack pin (g.handle.record pin).restoreMode (g.handle.record pin).restorePull
        (a pin) := by
    rw [hsaid]
    exact Gpio.filter_flatMap_pin (fun _ _ => Gpio.pin_of_mem_putBack) List.nodup_range
      (List.mem_range.mpr hlt)
  obtain ⟨m, hm⟩ := Option.ne_none_iff_exists'.mp hmode
  obtain ⟨u, hu⟩ := Option.ne_none_iff_exists'.mp hpull
  refine ⟨m, u, hm ▸ hr.modes pin, hu ▸ hr.pulls pin, ?_⟩
  rw [hm, hu, Gpio.putBack] at habout
  cases hback : (a pin).setMode with
  | ok _ =>
    rw [hback] at habout
    exact .inl ⟨(a pin).setPull, habout⟩
  | error e =>
    rw [hback] at habout
    have hfailed : .setMode pin m (.error e) ∈ g.said Gpio.release := by
      have hmem : .setMode pin m (.error e) ∈
          (g.said Gpio.release).filter (fun x => x.pin = pin) := by
        rw [habout]
        exact List.mem_cons_self
      exact List.mem_of_mem_filter hmem
    refine .inr ?_
    rw [(run_letGo_closed hlast hg).1, hends]
    cases hend : ending (g.said Gpio.release) with
    | ok _ => exact absurd (ending_eq_ok_iff.mp hend _ hfailed) (Option.some_ne_none e)
    | error first =>
      obtain ⟨x, hx, hfirst⟩ := exists_of_ending hend
      cases e with
      | fault f => exact absurd rfl (hcalm _ hfailed f)
      | error e =>
        cases first with
        | fault f => exact absurd hfirst (hcalm x hx f)
        | error e' => exact ⟨e, habout, e', rfl⟩

/-! ## A pin that cannot get its mode back -/

/-- A simulated pin that was given pulse-width modulation, which no call can give it, and a
pull-up. A handle was opened on it. -/
def modulated : Hub Sim :=
  ((build ⟨some 0, false, some ⟨"one", [some 0], []⟩, {}⟩).run
    { rigs := #[{ device := { pins := #[{ mode := .pwm, pull := .up }] } }] }).2

/-- The handle has made the pin an output and pulled it down. -/
def modulatedUsed : Hub Sim :=
  ((onHandle 0 (Gpio.Use.pin (.setPull 0 .down)).perform).run
    ((onHandle 0 (Gpio.Use.pin (.setMode 0 .output)).perform).run modulated).2).2

/-- Nothing is said of the pull once the mode is refused. -/
theorem pull_after_mode_modulated :
    (modulatedUsed.site? 0).map (fun g => g.said Gpio.release) =
        some [.setMode 0 .pwm (.error (.error (.unsupportedMode 0 .pwm)))] ∧
      ∃ e, ((letGo 0 .closed).run modulatedUsed).1 = .error (.error e) := by
  have hbuild : (build ⟨some 0, false, some ⟨"one", [some 0], []⟩, {}⟩).run
      { rigs := #[{ device := { pins := #[{ mode := .pwm, pull := .up }] } }] } =
        (.ok 0, modulated) := rfl
  have hcourse : Course 0 modulated _ modulatedUsed :=
    .use (.use .opened (rfl : modulated.site? 0 = some _) (.pin (.setMode 0 .output)))
      (rfl : Hub.site? _ 0 = some _) (.pin (.setPull 0 .down))
  obtain ⟨g, hg, hclose⟩ := pull_after_mode hbuild hcourse (by decide +kernel) 0
    ⟨.setMode 0 .output (.ok ()), by decide +kernel, .output, rfl⟩
    ⟨.setPull 0 .down (.ok ()), by decide +kernel, .down, rfl⟩
  have hset : (modulatedUsed.site? 0).map (fun g => g.handle.releaseOnClose) = some true := by
    decide +kernel
  have hsaid : (modulatedUsed.site? 0).map (fun g => g.said Gpio.release) =
      some [.setMode 0 .pwm (.error (.error (.unsupportedMode 0 .pwm)))] := by decide +kernel
  refine ⟨hsaid, ?_⟩
  rw [hg] at hset hsaid
  have hsaid : g.said Gpio.release = [_] := Option.some.inj hsaid
  have hcalm : ∀ x ∈ g.said Gpio.release, ∀ f, x.failure? ≠ some (.fault f) := by
    rw [hsaid]
    exact List.forall_mem_singleton.mpr nofun
  obtain ⟨m, u, -, -, ⟨r, hboth⟩ | ⟨e, -, hres⟩⟩ := hclose (Option.some.inj hset) hcalm
  · rw [hsaid] at hboth
    cases hboth
  · exact hres

/-- The pull of the pin could be put back, and a pull-up is recorded for it, but the pin stays pulled
down. -/
theorem pull_not_put_back :
    (modulated.site? 0).map (fun g => (Backend.pullOf g.backend 0).toOption) =
        some (some (some .up)) ∧
      (modulatedUsed.site? 0).map (fun g => (g.handle.record 0).restorePull) =
        some (some (some .up)) ∧
      (((letGo 0 .closed).run modulatedUsed).2.site? 0).map (fun g =>
        (((Backend.setPull 0 .up).run g.backend).1, (Backend.pullOf g.backend 0).toOption)) =
          some (.ok (), some (some .down)) := by
  decide +kernel

end Hub

end BoardGpio
