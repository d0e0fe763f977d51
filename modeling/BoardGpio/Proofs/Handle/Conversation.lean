import BoardGpio.Proofs.Handle.Said

/-!
# The conversation of a release

A handle that puts its pins back says nothing but what its records ask for. For one pin, these are
at most three calls, and a failing one breaks off what is said about the pin (`Gpio.putBack`).
A release goes through the pins in ascending order and through all of them, whatever fails on the
way, and ends with the first failure (`Gpio.release_said`).
-/

set_option autoImplicit false

namespace BoardGpio.Gpio

open Exchange

/-- What a backend answers while a pin is put back. -/
structure Answers where
  setMode : Except Failure Unit
  pull : Except Failure (Option Pull)
  setPull : Except Failure Unit

/-- The answers of a backend that fails in nothing and tells this pull. -/
def Answers.well (told : Option Pull) : Answers := ⟨.ok (), .ok told, .ok ()⟩

/-- What is said to put back the pull of a pin, whose mode and pull are to become these. -/
def pullBack (pin : Nat) (mode : Option Mode) (pull : Option (Option Pull)) (a : Answers) :
    List Exchange :=
  match pull with
  | some previous => [.setPull pin (previous.getD .down) a.setPull]
  | none =>
    if mode = some .input then
      .pull pin a.pull :: if a.pull = .ok none then [.setPull pin .down a.setPull] else []
    else []

/-- What is said to put back a pin, whose mode and pull are to become these. -/
def putBack (pin : Nat) (mode : Option Mode) (pull : Option (Option Pull)) (a : Answers) :
    List Exchange :=
  match mode with
  | some m => .setMode pin m a.setMode :: if a.setMode = .ok () then pullBack pin mode pull a else []
  | none => pullBack pin mode pull a

theorem pin_of_mem_pullBack {pin : Nat} {mode : Option Mode} {pull : Option (Option Pull)}
    {a : Answers} {x : Exchange} (hx : x ∈ pullBack pin mode pull a) : x.pin = pin := by
  unfold pullBack at hx
  cases pull with
  | some previous =>
    rw [List.mem_singleton.mp hx]
    rfl
  | none =>
    simp only at hx
    split at hx
    · rcases List.mem_cons.mp hx with rfl | hx
      · rfl
      · split at hx
        · rw [List.mem_singleton.mp hx]
          rfl
        · cases hx
    · cases hx

/-- What is said to put a pin back is about the pin. -/
theorem pin_of_mem_putBack {pin : Nat} {mode : Option Mode} {pull : Option (Option Pull)}
    {a : Answers} {x : Exchange} (hx : x ∈ putBack pin mode pull a) : x.pin = pin := by
  unfold putBack at hx
  cases mode with
  | none => exact pin_of_mem_pullBack hx
  | some m =>
    rcases List.mem_cons.mp hx with rfl | hx
    · rfl
    · split at hx
      · exact pin_of_mem_pullBack hx
      · cases hx

/-- What is said pin by pin about one of the pins. -/
theorem filter_flatMap_pin {f : Nat → List Exchange} (hf : ∀ p, ∀ x ∈ f p, x.pin = p)
    {pins : List Nat} (hnodup : pins.Nodup) {pin : Nat} (hpin : pin ∈ pins) :
    (pins.flatMap f).filter (fun x => x.pin = pin) = f pin := by
  have hother : ∀ more : List Nat, pin ∉ more →
      (more.flatMap f).filter (fun x => x.pin = pin) = [] := by
    intro more hmore
    refine List.filter_eq_nil_iff.mpr fun x hx hsame => ?_
    obtain ⟨p, hp, hx⟩ := List.mem_flatMap.mp hx
    rw [hf p x hx, decide_eq_true_eq] at hsame
    exact hmore (hsame ▸ hp)
  have hown : (f pin).filter (fun x => x.pin = pin) = f pin :=
    List.filter_eq_self.mpr fun x hx => decide_eq_true (hf pin x hx)
  obtain ⟨before, after, rfl⟩ := List.append_of_mem hpin
  obtain ⟨-, hlast, hapart⟩ := List.nodup_append.mp hnodup
  have hbefore : pin ∉ before := fun h => hapart pin h pin List.mem_cons_self rfl
  rw [List.flatMap_append, List.flatMap_cons, List.filter_append, List.filter_append,
    hother before hbefore, hother after (List.nodup_cons.mp hlast).1, hown, List.nil_append,
    List.append_nil]

variable {β α γ : Type}

/-- From this state an action makes this conversation, ends as the conversation does, and leaves the
bookkeeping as it is. -/
structure Says (x : Act (Gpio (Transcribed β)) α) (t : Gpio (Transcribed β))
    (told : List Exchange) : Prop where
  transcript : (x.run t).2.backend.transcript = t.backend.transcript ++ told
  ends : (x.run t).1.map (fun _ => ()) = ending told
  handle : (x.run t).2.handle = t.handle

namespace Says

variable {x : Act (Gpio (Transcribed β)) α} {f : α → Act (Gpio (Transcribed β)) γ}
  {t : Gpio (Transcribed β)} {told more : List Exchange}

theorem pure (a : α) : Says (Pure.pure a) t [] := ⟨(List.append_nil _).symm, rfl, rfl⟩

theorem note (n : Notice) : Says (note n) t [] := ⟨(List.append_nil _).symm, rfl, rfl⟩

/-- After a conversation that went well another may follow. -/
theorem bind (hx : Says x t told) (hwell : ending told = .ok ())
    (hf : ∀ a t', x.run t = (.ok a, t') → Says (f a) t' more) : Says (x >>= f) t (told ++ more) := by
  obtain ⟨htold, hends, hhandle⟩ := hx
  rcases hrun : x.run t with ⟨e | a, t'⟩
  · rw [hrun, hwell] at hends
    cases hends
  · obtain ⟨hmore, hends', hhandle'⟩ := hf a t' hrun
    rw [hrun] at htold hhandle
    refine ⟨?_, ?_, ?_⟩
    · rw [Act.run_bind_ok f hrun, hmore, htold, List.append_assoc]
    · rw [Act.run_bind_ok f hrun, hends', ending_append, hwell]
      rfl
    · rw [Act.run_bind_ok f hrun, hhandle', hhandle]

/-- A conversation that failed is the last. -/
theorem bind_error (hx : Says x t told) {e : Failure} (hfail : ending told = .error e) :
    Says (x >>= f) t told := by
  obtain ⟨htold, hends, hhandle⟩ := hx
  rcases hrun : x.run t with ⟨e' | a, t'⟩
  · rw [hrun] at htold hends hhandle
    refine ⟨?_, ?_, ?_⟩
    · rw [Act.run_bind_error f hrun]
      exact htold
    · rw [Act.run_bind_error f hrun]
      exact hends
    · rw [Act.run_bind_error f hrun]
      exact hhandle
  · rw [hrun, hfail] at hends
    cases hends

/-- What follows without a word leaves the conversation as it is. -/
theorem then_silence (hx : Says x t told) (hf : ∀ a t', Says (f a) t' []) :
    Says (x >>= f) t told := by
  cases hend : ending told with
  | error e => exact hx.bind_error hend
  | ok u =>
    have hboth := hx.bind hend fun a t' _ => hf a t'
    rw [List.append_nil] at hboth
    exact hboth

/-- A call of the backend is said, with the answer it gets. -/
theorem call (y : Act β α) (exchange : Except Failure α → Exchange)
    (hfail : ∀ r, (exchange r).failure? = Failure.of? r) :
    Says (hardware (Transcribed.call y exchange)) t
      [exchange ((hardware (Transcribed.call y exchange)).run t).1] := by
  refine ⟨rfl, ?_, rfl⟩
  rw [ending, List.findSome?_singleton, hfail]
  cases ((hardware (Transcribed.call y exchange)).run t).1 <;> rfl

end Says

/-! ## One pin -/

variable [Backend β]

theorem says_restoreMode {r : PinRecord} {m : Mode} (hm : r.restoreMode = some m) (mcu : Nat)
    (t : Gpio (Transcribed β)) : ∃ answer, Says (restoreMode mcu r) t [.setMode mcu m answer] := by
  rw [restoreMode, hm]
  refine ⟨_, Says.then_silence (Says.then_silence (Says.call _ (.setMode mcu m) fun _ => rfl) ?_)
    fun _ _ => Says.note _⟩
  exact fun _ _ => ⟨(List.append_nil _).symm, rfl, rfl⟩

theorem says_restorePull (mcu : Nat) (r : PinRecord) (t : Gpio (Transcribed β))
    (answer : Except Failure Unit) :
    ∃ a : Answers, a.setMode = answer ∧
      Says (restorePull mcu r) t (pullBack mcu r.restoreMode r.restorePull a) := by
  have hset : ∀ u (t : Gpio (Transcribed β)), Says (hardware (Backend.setPull mcu u)) t
      [.setPull mcu u ((hardware (Backend.setPull mcu u)).run t).1] := fun u t =>
    Says.call _ (.setPull mcu u) fun _ => rfl
  unfold restorePull pullBack
  rcases r.restorePull with _ | (_ | u)
  · by_cases hinput : r.restoreMode = some .input
    · simp only [hinput, if_true]
      have hask : Says (hardware (Backend.pull mcu)) t
          [.pull mcu ((hardware (Backend.pull mcu)).run t).1] :=
        Says.call _ (.pull mcu) fun _ => rfl
      rcases hrun : (hardware (Backend.pull mcu)).run t with ⟨e | seen, t'⟩
      · rw [hrun] at hask
        exact ⟨⟨answer, .error e, answer⟩, rfl, hask.bind_error (e := e) rfl⟩
      · rw [hrun] at hask
        cases seen with
        | none =>
          have hdown := hset .down t'
          generalize ((hardware (Backend.setPull mcu .down)).run t').1 = last at hdown
          refine ⟨⟨answer, .ok none, last⟩, rfl, hask.bind rfl fun a t'' hrun' => ?_⟩
          rw [hrun] at hrun'
          cases hrun'
          exact hdown
        | some u =>
          exact ⟨⟨answer, .ok (some u), answer⟩, rfl, hask.bind rfl fun a t'' hrun' => by
            rw [hrun] at hrun'
            cases hrun'
            exact Says.pure ()⟩
    · simp only [hinput, if_false]
      exact ⟨⟨answer, .ok none, answer⟩, rfl, Says.pure ()⟩
  · exact ⟨⟨answer, .ok none, _⟩, rfl, hset .down t⟩
  · exact ⟨⟨answer, .ok none, _⟩, rfl, hset u t⟩

/-- Putting a pin back says what its record asks for, and empties the record. -/
theorem restorePin_said (mcu : Nat) (t : Gpio (Transcribed β)) :
    ∃ a, ((restorePin mcu).run t).2.backend.transcript = t.backend.transcript ++
        putBack mcu (t.handle.record mcu).restoreMode (t.handle.record mcu).restorePull a ∧
      ((restorePin mcu).run t).1.map (fun _ => ()) = ending
        (putBack mcu (t.handle.record mcu).restoreMode (t.handle.record mcu).restorePull a) ∧
      ((restorePin mcu).run t).2.handle = t.handle.updateRecord mcu fun _ => {} := by
  rw [run_restorePin]
  generalize t.handle.record mcu = r
  generalize ht : ({ t with handle := t.handle.updateRecord mcu fun _ => {} } :
    Gpio (Transcribed β)) = t'
  have hsays : ∀ {told : List Exchange} {x : Act (Gpio (Transcribed β)) Bool}, Says x t' told →
      (x.run t').2.backend.transcript = t.backend.transcript ++ told ∧
        (x.run t').1.map (fun _ => ()) = ending told ∧
          (x.run t').2.handle = t.handle.updateRecord mcu fun _ => {} := by
    intro told x hx
    subst ht
    exact ⟨hx.transcript, hx.ends, hx.handle⟩
  by_cases hclean : r.isClean = true
  · rw [if_pos hclean]
    simp only [PinRecord.isClean, Bool.and_eq_true, Option.isNone_iff_eq_none] at hclean
    rw [hclean.1, hclean.2]
    exact ⟨.well none, hsays (Says.pure false)⟩
  · rw [if_neg hclean]
    cases hmode : r.restoreMode with
    | none =>
      obtain ⟨a, -, hpull⟩ := says_restorePull mcu r t' (.ok ())
      rw [hmode] at hpull
      refine ⟨a, hsays ?_⟩
      have hmute : Says (restoreMode mcu r) t' [] := by
        rw [restoreMode, hmode]
        exact Says.pure ()
      refine hmute.bind rfl fun _ t'' hrun => ?_
      rw [restoreMode, hmode] at hrun
      cases hrun
      exact hpull.then_silence fun _ _ => Says.pure true
    | some m =>
      obtain ⟨answer, hset⟩ := says_restoreMode hmode mcu t'
      cases answer with
      | error e =>
        -- the pull is not put back, as the failure ends what is done for the pin
        exact ⟨⟨.error e, .ok none, .ok ()⟩, hsays (hset.bind_error (e := e) rfl)⟩
      | ok u =>
        rcases hrun : (restoreMode mcu r).run t' with ⟨e | v, t''⟩
        · have hends := hset.ends
          rw [hrun] at hends
          cases hends
        · obtain ⟨a, ha, hpull⟩ := says_restorePull mcu r t'' (.ok ())
          rw [hmode] at hpull
          refine ⟨a, hsays ?_⟩
          unfold putBack
          simp only [ha, if_true]
          refine hset.bind rfl fun _ s hs => ?_
          rw [hrun] at hs
          cases hs
          exact hpull.then_silence fun _ _ => Says.pure true

/-! ## All pins -/

/-- How a release ends that met this error first, if any. -/
def closing : Option Error → Except Failure Unit
  | some e => .error (.error e)
  | none => .ok ()

theorem closing_or (first : Option Error) (e : Error) :
    closing (first.or (some e)) = closing first >>= fun _ => .error (.error e) := by
  cases first <;> rfl

/-- Whatever came of a pin, short of a broken promise, the pins after it are put back as well, and
an error is kept if it is the first. -/
theorem run_restoreAll_cons {γ : Type} [Backend γ] (mcu : Nat) (rest : List Nat) (restored : Nat)
    (first : Option Error) (g : Gpio γ)
    (hcalm : ∀ f, ((restorePin mcu).run g).1 ≠ .error (.fault f)) :
    ∃ (n : Nat) (next : Option Error) (g' : Gpio γ),
      g'.handle = ((restorePin mcu).run g).2.handle ∧
        g'.backend = ((restorePin mcu).run g).2.backend ∧
          (restoreAll (mcu :: rest) restored first).run g = (restoreAll rest n next).run g' ∧
            closing next = closing first >>= fun _ => ((restorePin mcu).run g).1.map fun _ => () := by
  have hattempt := Act.run_attempt (restorePin mcu) g
  rcases hrun : (restorePin mcu).run g with ⟨(e | f) | done, g'⟩
  · rw [hrun] at hattempt
    refine ⟨restored, first.or (some e), { g' with log := g'.log ++ [.restoreFailed mcu e] }, rfl,
      rfl, ?_, closing_or first e⟩
    rw [restoreAll, Act.run_bind_ok _ hattempt]
    rfl
  · exact absurd (congrArg Prod.fst hrun) (hcalm f)
  · rw [hrun] at hattempt
    refine ⟨if done = true then restored + 1 else restored, first, g', rfl, rfl, ?_, ?_⟩
    · rw [restoreAll, Act.run_bind_ok _ hattempt]
      cases done <;> rfl
    · cases first <;> rfl

/-- The pins are put back one after the other, and only a broken promise keeps the rest from it. -/
theorem restoreAll_said (pins : List Nat) (restored : Nat) (first : Option Error)
    {t : Gpio (Transcribed β)} (hnodup : pins.Nodup)
    (hsize : ∀ pin ∈ pins, pin < t.handle.records.size)
    (hcalm : ∀ x ∈ ((restoreAll pins restored first).run t).2.backend.transcript, ∀ f,
      x.failure? ≠ some (.fault f)) :
    ∃ (a : Nat → Answers) (count : Nat) (last : Option Error) (t' : Gpio (Transcribed β)),
      (restoreAll pins restored first).run t = (.ok (count, last), t') ∧
        t'.backend.transcript = t.backend.transcript ++ pins.flatMap (fun pin => putBack pin
          (t.handle.record pin).restoreMode (t.handle.record pin).restorePull (a pin)) ∧
        closing last = closing first >>= fun _ => ending (pins.flatMap fun pin => putBack pin
          (t.handle.record pin).restoreMode (t.handle.record pin).restorePull (a pin)) := by
  induction pins generalizing restored first t with
  | nil =>
    refine ⟨fun _ => .well none, restored, first, t, rfl, (List.append_nil _).symm, ?_⟩
    cases first <;> rfl
  | cons mcu rest ih =>
    obtain ⟨hmcu, hrest⟩ := List.nodup_cons.mp hnodup
    have hlt : mcu < t.handle.records.size := hsize mcu List.mem_cons_self
    obtain ⟨a₀, htold, hends, hhandle⟩ := restorePin_said mcu t
    -- a broken promise would end the run, and stand in the transcript
    have hkept : ∀ f, ((restorePin mcu).run t).1 ≠ .error (.fault f) := by
      intro f hfault
      have hstop : (restoreAll (mcu :: rest) restored first).run t =
          (.error (.fault f), ((restorePin mcu).run t).2) := by
        rw [restoreAll, Act.run_bind, Act.run_attempt, ← Prod.eta ((restorePin mcu).run t), hfault]
      rw [hfault] at hends
      obtain ⟨x, hx, hfail⟩ := exists_of_ending hends.symm
      rw [hstop, htold] at hcalm
      exact hcalm x (List.mem_append_right _ hx) f hfail
    obtain ⟨n, next, s, hs, hb, hnext, hfirst⟩ := run_restoreAll_cons mcu rest restored first t hkept
    rw [hnext] at hcalm ⊢
    have hrecord : ∀ pin ∈ rest, s.handle.record pin = t.handle.record pin := by
      intro pin hpin
      rw [hs, hhandle, Handle.record_emptied hlt, if_neg]
      rintro rfl
      exact hmcu hpin
    obtain ⟨a, count, last, t', hrun, hmore, hlast⟩ := ih n next hrest (by
      intro pin hpin
      rw [hs, hhandle]
      exact Nat.lt_of_lt_of_eq (hsize pin (List.mem_cons_of_mem mcu hpin))
        Array.size_modify.symm) hcalm
    have hwhole : (mcu :: rest).flatMap (fun pin => putBack pin (t.handle.record pin).restoreMode
          (t.handle.record pin).restorePull (if pin = mcu then a₀ else a pin)) =
        putBack mcu (t.handle.record mcu).restoreMode (t.handle.record mcu).restorePull a₀ ++
          rest.flatMap fun pin => putBack pin (s.handle.record pin).restoreMode
            (s.handle.record pin).restorePull (a pin) := by
      rw [List.flatMap_cons, if_pos rfl]
      refine congrArg (_ ++ ·) (List.flatMap_congr fun pin hpin => ?_)
      rw [hrecord pin hpin, if_neg]
      rintro rfl
      exact hmcu hpin
    refine ⟨fun pin => if pin = mcu then a₀ else a pin, count, last, t', hrun, ?_, ?_⟩
    · rw [hmore, hb, htold, hwhole, List.append_assoc]
    · rw [hlast, hfirst, hends, hwhole, ending_append, bind_assoc]

/-- After the pins were put back nothing is left but to tell how it went. -/
theorem run_release_closing {γ : Type} [Backend γ] {g : Gpio γ} (hopen : g.handle.released = false)
    (hset : g.handle.releaseOnClose = true) :
    release.run g = match (restoreAll (List.range g.handle.records.size) 0 none).run
        { g with handle := { g.handle with released := true } } with
      | (.ok (count, last), g') => (closing last, { g' with log := g'.log ++ [.closed count] })
      | (.error e, g') => (.error e, g') := by
  rw [run_release hopen hset, Act.run_bind]
  rcases (restoreAll (List.range g.handle.records.size) 0 none).run
    { g with handle := { g.handle with released := true } } with ⟨e | ⟨count, _ | e⟩, g'⟩ <;> rfl

/-- A release that meets no broken promise puts all pins back in ascending order, and ends with the
first failure. -/
theorem release_said {g : Gpio β} (hopen : g.handle.released = false)
    (hset : g.handle.releaseOnClose = true)
    (hcalm : ∀ x ∈ g.said release, ∀ f, x.failure? ≠ some (.fault f)) :
    ∃ a : Nat → Answers, g.said release =
        (List.range g.handle.records.size).flatMap (fun pin => putBack pin
          (g.handle.record pin).restoreMode (g.handle.record pin).restorePull (a pin)) ∧
      (release.run g).1 = ending (g.said release) := by
  have hmatch := (copied_release g g.transcribed g.copied_transcribed).1
  rw [hmatch]
  unfold said at hcalm ⊢
  have hrun := run_release_closing (g := g.transcribed) hopen hset
  have hsaid := restoreAll_said (List.range g.transcribed.handle.records.size) 0 none
    (t := { g.transcribed with handle := { g.transcribed.handle with released := true } })
    List.nodup_range (fun pin hpin => List.mem_range.mp hpin)
  rcases hall : (restoreAll (List.range g.transcribed.handle.records.size) 0 none).run
      { g.transcribed with handle := { g.transcribed.handle with released := true } } with
    ⟨e | ⟨count', last'⟩, t⟩
  all_goals
    rw [hall] at hrun hsaid
    rw [hrun] at hcalm ⊢
    obtain ⟨a, count, last, t', hpins, htold, hlast⟩ := hsaid hcalm
    cases hpins
  exact ⟨a, htold, hlast.trans (congrArg ending htold.symm)⟩

end BoardGpio.Gpio
