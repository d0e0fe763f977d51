import BoardGpio.Proofs.Backend.Driving
import BoardGpio.Proofs.Backend.Faulty
import BoardGpio.Proofs.Handle.Conversation
import BoardGpio.Proofs.PinSet
import BoardGpio.Proofs.PinTable.Translation

/-!
# What a batch does

A batch drives all outputs among the pins of a set. What is said in it is told by what the pins were
before it, as no pin is driven twice and driving a pin changes no mode (`Drive.script`,
`Gpio.says_batch`): every pin is asked for its mode and driven if it is an output, until something
fails. All along, what the pins are latched to can be told from what was said
(`Transcribed.Reckoned`). So a batch touches the outputs among its pins and nothing else, and doing
a toggling one twice comes to nothing (`Drive.batched`).
-/

set_option autoImplicit false

namespace BoardGpio

open Backend Exchange

/-! ## The pins of a batch -/

namespace Handle

variable {h : Handle} {pins : List Nat}

theorem mem_targets {t : Nat × Nat} : t ∈ h.targets pins ↔ t.1 ∈ pins ∧ h.mcu? t.1 = some t.2 := by
  simp only [targets, List.mem_filterMap, Option.map_eq_some_iff]
  constructor
  · rintro ⟨pin, hpin, mcu, hmcu, rfl⟩
    exact ⟨hpin, hmcu⟩
  · rintro ⟨hpin, hmcu⟩
    exact ⟨t.1, hpin, t.2, hmcu, rfl⟩

theorem ascending_targets (hpins : pins.Pairwise (· < ·)) :
    (h.targets pins).Pairwise fun t u => t.1 < u.1 := by
  refine hpins.filterMap _ fun pin pin' hlt t ht u hu => ?_
  obtain ⟨mcu, -, rfl⟩ := Option.map_eq_some_iff.mp ht
  obtain ⟨mcu', -, rfl⟩ := Option.map_eq_some_iff.mp hu
  exact hlt

/-- Different numbers of an accepted table stand for different pins of the chip. -/
theorem mcu?_injective (htable : h.table.Accepted) {pin pin' mcu : Nat}
    (hpin : h.mcu? pin = some mcu) (hpin' : h.mcu? pin' = some mcu) : pin = pin' :=
  htable.toMcu?_injective (mcu?_eq_some_iff.mp hpin).1 (mcu?_eq_some_iff.mp hpin').1

theorem distinct_targets (htable : h.table.Accepted) (hpins : pins.Pairwise (· < ·)) :
    ((h.targets pins).map Prod.snd).Nodup := by
  refine List.pairwise_map.mpr ((ascending_targets hpins).imp_of_mem fun ht hu hlt heq => ?_)
  have hpin := (mem_targets.mp ht).2
  rw [heq] at hpin
  exact absurd (mcu?_injective htable hpin (mem_targets.mp hu).2) (Nat.ne_of_lt hlt)

end Handle

/-! ## What is said -/

namespace Drive

variable {β : Type} [Backend β]

/-- Drives the outputs among the pins of a set. -/
def batch : Drive → PinSet → Act (Gpio β) Unit
  | write high, pins => Gpio.writeAll pins high
  | toggle, pins => Gpio.toggleAll pins

/-- What is said about a pin of the chip in a batch. -/
def talk (d : Drive) (b : β) (mcu : Nat) : List Exchange :=
  .mode mcu (modeOf b mcu) ::
    if modeOf b mcu = .ok .output then [d.exchange mcu ((d.call mcu).run b).1] else []

/-- What is said in a batch about pins with the chip pins behind them. -/
def script (d : Drive) (b : β) : List (Nat × Nat) → List Exchange
  | [] => []
  | t :: rest => d.talk b t.2 ++ if ending (d.talk b t.2) = .ok () then d.script b rest else []

theorem pin_exchange (d : Drive) (mcu : Nat) (answer : Except Failure Unit) :
    (d.exchange mcu answer).pin = mcu := by
  cases d <;> rfl

theorem failure_exchange (d : Drive) (mcu : Nat) (answer : Except Failure Unit) :
    (d.exchange mcu answer).failure? = Failure.of? answer := by
  cases d <;> rfl

theorem exchange_inj (d : Drive) {mcu mcu' : Nat} {answer answer' : Except Failure Unit} :
    d.exchange mcu answer = d.exchange mcu' answer' ↔ mcu = mcu' ∧ answer = answer' := by
  cases d <;> simp [exchange]

theorem exchange_ne_mode (d : Drive) (mcu mcu' : Nat) (answer : Except Failure Unit)
    (told : Except Failure Mode) : d.exchange mcu answer ≠ .mode mcu' told := by
  cases d <;> exact nofun

theorem run_batch (d : Drive) (pins : PinSet) (g : Gpio β) : (d.batch pins).run g =
    (Act.each (fun t : Nat × Nat => Gpio.ifOutput t.2 (Gpio.hardware (d.call t.2)))
      (g.handle.targets pins.toList)).run g := by
  cases d <;> rfl

variable {d : Drive} {b : β}

theorem talk_of_error {mcu : Nat} {e : Failure} (h : modeOf b mcu = .error e) :
    d.talk b mcu = [.mode mcu (.error e)] := by
  rw [talk, h, if_neg nofun]

theorem talk_of_mode {mcu : Nat} {m : Mode} (h : modeOf b mcu = .ok m) :
    d.talk b mcu = [.mode mcu (.ok m)] ++
      if m = .output then [d.exchange mcu ((d.call mcu).run b).1] else [] := by
  rw [talk, h]
  cases m <;> rfl

theorem pin_of_mem_talk {mcu : Nat} {x : Exchange} (hx : x ∈ d.talk b mcu) : x.pin = mcu := by
  unfold talk at hx
  rcases List.mem_cons.mp hx with rfl | hx
  · rfl
  · split at hx
    · rw [List.mem_singleton.mp hx, pin_exchange]
    · cases hx

/-- Where a pin is driven it is an output, and the call is answered as it is in this state. -/
theorem mem_talk_iff {mcu q : Nat} {answer : Except Failure Unit} :
    d.exchange q answer ∈ d.talk b mcu ↔
      q = mcu ∧ modeOf b q = .ok .output ∧ answer = ((d.call q).run b).1 := by
  unfold talk
  rw [List.mem_cons, or_iff_right (d.exchange_ne_mode _ _ _ _)]
  by_cases hout : modeOf b mcu = .ok .output
  · rw [if_pos hout, List.mem_singleton, exchange_inj]
    constructor
    · rintro ⟨rfl, rfl⟩
      exact ⟨rfl, hout, rfl⟩
    · rintro ⟨rfl, -, rfl⟩
      exact ⟨rfl, rfl⟩
  · rw [if_neg hout]
    refine iff_of_false List.not_mem_nil ?_
    rintro ⟨rfl, hout', -⟩
    exact hout hout'

theorem nodup_talk (mcu : Nat) : (d.talk b mcu).Nodup := by
  unfold talk
  split
  · refine List.nodup_cons.mpr ⟨fun hx => ?_, List.nodup_singleton _⟩
    exact d.exchange_ne_mode _ _ _ _ (List.mem_singleton.mp hx).symm
  · exact List.nodup_singleton _

/-- The first pin that something fails about is the last that anything is said about. -/
theorem script_split (d : Drive) (b : β) (targets : List (Nat × Nat)) :
    ∃ before rest, targets = before ++ rest ∧
      (∀ t ∈ before, ending (d.talk b t.2) = .ok ()) ∧
      (∀ t ∈ rest.head?, ending (d.talk b t.2) ≠ .ok ()) ∧
      d.script b targets = (before ++ rest.take 1).flatMap fun t => d.talk b t.2 := by
  induction targets with
  | nil => exact ⟨[], [], rfl, List.forall_mem_nil _, nofun, rfl⟩
  | cons t targets ih =>
    by_cases hwell : ending (d.talk b t.2) = .ok ()
    · obtain ⟨before, rest, rfl, hbefore, hrest, hscript⟩ := ih
      refine ⟨t :: before, rest, rfl, List.forall_mem_cons.mpr ⟨hwell, hbefore⟩, hrest, ?_⟩
      rw [script, if_pos hwell, hscript]
      rfl
    · refine ⟨[], t :: targets, rfl, List.forall_mem_nil _, fun u hu => ?_, ?_⟩
      · cases hu
        exact hwell
      · rw [script, if_neg hwell]
        rfl

/-- A batch goes well if nothing is said of a failure, and otherwise ends with the failure that was
met about the last pin. -/
theorem script_outcome (d : Drive) (b : β) (targets : List (Nat × Nat)) :
    ∃ before rest, targets = before ++ rest ∧
      d.script b targets = (before ++ rest.take 1).flatMap (fun t => d.talk b t.2) ∧
      (∀ t ∈ before, ∀ x ∈ d.talk b t.2, x.failure? = none) ∧
      (rest = [] ∧ ending (d.script b targets) = .ok () ∨
        ∃ t x e, rest.head? = some t ∧ x ∈ d.talk b t.2 ∧ x.failure? = some e ∧
          ending (d.script b targets) = .error e) := by
  obtain ⟨before, rest, htargets, hbefore, hrest, hscript⟩ := script_split d b targets
  have hcalm : ∀ t ∈ before, ∀ x ∈ d.talk b t.2, x.failure? = none := fun t ht =>
    ending_eq_ok_iff.mp (hbefore t ht)
  have hends : ending (before.flatMap fun t => d.talk b t.2) = .ok () := by
    refine ending_eq_ok_iff.mpr fun x hx => ?_
    obtain ⟨t, ht, hx⟩ := List.mem_flatMap.mp hx
    exact hcalm t ht x hx
  refine ⟨before, rest, htargets, hscript, hcalm, ?_⟩
  rw [hscript, List.flatMap_append, ending_append, hends]
  cases rest with
  | nil => exact .inl ⟨rfl, rfl⟩
  | cons t rest =>
    cases hlast : ending (d.talk b t.2) with
    | ok done => exact absurd hlast (hrest t rfl)
    | error e =>
      obtain ⟨x, hx, he⟩ := exists_of_ending hlast
      refine .inr ⟨t, x, e, rfl, hx, he, ?_⟩
      have hone : ((t :: rest).take 1).flatMap (fun t => d.talk b t.2) = d.talk b t.2 :=
        List.append_nil _
      rw [hone, hlast]
      rfl

/-- A batch that goes well speaks about all its pins. -/
theorem script_of_ok {targets : List (Nat × Nat)} (hok : ending (d.script b targets) = .ok ()) :
    d.script b targets = targets.flatMap fun t => d.talk b t.2 := by
  obtain ⟨before, rest, rfl, hscript, -, ⟨rfl, -⟩ | ⟨t, x, e, -, -, -, herror⟩⟩ :=
    script_outcome d b targets
  · exact hscript
  · rw [hok] at herror
    cases herror

theorem script_congr {b' : β} (htalk : ∀ mcu, d.talk b' mcu = d.talk b mcu)
    (targets : List (Nat × Nat)) : d.script b' targets = d.script b targets := by
  induction targets with
  | nil => rfl
  | cons t targets ih => rw [script, script, htalk, ih]

/-- Only outputs are driven. -/
theorem output_of_mem_script {targets : List (Nat × Nat)} {q : Nat} {answer : Except Failure Unit}
    (hq : d.exchange q answer ∈ d.script b targets) : modeOf b q = .ok .output := by
  obtain ⟨before, rest, -, -, -, hscript⟩ := script_split d b targets
  rw [hscript] at hq
  obtain ⟨t, -, ht⟩ := List.mem_flatMap.mp hq
  exact (mem_talk_iff.mp ht).2.1

/-- No pin is driven twice. -/
theorem nodup_script {targets : List (Nat × Nat)} (hdistinct : (targets.map Prod.snd).Nodup) :
    (d.script b targets).Nodup := by
  obtain ⟨before, rest, rfl, -, -, hscript⟩ := script_split d b targets
  rw [hscript]
  have hpart : (before ++ rest.take 1).Sublist (before ++ rest) :=
    (List.Sublist.refl _).append (List.take_sublist _ _)
  refine List.nodup_flatMap.mpr ⟨fun t _ => nodup_talk t.2, ?_⟩
  refine (List.pairwise_map.mp (hdistinct.sublist (hpart.map _))).imp fun hne x hx hx' => ?_
  exact hne ((pin_of_mem_talk hx).symm.trans (pin_of_mem_talk hx'))

end Drive

/-! ## Driving a pin where calls may fail -/

namespace Faulty

variable {d : Drive} {f f' : Faulty Device}

theorem modeOf_eq (f : Faulty Device) (pin : Nat) :
    modeOf f pin = match f.fails .mode pin with
      | some e => .error (.error e)
      | none => modeOf f.device pin := by
  rw [modeOf, show (Backend.mode pin : Act (Faulty Device) Mode) =
    call .mode pin (Backend.mode pin) from rfl, run_call]
  cases f.fails .mode pin <;> rfl

/-- A mode that is told is the mode that the device shows. -/
theorem modeOf_eq_ok {pin : Nat} {m : Mode} (h : modeOf f pin = .ok m) :
    modeOf f.device pin = .ok m := by
  rw [modeOf_eq] at h
  cases hfails : f.fails .mode pin with
  | none =>
    rw [hfails] at h
    exact h
  | some e =>
    rw [hfails] at h
    cases h

/-- An output is driven if nothing fails that is said about it. -/
theorem mem_talk_of_calm {q : Nat} (hwell : ∀ x ∈ d.talk f q, x.failure? = none)
    (hout : modeOf f.device q = .ok .output) : d.exchange q (.ok ()) ∈ d.talk f q := by
  obtain ⟨m, hm⟩ := Failure.of?_eq_none_iff.mp (hwell (.mode q (modeOf f q)) List.mem_cons_self)
  have hshown : modeOf f q = .ok .output := by
    rw [hm, ← hout]
    exact (modeOf_eq_ok hm).symm
  have hdriven : d.exchange q ((d.call q).run f).1 ∈ d.talk f q :=
    Drive.mem_talk_iff.mpr ⟨rfl, hshown, rfl⟩
  obtain ⟨done, hanswer⟩ := Failure.of?_eq_none_iff.mp
    ((d.failure_exchange _ _).symm.trans (hwell _ hdriven))
  rw [hanswer] at hdriven
  exact hdriven

theorem mode_leaves (pin : Nat) : (Backend.mode pin : Act (Faulty Device) Mode).Leaves := by
  intro f
  show ((call .mode pin (Backend.mode pin)).run f).2 = f
  rw [run_call]
  cases f.fails .mode pin with
  | some e => rfl
  | none =>
    exact congrArg (fun e : Device => { f with device := e }) (Device.mode_leaves pin f.device)

theorem run_drive (d : Drive) (f : Faulty Device) (pin : Nat) :
    (d.call pin).run f = match f.fails d.kind pin with
      | some e => (.error (.error e), f)
      | none =>
        (((d.call pin).run f.device).1, { f with device := ((d.call pin).run f.device).2 }) := by
  cases d <;> rfl

/-- A call that drives a pin fails without a trace, or drives the pin. -/
theorem drive_cases (hfull : f.device.Full) (d : Drive) (pin : Nat) :
    (∃ e, (d.call pin).run f = (.error e, f)) ∨
      ∃ e', (d.call pin).run f = (.ok (), { f with device := e' }) ∧
        Device.Drove d pin f.device e' := by
  rw [run_drive]
  cases f.fails d.kind pin with
  | some e => exact .inl ⟨_, rfl⟩
  | none =>
    have hdriving := Device.driving hfull d pin
    rcases hrun : (d.call pin).run f.device with ⟨r, e'⟩
    rw [hrun] at hdriving
    cases hdriving with
    | refused hpin => exact .inl ⟨_, rfl⟩
    | drove hpin h => exact .inr ⟨e', rfl, h⟩

/-- Whether a pin can be driven is a matter of the calls that fail and of the number of pins. -/
theorem answer_congr (hfull : f.device.Full) (hfull' : f'.device.Full) (hfails : f.fails = f'.fails)
    (hcount : pinCount f.device = pinCount f'.device) (pin : Nat) :
    ((d.call pin).run f).1 = ((d.call pin).run f').1 := by
  rw [run_drive, run_drive, hfails]
  cases f'.fails d.kind pin with
  | some e => rfl
  | none =>
    show ((d.call pin).run f.device).1 = ((d.call pin).run f'.device).1
    rw [Device.answer_drive hfull, Device.answer_drive hfull', hcount]

end Faulty

/-! ## What the pins are latched to -/

namespace Transcribed

/-- What pins of the device show, and what they are latched to, can be told from the state `b₀` and
what was said since. -/
structure Reckoned (d : Drive) (b₀ : Faulty Device) (t : Transcribed (Faulty Device)) : Prop where
  full : t.device.device.Full
  fails : t.device.fails = b₀.fails
  pinCount : pinCount t.device.device = pinCount b₀.device
  modes : ∀ q, modeOf t.device.device q = modeOf b₀.device q
  pulls : ∀ q, pullOf t.device.device q = pullOf b₀.device q
  /-- A pin is latched as it was driven, as often as it was driven. -/
  latches : ∀ q, t.device.device.latchOf q =
    (Option.map d.latch)^[t.transcript.count (d.exchange q (.ok ()))] (b₀.device.latchOf q)
  levels : ∀ q, d.exchange q (.ok ()) ∉ t.transcript →
    levelOf t.device.device q = levelOf b₀.device q

variable {d : Drive} {b₀ : Faulty Device} {t : Transcribed (Faulty Device)}

theorem Reckoned.start (hfull : b₀.device.Full) : Reckoned d b₀ ⟨b₀, []⟩ :=
  ⟨hfull, rfl, rfl, fun _ => rfl, fun _ => rfl, fun _ => rfl, fun _ _ => rfl⟩

/-- The backend tells of a pin what it told at first. -/
theorem Reckoned.modeOf (ht : Reckoned d b₀ t) (mcu : Nat) :
    Backend.modeOf t.device mcu = Backend.modeOf b₀ mcu := by
  rw [Faulty.modeOf_eq, Faulty.modeOf_eq, ht.fails, ht.modes]

theorem Reckoned.talk (ht : Reckoned d b₀ t) (hfull : b₀.device.Full) (mcu : Nat) :
    d.talk t.device mcu = d.talk b₀ mcu := by
  rw [Drive.talk, Drive.talk, ht.modeOf, Faulty.answer_congr ht.full hfull ht.fails ht.pinCount]

/-- What is put down and is no successful call that drives a pin changes no reckoning. -/
theorem Reckoned.idle (ht : Reckoned d b₀ t) {x : Exchange}
    (hx : ∀ q, x ≠ d.exchange q (.ok ())) : Reckoned d b₀ ⟨t.device, t.transcript ++ [x]⟩ where
  full := ht.full
  fails := ht.fails
  pinCount := ht.pinCount
  modes := ht.modes
  pulls := ht.pulls
  latches q := by
    have hnone : [x].count (d.exchange q (.ok ())) = 0 :=
      List.count_eq_zero.mpr fun hmem => hx q (List.mem_singleton.mp hmem).symm
    rw [List.count_append, hnone]
    exact ht.latches q
  levels q hq := ht.levels q fun hmem => hq (List.mem_append_left _ hmem)

theorem Reckoned.drove (ht : Reckoned d b₀ t) {mcu : Nat} {e : Device}
    (he : Device.Drove d mcu t.device.device e) :
    Reckoned d b₀ ⟨{ t.device with device := e }, t.transcript ++ [d.exchange mcu (.ok ())]⟩ where
  full := he.full
  fails := ht.fails
  pinCount := he.pinCount.trans ht.pinCount
  modes q := (he.modes q).trans (ht.modes q)
  pulls q := (he.pulls q).trans (ht.pulls q)
  latches q := by
    have hlatch := he.latches q
    rw [ht.latches q] at hlatch
    by_cases hq : q = mcu
    · subst hq
      rw [if_pos rfl] at hlatch
      rw [List.count_append, List.count_singleton_self, Function.iterate_succ_apply']
      exact hlatch
    · have hnone : [d.exchange mcu (.ok ())].count (d.exchange q (.ok ())) = 0 := by
        refine List.count_eq_zero.mpr fun hmem => hq ?_
        exact ((d.exchange_inj).mp (List.mem_singleton.mp hmem)).1
      rw [if_neg hq] at hlatch
      rw [List.count_append, hnone]
      exact hlatch
  levels q hq := by
    have hne : q ≠ mcu := by
      rintro rfl
      exact hq (List.mem_append_right _ List.mem_cons_self)
    exact (he.levels q hne).trans (ht.levels q fun hmem => hq (List.mem_append_left _ hmem))

theorem reckoned_mode (mcu : Nat) :
    (Backend.mode mcu : Act (Transcribed (Faulty Device)) Mode).Keeps (Reckoned d b₀) := by
  intro t ht
  show Reckoned d b₀ ((call (Backend.mode mcu) (.mode mcu)).run t).2
  rw [run_call, Faulty.mode_leaves mcu t.device]
  exact ht.idle fun q => (d.exchange_ne_mode _ _ _ _).symm

theorem reckoned_drive (mcu : Nat) :
    (d.call mcu : Act (Transcribed (Faulty Device)) Unit).Keeps (Reckoned d b₀) := by
  intro t ht
  have hcall : (d.call mcu).run t = (call (d.call mcu) (d.exchange mcu)).run t := by cases d <;> rfl
  show Reckoned d b₀ ((d.call mcu).run t).2
  rw [hcall, run_call]
  rcases Faulty.drive_cases ht.full d mcu with ⟨e, hrun⟩ | ⟨e', hrun, hdrove⟩
  · rw [hrun]
    refine ht.idle fun q heq => ?_
    cases ((d.exchange_inj).mp heq).2
  · rw [hrun]
    exact ht.drove hdrove

end Transcribed

/-! ## A batch -/

namespace Gpio

variable {d : Drive} {b₀ : Faulty Device} {t : Gpio (Transcribed (Faulty Device))}

theorem reckoned_askMode (mcu : Nat) :
    (hardware (Backend.mode mcu) : Act (Gpio (Transcribed (Faulty Device))) Mode).Keeps
      fun t => t.backend.Reckoned d b₀ :=
  Act.Keeps.within (Transcribed.reckoned_mode mcu) fun _ _ => rfl

theorem reckoned_ifOutput (d : Drive) (b₀ : Faulty Device) (mcu : Nat) :
    (ifOutput mcu (hardware (d.call mcu)) : Act (Gpio (Transcribed (Faulty Device))) Unit).Keeps
      fun t => t.backend.Reckoned d b₀ := by
  refine (reckoned_askMode mcu).bind fun m => ?_
  split
  · exact Act.Keeps.within (Transcribed.reckoned_drive mcu) fun _ _ => rfl
  · exact Act.Keeps.pure ()

theorem says_drive (hfull : b₀.device.Full) (ht : t.backend.Reckoned d b₀) (mcu : Nat) :
    Says (hardware (d.call mcu)) t [d.exchange mcu ((d.call mcu).run b₀).1] := by
  have hdrive : (hardware (d.call mcu) : Act (Gpio (Transcribed (Faulty Device))) Unit) =
      hardware (Transcribed.call (d.call mcu) (d.exchange mcu)) := by cases d <;> rfl
  have hanswer : ((hardware (Transcribed.call (d.call mcu) (d.exchange mcu))).run t).1 =
      ((d.call mcu).run b₀).1 :=
    Faulty.answer_congr ht.full hfull ht.fails ht.pinCount mcu
  rw [hdrive, ← hanswer]
  exact Says.call _ (d.exchange mcu) (d.failure_exchange mcu)

/-- About one pin a batch says what it would have said at first. -/
theorem says_ifOutput (hfull : b₀.device.Full) (ht : t.backend.Reckoned d b₀) (mcu : Nat) :
    Says (ifOutput mcu (hardware (d.call mcu))) t (d.talk b₀ mcu) := by
  have hask : Says (hardware (Backend.mode mcu)) t
      [.mode mcu ((hardware (Backend.mode mcu)).run t).1] := Says.call _ (.mode mcu) fun _ => rfl
  have hkept := reckoned_askMode mcu t ht
  rcases hrun : (hardware (Backend.mode mcu)).run t with ⟨e | m, t'⟩
  · have hmode : modeOf b₀ mcu = .error e :=
      (ht.modeOf mcu).symm.trans (congrArg Prod.fst hrun)
    rw [hrun] at hask
    rw [Drive.talk_of_error hmode]
    exact hask.bind_error (e := e) rfl
  · have hmode : modeOf b₀ mcu = .ok m := (ht.modeOf mcu).symm.trans (congrArg Prod.fst hrun)
    rw [hrun] at hask hkept
    rw [Drive.talk_of_mode hmode]
    refine hask.bind rfl fun m' s hrun' => ?_
    rw [hrun] at hrun'
    cases hrun'
    by_cases hout : m = .output
    · rw [if_pos hout, if_pos hout]
      exact says_drive hfull hkept mcu
    · rw [if_neg hout, if_neg hout]
      exact Says.pure ()

theorem says_each (hfull : b₀.device.Full) (targets : List (Nat × Nat))
    (ht : t.backend.Reckoned d b₀) :
    Says (Act.each (fun u : Nat × Nat => ifOutput u.2 (hardware (d.call u.2))) targets) t
      (d.script b₀ targets) := by
  induction targets generalizing t with
  | nil => exact Says.pure ()
  | cons u targets ih =>
    have hfirst := says_ifOutput hfull ht u.2
    have hkept := reckoned_ifOutput d b₀ u.2 t ht
    rw [Drive.script]
    cases hends : ending (d.talk b₀ u.2) with
    | error e =>
      rw [if_neg nofun, List.append_nil]
      exact hfirst.bind_error hends
    | ok done =>
      rw [if_pos rfl]
      refine hfirst.bind hends fun _ t' hrun => ih ?_
      rw [hrun] at hkept
      exact hkept

theorem copied_batch {β : Type} [Backend β] (d : Drive) (pins : PinSet) :
    Act.Matches (Copied : Gpio β → _ → Prop) (d.batch pins) (d.batch pins) := by
  cases d with
  | write high => exact copied.toPaired.writeAll pins high
  | toggle => exact copied.toPaired.toggleAll pins

variable {g : Gpio (Faulty Device)}

theorem says_batch (d : Drive) (hfull : g.backend.device.Full) (pins : PinSet) :
    g.said (d.batch pins) = d.script g.backend (g.handle.targets pins.toList) ∧
      ((d.batch pins).run g).1 = ending (g.said (d.batch pins)) ∧
      ((d.batch pins).run g).2.handle = g.handle := by
  obtain ⟨hres, hcopied⟩ := copied_batch d pins g g.transcribed g.copied_transcribed
  have hstart : g.transcribed.backend.Reckoned d g.backend := Transcribed.Reckoned.start hfull
  have hrun := Drive.run_batch d pins g.transcribed
  obtain ⟨htold, hends, hhandle⟩ := says_each hfull (g.handle.targets pins.toList) hstart
  have hsaid : g.said (d.batch pins) = d.script g.backend (g.handle.targets pins.toList) := by
    rw [said, hrun]
    exact htold
  refine ⟨hsaid, ?_, ?_⟩
  · have hunit : ∀ r : Except Failure Unit, r.map (fun _ => ()) = r := by
      rintro (_ | _) <;> rfl
    rw [hres, hrun, hsaid]
    exact (hunit _).symm.trans hends
  · rw [← hcopied.handle, hrun]
    exact hhandle

/-- After a batch the pins can be reckoned from what was said in it. -/
theorem reckoned_batch (d : Drive) (hfull : g.backend.device.Full) (pins : PinSet) :
    Transcribed.Reckoned d g.backend
      ⟨((d.batch pins).run g).2.backend, g.said (d.batch pins)⟩ := by
  have hcopied := (copied_batch d pins g g.transcribed g.copied_transcribed).2
  have hkept := Act.Keeps.each (fun u : Nat × Nat => reckoned_ifOutput d g.backend u.2)
    (g.handle.targets pins.toList) g.transcribed (Transcribed.Reckoned.start hfull)
  rw [← hcopied.device, said, Drive.run_batch]
  exact hkept

/-- A pin is latched as it was driven if it was, and otherwise as before. -/
theorem latches_batch (htable : g.handle.table.Accepted) (hfull : g.backend.device.Full)
    (pins : PinSet) (q : Nat) :
    ((d.batch pins).run g).2.backend.device.latchOf q =
      if d.exchange q (.ok ()) ∈ g.said (d.batch pins) then
        (g.backend.device.latchOf q).map d.latch
      else g.backend.device.latchOf q := by
  have hlatch := (reckoned_batch d hfull pins).latches q
  have hnodup : (g.said (d.batch pins)).Nodup := by
    rw [(says_batch d hfull pins).1]
    exact Drive.nodup_script (Handle.distinct_targets htable pins.ascending_toList)
  by_cases hmem : d.exchange q (.ok ()) ∈ g.said (d.batch pins)
  · rw [if_pos hmem, hlatch, List.count_eq_one_of_mem hnodup hmem]
    rfl
  · rw [if_neg hmem, hlatch, List.count_eq_zero.mpr hmem]
    rfl

theorem levels_batch (hfull : g.backend.device.Full) (pins : PinSet) {q : Nat}
    (hmode : modeOf g.backend.device q ≠ .ok .output) :
    levelOf ((d.batch pins).run g).2.backend.device q = levelOf g.backend.device q := by
  refine (reckoned_batch d hfull pins).levels q fun hmem => hmode ?_
  rw [(says_batch d hfull pins).1] at hmem
  exact Faulty.modeOf_eq_ok (Drive.output_of_mem_script hmem)

/-- A batch done again says what it said. -/
theorem said_batch_again (hfull : g.backend.device.Full) (pins : PinSet) :
    ((d.batch pins).run g).2.said (d.batch pins) = g.said (d.batch pins) := by
  have hreckoned := reckoned_batch d hfull pins
  obtain ⟨hsaid, -, hhandle⟩ := says_batch d hfull pins
  rw [(says_batch d hreckoned.full pins).1, hsaid, hhandle]
  exact Drive.script_congr (hreckoned.talk hfull) _

/-- A batch that goes well has driven exactly the outputs among its pins. -/
theorem driven_iff (hfull : g.backend.device.Full) {pins : PinSet}
    (hok : ((d.batch pins).run g).1 = .ok ()) (q : Nat) :
    d.exchange q (.ok ()) ∈ g.said (d.batch pins) ↔
      (∃ pin, (pin, q) ∈ g.handle.targets pins.toList) ∧
        modeOf g.backend.device q = .ok .output := by
  obtain ⟨hsaid, hends, -⟩ := says_batch d hfull pins
  rw [hends, hsaid] at hok
  have hcalm := ending_eq_ok_iff.mp hok
  rw [Drive.script_of_ok hok] at hcalm
  rw [hsaid, Drive.script_of_ok hok, List.mem_flatMap]
  constructor
  · rintro ⟨t, ht, hx⟩
    obtain ⟨rfl, hout, -⟩ := Drive.mem_talk_iff.mp hx
    exact ⟨⟨t.1, ht⟩, Faulty.modeOf_eq_ok hout⟩
  · rintro ⟨⟨pin, ht⟩, hout⟩
    have hwell : ∀ x ∈ d.talk g.backend q, x.failure? = none := fun x hx =>
      hcalm x (List.mem_flatMap.mpr ⟨_, ht, hx⟩)
    exact ⟨_, ht, Faulty.mem_talk_of_calm hwell hout⟩

/-- The handle on a backend where other calls fail. -/
def failing (fails : CallKind → Nat → Option Error) (g : Gpio (Faulty Device)) :
    Gpio (Faulty Device) :=
  { g with backend := { g.backend with fails := fails } }

/-- Inverting twice brings every latch back, whatever calls would have failed. -/
theorem toggle_again (htable : g.handle.table.Accepted) (hfull : g.backend.device.Full)
    {pins : PinSet} (hok : ((Drive.toggle.batch pins).run g).1 = .ok ())
    {fails : CallKind → Nat → Option Error} {g' : Gpio (Faulty Device)}
    (hg' : g' = ((Drive.toggle.batch pins).run g).2.failing fails)
    (hagain : ((Drive.toggle.batch pins).run g').1 = .ok ()) (q : Nat) :
    ((Drive.toggle.batch pins).run g').2.backend.device.latchOf q =
      g.backend.device.latchOf q := by
  have hreckoned := reckoned_batch .toggle hfull pins
  have hdevice : g'.backend.device = ((Drive.toggle.batch pins).run g).2.backend.device := by
    rw [hg']
    rfl
  have hhandle : g'.handle = g.handle := by
    rw [hg']
    exact (says_batch .toggle hfull pins).2.2
  have hfull' : g'.backend.device.Full := hdevice ▸ hreckoned.full
  have hsame : Drive.toggle.exchange q (.ok ()) ∈ g'.said (Drive.toggle.batch pins) ↔
      Drive.toggle.exchange q (.ok ()) ∈ g.said (Drive.toggle.batch pins) := by
    rw [driven_iff hfull' hagain, driven_iff hfull hok, hhandle, hdevice, hreckoned.modes]
  rw [latches_batch (hhandle ▸ htable) hfull', hdevice, latches_batch htable hfull]
  simp only [hsame]
  split
  · cases g.backend.device.latchOf q with
    | none => rfl
    | some level => exact congrArg some (Bool.not_not level)
  · rfl

end Gpio

namespace Drive

/-- What a batch does. -/
structure Batched (d : Drive) (pins : PinSet) (g : Gpio (Faulty Device)) : Prop where
  /-- The pins of the set that the numbering has, with the chip pins behind them. -/
  targets : ∀ pin mcu, (pin, mcu) ∈ g.handle.targets pins.toList ↔
    pins.contains pin = true ∧ g.handle.mcu? pin = some mcu
  ascending : (g.handle.targets pins.toList).Pairwise fun t u => t.1 < u.1
  distinct : ((g.handle.targets pins.toList).map Prod.snd).Nodup
  /-- Each is asked for its mode and driven if it is an output, up to the first failure. -/
  said : ∃ before rest, g.handle.targets pins.toList = before ++ rest ∧
    g.said (d.batch pins) = (before ++ rest.take 1).flatMap (fun t => d.talk g.backend t.2) ∧
    (∀ t ∈ before, ∀ x ∈ d.talk g.backend t.2, x.failure? = none) ∧
    (rest = [] ∧ ((d.batch pins).run g).1 = .ok () ∨
      ∃ t x e, rest.head? = some t ∧ x ∈ d.talk g.backend t.2 ∧ x.failure? = some e ∧
        ((d.batch pins).run g).1 = .error e)
  handle : ((d.batch pins).run g).2.handle = g.handle
  modes : ∀ q, modeOf ((d.batch pins).run g).2.backend.device q = modeOf g.backend.device q
  pulls : ∀ q, pullOf ((d.batch pins).run g).2.backend.device q = pullOf g.backend.device q
  latches : ∀ q, ((d.batch pins).run g).2.backend.device.latchOf q =
    if d.exchange q (.ok ()) ∈ g.said (d.batch pins) then (g.backend.device.latchOf q).map d.latch
    else g.backend.device.latchOf q
  levels : ∀ q, modeOf g.backend.device q ≠ .ok .output →
    levelOf ((d.batch pins).run g).2.backend.device q = levelOf g.backend.device q
  /-- What was done without a failure can be done again. -/
  again : ((d.batch pins).run g).1 = .ok () →
    ((d.batch pins).run ((d.batch pins).run g).2).1 = .ok ()
  /-- What was inverted without a failure is inverted back, whatever might fail by then. -/
  back : d = .toggle → ((d.batch pins).run g).1 = .ok () → ∀ fails,
    ((d.batch pins).run (((d.batch pins).run g).2.failing fails)).1 = .ok () → ∀ q,
      ((d.batch pins).run (((d.batch pins).run g).2.failing fails)).2.backend.device.latchOf q =
        g.backend.device.latchOf q

/-- A batch drives the outputs among its pins, in ascending order and up to the first failure, and
changes nothing else. -/
theorem batched (d : Drive) (pins : PinSet) {g : Gpio (Faulty Device)}
    (htable : g.handle.table.Accepted) (hfull : g.backend.device.Full) : Batched d pins g := by
  have hreckoned := Gpio.reckoned_batch d hfull pins
  obtain ⟨hsaid, hends, hhandle⟩ := Gpio.says_batch d hfull pins
  refine
    { targets := fun pin mcu => by rw [Handle.mem_targets, PinSet.mem_toList]
      ascending := Handle.ascending_targets pins.ascending_toList
      distinct := Handle.distinct_targets htable pins.ascending_toList
      said := ?_
      handle := hhandle
      modes := hreckoned.modes
      pulls := hreckoned.pulls
      latches := Gpio.latches_batch htable hfull pins
      levels := fun q hmode => Gpio.levels_batch hfull pins hmode
      again := ?_
      back := ?_ }
  · rw [hends, hsaid]
    exact script_outcome d g.backend _
  · intro hok
    rw [(Gpio.says_batch d hreckoned.full pins).2.1, Gpio.said_batch_again hfull, ← hends, hok]
  · rintro rfl hok fails hagain
    exact Gpio.toggle_again htable hfull hok rfl hagain

/-- Four simulated pins behind five logical ones, of which the second is a gap. All but chip pin 2
are outputs, and chip pin 1 cannot be inverted. -/
def stuck : Gpio (Faulty Device) where
  handle := Handle.create ⟨"five", [some 3, none, some 0, some 2, some 1], []⟩ {} 4
  backend :=
    { device := .sim { pins := #[{ mode := .output }, { mode := .output }, {}, { mode := .output }] }
      fails := fun kind pin =>
        if kind = .toggle ∧ pin = 1 then some (.config (.injected kind.word pin)) else none }

/-- Of the pins from 0 to 4 and pin 9, the gap, the input and pin 9 are passed over. The last output
fails, when the others have been inverted. -/
theorem batched_stuck :
    stuck.handle.table.Accepted ∧ stuck.backend.device.Full ∧ Batched .toggle ⟨0x21f⟩ stuck ∧
      (stuck.said (toggle.batch ⟨0x21f⟩)).filterMap change? =
        [.toggle 3, .toggle 0, .toggle 1] ∧
      ((toggle.batch ⟨0x21f⟩).run stuck).1 =
        .error (.error (.config (.injected "toggle" 1))) ∧
      (((toggle.batch ⟨0x21f⟩).run stuck).2.backend.device.latchOf 3,
        ((toggle.batch ⟨0x21f⟩).run stuck).2.backend.device.latchOf 1) = (some true, some false) := by
  have haccepted : stuck.handle.table.Accepted := PinTable.problem?_eq_none_iff.mp (by decide)
  exact ⟨haccepted, trivial, batched .toggle ⟨0x21f⟩ haccepted trivial, by decide +kernel,
    by decide +kernel, by decide +kernel⟩

end Drive

end BoardGpio
