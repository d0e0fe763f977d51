import BoardGpio.Proofs.Backend.SimH3
import BoardGpio.Proofs.Handle.Alike
import BoardGpio.Proofs.Handle.Tenants

/-!
# Programs cannot tell simulated pins from H3 registers

A program that keeps to modes that every pin has, and reads pins only while they are outputs, gets
the same answers from a handle on simulated pins and from one on registers of zeros, and leaves the
pins alike at every point, up to and after the last close (`Tenants.same_answers`). Output ports do
not look at the mode of a pin they read, so a program that makes a pin of such a port an input can
tell the two apart (`Tenants.answers_differ`).
-/

set_option autoImplicit false

namespace BoardGpio

open Backend Bench

namespace Tenants

variable {β γ κ α : Type} {h : Nat}

/-- Whether the chip pin is an output. -/
def isOutput [Backend β] (h : Nat) (t : Tenants β κ) (mcu : Nat) : Bool :=
  (t.hub.site? h).any fun g => decide ((modeOf g.backend mcu).toOption = some .output)

/-- Whether every deed passes the test when its turn comes. -/
def always [Backend β] (h : Nat) (ok : Tenants β κ → Deed κ → Bool) :
    List (Deed κ) → Tenants β κ → Bool
  | [], _ => true
  | d :: deeds, t => ok t d && always h ok deeds ((d.perform h).run t).2

end Tenants

section Tests

variable {β κ : Type} [Backend β]

/-- Deeds with a handle and its output ports that set common modes only. The handle reads no levels
but those of outputs; ports are read at any time. -/
def Deed.common (h : Nat) (t : Tenants β κ) : Deed κ → Bool
  | pin (.setMode _ m) => decide m.Common
  | pin (.read n) => (t.hub.site? h).all fun g => (g.handle.mcu? n).all (t.isOutput h)
  | pin _ => true
  | handle (.readAll _) => false
  | handle .backendName => false
  | handle _ => true
  | clone => true
  | openOutput _ => true
  | output _ _ => true
  | readOutput _ _ => true
  | readOutputs _ => true
  | partClone _ => true
  | partOutput _ _ => true
  | _ => false

/-- A port is read only while the pins that it reads are outputs. -/
def Deed.readsOutputs (h : Nat) (t : Tenants β κ) : Deed κ → Bool
  | readOutput i index =>
    t.outputs[i]?.join.all fun p => p.outputs[index]?.all fun o => t.isOutput h o.mcu
  | readOutputs i => t.outputs[i]?.join.all fun p => p.outputs.all fun o => t.isOutput h o.mcu
  | _ => true

end Tests

namespace Tenants

variable {β γ κ α : Type} {h : Nat} {Q : β → γ → Prop}

/-- The same tenants of handles that stand alike. -/
structure Alike (Q : β → γ → Prop) (h : Nat) (t : Tenants β κ) (t' : Tenants γ κ) : Prop where
  hub : Hub.Alike Q Mode.Common h t.hub t'.hub
  clones : t.clones = t'.clones
  inputs : t.inputs = t'.inputs
  outputs : t.outputs = t'.outputs

variable {t : Tenants β κ} {t' : Tenants γ κ}

theorem Alike.values (ht : Alike Q h t t') : t.values = t'.values := by
  unfold Tenants.values
  rw [ht.clones, ht.inputs, ht.outputs]

theorem Alike.onHub (ht : Alike Q h t t') {x : Act (Hub β) α} {y : Act (Hub γ) α}
    (hx : Act.MatchesAt (Hub.Alike Q Mode.Common h) x y t.hub t'.hub) :
    Act.MatchesAt (Alike Q h) (Tenants.onHub x) (Tenants.onHub y) t t' :=
  ⟨hx.1, hx.2, ht.clones, ht.inputs, ht.outputs⟩

theorem Alike.provided (ht : Alike Q h t t') {can : Tenants β κ → Bool} {can' : Tenants γ κ → Bool}
    (hcan : can t = can' t') {x : Act (Tenants β κ) α} {y : Act (Tenants γ κ) α}
    (hx : Act.MatchesAt (Alike Q h) x y t t') :
    Act.MatchesAt (Alike Q h) (Tenants.provided h can x) (Tenants.provided h can' y) t t' :=
  matchesAt_provided ht hcan hx

theorem Alike.onOutput (ht : Alike Q h t t') {i : Nat} {x : OutputPort → Act (Tenants β κ) α}
    {y : OutputPort → Act (Tenants γ κ) α}
    (hx : ∀ p, t.outputs[i]?.join = some p → Act.MatchesAt (Alike Q h) (x p) (y p) t t') :
    Act.MatchesAt (Alike Q h) (Tenants.onOutput h i x) (Tenants.onOutput h i y) t t' := by
  unfold Act.MatchesAt
  rw [run_onOutput, run_onOutput, ← ht.outputs]
  split
  case h_1 p hp => exact hx p (by rw [hp]; rfl)
  case h_2 => exact ⟨rfl, ht⟩

theorem Alike.quiet {x : Act (Tenants β κ) Unit} {y : Act (Tenants γ κ) Unit}
    (hx : Act.MatchesAt (Alike Q h) x y t t') :
    Act.MatchesAt (Alike Q h) (Bench.quiet x) (Bench.quiet y) t t' :=
  hx.bind fun _ _ _ _ _ hrel => ⟨rfl, hrel⟩

/-- What handles do alike is done alike. -/
theorem Alike.use (ht : Alike Q h t t') {x : Act (Gpio (Line β)) α} {y : Act (Gpio (Line γ)) α}
    (hx : Act.Matches (Gpio.Alike (Line.Alike Q) Mode.Common) x y) :
    Act.MatchesAt (Alike Q h) (Tenants.onHub (Hub.onHandle h x))
      (Tenants.onHub (Hub.onHandle h y)) t t' :=
  ht.onHub (ht.hub.onHandle fun g g' _ hrel => hx g g' hrel)

variable [Backend β] [Backend γ]

omit [Backend γ] in
theorem isOutput_iff {g : Gpio (Line β)} (hg : t.hub.site? h = some g) (mcu : Nat) :
    t.isOutput h mcu = true ↔ modeOf g.backend mcu = .ok .output := by
  unfold isOutput
  rw [hg, Option.any_some, decide_eq_true_eq]
  cases modeOf g.backend mcu <;> simp [Except.toOption]

/-- Every deed that passes the tests is answered alike. -/
theorem Alike.step (hQ : Matching Q Mode.Common) (ht : Alike Q h t t') {d : Deed κ}
    (hcommon : d.common h t = true) (houtputs : d.readsOutputs h t = true) :
    Act.MatchesAt (Alike Q h) (d.perform h) (d.perform h) t t' := by
  have hpaired := Gpio.paired (Line.matching hQ) (by decide) (by decide)
  have hvalues : decide (0 < t.values) = decide (0 < t'.values) := by rw [ht.values]
  cases d with
  | pin call =>
    refine ht.provided hvalues ?_
    -- reads are compared where the pin is an output, all other calls anywhere
    by_cases hread : ∃ pin, call = .read pin
    · obtain ⟨pin, rfl⟩ := hread
      refine ht.onHub (ht.hub.onHandle fun g g' hg hrel => ?_)
      have hmode : ∀ mcu, g.handle.mcu? pin = some mcu → modeOf g.backend mcu = .ok .output := by
        intro mcu hmcu
        simp only [Deed.common, hg, hmcu, Option.all_some] at hcommon
        exact (isOutput_iff hg mcu).mp hcommon
      exact (hrel.read (Line.matching hQ) hmode).map Answer.flag
    · refine ht.use (hpaired.pinCall (fun pin m hm => ?_) fun pin hpin => hread ⟨pin, hpin⟩)
      subst hm
      exact of_decide_eq_true hcommon
  | handle call =>
    refine ht.provided hvalues (ht.use (hpaired.handleCall (fun pins hcall => ?_) fun hcall => ?_))
    · subst hcall
      cases hcommon
    · subst hcall
      cases hcommon
  | clone =>
    refine ht.provided hvalues (Alike.quiet ?_)
    refine (ht.onHub (ht.hub.countRefs (· + 1))).bind fun _ u u' _ _ hu =>
      ⟨rfl, hu.hub, ?_, hu.inputs, hu.outputs⟩
    show u.clones + 1 = u'.clones + 1
    rw [hu.clones]
  | openOutput pins =>
    refine ht.provided hvalues (Alike.quiet ?_)
    refine (ht.onHub (Hub.alike_openOutput hQ (by decide) (by decide) pins _ _ ht.hub)).bind
      fun port u u' _ _ hu => ⟨rfl, hu.hub, hu.clones, hu.inputs, ?_⟩
    show u.outputs ++ [some port] = u'.outputs ++ [some port]
    rw [hu.outputs]
  | output i call => exact ht.onOutput fun p _ => ht.use (hpaired.outputCall p call)
  | readOutput i index =>
    refine ht.onOutput fun p hp => ht.onHub (ht.hub.onHandle fun g g' hg hrel => ?_)
    have hmode : ∀ o, p.outputs[index]? = some o → modeOf g.backend o.mcu = .ok .output := by
      intro o ho
      simp only [Deed.readsOutputs, hp, ho, Option.all_some] at houtputs
      exact (isOutput_iff hg o.mcu).mp houtputs
    exact (hrel.readOutput (Line.matching hQ) hmode).map Answer.flag
  | readOutputs i =>
    refine ht.onOutput fun p hp => ht.onHub (ht.hub.onHandle fun g g' hg hrel => ?_)
    have hmode : ∀ o ∈ p.outputs, modeOf g.backend o.mcu = .ok .output := by
      intro o ho
      simp only [Deed.readsOutputs, hp, Option.all_some, List.all_eq_true] at houtputs
      exact (isOutput_iff hg o.mcu).mp (houtputs o ho)
    exact (hrel.readIndices (Line.matching hQ) hmode _ _).map Answer.pins
  | partClone how =>
    have hclones : decide (0 < t.clones) = decide (0 < t'.clones) := by rw [ht.clones]
    refine ht.provided hclones (Alike.quiet ?_)
    have hless : Alike Q h { t with clones := t.clones - 1 } { t' with clones := t'.clones - 1 } :=
      ⟨ht.hub, congrArg (· - 1) ht.clones, ht.inputs, ht.outputs⟩
    exact hless.onHub (Hub.alike_letGo hQ (by decide) (by decide) how _ _ ht.hub)
  | partOutput i how =>
    refine ht.onOutput fun p _ => Alike.quiet ?_
    have hless : Alike Q h { t with outputs := t.outputs.modify i fun _ => none }
        { t' with outputs := t'.outputs.modify i fun _ => none } :=
      ⟨ht.hub, ht.clones, ht.inputs, congrArg (List.modify · i _) ht.outputs⟩
    exact hless.onHub (Hub.alike_letGo hQ (by decide) (by decide) how _ _ ht.hub)
  | join plan => cases hcommon
  | openInput pins settings now => cases hcommon
  | sample i mcu => cases hcommon
  | callback i own call => cases hcommon
  | partInput i own how => cases hcommon
  | monitorEnds i => cases hcommon

/-- The tests that a deed has to pass. -/
def allowed (h : Nat) (t : Tenants β κ) (d : Deed κ) : Bool := d.common h t && d.readsOutputs h t

theorem Alike.run (hQ : Matching Q Mode.Common) (ht : Alike Q h t t') {deeds : List (Deed κ)}
    (hdeeds : always h (allowed h) deeds t = true) :
    (Tenants.run h deeds t).1 = (Tenants.run h deeds t').1 ∧
      Alike Q h (Tenants.run h deeds t).2 (Tenants.run h deeds t').2 := by
  induction deeds generalizing t t' with
  | nil => exact ⟨rfl, ht⟩
  | cons d deeds ih =>
    simp only [always, allowed, Bool.and_eq_true] at hdeeds
    obtain ⟨hreply, hafter⟩ := ht.step hQ hdeeds.1.1 hdeeds.1.2
    obtain ⟨hreplies, hend⟩ := ih hafter hdeeds.2
    refine ⟨?_, hend⟩
    show ((d.perform h).run t).1 :: (Tenants.run h deeds ((d.perform h).run t).2).1 = _
    rw [hreply, hreplies]
    rfl

omit [Backend γ] in
theorem always_take {ok : Tenants β κ → Deed κ → Bool} {deeds : List (Deed κ)}
    (hdeeds : always h ok deeds t = true) (k : Nat) : always h ok (deeds.take k) t = true := by
  induction deeds generalizing t k with
  | nil => rw [List.take_nil]; rfl
  | cons d deeds ih =>
    cases k with
    | zero => rfl
    | succ k =>
      simp only [always, Bool.and_eq_true] at hdeeds
      simp only [List.take_succ_cons, always, Bool.and_eq_true]
      exact ⟨hdeeds.1, ih hdeeds.2 k⟩

end Tenants

/-! ## Simulated pins and H3 registers -/

/-- The handle is the same on both hubs, and the pins that it drives show the same, after the same
changing calls. -/
def Hub.Agree (h : Nat) (s : Hub Sim) (s' : Hub H3) : Prop :=
  ∃ g g', s.site? h = some g ∧ s'.site? h = some g' ∧ g.handle = g'.handle ∧
    g.backend.rig.device.Agrees g'.backend.rig.device ∧
      g.backend.rig.journal = g'.backend.rig.journal

namespace Tenants

variable {κ : Type}

theorem Alike.agree {h : Nat} {t : Tenants Sim κ} {t' : Tenants H3 κ}
    (ht : Alike Sim.Mirrors h t t') : Hub.Agree h t.hub t'.hub := by
  obtain ⟨g, g', hg, hg', hrel⟩ := ht.hub.sites
  have hrig := hrel.backend.rig
  exact ⟨g, g', hg, hg', hrel.handle, hrig.device.agrees, hrig.journal⟩

theorem fits_of_used {table : PinTable} {n : Nat}
    (hpins : ∀ mcu ∈ PinTable.used table.logical, mcu < n) :
    ∀ max, table.maxMcu? = some max → max < n := by
  intro max hmax
  exact hpins max (List.max?_mem hmax)

/-- Whatever a program does, if every deed is allowed when its turn comes, it is answered the same
on simulated pins and on H3 registers, and at every point both agree on every pin. -/
theorem same_answers {table : PinTable} (hpins : ∀ mcu ∈ PinTable.used table.logical, mcu < 106)
    (settings : HandleSettings) (direct : Bool) :
    ∃ s s', (Hub.build ⟨some 0, direct, some table, settings⟩).run
        (Hub.around (Sim.fresh 106)) = (.ok 0, s) ∧
      (Hub.build ⟨some 0, direct, some table, settings⟩).run (Hub.around H3.zeros) = (.ok 0, s') ∧
        ∀ deeds : List (Deed κ), always 0 (allowed 0) deeds { hub := s } = true →
          (run 0 deeds { hub := s }).1 = (run 0 deeds { hub := s' }).1 ∧
            ∀ k, Hub.Agree 0 (run 0 (deeds.take k) { hub := s }).2.hub
              (run 0 (deeds.take k) { hub := s' }).2.hub := by
  have hfit : ∀ max, table.maxMcu? = some max → max < Backend.pinCount (Sim.fresh 106) :=
    fits_of_used hpins
  obtain ⟨s, s', hs, hs', hhub⟩ :=
    Hub.alike_build Sim.fresh_mirrors rfl hfit settings direct
  refine ⟨s, s', hs, hs', fun deeds hdeeds => ?_⟩
  have hstart : Alike Sim.Mirrors 0 ({ hub := s } : Tenants Sim κ) { hub := s' } :=
    ⟨hhub, rfl, rfl, rfl⟩
  refine ⟨(hstart.run Sim.matching hdeeds).1, fun k => ?_⟩
  exact (hstart.run Sim.matching (always_take hdeeds k)).2.agree

/-! ## A port whose pin becomes an input -/

def lonePin : PinTable := ⟨"lone", [some 0], []⟩

def loneSim : Hub Sim :=
  ((Hub.build ⟨some 0, false, some lonePin, {}⟩).run (Hub.around (Sim.fresh 106))).2

def loneH3 : Hub H3 :=
  ((Hub.build ⟨some 0, false, some lonePin, {}⟩).run (Hub.around H3.zeros)).2

/-- The pin of an output port is driven high and made an input, and then the port is read. -/
def turned : List (Deed Unit) :=
  [.openOutput [{ pin := 0 }], .output 0 (.set 0), .pin (.setMode 0 .input), .readOutput 0 0]

/-- No deed of the program reads a level but the port, which reads an input. The simulated pin
follows its pull there, and the register keeps its bit. -/
theorem answers_differ :
    PinTable.logicalOnly "lone" [some 0] = .ok lonePin ∧
      always 0 (Deed.common 0) turned { hub := loneSim } = true ∧
        (run 0 turned { hub := loneSim }).1[3]?.map Except.toOption = some (some (.flag false)) ∧
          (run 0 turned { hub := loneH3 }).1[3]?.map Except.toOption = some (some (.flag true)) :=
  ⟨rfl, by decide +kernel, by decide +kernel, by decide +kernel⟩

/-- Driven, read, inverted, read again and closed. -/
def blinked : List (Deed Unit) :=
  [.openOutput [{ pin := 0 }], .output 0 (.set 0), .readOutput 0 0, .pin (.toggle 0),
    .pin (.read 0), .partOutput 0 .dropped, .partClone .closed]

/-- Both tell that the pin was high and then low, and the last close makes it an input again. -/
theorem same_answers_blinked :
    (∀ mcu ∈ PinTable.used lonePin.logical, mcu < 106) ∧
      always 0 (allowed 0) blinked { hub := loneSim } = true ∧
        (run 0 blinked { hub := loneSim }).1 = (run 0 blinked { hub := loneH3 }).1 ∧
          Hub.Agree 0 (run 0 blinked { hub := loneSim }).2.hub
            (run 0 blinked { hub := loneH3 }).2.hub ∧
          (run 0 blinked { hub := loneH3 }).1.map Except.toOption =
            [some .done, some .done, some (.flag true), some .done, some (.flag false),
              some .done, some .done] ∧
          ((run 0 blinked { hub := loneH3 }).2.hub.site? 0).map
            (fun g => (modeOf g.backend 0).toOption) = some (some .input) := by
  have hpins : ∀ mcu ∈ PinTable.used lonePin.logical, mcu < 106 := by decide
  have hallowed : always 0 (allowed 0) blinked { hub := loneSim } = true := by decide +kernel
  obtain ⟨s, s', hs, hs', hall⟩ := same_answers (κ := Unit) hpins {} false
  obtain rfl : loneSim = s := congrArg Prod.snd hs
  obtain rfl : loneH3 = s' := congrArg Prod.snd hs'
  obtain ⟨hanswers, hagree⟩ := hall blinked hallowed
  have hagree := hagree blinked.length
  rw [List.take_length] at hagree
  exact ⟨hpins, hallowed, hanswers, hagree, by decide +kernel, by decide +kernel⟩

end Tenants

end BoardGpio
