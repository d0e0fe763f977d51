import BoardGpio.Proofs.Handle.Addressed
import BoardGpio.Proofs.Handle.ChipNumbers
import BoardGpio.Proofs.Handle.Tenants

/-!
# Programs in several numberings

A program that changes the numbering on its way has a program of the chip: the same deeds, with the
chip pin in place of every number and without the changes (`Tenants.chipProgram`). Step by step the
two are answered alike and leave equal backends (`Tenants.OnChip.step`), so programs in different
numberings with one program of the chip cannot be told apart by their answers or by the calls made
of the backend, putting pins back included (`Tenants.numbering_independent`).
-/

set_option autoImplicit false

namespace BoardGpio

open Bench

/-! ## The program of the chip -/

/-- The pin with the chip pin behind its number. -/
def OutputPin.onChip? (c : Handle) (p : OutputPin) : Option OutputPin :=
  (c.table.toMcu? p.pin c.numbering).map fun mcu => { p with pin := mcu }

/-- The pin with the chip pin behind its number. -/
def InputPin.onChip? (c : Handle) (p : InputPin) : Option InputPin :=
  (c.table.toMcu? p.pin c.numbering).map fun mcu => { p with pin := mcu }

def Deed.renumbers {κ : Type} : Deed κ → Bool
  | handle (.setNumbering _) => true
  | _ => false

/-- The deed with chip pins in place of the numbers, if all of these stand for pins. Of the calls on
the handle that are not about pins, only the one that decides about putting back is admitted. -/
def Deed.onChip? {κ : Type} (c : Handle) : Deed κ → Option (Deed κ)
  | pin call => (c.table.toMcu? call.pin c.numbering).map fun mcu => pin (call.withPin mcu)
  | handle (.setReleaseOnClose enabled) => some (handle (.setReleaseOnClose enabled))
  | handle _ => none
  | join _ => none
  | openInput pins settings now =>
    (pins.mapM (InputPin.onChip? c)).map fun pins => openInput pins settings now
  | openOutput pins => (pins.mapM (OutputPin.onChip? c)).map openOutput
  | d => some d

namespace Tenants

variable {β κ : Type}

def handle? (h : Nat) (t : Tenants β κ) : Option Handle := (t.hub.site? h).map Gpio.handle

/-- The program with chip pins in place of the numbers, each in the numbering that is active when its
turn comes, and without the changes of numbering. -/
def chipProgram [Backend β] (h : Nat) : List (Deed κ) → Tenants β κ → Option (List (Deed κ))
  | [], _ => some []
  | d :: deeds, t =>
    (chipProgram h deeds ((d.perform h).run t).2).bind fun rest =>
      if d.renumbers then some rest
      else (t.handle? h).bind fun c => (d.onChip? c).map (· :: rest)

/-- What a program was told, apart from the answers to its changes of numbering. -/
def told (deeds : List (Deed κ)) (replies : List Reply) : List Reply :=
  ((deeds.zip replies).filter fun r => !r.1.renumbers).map Prod.snd

end Tenants

/-! ## The two side by side -/

theorem forall₂_of_mapM {α β : Type} {f : α → Option β} {as : List α} {bs : List β}
    (h : as.mapM f = some bs) : List.Forall₂ (fun a b => f a = some b) as bs := by
  induction as generalizing bs with
  | nil =>
    cases h
    exact .nil
  | cons a as ih =>
    rw [List.mapM_cons, Option.bind_eq_bind, Option.bind_eq_some_iff] at h
    obtain ⟨b, hb, h⟩ := h
    obtain ⟨rest, hrest, h⟩ := Option.bind_eq_some_iff.mp h
    cases h
    exact .cons hb (ih hrest)

theorem renumbered_outputs {c : Handle} {pins pins' : List OutputPin}
    (h : pins.mapM (OutputPin.onChip? c) = some pins') :
    List.Forall₂ (OutputPin.Renumbered c.table c.numbering) pins pins' := by
  refine (forall₂_of_mapM h).imp fun p q hpq => ?_
  obtain ⟨mcu, hmcu, rfl⟩ := Option.map_eq_some_iff.mp hpq
  exact ⟨mcu, hmcu, rfl⟩

theorem renumbered_inputs {c : Handle} {pins pins' : List InputPin}
    (h : pins.mapM (InputPin.onChip? c) = some pins') :
    List.Forall₂ (InputPin.Renumbered c.table c.numbering) pins pins' := by
  refine (forall₂_of_mapM h).imp fun p q hpq => ?_
  obtain ⟨mcu, hmcu, rfl⟩ := Option.map_eq_some_iff.mp hpq
  exact ⟨mcu, hmcu, rfl⟩

theorem map_modify_congr {α γ : Type} {u : α → γ} {as bs : List α} {f g : α → α} {i : Nat}
    (h : as.map u = bs.map u) (hfg : ∀ a b, u a = u b → u (f a) = u (g b)) :
    (as.modify i f).map u = (bs.modify i g).map u := by
  apply List.ext_getElem?
  intro j
  have hj : as[j]?.map u = bs[j]?.map u := by
    rw [← List.getElem?_map, ← List.getElem?_map, h]
  rw [List.getElem?_map, List.getElem?_map, List.getElem?_modify, List.getElem?_modify]
  by_cases hij : i = j
  · simp only [if_pos hij, Functor.map, Option.map_map]
    cases ha : as[j]? with
    | none =>
      cases hb : bs[j]? with
      | none => rfl
      | some b =>
        rw [ha, hb] at hj
        cases hj
    | some a =>
      cases hb : bs[j]? with
      | none =>
        rw [ha, hb] at hj
        cases hj
      | some b =>
        rw [ha, hb] at hj
        exact congrArg some (hfg a b (Option.some.inj hj))
  · simpa only [if_neg hij, id_map'] using hj

/-- The hold of a port without the numbers that the port was opened with. -/
def InputHold.unnumbered {κ : Type} (p : InputHold κ) : InputHold κ :=
  { p with port := p.port.unnumbered }

theorem Hub.lasting_onChip {β : Type} {t : PinTable} {n : Numbering} :
    Hub.Lasting (Gpio.OnChip (β := Line β) t n) := by
  intro g c k k' hrel hafter
  refine ⟨hafter.handle, ?_⟩
  show Line.mk k.backend.rig g.backend.direct = Line.mk k'.backend.rig c.backend.direct
  rw [hafter.backend, hrel.backend]

namespace Tenants

variable {β κ α : Type}

/-- The same tenants, apart from the numbers of their pins, of a handle in the numbering `n` and of
one in the numbering of the chip. -/
structure OnChip (t : PinTable) (n : Numbering) (h : Nat) (a c : Tenants β κ) : Prop where
  hub : Hub.Sited (Gpio.OnChip t n) h a.hub c.hub
  clones : a.clones = c.clones
  inputs : a.inputs.map InputHold.unnumbered = c.inputs.map InputHold.unnumbered
  outputs : a.outputs.map (Option.map OutputPort.unnumbered) =
    c.outputs.map (Option.map OutputPort.unnumbered)

variable {t : PinTable} {n : Numbering} {h i : Nat} {a c : Tenants β κ}

namespace OnChip

variable (hac : OnChip t n h a c)
include hac

theorem values : a.values = c.values := by
  have houtputs : a.outputs.countP Option.isSome = c.outputs.countP Option.isSome := by
    have hcount : ∀ ps : List (Option OutputPort), ps.countP Option.isSome =
        (ps.map (Option.map OutputPort.unnumbered)).countP Option.isSome := by
      intro ps
      rw [List.countP_map]
      congr 1
      funext p
      exact (Option.isSome_map ..).symm
    rw [hcount, hcount c.outputs, hac.outputs]
  have hinputs : a.inputs.countP InputHold.owned = c.inputs.countP InputHold.owned := by
    have hcount : ∀ ps : List (InputHold κ), ps.countP InputHold.owned =
        (ps.map InputHold.unnumbered).countP InputHold.owned := by
      intro ps
      rw [List.countP_map]
      rfl
    rw [hcount, hcount c.inputs, hac.inputs]
  rw [Tenants.values, Tenants.values, hac.clones, houtputs, hinputs]

/-- What does not look at numbers can be asked of the same input on both sides. -/
theorem any_input {f : InputHold κ → Bool} (hf : ∀ p, f p.unnumbered = f p) :
    a.inputs[i]?.any f = c.inputs[i]?.any f := by
  have hany : ∀ ps : List (InputHold κ), ps[i]?.any f = (ps.map InputHold.unnumbered)[i]?.any f := by
    intro ps
    rw [List.getElem?_map]
    cases ps[i]? with
    | none => rfl
    | some p => exact (hf p).symm
  rw [hany, hany c.inputs, hac.inputs]

/-- The handle is the table's, in its numbering. -/
theorem handle? : ∃ g : Handle, a.handle? h = some g ∧ g.table = t ∧ g.numbering = n := by
  obtain ⟨g, _, hg, _, hrel⟩ := hac.hub.sites
  refine ⟨g.handle, ?_, hrel.handle.table, hrel.handle.numbering⟩
  rw [Tenants.handle?, hg]
  rfl

end OnChip

section Parts

theorem map_onHub {δ : Type} (f : α → δ) (x : Act (Hub β) α) :
    f <$> (onHub x : Act (Tenants β κ) α) = onHub (f <$> x) := by
  funext a
  show (f <$> onHub x).run a = (onHub (f <$> x)).run a
  rw [Act.run_map, run_onHub, run_onHub, Act.run_map]

theorem onChip_onHub {x y : Act (Hub β) α} (hxy : Act.Matches (Hub.Sited (Gpio.OnChip t n) h) x y) :
    Act.Matches (OnChip (κ := κ) t n h) (onHub x) (onHub y) :=
  hxy.within (fun _ _ hac => hac.hub) fun _ _ _ _ hac hhub =>
    ⟨hhub, hac.clones, hac.inputs, hac.outputs⟩

/-- What is done alike at the site of the handle. -/
theorem onChip_use {x y : Act (Gpio (Line β)) α} (hxy : Act.Matches (Gpio.OnChip t n) x y) :
    Act.Matches (OnChip (κ := κ) t n h) (onHub (Hub.onHandle h x)) (onHub (Hub.onHandle h y)) :=
  onChip_onHub (Hub.sited_onHandle Hub.lasting_onChip hxy)

theorem onChip_provided {can : Tenants β κ → Bool} (hcan : ∀ a c, OnChip t n h a c → can a = can c)
    {x y : Act (Tenants β κ) α} (hxy : Act.Matches (OnChip t n h) x y) :
    Act.Matches (OnChip t n h) (provided h can x) (provided h can y) :=
  fun a c hac => matchesAt_provided hac (hcan a c hac) (hxy a c hac)

/-- What does not look at the numbers of an output port. -/
theorem onChip_onOutput {x : OutputPort → Act (Tenants β κ) α}
    (hnumbers : ∀ p, x p.unnumbered = x p) (hx : ∀ p, Act.Matches (OnChip t n h) (x p) (x p)) :
    Act.Matches (OnChip t n h) (onOutput h i x) (onOutput h i x) := by
  intro a c hac
  have hports : a.outputs[i]?.map (Option.map OutputPort.unnumbered) =
      c.outputs[i]?.map (Option.map OutputPort.unnumbered) := by
    rw [← List.getElem?_map, ← List.getElem?_map, hac.outputs]
  unfold Act.MatchesAt
  rw [run_onOutput, run_onOutput]
  rcases hp : a.outputs[i]? with _ | _ | p <;> rcases hq : c.outputs[i]? with _ | _ | q <;>
    rw [hp, hq] at hports
  case some.some.some.some =>
    have hpq : p.unnumbered = q.unnumbered := by simpa using hports
    have hsame : x p = x q := by rw [← hnumbers, hpq, hnumbers]
    simp only [hsame]
    exact hx q a c hac
  case some.none.some.some => simp at hports
  case some.some.some.none => simp at hports
  all_goals first | exact ⟨rfl, hac⟩ | simp at hports

/-- What does not look at the numbers of an input port. -/
theorem onChip_onInput {own : Bool} {x : Act (InputPort κ) Unit}
    (hx : ∀ p, x.run p.unnumbered = ((x.run p).1, (x.run p).2.unnumbered)) :
    Act.Matches (OnChip (β := β) t n h) (onInput h i own x) (onInput h i own x) := by
  intro a c hac
  have hports : a.inputs[i]?.map InputHold.unnumbered = c.inputs[i]?.map InputHold.unnumbered := by
    rw [← List.getElem?_map, ← List.getElem?_map, hac.inputs]
  unfold Act.MatchesAt
  rw [run_onInput, run_onInput]
  cases hp : a.inputs[i]? with
  | none =>
    cases hq : c.inputs[i]? with
    | none => exact ⟨rfl, hac⟩
    | some q =>
      rw [hp, hq] at hports
      cases hports
  | some p =>
    cases hq : c.inputs[i]? with
    | none =>
      rw [hp, hq] at hports
      cases hports
    | some q =>
      rw [hp, hq] at hports
      have hpq : p.unnumbered = q.unnumbered := Option.some.inj hports
      obtain ⟨hport, howned, -⟩ := InputHold.mk.inj hpq
      have hmonitor : p.port.monitoring = q.port.monitoring := (InputPort.mk.inj hport).2.2.2.2.2.1
      have hrun := hx p.port
      rw [hport, hx q.port, Prod.mk.injEq] at hrun
      simp only [howned, hmonitor]
      split
      · refine ⟨hrun.1.symm, hac.hub, hac.clones, ?_, hac.outputs⟩
        refine map_modify_congr hac.inputs fun v w hvw => ?_
        show v.unnumbered.after own (x.run p.port).2.unnumbered =
          w.unnumbered.after own (x.run q.port).2.unnumbered
        rw [hvw, hrun.2]
      · exact ⟨rfl, hac⟩

end Parts

variable [Backend β]

theorem onChip_letGo (how : Farewell) :
    Act.Matches (OnChip (κ := κ) t n h) (onHub (β := β) (Hub.letGo h how))
      (onHub (Hub.letGo h how)) :=
  onChip_onHub (Hub.sited_letGo Hub.lasting_onChip (Gpio.onChip_farewell how))

theorem onChip_vacate (how : Farewell) :
    Act.Matches (OnChip (β := β) (κ := κ) t n h) (vacate h i how) (vacate h i how) := by
  refine (Act.Matches.gets fun _ _ hac => hac.any_input fun _ => rfl).bind fun held => ?_
  split
  · exact Act.Matches.pure ()
  · exact onChip_letGo how

theorem onChip_openOutput {pins pins' : List OutputPin}
    (hpins : List.Forall₂ (OutputPin.Renumbered t n) pins pins') :
    Act.Matches (OnChip (κ := κ) t n h)
      (OutputPort.unnumbered <$> onHub (β := β) (Hub.openOutput h pins))
      (OutputPort.unnumbered <$> onHub (Hub.openOutput h pins')) := by
  rw [map_onHub, map_onHub]
  exact onChip_onHub (Hub.sited_openOutput Hub.lasting_onChip (Gpio.onChip_openOutput hpins))

theorem onChip_openInput {pins pins' : List InputPin}
    (hpins : List.Forall₂ (InputPin.Renumbered t n) pins pins') (settings : InputSettings)
    (now : Nat) :
    Act.Matches (OnChip (κ := κ) t n h)
      (InputPort.unnumbered (κ := κ) <$> onHub (β := β) (Hub.openInput h pins settings now))
      (InputPort.unnumbered <$> onHub (Hub.openInput h pins' settings now)) := by
  have hsame : List.Forall₂ (fun p q => p.unnumbered = q.unnumbered) pins pins' := by
    refine hpins.imp fun p q hpq => ?_
    obtain ⟨mcu, -, rfl⟩ := hpq
    rfl
  rw [map_onHub, map_onHub]
  refine onChip_onHub (Hub.sited_openInput Hub.lasting_onChip (Gpio.onChip_prepare hpins settings)
    (fun mcus => ?_) (Gpio.onChip_farewell .dropped))
  exact Gpio.onChip_of_wired fun _ _ => Gpio.wired_finish hsame mcus settings now

/-- The deed and the deed of the chip are answered alike. -/
theorem onChip_perform {g : Handle} (htable : g.table = t) (hnumbering : g.numbering = n)
    {d d' : Deed κ} (hd : d.onChip? g = some d') (hsame : d.renumbers = false) :
    Act.Matches (OnChip (β := β) t n h) (d.perform h) (d'.perform h) := by
  subst htable hnumbering
  have hvalues : ∀ a c : Tenants β κ, OnChip g.table g.numbering h a c →
      decide (0 < a.values) = decide (0 < c.values) := by
    intro a c hac
    rw [hac.values]
  cases d with
  | pin call =>
    obtain ⟨mcu, hpin, rfl⟩ := Option.map_eq_some_iff.mp hd
    exact onChip_provided hvalues (onChip_use (Gpio.onChip_pinCall hpin rfl))
  | handle call =>
    cases call with
    | setReleaseOnClose enabled =>
      cases hd
      refine onChip_provided hvalues (onChip_use (matches_quiet ?_))
      exact Gpio.onChip_update fun _ _ hc => hc.setReleaseOnClose enabled
    | setNumbering k => cases hsame
    | _ => cases hd
  | clone =>
    cases hd
    refine onChip_provided hvalues (matches_quiet ?_)
    refine (onChip_onHub (Hub.sited_countRefs _)).bind fun _ =>
      Act.Matches.modify fun a c hac => ⟨hac.hub, ?_, hac.inputs, hac.outputs⟩
    exact congrArg (· + 1) hac.clones
  | join plan => cases hd
  | openInput pins settings now =>
    obtain ⟨pins', hpins, rfl⟩ := Option.map_eq_some_iff.mp hd
    refine onChip_provided hvalues (matches_quiet ?_)
    refine (onChip_openInput (renumbered_inputs hpins) settings now).bind_map fun p q hpq => ?_
    refine Act.Matches.modify fun a c hac => ⟨hac.hub, hac.clones, ?_, hac.outputs⟩
    have hhold : InputHold.unnumbered { port := p } = InputHold.unnumbered { port := q } := by
      rw [InputHold.unnumbered, InputHold.unnumbered, hpq]
    rw [List.map_append, List.map_append, hac.inputs, List.map_singleton, List.map_singleton, hhold]
  | openOutput pins =>
    obtain ⟨pins', hpins, rfl⟩ := Option.map_eq_some_iff.mp hd
    refine onChip_provided hvalues (matches_quiet ?_)
    refine (onChip_openOutput (renumbered_outputs hpins)).bind_map fun p q hpq => ?_
    refine Act.Matches.modify fun a c hac => ⟨hac.hub, hac.clones, hac.inputs, ?_⟩
    rw [List.map_append, List.map_append, hac.outputs, List.map_singleton, List.map_singleton,
      Option.map_some, Option.map_some, hpq]
  | output i call =>
    cases hd
    refine onChip_onOutput (fun p => ?_) fun p => onChip_use ?_
    · rw [p.perform_unnumbered]
    · exact Gpio.onChip_of_wired fun _ _ => Gpio.wired_outputCall p call
  | readOutput i index =>
    cases hd
    refine onChip_onOutput (fun p => ?_) fun p => onChip_use ?_
    · rw [p.read_unnumbered]
    · exact (Gpio.onChip_of_wired fun _ _ => Gpio.wired_readOutput p index).map _
  | readOutputs i =>
    cases hd
    refine onChip_onOutput (fun p => ?_) fun p => onChip_use ?_
    · rw [OutputPort.readAll, p.readIndices_unnumbered, p.indices_unnumbered]
      rfl
    · exact (Gpio.onChip_of_wired fun _ _ => Gpio.wired_readOutputs p).map _
  | sample i mcu =>
    cases hd
    refine onChip_provided (fun a c hac => hac.any_input fun _ => rfl) ?_
    exact (onChip_use (Gpio.onChip_hardware _)).map _
  | callback i own call =>
    cases hd
    exact matches_quiet (onChip_onInput fun p => p.perform_callback_unnumbered call)
  | partClone how =>
    cases hd
    have hclones : ∀ a c : Tenants β κ, OnChip g.table g.numbering h a c →
        decide (0 < a.clones) = decide (0 < c.clones) := by
      intro a c hac
      rw [hac.clones]
    refine onChip_provided hclones (matches_quiet ?_)
    refine (Act.Matches.modify fun a c hac => ?_).bind fun _ => onChip_letGo how
    exact ⟨hac.hub, congrArg (· - 1) hac.clones, hac.inputs, hac.outputs⟩
  | partOutput i how =>
    cases hd
    refine onChip_onOutput (fun _ => rfl) fun _ => matches_quiet ?_
    refine (Act.Matches.modify fun a c hac => ?_).bind fun _ => onChip_letGo how
    exact ⟨hac.hub, hac.clones, hac.inputs, map_modify_congr hac.outputs fun _ _ _ => rfl⟩
  | partInput i own how =>
    cases hd
    refine matches_quiet ((onChip_onInput fun p => rfl).bind fun _ => ?_)
    refine (Act.Matches.modify fun a c hac => ?_).bind fun _ => onChip_vacate how
    refine ⟨hac.hub, hac.clones, map_modify_congr hac.inputs fun p q hpq => ?_, hac.outputs⟩
    exact congrArg InputHold.disowned hpq
  | monitorEnds i =>
    cases hd
    refine onChip_provided (fun a c hac => hac.any_input fun _ => rfl) (matches_quiet ?_)
    refine (Act.Matches.modify fun a c hac => ?_).bind fun _ => onChip_vacate .dropped
    refine ⟨hac.hub, hac.clones, map_modify_congr hac.inputs fun p q hpq => ?_, hac.outputs⟩
    exact congrArg InputHold.ended hpq

/-- A change of numbering is told to no chip. -/
theorem OnChip.renumber (hac : OnChip t n h a c) (k : Numbering) :
    ∃ m, OnChip t m h (((Deed.handle (.setNumbering k)).perform h).run a).2 c := by
  rw [Deed.perform, run_provided]
  split
  case isFalse => exact ⟨n, hac⟩
  case isTrue =>
    obtain ⟨g, g', hg, hg', hrel⟩ := hac.hub.sites
    obtain ⟨-, hsite, -⟩ := Hub.run_onHandle hg (HandleCall.setNumbering k).perform
    have hafter : (((HandleCall.setNumbering k).perform.run g).2).OnChip t k g' := by
      rw [HandleCall.perform, run_quiet_state]
      exact (hrel.setNumbering k).2
    have hrefs := Hub.refs_onHandle a.hub h h (HandleCall.setNumbering k).perform
    rw [run_onHub]
    refine ⟨k, ⟨⟨_, g', hsite, hg', hafter.handle, ?_⟩, hrefs.trans hac.hub.refs⟩, hac.clones,
      hac.inputs, hac.outputs⟩
    show Line.mk _ g.backend.direct = g'.backend
    rw [hafter.backend, hrel.backend]

/-- Step by step, a program and its program of the chip are answered alike. -/
theorem OnChip.run (hac : OnChip t n h a c) {deeds chip : List (Deed κ)}
    (hchip : chipProgram h deeds a = some chip) :
    told deeds (run h deeds a).1 = (Tenants.run h chip c).1 ∧
      ∃ m, OnChip t m h (run h deeds a).2 (Tenants.run h chip c).2 := by
  induction deeds generalizing n a c chip with
  | nil =>
    cases hchip
    exact ⟨rfl, n, hac⟩
  | cons d deeds ih =>
    obtain ⟨rest, hrest, hfirst⟩ := Option.bind_eq_some_iff.mp hchip
    by_cases hd : d.renumbers = true
    · -- a change of numbering has no counterpart
      rw [if_pos hd] at hfirst
      cases hfirst
      obtain ⟨m, hafter⟩ : ∃ m, OnChip t m h ((d.perform h).run a).2 c := by
        cases d with
        | handle call =>
          cases call with
          | setNumbering k => exact hac.renumber k
          | _ => cases hd
        | _ => cases hd
      obtain ⟨hanswers, hend⟩ := ih hafter hrest
      refine ⟨?_, hend⟩
      rw [← hanswers]
      simp [told, Tenants.run, hd]
    · rw [if_neg hd] at hfirst
      obtain ⟨g, hg, htable, hnumbering⟩ := hac.handle?
      rw [hg, Option.bind_some] at hfirst
      obtain ⟨d', hd', rfl⟩ := Option.map_eq_some_iff.mp hfirst
      have hsame : d.renumbers = false := Bool.eq_false_iff.mpr hd
      obtain ⟨hanswer, hafter⟩ := onChip_perform htable hnumbering hd' hsame a c hac
      obtain ⟨hanswers, hend⟩ := ih hafter hrest
      refine ⟨?_, hend⟩
      show _ = ((d'.perform h).run c).1 :: (Tenants.run h rest ((d'.perform h).run c).2).1
      rw [← hanswers, ← hanswer]
      simp [told, Tenants.run, hsame]

end Tenants

/-! ## Programs in different numberings -/

/-- A new handle stands beside one that was opened on the same backend in the numbering of the
chip. -/
theorem Hub.onChip_build {β : Type} [Backend β] {table : PinTable} (haccepted : table.Accepted)
    {i h : Nat} {direct : Bool} {settings chip : HandleSettings} {s₀ s : Hub β}
    (hrun : (build ⟨some i, direct, some table, settings⟩).run s₀ = (.ok h, s))
    (hclose : settings.releaseOnClose = chip.releaseOnClose) (hchip : chip.numbering = .mcu) :
    Sited (Gpio.OnChip table settings.numbering) h s
      ((build ⟨some i, direct, some table, chip⟩).run s₀).2 := by
  obtain ⟨_, _, rig, hi, htable, hrig, hfit, rfl, hrefs, hsite⟩ := built hrun
  cases hi
  cases htable
  obtain ⟨c, hc⟩ := exists_built hrig hfit chip direct
  obtain ⟨_, _, rig', hi', htable', hrig', -, -, hrefs', hsite'⟩ := built hc
  cases hi'
  cases htable'
  rw [hrig] at hrig'
  cases hrig'
  rw [hc]
  refine ⟨⟨_, _, hsite, hsite', ?_, rfl⟩, hrefs.trans hrefs'.symm⟩
  refine ⟨haccepted, fun mcu hmcu => ?_, rfl, rfl, rfl, hchip, rfl, rfl, hclose⟩
  obtain ⟨max, hmax⟩ := Option.isSome_iff_exists.mp (List.isSome_max?_of_mem hmcu)
  have hle : mcu ≤ max := (List.max?_eq_some_iff.mp hmax).2 mcu hmcu
  rw [Handle.create, Array.size_replicate]
  exact Nat.lt_of_le_of_lt hle (hfit max hmax)

namespace Tenants

variable {β κ : Type} [Backend β] {h : Nat}

def backend? (h : Nat) (t : Tenants β κ) : Option (Line β) := (t.hub.site? h).map Gpio.backend

omit [Backend β] in
theorem OnChip.backend? {t : PinTable} {n : Numbering} {a c : Tenants β κ}
    (hac : OnChip t n h a c) : a.backend? h = c.backend? h := by
  obtain ⟨g, g', hg, hg', hrel⟩ := hac.hub.sites
  rw [Tenants.backend?, Tenants.backend?, hg, hg', Option.map_some, Option.map_some, hrel.backend]

/-- Programs in different numberings with one program of the chip are told the same and make the
same calls of the backend, which keeps a list of them. Ports that were opened keep to the chip pins
that their numbers stood for. -/
theorem numbering_independent {name : String} {logical physical : List Slot} {table : PinTable}
    (hmade : PinTable.make name logical physical = .ok table) {i : Nat} {direct : Bool}
    {settings settings' : HandleSettings}
    (hclose : settings.releaseOnClose = settings'.releaseOnClose) {s₀ s s' : Hub (Recorded β)}
    (hs : (Hub.build ⟨some i, direct, some table, settings⟩).run s₀ = (.ok h, s))
    (hs' : (Hub.build ⟨some i, direct, some table, settings'⟩).run s₀ = (.ok h, s')) :
    (∀ deeds deeds' chip : List (Deed κ), chipProgram h deeds { hub := s } = some chip →
      chipProgram h deeds' { hub := s' } = some chip →
        told deeds (run h deeds { hub := s }).1 = told deeds' (run h deeds' { hub := s' }).1 ∧
          (run h deeds { hub := s }).2.backend? h = (run h deeds' { hub := s' }).2.backend? h) ∧
    (∀ (u u' : Hub (Recorded β)) (g : Gpio (Line (Recorded β))) (pins : List OutputPin)
      (p : OutputPort), u.site? h = some g → (Hub.openOutput h pins).run u = (.ok p, u') →
        p.Addresses β h g.handle pins) ∧
    (∀ (u u' : Hub (Recorded β)) (g : Gpio (Line (Recorded β))) (pins : List InputPin)
      (settings : InputSettings) (now : Nat) (p : InputPort κ), u.site? h = some g →
        (Hub.openInput h pins settings now).run u = (.ok p, u') →
          ∀ (ε : Type) (log : ε → List (κ × Occasion)) (w : ε) (d : Desk κ ε),
            Desk.Session log ⟨p, w⟩ d → d.port.Addresses g.handle pins) := by
  have haccepted : table.Accepted := (PinTable.make_eq_ok_iff.mp hmade).2
  refine ⟨?_, ?_, ?_⟩
  · intro deeds deeds' chip hchip hchip'
    -- both run beside the program of the chip, from the same handle in the numbering of the chip
    let onChip : HandleSettings := { settings with numbering := .mcu }
    let c : Hub (Recorded β) := ((Hub.build ⟨some i, direct, some table, onChip⟩).run s₀).2
    have hstart : OnChip (κ := κ) table settings.numbering h { hub := s } { hub := c } :=
      ⟨Hub.onChip_build haccepted hs rfl rfl, rfl, rfl, rfl⟩
    have hstart' : OnChip (κ := κ) table settings'.numbering h { hub := s' } { hub := c } :=
      ⟨Hub.onChip_build haccepted hs' hclose.symm rfl, rfl, rfl, rfl⟩
    obtain ⟨hanswers, m, hend⟩ := hstart.run hchip
    obtain ⟨hanswers', m', hend'⟩ := hstart'.run hchip'
    exact ⟨hanswers.trans hanswers'.symm, hend.backend?.trans hend'.backend?.symm⟩
  · intro u u' g pins p hg hopen
    exact Hub.addresses_openOutput hg hopen
  · intro u u' g pins settings now p hg hopen ε log w d hd
    exact Hub.addresses_openInput hg hopen hd

/-! ## Two programs for one chip -/

/-- Two pins that logical numbers and positions on the header name in opposite order. -/
def crossed : PinTable := ⟨"crossed", [some 1, some 0], [some 0, some 1]⟩

/-- Two simulated pins whose pulls cannot be read. -/
def mutePins : Hub (Recorded Sim) :=
  { rigs := #[{ device := { device := { Sim.fresh 2 with pullReadable := false } } }] }

def crossedIn (n : Numbering) : Hub (Recorded Sim) :=
  ((Hub.build ⟨some 0, false, some crossed, { numbering := n }⟩).run mutePins).2

/-- The pull of chip pin 1 is set and asked for, a port on chip pin 0 is opened and driven, and both
are put back; in turn by logical numbers, by positions and by chip pins. -/
def fromLogical : List (Deed Unit) :=
  [.pin (.setPull 0 .up), .handle (.setNumbering .physical), .pin (.pull 2),
    .openOutput [{ pin := 1 }], .handle (.setNumbering .mcu), .output 0 (.set 0),
    .partOutput 0 .dropped, .partClone .closed]

/-- The same by positions and then by logical numbers. -/
def fromPhysical : List (Deed Unit) :=
  [.pin (.setPull 2 .up), .pin (.pull 2), .handle (.setNumbering .logical),
    .openOutput [{ pin := 1 }], .output 0 (.set 0), .partOutput 0 .dropped, .partClone .closed]

/-- The same by chip pins. -/
def byChipPins : List (Deed Unit) :=
  [.pin (.setPull 1 .up), .pin (.pull 1), .openOutput [{ pin := 0 }], .output 0 (.set 0),
    .partOutput 0 .dropped, .partClone .closed]

/-- Both programs are told of the pull that is remembered, and make the same calls to the end. -/
theorem numbering_independent_crossed :
    PinTable.make "crossed" [some 1, some 0] [some 0, some 1] = .ok crossed ∧
      chipProgram 0 fromLogical { hub := crossedIn .logical } = some byChipPins ∧
      chipProgram 0 fromPhysical { hub := crossedIn .physical } = some byChipPins ∧
      told fromLogical (run 0 fromLogical { hub := crossedIn .logical }).1 =
        told fromPhysical (run 0 fromPhysical { hub := crossedIn .physical }).1 ∧
      (run 0 fromLogical { hub := crossedIn .logical }).2.backend? 0 =
        (run 0 fromPhysical { hub := crossedIn .physical }).2.backend? 0 ∧
      (told fromLogical (run 0 fromLogical { hub := crossedIn .logical }).1).map Except.toOption =
        [some .done, some (.text? (some "up")), some .done, some .done, some .done, some .done] ∧
      ((run 0 fromLogical { hub := crossedIn .logical }).2.backend? 0).map Line.tally.made =
        some [.pull 1, .setPull 1 .up, .pull 1, .write 0 false, .mode 0, .setMode 0 .output,
          .write 0 true, .setMode 0 .input, .pull 0, .setPull 0 .down, .setPull 1 .down] := by
  have hmade : PinTable.make "crossed" [some 1, some 0] [some 0, some 1] = .ok crossed := by
    decide +kernel
  have hlogical : chipProgram 0 fromLogical { hub := crossedIn .logical } = some byChipPins := rfl
  have hphysical : chipProgram 0 fromPhysical { hub := crossedIn .physical } = some byChipPins := rfl
  have hbuild : ∀ n, (Hub.build ⟨some 0, false, some crossed, { numbering := n }⟩).run mutePins =
      (.ok 0, crossedIn n) := by
    intro n
    cases n <;> rfl
  have hclose : HandleSettings.releaseOnClose { numbering := .logical } =
      HandleSettings.releaseOnClose { numbering := .physical } := rfl
  obtain ⟨hprograms, -, -⟩ := numbering_independent (κ := Unit) hmade hclose (hbuild .logical)
    (hbuild .physical)
  obtain ⟨htold, hcalls⟩ := hprograms fromLogical fromPhysical byChipPins hlogical hphysical
  exact ⟨hmade, hlogical, hphysical, htold, hcalls, by decide +kernel, by decide +kernel⟩

end Tenants

end BoardGpio
