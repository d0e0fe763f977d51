import BoardGpio.Handle.Cursor
import BoardGpio.Proofs.Handle.Beside
import BoardGpio.Proofs.Handle.Bookmark

/-!
# One cursor for all references

A handle has one cursor, whoever calls it: the program through a clone or through a port, and in
between pins are driven, ports opened and closed, references taken and given up, and in the end the
pins are put back. None of this moves the cursor (`Tenants.holds_perform`). So what a run of deeds
is told about the cursor is what one bookmark says to the same calls (`Bookmark.Explains`), and the
bookmark is where the handle's cursor is (`Tenants.cursor_zips`). Read off the handle itself, the
cursor stays between the ends of the list, goes back where it came from, and finds every pin of the
numbering in turn (`Handle.Cursory`).
-/

set_option autoImplicit false

namespace BoardGpio

open Bench

/-! ## What putting pins back leaves alone -/

namespace Gpio

variable {β : Type} [Backend β] {P : Handle → Prop}

theorem has_restorePull (mcu : Nat) (record : PinRecord) :
    (restorePull mcu record : Act (Gpio β) Unit).Keeps (Has P) := by
  unfold restorePull
  split
  · exact has_hardware _
  · exact has_hardware _
  · split
    · refine (has_hardware _).bind fun seen => ?_
      split
      · exact has_hardware _
      · exact Act.Keeps.pure ()
    · exact Act.Keeps.pure ()

theorem has_restoreMode (mcu : Nat) (record : PinRecord) :
    (restoreMode mcu record : Act (Gpio β) Unit).Keeps (Has P) := by
  unfold restoreMode
  split
  · exact (has_switch mcu _).bind fun _ => has_note _
  · exact Act.Keeps.pure ()

variable (hP : Handle.Unrecorded P)
include hP

theorem has_restorePin (mcu : Nat) : (restorePin mcu : Act (Gpio β) Bool).Keeps (Has P) := by
  intro g hg
  rw [run_restorePin]
  split
  · exact hP.record g.handle mcu _ hg
  · refine Act.Keeps.bind (has_restoreMode mcu _) (fun _ => ?_)
      { g with handle := g.handle.updateRecord mcu fun _ => {} } (hP.record g.handle mcu _ hg)
    exact (has_restorePull mcu _).bind fun _ => Act.Keeps.pure true

theorem has_restoreAll (mcus : List Nat) (restored : Nat) (first : Option Error) :
    (restoreAll mcus restored first : Act (Gpio β) (Nat × Option Error)).Keeps (Has P) := by
  induction mcus generalizing restored first with
  | nil => exact Act.Keeps.pure _
  | cons mcu rest ih =>
    refine (has_restorePin hP mcu).attempt.bind fun outcome => ?_
    split
    · exact ih _ _
    · exact ih _ _
    · exact (has_note _).bind fun _ => ih _ _

theorem has_release : (release : Act (Gpio β) Unit).Keeps (Has P) := by
  refine (Act.Leaves.gets _).keeps.bind fun handle => ?_
  have hmark : (update fun h => { h with released := true } : Act (Gpio β) Unit).Keeps (Has P) :=
    fun g hg => hP.released g.handle hg
  split
  · exact Act.Keeps.pure ()
  · refine hmark.bind fun _ => ?_
    split
    · exact has_note _
    · refine (has_restoreAll hP _ 0 none).bind fun outcome => (has_note _).bind fun _ => ?_
      split
      · exact (Act.Leaves.fail _).keeps
      · exact Act.Keeps.pure ()

theorem has_farewell (how : Farewell) :
    (Hub.farewell how : Act (Gpio (Line β)) Unit).Keeps (Has P) := by
  cases how with
  | closed => exact has_release hP
  | dropped =>
    refine (has_release hP).attempt.bind fun outcome => ?_
    split
    · exact Act.Keeps.pure ()
    · exact has_note _

end Gpio

/-! ## Under all references -/

namespace Hub

variable {β κ α : Type} {h : Nat} {P : Handle → Prop}

/-- The fact holds of the handle. -/
def Holds (h : Nat) (P : Handle → Prop) (s : Hub β) : Prop :=
  ∃ g, s.site? h = some g ∧ P g.handle

theorem holds_onHandle {x : Act (Gpio (Line β)) α} (hx : x.Keeps (Gpio.Has P)) :
    (onHandle h x).Keeps (Holds h P) := by
  rintro s ⟨g, hg, hhas⟩
  obtain ⟨-, hsite, -⟩ := run_onHandle hg x
  exact ⟨_, hsite, hx g hhas⟩

theorem holds_countRefs (f : Nat → Nat) :
    (countRefs h f : Act (Hub β) Unit).Keeps (Holds h P) := by
  rintro s ⟨g, hg, hhas⟩
  exact ⟨g, by rw [site?_countRefs, hg], hhas⟩

variable [Backend β] (hP : Handle.Unrecorded P)
include hP

theorem holds_letGo (how : Farewell) : (letGo h how : Act (Hub β) Unit).Keeps (Holds h P) := by
  refine (holds_countRefs _).bind fun _ => (Act.Leaves.gets _).keeps.bind fun left => ?_
  split
  · exact Act.Keeps.pure ()
  · exact holds_onHandle (Gpio.has_farewell hP how)

theorem holds_openInput (pins : List InputPin) (settings : InputSettings) (now : Nat) :
    (openInput h pins settings now : Act (Hub β) (InputPort κ)).Keeps (Holds h P) := by
  have hborne := Gpio.borne_of_unrecorded (β := Line β) hP
  refine (holds_onHandle (hborne.prepare pins settings)).bind fun mcus =>
    (holds_countRefs _).bind fun _ => ?_
  have hfinish := holds_onHandle (h := h) (hborne.finish (κ := κ) pins mcus settings now)
  exact (hfinish.matches.orCleanUp (holds_letGo hP .dropped).matches).keeps

theorem holds_openOutput (pins : List OutputPin) :
    (openOutput h pins : Act (Hub β) OutputPort).Keeps (Holds h P) :=
  (holds_onHandle ((Gpio.borne_of_unrecorded hP).openOutput pins)).bind fun _ =>
    (holds_countRefs _).bind fun _ => Act.Keeps.pure _

end Hub

/-- The call that a deed makes of the handle itself. -/
def Deed.handleCall? {κ : Type} : Deed κ → Option HandleCall
  | handle call => some call
  | _ => none

namespace Tenants

variable {β κ α : Type} {h : Nat} {P : Handle → Prop}

/-- The fact holds of the handle. -/
def Holds (h : Nat) (P : Handle → Prop) (t : Tenants β κ) : Prop := t.hub.Holds h P

theorem holds_onHub {x : Act (Hub β) α} (hx : x.Keeps (Hub.Holds h P)) :
    (onHub x : Act (Tenants β κ) α).Keeps (Holds h P) := fun t ht => hx t.hub ht

theorem holds_modifyInput (i : Nat) (f : InputHold κ → InputHold κ) :
    (Act.modify fun t : Tenants β κ => t.modifyInput i f).Keeps (Holds h P) :=
  Act.Keeps.modify fun _ ht => ht

theorem holds_onInput (i : Nat) (own : Bool) (x : Act (InputPort κ) Unit) :
    (onInput h i own x : Act (Tenants β κ) Unit).Keeps (Holds h P) :=
  fun _ ht => after_onInput ht fun _ _ _ => ht

variable [Backend β]

theorem holds_join (plan : HandlePlan) :
    ((Deed.join plan).perform h : Act (Tenants β κ) Answer).Keeps (Holds h P) := by
  intro t ht
  refine after_provided ht fun hcan => ?_
  have hjoin : t.hub.joinable? = some h := by simpa using hcan
  rw [run_quiet_state, Act.run_bind, run_onHub, Hub.run_openShared_join hjoin]
  obtain ⟨g, hg, hhas⟩ := ht
  refine ⟨g, ?_, hhas⟩
  rw [← hg]
  exact Hub.site?_countRefs t.hub h h (· + 1)

/-- Whatever is done with a handle, short of calling it itself, changes its records and the mark of
its release at most. -/
theorem holds_perform (hP : Handle.Unrecorded P) {d : Deed κ} (hd : d.handleCall? = none) :
    (d.perform h : Act (Tenants β κ) Answer).Keeps (Holds h P) := by
  have hborne := Gpio.borne_of_unrecorded (β := Line β) hP
  have hletGo : ∀ how, (onHub (Hub.letGo h how) : Act (Tenants β κ) Unit).Keeps (Holds h P) :=
    fun how => holds_onHub (Hub.holds_letGo hP how)
  have hvacate : ∀ i how, (vacate h i how : Act (Tenants β κ) Unit).Keeps (Holds h P) := by
    intro i how
    refine (Act.Leaves.gets _).keeps.bind fun held => ?_
    split
    · exact Act.Keeps.pure ()
    · exact hletGo how
  cases d with
  | handle call => cases hd
  | pin call => exact keeps_provided (holds_onHub (Hub.holds_onHandle (hborne.pinCall call)))
  | clone =>
    exact keeps_provided <| keeps_quiet <|
      (holds_onHub (Hub.holds_countRefs _)).bind fun _ => Act.Keeps.modify fun _ ht => ht
  | join plan => exact holds_join plan
  | openInput pins settings now =>
    exact keeps_provided <| keeps_quiet <|
      (holds_onHub (Hub.holds_openInput hP pins settings now)).bind fun _ =>
        Act.Keeps.modify fun _ ht => ht
  | openOutput pins =>
    exact keeps_provided <| keeps_quiet <|
      (holds_onHub (Hub.holds_openOutput hP pins)).bind fun _ => Act.Keeps.modify fun _ ht => ht
  | output i call =>
    exact keeps_onOutput fun p => holds_onHub (Hub.holds_onHandle (hborne.outputCall p call))
  | readOutput i index =>
    exact keeps_onOutput fun p =>
      holds_onHub (Hub.holds_onHandle ((hborne.readOutput p index).map _))
  | readOutputs i =>
    exact keeps_onOutput fun p =>
      holds_onHub (Hub.holds_onHandle ((hborne.readIndices p _ _).map _))
  | sample i mcu =>
    exact keeps_provided ((holds_onHub (Hub.holds_onHandle (hborne.readMcu mcu))).map _)
  | callback i own call => exact keeps_quiet (holds_onInput i own _)
  | partClone how =>
    exact keeps_provided <| keeps_quiet <|
      Act.Keeps.bind (Act.Keeps.modify fun _ ht => ht) fun _ => hletGo how
  | partOutput i how =>
    exact keeps_onOutput fun _ => keeps_quiet <|
      Act.Keeps.bind (Act.Keeps.modify fun _ ht => ht) fun _ => hletGo how
  | partInput i own how =>
    exact keeps_quiet <| (holds_onInput i own _).bind fun _ =>
      (holds_modifyInput i _).bind fun _ => hvacate i how
  | monitorEnds i =>
    exact keeps_provided <| keeps_quiet <|
      (holds_modifyInput i _).bind fun _ => hvacate i .dropped

end Tenants

/-! ## What a run is told -/

namespace Bookmark

variable {t : PinTable}

/-- Every call is answered as the bookmark says, which each call finds where the one before has left
it. What the bookmark says nothing about may be answered in any way. -/
def Explains (m : Bookmark t) : List (HandleCall × Reply) → Prop
  | [] => True
  | (call, reply) :: rest =>
    (∀ a, (m.perform call).1 = some a → reply = .ok a) ∧ (m.perform call).2.Explains rest

/-- The bookmark after calls on the handle. -/
def after (m : Bookmark t) : List (HandleCall × Reply) → Bookmark t
  | [] => m
  | (call, _) :: rest => (m.perform call).2.after rest

end Bookmark

namespace Tenants

variable {β κ : Type} [Backend β] {h : Nat} {t : PinTable} {m : Bookmark t}

/-- The calls that are made of the handle itself in the course of a sequence of deeds, by whomever,
with what they are answered. Where nobody has a reference, nobody makes a call. -/
def asked (h : Nat) : List (Deed κ) → Tenants β κ → List (HandleCall × Reply)
  | [], _ => []
  | d :: deeds, t =>
    let (reply, t') := (d.perform h).run t
    match d.handleCall?.filter fun _ => 0 < t.values with
    | some call => (call, reply) :: asked h deeds t'
    | none => asked h deeds t'

theorem Holds.step {u : Tenants β κ} (hu : u.Holds h m.At) (d : Deed κ) :
    match d.handleCall?.filter fun _ => 0 < u.values with
    | some call =>
      (∀ a, (m.perform call).1 = some a → ((d.perform h).run u).1 = .ok a) ∧
        ((d.perform h).run u).2.Holds h (m.perform call).2.At
    | none => ((d.perform h).run u).2.Holds h m.At := by
  cases hd : d.handleCall? with
  | none => exact holds_perform m.unrecorded_at hd u hu
  | some call =>
    cases d with
    | handle call' =>
      cases hd
      rw [Deed.perform, run_provided]
      by_cases hlive : 0 < u.values
      · obtain ⟨g, hg, hat⟩ := hu
        obtain ⟨hres, hsite, -⟩ := Hub.run_onHandle hg (HandleCall.perform call)
        obtain ⟨hanswer, hat'⟩ := hat.handleCall call
        rw [if_pos (decide_eq_true hlive), run_onHub, hres]
        simp only [Option.filter_some, hlive, decide_true, if_true]
        exact ⟨hanswer, _, hsite, hat'⟩
      · rw [if_neg (by simpa using hlive)]
        simp only [Option.filter_some, hlive, decide_false, Bool.false_eq_true, if_false]
        exact hu
    | _ => cases hd

/-- The bookmark explains all calls of a run, and the cursor is at the bookmark in the end. -/
theorem Holds.run {u : Tenants β κ} (hu : u.Holds h m.At) (deeds : List (Deed κ)) :
    m.Explains (asked h deeds u) ∧
      (Tenants.run h deeds u).2.Holds h (m.after (asked h deeds u)).At := by
  induction deeds generalizing u m with
  | nil => exact ⟨trivial, hu⟩
  | cons d deeds ih =>
    have hstep := hu.step d
    rw [asked]
    cases hcall : d.handleCall?.filter fun _ => 0 < u.values with
    | none =>
      rw [hcall] at hstep
      exact ih hstep
    | some call =>
      rw [hcall] at hstep
      obtain ⟨hexplains, hends⟩ := ih hstep.2
      exact ⟨⟨hstep.1, hexplains⟩, hends⟩

end Tenants

/-! ## The cursor of a handle -/

namespace Handle

variable {h : Handle} {pin : Nat}

/-- What so many steps forward give. -/
def walk (h : Handle) : Nat → List (Option Nat)
  | 0 => []
  | k + 1 => h.next.1 :: h.next.2.walk k

theorem walk_eq (h : Handle) (k : Nat) :
    h.walk k = (List.range k).map fun i => h.order[h.cursor + i]? := by
  induction k generalizing h with
  | zero => rfl
  | succ k ih =>
    rw [walk, ih, List.range_succ_eq_map, List.map_cons, List.map_map]
    cases hpin : h.order[h.cursor]? with
    | some pin =>
      simp only [next, hpin, Function.comp_def, Nat.succ_eq_add_one]
      congr 2
      funext i
      congr 1
      omega
    | none =>
      -- at the end of the list every further step gives nothing
      have hend : ∀ i, h.order[h.cursor + i]? = none := by
        intro i
        have hlen := List.getElem?_eq_none_iff.mp hpin
        exact List.getElem?_eq_none (by omega)
      simp only [next, hpin, Function.comp_def, hend]

/-- How the cursor of a handle on a table behaves. -/
structure Cursory (t : PinTable) (h : Handle) : Prop where
  /-- The list is that of the numbering in use. -/
  order : h.order = t.pins h.numbering
  /-- Where every pin has a number of its own, the list is ascending. -/
  ascending : t.Numbered → h.order.Pairwise (· < ·)
  within : h.cursor ≤ h.size
  hasNext : h.hasNext = true ↔ ∃ pin, h.next.1 = some pin
  hasPrevious : h.hasPrevious = true ↔ ∃ pin, h.previous.1 = some pin
  /-- A step that fails moves nothing. -/
  stuck : (h.next.1 = none → h.next.2 = h) ∧ (h.previous.1 = none → h.previous.2 = h)
  /-- A step back undoes a step forward and gives the same pin, and the other way round. -/
  back : ∀ pin, h.next.1 = some pin → h.next.2.previous = (some pin, h)
  forth : ∀ pin, h.previous.1 = some pin → h.previous.2.next = (some pin, h)
  /-- From the front, so many steps give so many pins of the list in turn, and nothing after
  them. -/
  walk : ∀ k, h.toFront.walk k = (List.range k).map fun i => (t.pins h.numbering)[i]?
  /-- Only another numbering changes anything, and then the cursor is at the front. -/
  same : h.setNumbering h.numbering = h
  reset : ∀ n, n ≠ h.numbering →
    (h.setNumbering n).cursor = 0 ∧ (h.setNumbering n).order = t.pins n

theorem back_next (hpin : h.next.1 = some pin) : h.next.2.previous = (some pin, h) := by
  unfold next at hpin ⊢
  cases hget : h.order[h.cursor]? with
  | none =>
    rw [hget] at hpin
    cases hpin
  | some p =>
    rw [hget] at hpin
    cases hpin
    simp only [previous, hget]

theorem forth_previous (hpin : h.previous.1 = some pin) : h.previous.2.next = (some pin, h) := by
  obtain ⟨_, _, _, _, _, order, _ | i⟩ := h
  · cases hpin
  · have hget : order[i]? = some pin := hpin
    simp only [previous, next, hget]

theorem hasNext_iff (h : Handle) : h.hasNext = true ↔ ∃ pin, h.next.1 = some pin := by
  rw [hasNext, decide_eq_true_eq]
  constructor
  · intro hlt
    refine ⟨h.order[h.cursor], ?_⟩
    simp [next, hlt]
  · rintro ⟨pin, hpin⟩
    apply Nat.lt_of_not_le
    intro hle
    simp [next, hle] at hpin

theorem hasPrevious_iff (hin : h.cursor ≤ h.order.length) :
    h.hasPrevious = true ↔ ∃ pin, h.previous.1 = some pin := by
  rw [hasPrevious, decide_eq_true_eq]
  cases hcursor : h.cursor with
  | zero => simp [previous, hcursor]
  | succ i =>
    have hlt : i < h.order.length := by omega
    simp [previous, hcursor, hlt]

theorem stuck_next (hnone : h.next.1 = none) : h.next.2 = h := by
  unfold next at hnone ⊢
  split at hnone
  · cases hnone
  · rfl

theorem stuck_previous (hin : h.cursor ≤ h.order.length) (hnone : h.previous.1 = none) :
    h.previous.2 = h := by
  unfold previous at hnone ⊢
  split at hnone
  · rfl
  · next i hcursor =>
    have hlt : i < h.order.length := by omega
    simp [hlt] at hnone

end Handle

theorem Bookmark.At.cursory {t : PinTable} {m : Bookmark t} {h : Handle} (hm : m.At h)
    (ht : t.Accepted) : h.Cursory t where
  order := by rw [hm.order, hm.numbering]
  ascending := hm.ascending ht
  within := hm.within
  hasNext := h.hasNext_iff
  hasPrevious := Handle.hasPrevious_iff hm.within
  stuck := ⟨Handle.stuck_next, Handle.stuck_previous hm.within⟩
  back _ := Handle.back_next
  forth _ := Handle.forth_previous
  walk k := by
    rw [Handle.walk_eq, hm.numbering, ← hm.order]
    simp [Handle.toFront]
  same := by simp [Handle.setNumbering]
  reset n hn := by
    rw [Handle.setNumbering, if_neg (Ne.symm hn), hm.table]
    exact ⟨rfl, rfl⟩

namespace Tenants

variable {β κ : Type} [Backend β] {h : Nat}

/-- A handle that was just opened has its cursor before the first pin. -/
theorem holds_opened {plan : HandlePlan} {t : PinTable} (htable : plan.table = some t)
    {s s₀ : Hub β} (hopen : Hub.Opened plan s h s₀) :
    s₀.Holds h (Bookmark.front t plan.settings.numbering).At := by
  have hbuilt : ∀ s₁, (Hub.build plan).run s = (.ok h, s₁) →
      s₁.Holds h (Bookmark.front t plan.settings.numbering).At := by
    intro s₁ hrun
    obtain ⟨i, table, rig, -, htable', -, hfit, -, -, hsite⟩ := Hub.built hrun
    cases htable.symm.trans htable'
    exact ⟨_, hsite, Bookmark.at_create hfit⟩
  cases hopen with
  | own hrun => exact hbuilt s₀ hrun
  | shared hnone hrun =>
    rw [Hub.openShared, Act.run_bind_ok _ (Act.run_gets _ s), hnone] at hrun
    obtain ⟨k, s₁, hbuild, hrest⟩ := Act.run_bind_eq_ok_iff.mp hrun
    cases hrest
    exact hbuilt s₁ hbuild

/-- From the opening of a handle over an accepted table on, all calls of its cursor are answered as
by one bookmark in the list of the pins of the numbering in use, and the handle's cursor is where
the bookmark is. -/
theorem cursor_zips {plan : HandlePlan} {t : PinTable} (htable : plan.table = some t)
    (ht : t.Accepted) {s s₀ : Hub β} (hopen : Hub.Opened plan s h s₀) (deeds : List (Deed κ)) :
    (Bookmark.front t plan.settings.numbering).Explains (asked h deeds { hub := s₀ }) ∧
      ∃ g, (run h deeds { hub := s₀ }).2.hub.site? h = some g ∧
        ((Bookmark.front t plan.settings.numbering).after (asked h deeds { hub := s₀ })).At
          g.handle ∧
        g.handle.Cursory t := by
  have hstart : ({ hub := s₀ } : Tenants β κ).Holds h
      (Bookmark.front t plan.settings.numbering).At := holds_opened htable hopen
  obtain ⟨hexplains, g, hg, hat⟩ := hstart.run deeds
  exact ⟨hexplains, g, hg, hat, hat.cursory ht⟩

/-- Simulated pins for a table with gaps. -/
def simulatedGapped : Hub Sim := { rigs := #[{ device := .fresh 18 }] }

def gappedPlan : HandlePlan := ⟨some 0, false, some PinTable.gapped, {}⟩

def gappedBuilt : Hub Sim := ((Hub.build gappedPlan).run simulatedGapped).2

/-- A walk to the end through a handle, its clone and a port, a step back, and the same on the
header. -/
def strolled : List (Deed Unit) :=
  [.handle .next, .clone, .handle (.setNumbering .logical), .openOutput [{ pin := 0 }],
    .handle .next, .partClone .dropped, .handle .next, .handle .next, .handle .hasNext,
    .handle .previous, .handle (.setNumbering .physical), .handle .hasPrevious, .handle .pins,
    .handle .next]

/-- The gaps are skipped, the numbering that is set again moves nothing, and the header starts at
its front. -/
theorem cursor_zips_gapped :
    PinTable.gapped.Accepted ∧ Hub.Opened gappedPlan simulatedGapped 0 gappedBuilt ∧
      (Bookmark.front PinTable.gapped .logical).Explains (asked 0 strolled { hub := gappedBuilt }) ∧
      (asked 0 strolled { hub := gappedBuilt }).map (fun call => call.2.toOption) =
        [some (.number? (some 0)), some .done, some (.number? (some 2)), some (.number? (some 4)),
          some (.number? none), some (.flag false), some (.number? (some 4)), some .done,
          some (.flag false), some (.numbers [2, 4]), some (.number? (some 2))] := by
  have haccepted : PinTable.gapped.Accepted := PinTable.problem?_eq_none_iff.mp (by decide +kernel)
  have hopen : Hub.Opened gappedPlan simulatedGapped 0 gappedBuilt := .own rfl
  obtain ⟨hexplains, -⟩ := cursor_zips (κ := Unit) rfl haccepted hopen strolled
  exact ⟨haccepted, hopen, hexplains, by decide +kernel⟩

end Tenants

end BoardGpio
