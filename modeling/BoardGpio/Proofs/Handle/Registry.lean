import BoardGpio.Proofs.Handle.Beside

/-!
# One live shared handle

A program opens handles of its own and shared ones, in any order, and does whatever it likes with
them and with the ports on them (`Estate.Step`, `Estate.Run`). No deed brings a handle back that has
no tenants left, so the current handle is the only one of the shared handles that can have tenants
(`Estate.Sound`). Main statement: at most one shared handle is live at any time; opening a shared
handle joins it as long as it has any tenant, be it a port, and otherwise opens a new one from its
own plan; and an opening that fails leaves everything as it was (`Estate.one_shared`).
-/

set_option autoImplicit false

namespace BoardGpio

open Bench Relation

/-! ## What opening a handle does -/

namespace Hub

variable {β : Type} [Backend β] {s : Hub β}

/-- Where there is none to join, the handle that is built becomes the current one. -/
theorem run_openShared_build (hnone : s.joinable? = none) (plan : HandlePlan) :
    (openShared plan).run s = match (build plan).run s with
      | (.ok h, t) => (.ok h, { t with current := some h })
      | (.error f, t) => (.error f, t) := by
  rw [openShared, Act.run_bind_ok _ (Act.run_gets _ s), hnone]
  show (build plan >>= fun h => _).run s = _
  rw [Act.run_bind]
  rcases (build plan).run s with ⟨f | h, t⟩ <;> rfl

/-- The plan names the backend `rig`, which is the `i`-th of the hub, and the table. -/
structure Supplies (s : Hub β) (plan : HandlePlan) (i : Nat) (table : PinTable) (rig : Rig β) :
    Prop where
  index : plan.rig = some i
  table : plan.table = some table
  there : s.rigs[i]? = some rig

/-- What comes of a plan depends on whether the backend has enough pins for the table. -/
theorem run_build {plan : HandlePlan} {i : Nat} {table : PinTable} {rig : Rig β}
    (hplan : s.Supplies plan i table rig) :
    (∀ max, table.maxMcu? = some max → Backend.pinCount rig ≤ max →
      (build plan).run s = (.error (.error (.config
        (.tableTooLarge table.name max (Backend.name rig) (Backend.pinCount rig)))), s)) ∧
    ((∀ max, table.maxMcu? = some max → max < Backend.pinCount rig) →
      ∃ log, (build plan).run s = (.ok s.handles.size, { s with
        handles := s.handles.push
          { handle := .create table plan.settings (Backend.pinCount rig)
            rig := i
            direct := plan.direct
            refs := 1 }
        log := log })) := by
  constructor
  · intro max hmax hlarge
    simp only [Act.run, build, hplan.index, hplan.table, hplan.there, Handle.build, hmax, hlarge,
      if_true]
  · intro hfit
    have hhandle : Handle.build (Backend.name rig) (Backend.pinCount rig) table plan.settings =
        .ok (.create table plan.settings (Backend.pinCount rig)) := build_eq_ok_iff.mpr ⟨hfit, rfl⟩
    simp only [Act.run, build, hplan.index, hplan.table, hplan.there, hhandle]
    exact ⟨_, rfl⟩

theorem run_build_cases (plan : HandlePlan) (s : Hub β) :
    (∃ f, (build plan).run s = (.error f, s)) ∨
      ∃ shared log, (build plan).run s =
        (.ok s.handles.size, { s with handles := s.handles.push shared, log := log }) := by
  simp only [Act.run, build]
  split
  case h_2 => exact .inl ⟨_, rfl⟩
  case h_1 =>
    split
    case h_1 => exact .inl ⟨_, rfl⟩
    case h_2 =>
      split
      case h_1 => exact .inl ⟨_, rfl⟩
      case h_2 => exact .inr ⟨_, _, rfl⟩

/-- A plan from which a handle can be opened if its backend has enough pins. -/
def Supplied (s : Hub β) (plan : HandlePlan) : Prop :=
  ∃ i table rig, s.Supplies plan i table rig

end Hub

/-! ## Estates -/

/-- Those who hold references to one handle. -/
structure Household (κ : Type) where
  clones : Nat := 0
  inputs : List (InputHold κ) := []
  outputs : List (Option OutputPort) := []

/-- A hub with the households of all its handles, and with the handles that opening a shared handle
has given. -/
structure Estate (β κ : Type) where
  hub : Hub β
  households : Nat → Household κ := fun _ => {}
  shared : List Nat := []

namespace Estate

variable {β κ : Type} {e : Estate β κ} {h k : Nat}

def tenants (e : Estate β κ) (h : Nat) : Tenants β κ where
  hub := e.hub
  clones := (e.households h).clones
  inputs := (e.households h).inputs
  outputs := (e.households h).outputs

/-- The estate with other tenants for the handle `h`. -/
def settle (e : Estate β κ) (h : Nat) (t : Tenants β κ) : Estate β κ :=
  { e with
    hub := t.hub
    households := Function.update e.households h
      { clones := t.clones, inputs := t.inputs, outputs := t.outputs } }

/-- The estate after a handle was asked for. One that was given has one clone more. -/
def receive (e : Estate β κ) (share : Bool) : Except Failure Nat × Hub β → Estate β κ
  | (.ok h, s) =>
    { e.settle h { e.tenants h with hub := s, clones := (e.tenants h).clones + 1 } with
      shared := if share then h :: e.shared else e.shared }
  | (.error _, s) => { e with hub := s }

theorem tenants_settle (e : Estate β κ) (h : Nat) (t : Tenants β κ) :
    (e.settle h t).tenants h = t := by
  simp [tenants, settle]

theorem tenants_settle_ne (e : Estate β κ) (t : Tenants β κ) (hk : k ≠ h) :
    (e.settle h t).tenants k = { e.tenants k with hub := t.hub } := by
  simp [tenants, settle, Function.update_of_ne hk]

theorem tenants_receive (e : Estate β κ) (share : Bool) (h : Nat) (s : Hub β) :
    (e.receive share (.ok h, s)).tenants h =
      { e.tenants h with hub := s, clones := (e.tenants h).clones + 1 } :=
  tenants_settle e h { e.tenants h with hub := s, clones := (e.tenants h).clones + 1 }

theorem tenants_receive_ne (e : Estate β κ) (share : Bool) (s : Hub β) (hk : k ≠ h) :
    (e.receive share (.ok h, s)).tenants k = { e.tenants k with hub := s } :=
  tenants_settle_ne e { e.tenants h with hub := s, clones := (e.tenants h).clones + 1 } hk

theorem live_receive_ne (e : Estate β κ) (share : Bool) (s : Hub β) (hk : k ≠ h) :
    ((e.receive share (.ok h, s)).tenants k).live = (e.tenants k).live := by
  rw [tenants_receive_ne e share s hk]
  rfl

variable [Backend β]

/-- One step of a program. What is opened from a plan needs the backend and the table of the plan,
unless there is a handle to join. -/
inductive Step : Estate β κ → Estate β κ → Prop where
  | share (e : Estate β κ) (plan : HandlePlan)
      (hplan : e.hub.joinable? = none → e.hub.Supplied plan) :
      Step e (e.receive true ((Hub.openShared plan).run e.hub))
  | build (e : Estate β κ) (plan : HandlePlan) (hplan : e.hub.Supplied plan) :
      Step e (e.receive false ((Hub.build plan).run e.hub))
  | deed (e : Estate β κ) {h : Nat} (hh : h < e.hub.handles.size) (d : Deed κ) :
      Step e (e.settle h ((d.perform h).run (e.tenants h)).2)
  /-- The backends change, or there are more of them. -/
  | elsewhere (e : Estate β κ) {rigs : Array (Rig β)} (hrigs : e.hub.rigs.size ≤ rigs.size) :
      Step e { e with hub := { e.hub with rigs := rigs } }

def Run : Estate β κ → Estate β κ → Prop := ReflTransGen Step

/-! ## What every step keeps -/

section

omit [Backend β]

/-- The tenants of all handles are counted. -/
structure Housed (e : Estate β κ) : Prop where
  counted : ∀ h < e.hub.handles.size, (e.tenants h).Counted h
  /-- Nobody lives in a handle that is still to come. -/
  vacant : ∀ h, e.hub.handles.size ≤ h → e.households h = {}

/-- Of the shared handles only the current one can have tenants. -/
structure Sound (e : Estate β κ) : Prop extends Housed e where
  known : ∀ h ∈ e.shared, h < e.hub.handles.size
  sole : ∀ h ∈ e.shared, 0 < (e.tenants h).live → e.hub.current = some h
  current : ∀ h, e.hub.current = some h → h ∈ e.shared

theorem Sound.start {s : Hub β} (hnone : s.handles = #[]) (hcurrent : s.current = none) :
    Sound ({ hub := s } : Estate β κ) where
  counted h hh := by simp [hnone] at hh
  vacant _ _ := rfl
  known h hh := absurd hh List.not_mem_nil
  sole h hh := absurd hh List.not_mem_nil
  current h hh := by simp [hcurrent] at hh

/-- The handle to be joined is the shared one that has tenants. -/
theorem Sound.joinable_iff (he : e.Sound) :
    e.hub.joinable? = some h ↔ h ∈ e.shared ∧ 0 < (e.tenants h).live := by
  have hlive : ∀ k ∈ e.shared, e.hub.isLive k = decide (0 < (e.tenants k).live) := by
    intro k hk
    rw [Hub.isLive, ← (he.counted k (he.known k hk)).stands.refs]
    rfl
  rw [Hub.joinable?_eq_some_iff]
  constructor
  · rintro ⟨hcurrent, hh⟩
    have hmem := he.current h hcurrent
    rw [hlive h hmem, decide_eq_true_eq] at hh
    exact ⟨hmem, hh⟩
  · rintro ⟨hmem, hh⟩
    refine ⟨he.sole h hmem hh, ?_⟩
    rw [hlive h hmem, decide_eq_true_eq]
    exact hh

theorem Sound.none_joinable_iff (he : e.Sound) :
    e.hub.joinable? = none ↔ ∀ h ∈ e.shared, (e.tenants h).live = 0 := by
  rw [Option.eq_none_iff_forall_ne_some]
  constructor
  · intro hnone h hmem
    have hdead : ¬(0 < (e.tenants h).live) := fun hlive =>
      hnone h (he.joinable_iff.mpr ⟨hmem, hlive⟩)
    omega
  · intro hnone h hjoin
    obtain ⟨hmem, hlive⟩ := he.joinable_iff.mp hjoin
    have hdead := hnone h hmem
    omega

theorem Sound.known_push (he : e.Sound) (shared : Shared) (hk : k ∈ e.shared) :
    k < (e.hub.handles.push shared).size := by
  rw [Array.size_push]
  exact Nat.lt_succ_of_lt (he.known k hk)

theorem Sound.again (he : e.Sound) (hmem : h ∈ e.shared) :
    Sound { e with shared := h :: e.shared } where
  counted := he.counted
  vacant := he.vacant
  known k hk := (List.mem_cons.mp hk).elim (fun hkh => hkh ▸ he.known h hmem) (he.known k)
  sole k hk := (List.mem_cons.mp hk).elim (fun hkh => hkh ▸ he.sole h hmem) (he.sole k)
  current k hk := List.mem_cons_of_mem h (he.current k hk)

/-- The tenants of a new handle are its first reference, and those of the others are counted as
before. -/
theorem Housed.receive (he : e.Housed) {shared : Shared} {current : Option Nat} {log : List Notice}
    (hs : Hub.Stands e.hub.handles.size 1 false
      { e.hub with handles := e.hub.handles.push shared, current := current, log := log })
    (share : Bool) :
    Housed (e.receive share (.ok e.hub.handles.size,
      { e.hub with handles := e.hub.handles.push shared, current := current, log := log })) := by
  have hsize : (e.hub.handles.push shared).size = e.hub.handles.size + 1 := Array.size_push _
  refine ⟨fun k hk => ?_, fun k hk => ?_⟩
  · change k < (e.hub.handles.push shared).size at hk
    by_cases hnew : k = e.hub.handles.size
    · -- nobody lived there, so the clone that is given is the only reference
      subst hnew
      rw [tenants_receive]
      have hvacant := he.vacant _ (Nat.le_refl _)
      have hinputs : (e.tenants e.hub.handles.size).inputs = [] := by rw [tenants, hvacant]
      have hlive : (e.tenants e.hub.handles.size).live = 0 := by
        unfold tenants
        rw [hvacant]
        rfl
      refine Tenants.Counted.of hs ?_ rfl fun p hp => ?_
      · rw [Tenants.live_addClone, hlive]
      · rw [hinputs] at hp
        exact absurd hp List.not_mem_nil
    · rw [tenants_receive_ne e share _ hnew]
      have hold : k < e.hub.handles.size := by omega
      refine (he.counted k hold).of_same ?_ (Nat.le_refl _)
      show (e.hub.handles.push shared)[k]? = e.hub.handles[k]?
      rw [Array.getElem?_push, if_neg hnew]
  · change (e.hub.handles.push shared).size ≤ k at hk
    show Function.update e.households e.hub.handles.size _ k = {}
    rw [Function.update_of_ne (by omega)]
    exact he.vacant k (by omega)

end

/-- A deed is between a handle and its tenants, and brings nobody back. -/
theorem Sound.deed (he : e.Sound) (hh : h < e.hub.handles.size) (d : Deed κ) :
    (e.settle h ((d.perform h).run (e.tenants h)).2).Sound := by
  have hbeside : Hub.Beside h e.hub ((d.perform h).run (e.tenants h)).2.hub :=
    Tenants.beside_perform d (e.tenants h) (Hub.Beside.refl h e.hub)
  have hstep := (he.counted h hh).step d
  have hback : 0 < ((d.perform h).run (e.tenants h)).2.live → 0 < (e.tenants h).live := by
    intro hlive
    apply Nat.pos_of_ne_zero
    intro hnone
    rw [(he.counted h hh).absent hnone d, hnone] at hlive
    exact absurd hlive (Nat.lt_irrefl 0)
  generalize ((d.perform h).run (e.tenants h)).2 = t at hbeside hstep hback ⊢
  have hsize : (e.settle h t).hub.handles.size = e.hub.handles.size := hbeside.count
  refine ⟨⟨fun k hk => ?_, fun k hk => ?_⟩, fun k hk => ?_, fun k hk hlive => ?_, fun k hk => ?_⟩
  · by_cases hkh : k = h
    · subst hkh
      rw [tenants_settle]
      exact hstep
    · rw [tenants_settle_ne e t hkh]
      exact (he.counted k (by omega)).of_same (hbeside.handles k hkh)
        (Nat.le_of_eq hbeside.rigs.symm)
  · rw [hsize] at hk
    have hkh : k ≠ h := by omega
    show Function.update e.households h _ k = {}
    rw [Function.update_of_ne hkh]
    exact he.vacant k hk
  · rw [hsize]
    exact he.known k hk
  · refine hbeside.current.trans (he.sole k hk ?_)
    by_cases hkh : k = h
    · subst hkh
      rw [tenants_settle] at hlive
      exact hback hlive
    · rw [tenants_settle_ne e t hkh] at hlive
      exact hlive
  · exact he.current k (hbeside.current.symm.trans hk)

theorem Sound.share (he : e.Sound) (plan : HandlePlan) :
    (e.receive true ((Hub.openShared plan).run e.hub)).Sound := by
  cases hjoin : e.hub.joinable? with
  | some h =>
    -- joining is a deed with the current handle, so nothing is to be shown again
    obtain ⟨hmem, -⟩ := he.joinable_iff.mp hjoin
    have hdeed : ((Deed.join plan).perform h).run (e.tenants h) =
        (.ok .done, { e.tenants h with
          hub := ((Hub.openShared plan).run e.hub).2
          clones := (e.tenants h).clones + 1 }) := by
      have hcan : ((e.tenants h).hub.joinable? == some h) = true := by simp [tenants, hjoin]
      rw [Deed.perform, Tenants.run_provided, if_pos hcan, run_quiet, Act.run_bind,
        Tenants.run_onHub, show (e.tenants h).hub = e.hub from rfl, Hub.run_openShared_join hjoin]
      rfl
    have hsound := (he.deed (he.known h hmem) (.join plan)).again (h := h) hmem
    rw [hdeed] at hsound
    rw [Hub.run_openShared_join hjoin] at hsound ⊢
    exact hsound
  | none =>
    have hdead := he.none_joinable_iff.mp hjoin
    rw [Hub.run_openShared_build hjoin]
    rcases Hub.run_build_cases plan e.hub with ⟨f, hrun⟩ | ⟨shared, log, hrun⟩
    · rw [hrun]
      exact he
    · have hs : Hub.Stands e.hub.handles.size 1 false
          { e.hub with
            handles := e.hub.handles.push shared
            current := some e.hub.handles.size
            log := log } :=
        have hbuilt := Hub.stands_build hrun
        ⟨hbuilt.refs, hbuilt.site⟩
      rw [hrun]
      refine ⟨he.receive hs true, fun k hk => ?_, fun k hk hlive => ?_, fun k hk => ?_⟩
      · rcases List.mem_cons.mp hk with rfl | hk
        · exact Nat.lt_of_lt_of_eq (Nat.lt_succ_self _) (Array.size_push shared).symm
        · exact he.known_push shared hk
      · rcases List.mem_cons.mp hk with rfl | hk
        · rfl
        · -- who was shared before has no tenants, or it would have been joined
          rw [live_receive_ne e true _ (Nat.ne_of_lt (he.known k hk)), hdead k hk] at hlive
          exact absurd hlive (Nat.lt_irrefl 0)
      · cases hk
        exact List.mem_cons_self

theorem Sound.build (he : e.Sound) (plan : HandlePlan) :
    (e.receive false ((Hub.build plan).run e.hub)).Sound := by
  rcases Hub.run_build_cases plan e.hub with ⟨f, hrun⟩ | ⟨shared, log, hrun⟩
  · rw [hrun]
    exact he
  · have hs := Hub.stands_build hrun
    rw [hrun]
    refine ⟨he.receive hs false, fun k hk => he.known_push shared hk, fun k hk hlive => ?_,
      he.current⟩
    rw [live_receive_ne e false _ (Nat.ne_of_lt (he.known k hk))] at hlive
    exact he.sole k hk hlive

theorem Step.sound {e e' : Estate β κ} (hstep : Step e e') (he : e.Sound) : e'.Sound := by
  cases hstep with
  | share plan hplan => exact he.share plan
  | build plan hplan => exact he.build plan
  | deed hh d => exact he.deed hh d
  | elsewhere hrigs =>
    exact ⟨⟨fun k hk => (he.counted k hk).of_same rfl hrigs, he.vacant⟩, he.known, he.sole,
      he.current⟩

theorem Run.sound {e e' : Estate β κ} (hrun : Run e e') (he : e.Sound) : e'.Sound := by
  -- on the steps; that only the current handle can have tenants is what carries it
  induction hrun with
  | refl => exact he
  | tail _ hstep ih => exact hstep.sound ih

/-! ## The account -/

/-- What holds of an estate at any time. -/
structure OneShared (e : Estate β κ) : Prop where
  /-- Every tenant is a reference to its handle, and there are no others. -/
  refs : ∀ h < e.hub.handles.size, e.hub.refs h = (e.tenants h).live
  /-- One shared handle at most has tenants. -/
  sole : ∀ h ∈ e.shared, ∀ k ∈ e.shared, 0 < (e.tenants h).live → 0 < (e.tenants k).live → h = k
  /-- While it has any, it is given again, with one more reference, and nothing else changes,
  whatever the plan says. -/
  joins : ∀ h ∈ e.shared, 0 < (e.tenants h).live → ∀ plan,
    (Hub.openShared plan).run e.hub = (.ok h, { e.hub with
      handles := e.hub.handles.modify h fun shared => { shared with refs := shared.refs + 1 }
      log := e.hub.log ++ [.joined (e.hub.refs h + 1)] })
  /-- When it has none, a new handle is made from the plan. -/
  opens : (∀ h ∈ e.shared, (e.tenants h).live = 0) → ∀ plan i table rig,
    e.hub.Supplies plan i table rig →
      (∀ max, table.maxMcu? = some max → max < Backend.pinCount rig) →
        ∃ log, (Hub.openShared plan).run e.hub = (.ok e.hub.handles.size, { e.hub with
          handles := e.hub.handles.push
            { handle := .create table plan.settings (Backend.pinCount rig)
              rig := i
              direct := plan.direct
              refs := 1 }
          current := some e.hub.handles.size
          log := log })
  /-- A backend with too few pins for the table is refused. -/
  refuses : (∀ h ∈ e.shared, (e.tenants h).live = 0) → ∀ plan i table rig,
    e.hub.Supplies plan i table rig →
      ∀ max, table.maxMcu? = some max → Backend.pinCount rig ≤ max →
        (Hub.openShared plan).run e.hub = (.error (.error (.config
          (.tableTooLarge table.name max (Backend.name rig) (Backend.pinCount rig)))), e.hub)
  /-- What fails is the building of the handle, and it leaves the hub as it was. -/
  failed : ∀ plan f s, (Hub.openShared plan).run e.hub = (.error f, s) →
    (Hub.build plan).run e.hub = (.error f, e.hub) ∧ s = e.hub

theorem Sound.oneShared (he : e.Sound) : e.OneShared where
  refs h hh := (he.counted h hh).stands.refs
  sole h hh k hk hlive hlive' :=
    Option.some.inj ((he.sole h hh hlive).symm.trans (he.sole k hk hlive'))
  joins h hh hlive plan := Hub.run_openShared_join (he.joinable_iff.mpr ⟨hh, hlive⟩) plan
  opens hdead plan i table rig hplan hfit := by
    obtain ⟨log, hbuild⟩ := (Hub.run_build hplan).2 hfit
    rw [Hub.run_openShared_build (he.none_joinable_iff.mpr hdead), hbuild]
    exact ⟨log, rfl⟩
  refuses hdead plan i table rig hplan max hmax hlarge := by
    rw [Hub.run_openShared_build (he.none_joinable_iff.mpr hdead),
      (Hub.run_build hplan).1 max hmax hlarge]
  failed plan f s hrun := by
    cases hjoin : e.hub.joinable? with
    | some h =>
      rw [Hub.run_openShared_join hjoin] at hrun
      cases hrun
    | none =>
      rw [Hub.run_openShared_build hjoin] at hrun
      rcases Hub.run_build_cases plan e.hub with ⟨f', hbuild⟩ | ⟨shared, log, hbuild⟩
      · rw [hbuild] at hrun
        cases hrun
        exact ⟨hbuild, rfl⟩
      · rw [hbuild] at hrun
        cases hrun

/-- Whatever a program opens and does, one of its shared handles is live at most, and that is the
one to be joined. -/
theorem one_shared {s : Hub β} {e : Estate β κ} (hnone : s.handles = #[])
    (hcurrent : s.current = none) (hrun : Run { hub := s } e) : e.OneShared :=
  (hrun.sound (Sound.start hnone hcurrent)).oneShared

/-! ## A port that outlives its handle -/

/-- Nobody has opened anything on two simulated pins. -/
def untouched : Estate Sim Unit := { hub := Tenants.simulated }

def asked (e : Estate Sim Unit) : Estate Sim Unit :=
  e.receive true ((Hub.openShared Hub.twoPinsPlan).run e.hub)

def after (e : Estate Sim Unit) (h : Nat) (d : Deed Unit) : Estate Sim Unit :=
  e.settle h ((d.perform h).run (e.tenants h)).2

theorem step_asked {e : Estate Sim Unit} (hplan : e.hub.joinable? = none →
    e.hub.Supplied Hub.twoPinsPlan) : Step e (asked e) := .share e _ hplan

theorem step_after {e : Estate Sim Unit} {h : Nat} (hh : h < e.hub.handles.size) (d : Deed Unit) :
    Step e (after e h d) := .deed e hh d

/-- Of the first handle only a port is left. -/
def portLeft : Estate Sim Unit :=
  after (after (asked untouched) 0 (.openInput [{ pin := 0, pull := .up }] {} 0)) 0
    (.partClone .closed)

/-- It was joined once more, and then everybody left. -/
def allLeft : Estate Sim Unit :=
  after (after (asked portLeft) 0 (.partInput 0 false .dropped)) 0 (.partClone .closed)

/-- A plan without backend or table joins the handle of which only a port is left. When that has
gone too, the next handle is a new one. -/
theorem one_shared_portLeft :
    untouched.hub.handles = #[] ∧ untouched.hub.current = none ∧
      Run untouched portLeft ∧ Run untouched allLeft ∧
        (portLeft.tenants 0).clones = 0 ∧ (portLeft.tenants 0).live = 1 ∧
          ((Hub.openShared ⟨none, false, none, {}⟩).run portLeft.hub).1 = .ok 0 ∧
            (allLeft.tenants 0).live = 0 ∧
              ((Hub.openShared Hub.twoPinsPlan).run allLeft.hub).1 = .ok 1 := by
  have hport : Run untouched portLeft :=
    ((ReflTransGen.single (step_asked fun _ => ⟨0, _, _, rfl, rfl, rfl⟩)).tail
      (step_after (by decide +kernel) _)).tail (step_after (by decide +kernel) _)
  have hall : Run untouched allLeft :=
    ((hport.tail (step_asked fun hnone => absurd hnone (by decide +kernel))).tail
      (step_after (by decide +kernel) _)).tail (step_after (by decide +kernel) _)
  have hjoins := (one_shared rfl rfl hport).joins 0 (by decide +kernel) (by decide +kernel)
    ⟨none, false, none, {}⟩
  have hpins : allLeft.hub.rigs[0]?.map Backend.pinCount = some 2 := by decide +kernel
  obtain ⟨rig, hrig, hcount⟩ := Option.map_eq_some_iff.mp hpins
  have hfit : ∀ max, PinTable.maxMcu? ⟨"two", [some 0, some 1], []⟩ = some max →
      max < Backend.pinCount rig := by
    intro max hmax
    cases hmax
    rw [hcount]
    decide
  obtain ⟨log, hopens⟩ := (one_shared rfl rfl hall).opens (by decide +kernel) Hub.twoPinsPlan 0 _
    rig ⟨rfl, rfl, hrig⟩ hfit
  have hsize : allLeft.hub.handles.size = 1 := by decide +kernel
  rw [hsize] at hopens
  refine ⟨rfl, rfl, hport, hall, by decide +kernel, by decide +kernel, ?_, by decide +kernel, ?_⟩
  · rw [hjoins]
  · rw [hopens]

end Estate

end BoardGpio
