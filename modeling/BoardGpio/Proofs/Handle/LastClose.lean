import BoardGpio.Proofs.Backend.Device
import BoardGpio.Proofs.Handle.Restore
import BoardGpio.Proofs.Handle.Uses
import BoardGpio.Proofs.Input.World
import Mathlib.Logic.Relation

/-!
# The last reference puts every pin back

A run of a program on one handle is any sequence of uses of the handle, of references taken and
given up, and of things that happen elsewhere and change no mode and no pull of the handle's chip
(`Hub.Step`, `Hub.Run`). Throughout a run the records tell what every pin showed when the handle was
built (`Run.sound`). So when the last reference goes, the pins show it again, or are left alone if
the handle is set so (`letGo_last_restores`).
-/

set_option autoImplicit false

namespace BoardGpio

open Backend Relation

theorem Device.Kin.trans {d₀ d d' : Device} (h : d₀.Kin d) (h' : d.Kin d') : d₀.Kin d' := by
  cases d₀ <;> obtain ⟨b, rfl, _⟩ := h <;> exact h'

namespace Hub

variable {β α : Type}

/-- A handle with its line to the backend it drives. -/
def site? (s : Hub β) (h : Nat) : Option (Gpio (Line β)) :=
  s.handles[h]?.bind fun shared => s.rigs[shared.rig]?.map fun rig =>
    { handle := shared.handle, backend := ⟨rig, shared.direct⟩ }

theorem site?_eq_some_iff {s : Hub β} {h : Nat} {g : Gpio (Line β)} :
    s.site? h = some g ↔ ∃ shared rig, s.handles[h]? = some shared ∧
      s.rigs[shared.rig]? = some rig ∧
        g = { handle := shared.handle, backend := ⟨rig, shared.direct⟩ } := by
  simp only [site?, Option.bind_eq_some_iff, Option.map_eq_some_iff]
  constructor
  · rintro ⟨shared, hs, rig, hr, rfl⟩
    exact ⟨shared, rig, hs, hr, rfl⟩
  · rintro ⟨shared, rig, hs, hr, rfl⟩
    exact ⟨shared, hs, rig, hr, rfl⟩

/-- Where the entry of a handle is the same, so is its bookkeeping. -/
theorem handle_of_same_entry {s t : Hub β} {h : Nat} {g g' : Gpio (Line β)}
    (hentry : t.handles[h]? = s.handles[h]?) (hg : s.site? h = some g)
    (hg' : t.site? h = some g') : g'.handle = g.handle := by
  obtain ⟨shared, rig, hs, -, rfl⟩ := site?_eq_some_iff.mp hg
  obtain ⟨shared', rig', hs', -, rfl⟩ := site?_eq_some_iff.mp hg'
  rw [hentry, hs] at hs'
  cases hs'
  rfl

/-- What is done with a handle is done at its site, and no backend but its own is touched. -/
theorem run_onHandle {s : Hub β} {h : Nat} {g : Gpio (Line β)} (hg : s.site? h = some g)
    (x : Act (Gpio (Line β)) α) :
    ((onHandle h x).run s).1 = (x.run g).1 ∧
      ((onHandle h x).run s).2.site? h = some
        { handle := (x.run g).2.handle
          backend := ⟨(x.run g).2.backend.rig, g.backend.direct⟩ } ∧
      ((x.run g).2.backend = g.backend → ((onHandle h x).run s).2.rigs = s.rigs) := by
  obtain ⟨shared, rig, hs, hr, rfl⟩ := site?_eq_some_iff.mp hg
  generalize hx : x.run { handle := shared.handle, backend := ⟨rig, shared.direct⟩ } = r
  have hrun : (onHandle h x).run s = (r.1,
      { s with
        rigs := s.rigs.setIfInBounds shared.rig r.2.backend.rig
        handles := s.handles.setIfInBounds h { shared with handle := r.2.handle }
        log := s.log ++ r.2.log }) := by
    rw [← hx]
    simp only [Act.run, onHandle, hs, hr]
  have hh : h < s.handles.size := (Array.getElem?_eq_some_iff.mp hs).1
  have hi : shared.rig < s.rigs.size := (Array.getElem?_eq_some_iff.mp hr).1
  rw [hrun]
  refine ⟨rfl, ?_, fun hsame => ?_⟩
  · refine site?_eq_some_iff.mpr
      ⟨{ shared with handle := r.2.handle }, r.2.backend.rig, ?_, ?_, rfl⟩
    · simp [hh]
    · simp [hi]
  · show s.rigs.setIfInBounds shared.rig r.2.backend.rig = s.rigs
    rw [hsame]
    apply Array.ext_getElem?
    intro k
    rw [Array.getElem?_setIfInBounds]
    by_cases hk : shared.rig = k
    · subst hk
      rw [if_pos rfl, if_pos hi, hr]
    · rw [if_neg hk]

theorem site?_countRefs (s : Hub β) (h k : Nat) (f : Nat → Nat) :
    ((countRefs h f).run s).2.site? k = s.site? k := by
  simp only [countRefs, Act.run_modify, site?, Array.getElem?_modify]
  by_cases hk : h = k
  · subst hk
    cases s.handles[h]? <;> simp
  · simp [hk]

theorem refs_onHandle (s : Hub β) (h k : Nat) (x : Act (Gpio (Line β)) α) :
    ((onHandle h x).run s).2.refs k = s.refs k := by
  cases hs : s.handles[h]? with
  | none => simp only [refs, Act.run, onHandle, hs]
  | some shared =>
    cases hr : s.rigs[shared.rig]? with
    | none => simp only [refs, Act.run, onHandle, hs, hr]
    | some rig =>
      simp only [refs, Act.run, onHandle, hs, hr, Array.getElem?_setIfInBounds]
      by_cases hk : h = k
      · subst hk
        have hsize : h < s.handles.size := (Array.getElem?_eq_some_iff.mp hs).1
        rw [if_pos rfl, if_pos hsize, hs]
        rfl
      · rw [if_neg hk]

/-- Giving up one of several references changes nothing but their number. -/
theorem run_letGo_more [Backend β] {s : Hub β} {h : Nat} (hmore : 1 < s.refs h)
    (how : Farewell) : (letGo h how).run s = (countRefs h (· - 1)).run s := by
  have hcount : (countRefs h (· - 1)).run s = (.ok (), ((countRefs h (· - 1)).run s).2) := rfl
  have hlive : ((countRefs h (· - 1)).run s).2.isLive h = true := by
    rw [isLive, refs_countRefs, decide_eq_true_eq]
    split <;> omega
  rw [letGo, Act.run_bind_ok _ hcount, Act.run_bind_ok _ (Act.run_gets _ _), if_pos hlive]
  rfl

/-- The last reference takes leave of the handle. -/
theorem run_letGo_last [Backend β] {s : Hub β} {h : Nat} (hlast : s.refs h = 1)
    (how : Farewell) :
    (letGo h how).run s = (onHandle h (farewell how)).run ((countRefs h (· - 1)).run s).2 := by
  have hcount : (countRefs h (· - 1)).run s = (.ok (), ((countRefs h (· - 1)).run s).2) := rfl
  have hsize : h < s.handles.size := by
    apply Nat.lt_of_not_le
    intro hge
    simp [refs, hge] at hlast
  have hdead : ¬((countRefs h (· - 1)).run s).2.isLive h = true := by
    rw [isLive, refs_countRefs, if_pos ⟨rfl, hsize⟩, hlast]
    decide
  rw [letGo, Act.run_bind_ok _ hcount, Act.run_bind_ok _ (Act.run_gets _ _), if_neg hdead]

def chip? (s : Hub (Unsteady β)) (h : Nat) : Option β := (s.site? h).map Gpio.chip

/-- Number of failed calls of the backend that a handle drives. -/
def failures (s : Hub (Unsteady β)) (h : Nat) : Nat :=
  ((s.site? h).map fun g => g.backend.failures).getD 0

/-- What happens elsewhere: the handle stays as it is, and no pin of its chip shows another mode or
pull. Rules and queues of the rig may change, and so may levels. -/
structure Elsewhere (h : Nat) (s t : Hub (Unsteady Device)) : Prop where
  handle : t.handles[h]? = s.handles[h]?
  chip : ∀ d, s.chip? h = some d → ∃ d', t.chip? h = some d' ∧ Unchanged d.Kin d d'

/-- One step of a program that uses the handle `h`. Giving up the last reference is no step of a
run. -/
inductive Step (h : Nat) : Hub (Unsteady Device) → Hub (Unsteady Device) → Prop where
  | use {α : Type} {x : Act (Gpio (Line (Unsteady Device))) α} (hx : Gpio.IsUse x)
      (s : Hub (Unsteady Device)) : Step h s ((onHandle h x).run s).2
  | clone (s : Hub (Unsteady Device)) : Step h s ((retain h).run s).2
  | part (s : Hub (Unsteady Device)) (hmore : 1 < s.refs h) (how : Farewell) :
      Step h s ((letGo h how).run s).2
  | elsewhere {s t : Hub (Unsteady Device)} (ht : Elsewhere h s t) : Step h s t

/-- A run of a program that uses the handle `h`. -/
def Run (h : Nat) : Hub (Unsteady Device) → Hub (Unsteady Device) → Prop := ReflTransGen (Step h)

/-- The handle is open, and its records tell what the pins of its chip showed on `d₀`. -/
def Sound (d₀ : Device) (h : Nat) (s : Hub (Unsteady Device)) : Prop :=
  ∃ g, s.site? h = some g ∧ g.Sound d₀ d₀.Kin

theorem Sound.countRefs {d₀ : Device} {h k : Nat} {s : Hub (Unsteady Device)} {f : Nat → Nat}
    (hs : Sound d₀ h s) : Sound d₀ h ((countRefs k f).run s).2 := by
  obtain ⟨g, hg, hsound⟩ := hs
  exact ⟨g, by rw [site?_countRefs, hg], hsound⟩

/-- Every step keeps the records of the handle true. -/
theorem Step.sound {d₀ : Device} (hd : d₀.ReportsPulls) {h : Nat} {s t : Hub (Unsteady Device)}
    (hst : Step h s t) (hs : Sound d₀ h s) : Sound d₀ h t := by
  obtain ⟨g, hg, hsound⟩ := hs
  cases hst with
  | use hx s =>
    have hafter := hx.keeps (Device.restorable hd) g hsound
    exact ⟨_, (run_onHandle hg _).2.1, hafter.kept, hafter.unreleased⟩
  | clone s => exact Sound.countRefs ⟨g, hg, hsound⟩
  | part s hmore how =>
    rw [run_letGo_more hmore]
    exact Sound.countRefs ⟨g, hg, hsound⟩
  | elsewhere ht =>
    obtain ⟨d', hchip, hsame⟩ := ht.chip g.chip (by rw [chip?, hg]; rfl)
    obtain ⟨g', hg', hd'⟩ := Option.map_eq_some_iff.mp hchip
    have hhandle := handle_of_same_entry ht.handle hg hg'
    -- no record has changed, and none of the pins that they tell of
    have hkin : Unchanged d₀.Kin g.chip g'.chip := by
      rw [hd']
      exact ⟨hsound.kept.still.trans hsame.still, hsame.modes, hsame.pulls⟩
    refine ⟨g', hg', ?_, ?_⟩
    · rw [hhandle]
      exact hsound.kept.unchanged hkin
    · rw [hhandle]
      exact hsound.unreleased

theorem Run.sound {d₀ : Device} (hd : d₀.ReportsPulls) {h : Nat} {s t : Hub (Unsteady Device)}
    (hrun : Run h s t) (hs : Sound d₀ h s) : Sound d₀ h t := by
  induction hrun with
  | refl => exact hs
  | tail _ hstep ih => exact hstep.sound hd ih

/-- A cycle of a port that reads through the handle is a run, if what happens while it waits and
what its callbacks do are runs. -/
theorem run_poll {κ ε : Type} {h : Nat} {hub : ε → Hub (Unsteady Device)} {s : Surroundings ε}
    {invoke : Invoke κ ε}
    (hread : ∀ mcu w, hub ((s.read mcu).run w).2 = ((onHandle h (Gpio.readMcu mcu)).run (hub w)).2)
    (hpause : ∀ d w, Run h (hub w) (hub (s.pause d w)))
    (hnote : ∀ n w, Run h (hub w) (hub (s.note n w)))
    (hinvoke : ∀ action occasion (d : Desk κ ε),
      Run h (hub d.around) (hub (invoke action occasion d).2.around)) (d : Desk κ ε) :
    Run h (hub d.around) (hub ((Desk.poll s invoke).run d).2.around) ∧
      Run h (hub d.around) (hub ((Desk.monitorCycle s invoke).run d).2.around) := by
  have hspares : Desk.Spares (fun w => Run h (hub d.around) (hub w)) s invoke := by
    refine ⟨fun mcu w hw => ?_, fun delay w hw => ?_, fun n w hw => ?_, fun a o d' hd' => ?_⟩
    · show Run h _ (hub ((s.read mcu).run w).2)
      rw [hread]
      exact ReflTransGen.tail hw (.use (.sample mcu) (hub w))
    · exact ReflTransGen.trans hw (hpause delay w)
    · exact ReflTransGen.trans hw (hnote n w)
    · exact ReflTransGen.trans hd' (hinvoke a o d')
  exact ⟨Desk.keeps_poll hspares d ReflTransGen.refl,
    Desk.keeps_monitorCycle hspares d ReflTransGen.refl⟩

theorem create_fresh (table : PinTable) (settings : HandleSettings) (count pin : Nat) :
    (Handle.create table settings count).record pin = {} := by
  simp only [Handle.record, Handle.create, Array.getD_eq_getD_getElem?, Array.getElem?_replicate]
  split <;> rfl

theorem build_eq_ok_iff {backend : String} {count : Nat} {table : PinTable}
    {settings : HandleSettings} {handle : Handle} :
    Handle.build backend count table settings = .ok handle ↔
      (∀ max, table.maxMcu? = some max → max < count) ∧ .create table settings count = handle := by
  unfold Handle.build
  cases table.maxMcu? with
  | none => simp
  | some max =>
    by_cases hfit : max < count
    · simp [hfit, Nat.not_le.mpr hfit]
    · simp [hfit, Nat.le_of_not_lt hfit]

/-- A handle that was opened stands on its backend, with one reference. -/
theorem built [Backend β] {plan : HandlePlan} {s s₀ : Hub β} {h : Nat}
    (hrun : (build plan).run s = (.ok h, s₀)) :
    ∃ i table rig, plan.rig = some i ∧ plan.table = some table ∧ s.rigs[i]? = some rig ∧
      (∀ max, table.maxMcu? = some max → max < Backend.pinCount rig) ∧ h = s.handles.size ∧
        s₀.refs h = 1 ∧ s₀.site? h = some
          { handle := .create table plan.settings (Backend.pinCount rig)
            backend := ⟨rig, plan.direct⟩ } := by
  simp only [Act.run, build] at hrun
  split at hrun
  case h_2 => cases hrun
  case h_1 i table hi htable =>
    split at hrun
    case h_1 => cases hrun
    case h_2 rig hrig =>
      split at hrun
      case h_1 => cases hrun
      case h_2 handle hhandle =>
        cases hrun
        obtain ⟨hfit, rfl⟩ := build_eq_ok_iff.mp hhandle
        refine ⟨i, table, rig, hi, htable, hrig, hfit, rfl, by simp [refs], ?_⟩
        exact site?_eq_some_iff.mpr ⟨⟨_, i, plan.direct, 1⟩, rig, Array.getElem?_push_size, hrig, rfl⟩

/-- On a backend with enough pins a handle can be opened. -/
theorem exists_built [Backend β] {s : Hub β} {i : Nat} {rig : Rig β} (hrig : s.rigs[i]? = some rig)
    {table : PinTable} (hfit : ∀ max, table.maxMcu? = some max → max < Backend.pinCount rig)
    (settings : HandleSettings) (direct : Bool) :
    ∃ s₀, (build ⟨some i, direct, some table, settings⟩).run s = (.ok s.handles.size, s₀) := by
  have hhandle : Handle.build (Backend.name rig) (Backend.pinCount rig) table settings =
      .ok (.create table settings (Backend.pinCount rig)) := build_eq_ok_iff.mpr ⟨hfit, rfl⟩
  simp only [Act.run, build, hrig, hhandle]
  exact ⟨_, rfl⟩

/-- The records of a new handle are true of whatever its chip shows. -/
theorem sound_build {plan : HandlePlan} {s s₀ : Hub (Unsteady Device)} {h : Nat} {d₀ : Device}
    (hbuild : (build plan).run s = (.ok h, s₀)) (hchip : s₀.chip? h = some d₀)
    (hd : d₀.ReportsPulls) : Sound d₀ h s₀ := by
  obtain ⟨g, hg, rfl⟩ := Option.map_eq_some_iff.mp hchip
  obtain ⟨i, table, rig, -, -, -, -, -, -, hsite⟩ := built hbuild
  rw [hg] at hsite
  cases hsite
  -- an empty record tells that the pin shows what it shows
  refine ⟨_, hg, ⟨(Device.restorable hd).start, fun pin => ?_⟩, rfl⟩
  rw [create_fresh]
  exact ⟨.untouched rfl, .untouched rfl⟩

/-- When the last reference to a handle goes, its pins are put back, or left alone if the handle is
set so. The first case supposes that no rule of the rig keeps a restoring call from the backend and
that no backend call fails on the way. -/
theorem letGo_last_restores {plan : HandlePlan} {s s₀ s₁ : Hub (Unsteady Device)} {h : Nat}
    {d₀ : Device} (hbuild : (build plan).run s = (.ok h, s₀)) (hchip : s₀.chip? h = some d₀)
    (hreports : d₀.ReportsPulls) (hrun : Run h s₀ s₁) (hlast : s₁.refs h = 1) (how : Farewell) :
    ∃ g, s₁.site? h = some g ∧
      (g.handle.releaseOnClose = true → g.Clear →
        ((letGo h how).run s₁).2.failures h = s₁.failures h →
          ((letGo h how).run s₁).1 = .ok () ∧
            ∃ d, ((letGo h how).run s₁).2.chip? h = some d ∧
              ∀ pin, modeOf d pin = modeOf d₀ pin ∧ pullOf d pin = pullOf d₀ pin) ∧
      (g.handle.releaseOnClose = false →
        ((letGo h how).run s₁).1 = .ok () ∧ ((letGo h how).run s₁).2.rigs = s₁.rigs) := by
  obtain ⟨g, hg, hsound⟩ := hrun.sound hreports (sound_build hbuild hchip hreports)
  have hg' : ((countRefs h (· - 1)).run s₁).2.site? h = some g := by rw [site?_countRefs, hg]
  -- counting the reference down moves no site, so the farewell meets the records of the run
  obtain ⟨hres, hsite, hrigs⟩ := run_onHandle hg' (farewell how)
  rw [run_letGo_last hlast, hres]
  refine ⟨g, hg, fun hset hclear hquiet => ?_, fun hset => ?_⟩
  · have hfail : ((farewell how).run g).2.backend.failures = g.backend.failures := by
      simp only [failures, hsite, hg, Option.map_some, Option.getD_some] at hquiet
      exact hquiet
    obtain ⟨g', hleave, hback⟩ :=
      Gpio.farewell_restores (Device.restorable hreports) hsound hset hclear how hfail
    rw [hleave] at hsite ⊢
    refine ⟨rfl, g'.chip, ?_, hback⟩
    rw [chip?, hsite]
    rfl
  · obtain ⟨g', hleave, hsame⟩ := Gpio.farewell_asIs hsound.unreleased hset how
    rw [hleave] at hrigs ⊢
    exact ⟨rfl, hrigs hsame⟩

/-! ## A run on two simulated pins -/

def twoPinsPlan : HandlePlan := ⟨some 0, false, some ⟨"two", [some 0, some 1], []⟩, {}⟩

/-- Two simulated pins, the first an output. -/
def twoPins : Hub (Unsteady Device) :=
  { rigs := #[{ device := { device := .sim { pins := #[{ mode := .output }, {}] }
                            mishap := fun _ => none } }] }

def twoPinsBuilt : Hub (Unsteady Device) := ((build twoPinsPlan).run twoPins).2

/-- A port that makes the first pin an input with a pull-up. -/
def twoPinsPort : Act (Gpio (Line (Unsteady Device))) (InputPort Unit) :=
  InputPort.openPort [{ pin := 0, pull := .up }] {} 0

/-- The port was opened, and holds a second reference. -/
def twoPinsShared : Hub (Unsteady Device) :=
  ((retain 0).run ((onHandle 0 twoPinsPort).run twoPinsBuilt).2).2

def twoPinsLeft : Hub (Unsteady Device) := ((letGo 0 .dropped).run twoPinsShared).2

/-- The last close makes the first pin an output without a pull again. -/
theorem letGo_last_restores_twoPins :
    ((twoPinsLeft.chip? 0).map fun d => (modeOf d 0).toOption) = some (some .input) ∧
      ((letGo 0 .closed).run twoPinsLeft).1 = .ok () ∧
        ∃ d, ((letGo 0 .closed).run twoPinsLeft).2.chip? 0 = some d ∧
          modeOf d 0 = .ok .output ∧ pullOf d 0 = .ok (some .off) := by
  refine ⟨by decide +kernel, ?_⟩
  have hrun : Run 0 twoPinsBuilt twoPinsLeft :=
    ((ReflTransGen.single (.use (.openInput [{ pin := 0, pull := .up }] {} 0) twoPinsBuilt)).tail
      (.clone _)).tail (.part twoPinsShared (by decide +kernel) .dropped)
  have hreports : Device.ReportsPulls (.sim { pins := #[{ mode := .output }, {}] }) :=
    ⟨rfl, by decide⟩
  have hset : ((twoPinsLeft.site? 0).map fun g => g.handle.releaseOnClose) = some true := by
    decide +kernel
  have hrules : ((twoPinsLeft.site? 0).map fun g => g.backend.rig.faults) = some [] := by
    decide +kernel
  have hbuild : (build twoPinsPlan).run twoPins = (.ok 0, twoPinsBuilt) := rfl
  obtain ⟨g, hg, hback, -⟩ :=
    letGo_last_restores hbuild (by rfl) hreports hrun (by decide +kernel) .closed
  rw [hg] at hset hrules
  have hclear : g.Clear := by
    intro pin call _ hbar
    have hnone : g.backend.rig.faults = [] := by simpa using hrules
    rw [Line.Barred, hnone] at hbar
    simp at hbar
  obtain ⟨hok, d, hd, hpins⟩ := hback (by simpa using hset) hclear (by decide +kernel)
  exact ⟨hok, d, hd, (hpins 0).1.trans (by rfl), (hpins 0).2.trans (by rfl)⟩

end Hub

end BoardGpio
