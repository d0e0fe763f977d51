import BoardGpio.Proofs.Backend.Matching
import BoardGpio.Proofs.Handle.Paired
import BoardGpio.Proofs.Handle.Sited

/-!
# Handles on matching backends

Two handles of equal bookkeeping on backends that match are used alike (`Gpio.paired`), and released
alike (`Gpio.alike_release`). Levels read alike from pins that are outputs, through the handle and
through output ports (`Gpio.Alike.readIndices`). In a hub, such handles are opened ports on, and parted
with, alike (`Hub.Alike`). What the backends tell the log is not compared.
-/

set_option autoImplicit false

namespace BoardGpio

open Backend

namespace Gpio

variable {β γ α : Type} [Backend β] [Backend γ] {Q : β → γ → Prop} {Settable : Mode → Prop}

/-- The bookkeeping is equal, the backends are related, and every mode that is to be put back can be
set. -/
structure Alike (Q : β → γ → Prop) (Settable : Mode → Prop) (g : Gpio β) (g' : Gpio γ) : Prop where
  handle : g.handle = g'.handle
  backend : Q g.backend g'.backend
  records : ∀ mcu m, (g.handle.record mcu).restoreMode = some m → Settable m

section Parts

omit [Backend β] [Backend γ]

theorem alike_hardware {x : Act β α} {y : Act γ α} (hx : Act.Matches Q x y) :
    Act.Matches (Alike Q Settable) (hardware x) (hardware y) := by
  intro g g' h
  obtain ⟨hres, hrel⟩ := hx _ _ h.backend
  exact ⟨hres, h.handle, hrel, h.records⟩

theorem alike_update {f : Handle → Handle} (hf : ∀ h, (f h).records = h.records) :
    Act.Matches (Alike Q Settable) (update f) (update f) := by
  refine Act.Matches.modify fun g g' h => ⟨congrArg f h.handle, h.backend, fun mcu m hm => ?_⟩
  refine h.records mcu m ?_
  unfold Handle.record at hm ⊢
  rw [hf] at hm
  exact hm

theorem alike_updateRecord (mcu : Nat) {f : PinRecord → PinRecord}
    (hf : ∀ r m, (f r).restoreMode = some m → r.restoreMode = some m ∨ Settable m) :
    Act.Matches (Alike Q Settable) (update fun h => h.updateRecord mcu f)
      (update fun h => h.updateRecord mcu f) := by
  refine Act.Matches.modify fun g g' h => ⟨?_, h.backend, fun pin m hm => ?_⟩
  · show g.handle.updateRecord mcu f = g'.handle.updateRecord mcu f
    rw [h.handle]
  · rw [Handle.record_updateRecord] at hm
    split at hm
    · exact (hf _ m hm).elim (h.records pin m) id
    · exact h.records pin m hm

theorem alike_note (n : Notice) : Act.Matches (Alike Q Settable) (note n) (note n) :=
  Act.Matches.modify fun _ _ h => ⟨h.handle, h.backend, h.records⟩

end Parts

section Uses

variable (hQ : Matching Q Settable)
include hQ

theorem alike_switch (mcu : Nat) {m : Mode} (hm : Settable m) :
    Act.Matches (Alike Q Settable) (switch mcu m) (switch mcu m) :=
  (alike_hardware (hQ.setMode mcu m hm)).bind fun _ =>
    Act.Matches.modify fun _ _ h => ⟨h.handle, h.backend, h.records⟩

/-- A mode that was replaced was shown, so it can be set again. -/
theorem alike_setMode (pin : Nat) {m : Mode} (hm : Settable m) :
    Act.Matches (Alike Q Settable) (setMode pin m) (setMode pin m) := by
  refine (matches_mcuPin (fun _ _ h => h.handle) pin).bind fun mcu => ?_
  intro g g' h
  refine (alike_hardware (hQ.mode mcu) g g' h).bind fun previous g₁ g₁' hrun _ h₁ => ?_
  have hshown : Settable previous :=
    hQ.shown g.backend g'.backend mcu previous h.backend (congrArg Prod.fst hrun)
  -- the record keeps the first mode that was replaced, or takes this one
  have hrecord : ∀ (r : PinRecord) (m : Mode), (r.noteMode previous).restoreMode = some m →
      r.restoreMode = some m ∨ Settable m := by
    intro r m hm
    cases hr : r.restoreMode with
    | none =>
      rw [PinRecord.noteMode, hr] at hm
      cases hm
      exact .inr hshown
    | some old =>
      rw [PinRecord.noteMode, hr] at hm
      exact .inl hm
  exact ((alike_switch hQ mcu hm).bind fun _ =>
    (alike_updateRecord mcu hrecord).bind fun _ => alike_note _) g₁ g₁' h₁

theorem alike_setPull (pin : Nat) (u : Pull) :
    Act.Matches (Alike Q Settable) (setPull pin u) (setPull pin u) :=
  (matches_mcuPin (fun _ _ h => h.handle) pin).bind fun mcu =>
    (alike_hardware (hQ.pull mcu)).bind fun _ =>
      (alike_hardware (hQ.setPull mcu u)).bind fun _ =>
        alike_updateRecord mcu fun _ _ hm => .inl hm

theorem alike_restorePull (mcu : Nat) (record : PinRecord) :
    Act.Matches (Alike Q Settable) (restorePull mcu record) (restorePull mcu record) := by
  unfold restorePull
  split
  · exact alike_hardware (hQ.setPull mcu _)
  · exact alike_hardware (hQ.setPull mcu .down)
  · split
    · refine (alike_hardware (hQ.pull mcu)).bind fun seen => ?_
      split
      · exact alike_hardware (hQ.setPull mcu .down)
      · exact Act.Matches.pure ()
    · exact Act.Matches.pure ()

theorem alike_restoreMode (mcu : Nat) {record : PinRecord}
    (hrecord : ∀ m, record.restoreMode = some m → Settable m) :
    Act.Matches (Alike Q Settable) (restoreMode mcu record) (restoreMode mcu record) := by
  unfold restoreMode
  split
  case h_1 m hm => exact (alike_switch hQ mcu (hrecord m hm)).bind fun _ => alike_note _
  case h_2 => exact Act.Matches.pure ()

theorem alike_restorePin (mcu : Nat) :
    Act.Matches (Alike Q Settable) (restorePin mcu) (restorePin mcu) := by
  intro ⟨handle, b, log⟩ ⟨handle', b', log'⟩ h
  obtain rfl : handle = handle' := h.handle
  have hempty := (alike_updateRecord mcu (f := fun _ => {}) (fun _ _ hm => by cases hm) _ _ h).2
  unfold Act.MatchesAt
  rw [run_restorePin, run_restorePin]
  split
  · exact ⟨rfl, hempty⟩
  · refine Act.Matches.bind (alike_restoreMode hQ mcu (h.records mcu)) (fun _ => ?_) _ _ hempty
    exact (alike_restorePull hQ mcu _).bind fun _ => Act.Matches.pure true

/-- Handles on matching backends are used alike, if pins can be made inputs and outputs. -/
theorem paired (hin : Settable .input) (hout : Settable .output) :
    Paired (Alike Q Settable) Settable where
  settable_input := hin
  settable_output := hout
  handle _ _ h := h.handle
  askMode mcu := alike_hardware (hQ.mode mcu)
  askPull mcu := alike_hardware (hQ.pull mcu)
  writeMcu mcu high := alike_hardware (hQ.write mcu high)
  toggleMcu mcu := alike_hardware (hQ.toggle mcu)
  setMode pin _ hm := alike_setMode hQ pin hm
  setPull := alike_setPull hQ
  restorePin := alike_restorePin hQ
  update _ hf := alike_update fun h => (hf h).1
  note := alike_note

theorem alike_release (hin : Settable .input) (hout : Settable .output) :
    Act.Matches (Alike Q Settable) release release := by
  have hpaired := paired hQ hin hout
  refine hpaired.getHandle.bind fun handle => ?_
  split
  · exact Act.Matches.pure ()
  · refine (alike_update (f := fun h => { h with released := true }) fun _ => rfl).bind fun _ => ?_
    split
    · exact alike_note _
    · refine (hpaired.restoreAll _ 0 none).bind fun outcome => (alike_note _).bind fun _ => ?_
      split
      · exact Act.Matches.fail _
      · exact Act.Matches.pure ()

/-! ## Levels of outputs -/

variable {g : Gpio β} {g' : Gpio γ}

theorem Alike.readMcu (h : Alike Q Settable g g') {mcu : Nat}
    (hmode : modeOf g.backend mcu = .ok .output) :
    Act.MatchesAt (Alike Q Settable) (readMcu mcu) (readMcu mcu) g g' := by
  obtain ⟨hres, hrel⟩ := hQ.read _ _ mcu h.backend hmode
  exact ⟨hres, h.handle, hrel, h.records⟩

theorem Alike.read (h : Alike Q Settable g g') {pin : Nat}
    (hmode : ∀ mcu, g.handle.mcu? pin = some mcu → modeOf g.backend mcu = .ok .output) :
    Act.MatchesAt (Alike Q Settable) (read pin) (read pin) g g' := by
  refine (matches_mcuPin (fun _ _ h => h.handle) pin g g' h).bind fun mcu g₁ g₁' hrun hrun' _ => ?_
  rw [run_mcuPin] at hrun hrun'
  unfold Handle.resolve at hrun hrun'
  rw [← h.handle] at hrun'
  cases hmcu : g.handle.mcu? pin with
  | none =>
    rw [hmcu] at hrun
    cases hrun
  | some k =>
    rw [hmcu] at hrun hrun'
    cases hrun
    cases hrun'
    exact h.readMcu hQ (hmode mcu hmcu)

/-- An output of a port is read alike if its pin still is an output. -/
theorem Alike.readOutput (h : Alike Q Settable g g') {p : OutputPort} {index : Nat}
    (hmode : ∀ o, p.outputs[index]? = some o → modeOf g.backend o.mcu = .ok .output) :
    Act.MatchesAt (Alike Q Settable) (p.read index) (p.read index) g g' := by
  unfold OutputPort.read OutputPort.output
  cases ho : p.outputs[index]? with
  | none => exact ⟨rfl, h⟩
  | some o =>
    exact (h.readMcu hQ (hmode o ho)).bind fun _ _ _ _ _ h' => ⟨rfl, h'⟩

omit [Backend γ] hQ in
/-- Reading an output changes no mode. -/
theorem modeOf_readOutput (hread : ∀ pin q,
    modeOf ((Backend.read pin : Act β Bool).run g.backend).2 q = modeOf g.backend q)
    (p : OutputPort) (index mcu : Nat) :
    modeOf ((p.read index).run g).2.backend mcu = modeOf g.backend mcu := by
  unfold OutputPort.read OutputPort.output
  cases p.outputs[index]? with
  | none => rfl
  | some o =>
    have hlevel := hread o.mcu mcu
    show modeOf ((readMcu o.mcu >>= fun high => pure (high == o.level true)).run g).2.backend mcu =
      modeOf g.backend mcu
    rw [Act.run_bind]
    rcases hrun : (readMcu o.mcu).run g with ⟨e | high, g₁⟩
    all_goals
      have hstate : g₁.backend = ((Backend.read o.mcu : Act β Bool).run g.backend).2 :=
        (congrArg (fun r => r.2.backend) hrun).symm
      show modeOf g₁.backend mcu = _
      rw [hstate]
      exact hlevel

theorem Alike.readIndices (h : Alike Q Settable g g') {p : OutputPort}
    (hmode : ∀ o ∈ p.outputs, modeOf g.backend o.mcu = .ok .output) (indices : List Nat)
    (active : PinSet) :
    Act.MatchesAt (Alike Q Settable) (p.readIndices indices active)
      (p.readIndices indices active) g g' := by
  induction indices generalizing g g' active with
  | nil => exact ⟨rfl, h⟩
  | cons index rest ih =>
    have hout : ∀ o, p.outputs[index]? = some o → modeOf g.backend o.mcu = .ok .output := by
      intro o ho
      exact hmode o (List.mem_of_getElem? ho)
    refine (h.readOutput hQ hout).bind fun on g₁ g₁' hrun _ h₁ => ?_
    have hmode₁ : ∀ o ∈ p.outputs, modeOf g₁.backend o.mcu = .ok .output := by
      intro o ho
      have hsame := modeOf_readOutput (g := g)
        (fun pin q => hQ.read_modes _ _ pin q h.backend) p index o.mcu
      rw [hrun] at hsame
      exact hsame.trans (hmode o ho)
    cases on with
    | false => exact ih h₁ hmode₁ active
    | true =>
      refine (Act.Matches.lift (active.insert? index) g₁ g₁' h₁).bind
        fun active' g₂ g₂' hrun₂ hrun₂' _ => ?_
      cases hset : active.insert? index with
      | error e =>
        rw [hset] at hrun₂
        cases hrun₂
      | ok set =>
        rw [hset] at hrun₂ hrun₂'
        cases hrun₂
        cases hrun₂'
        exact ih h₁ hmode₁ active'

end Uses

end Gpio

/-! ## Hubs -/

namespace Hub

variable {β γ α : Type} {Q : β → γ → Prop} {Settable : Mode → Prop} {h : Nat}

def around (device : β) : Hub β := { rigs := #[{ device := device }] }

/-- The handle stands on both hubs, on related backends and with as many references. -/
structure Alike (Q : β → γ → Prop) (Settable : Mode → Prop) (h : Nat) (s : Hub β) (s' : Hub γ) :
    Prop where
  sites : ∃ g g', s.site? h = some g ∧ s'.site? h = some g' ∧
    Gpio.Alike (Line.Alike Q) Settable g g'
  refs : s.refs h = s'.refs h

theorem alike_eq_sited : (Alike Q Settable h : Hub β → Hub γ → Prop) =
    Sited (Gpio.Alike (Line.Alike Q) Settable) h := by
  funext s s'
  exact propext ⟨fun hs => ⟨hs.sites, hs.refs⟩, fun hs => ⟨hs.sites, hs.refs⟩⟩

theorem lasting_alike :
    Lasting (Gpio.Alike (Line.Alike Q) Settable : Gpio (Line β) → Gpio (Line γ) → Prop) :=
  fun _ _ _ _ hrel hafter =>
    ⟨hafter.handle, ⟨hafter.backend.rig, hrel.backend.direct⟩, hafter.records⟩

theorem Alike.countRefs {s : Hub β} {s' : Hub γ} (hs : Alike Q Settable h s s') (f : Nat → Nat) :
    Act.MatchesAt (Alike Q Settable h) (countRefs h f) (countRefs h f) s s' := by
  rw [alike_eq_sited] at hs ⊢
  exact sited_countRefs f s s' hs

/-- What is done alike at the sites of the handle is done alike in the hubs. -/
theorem Alike.onHandle {s : Hub β} {s' : Hub γ} (hs : Alike Q Settable h s s')
    {x : Act (Gpio (Line β)) α} {y : Act (Gpio (Line γ)) α}
    (hx : ∀ g g', s.site? h = some g → Gpio.Alike (Line.Alike Q) Settable g g' →
      Act.MatchesAt (Gpio.Alike (Line.Alike Q) Settable) x y g g') :
    Act.MatchesAt (Alike Q Settable h) (onHandle h x) (onHandle h y) s s' := by
  rw [alike_eq_sited] at hs ⊢
  exact hs.onHandle lasting_alike hx

variable [Backend β] [Backend γ] (hQ : Matching Q Settable)
include hQ

/-- The last reference goes at the same time, and with the same outcome. -/
theorem alike_letGo (hin : Settable .input) (hout : Settable .output) (how : Farewell) :
    Act.Matches (Alike Q Settable h) (letGo h how) (letGo h how) := by
  have hrelease := Gpio.alike_release (Line.matching hQ) hin hout
  rw [alike_eq_sited]
  exact sited_letGo lasting_alike (matches_farewell hrelease Gpio.alike_note how)

theorem alike_openOutput (hin : Settable .input) (hout : Settable .output)
    (pins : List OutputPin) :
    Act.Matches (Alike Q Settable h) (openOutput h pins) (openOutput h pins) := by
  have hopen := (Gpio.paired (Line.matching hQ) hin hout).openOutput pins
  have hports := sited_openOutput (h := h) lasting_alike (hopen.map id)
  rw [id_map, id_map] at hports
  rw [alike_eq_sited]
  exact hports

omit hQ in
/-- On related backends with as many pins, a handle is built alike if its table fits them. -/
theorem alike_build {b : β} {c : γ} (hrel : Q b c) (hcount : pinCount b = pinCount c)
    {table : PinTable} (hfit : ∀ max, table.maxMcu? = some max → max < pinCount b)
    (settings : HandleSettings) (direct : Bool) :
    ∃ s s', (build ⟨some 0, direct, some table, settings⟩).run (around b) = (.ok 0, s) ∧
      (build ⟨some 0, direct, some table, settings⟩).run (around c) = (.ok 0, s') ∧
        Alike Q Settable 0 s s' := by
  have hbuild : ∀ {δ : Type} [Backend δ] (d : δ), pinCount d = pinCount b →
      ∃ s, (build ⟨some 0, direct, some table, settings⟩).run (around d) = (.ok 0, s) ∧
        s.refs 0 = 1 ∧ s.site? 0 = some
          { handle := .create table settings (pinCount b)
            backend := ⟨{ device := d }, direct⟩ } := by
    intro δ _ d hd
    have hrig : (around d).rigs[0]? = some { device := d } := rfl
    have hfits : ∀ max, table.maxMcu? = some max → max < pinCount ({ device := d } : Rig δ) := by
      intro max hmax
      exact Nat.lt_of_lt_of_eq (hfit max hmax) hd.symm
    obtain ⟨s, hs⟩ := exists_built hrig hfits settings direct
    obtain ⟨i, table', rig, hi, htable, hrig', -, -, hrefs, hsite⟩ := built hs
    cases hi
    cases htable
    cases hrig'
    refine ⟨s, hs, hrefs, hsite.trans ?_⟩
    rw [← hd]
    rfl
  obtain ⟨s, hs, hrefs, hsite⟩ := hbuild b rfl
  obtain ⟨s', hs', hrefs', hsite'⟩ := hbuild c hcount.symm
  refine ⟨s, s', hs, hs', ⟨_, _, hsite, hsite', rfl, ⟨⟨hrel, rfl, rfl, rfl⟩, rfl⟩, ?_⟩, ?_⟩
  · intro mcu m hm
    rw [create_fresh] at hm
    cases hm
  · rw [hrefs, hrefs']

end Hub

end BoardGpio
