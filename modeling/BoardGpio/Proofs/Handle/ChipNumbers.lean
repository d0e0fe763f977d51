import BoardGpio.Proofs.Handle.Paired
import BoardGpio.Proofs.Handle.Sited
import BoardGpio.Proofs.Handle.Unnumbered
import BoardGpio.Proofs.PinTable.Translation

/-!
# Numbers of the chip

What a handle does in any numbering, another handle on an equal backend does in the numbering of the
chip. The two are kept side by side (`Gpio.OnChip`): their records, which are kept by chip pin, and
their backends are equal, and only the meaning of numbers differs. A call with a number on one side
and with the chip pin behind it on the other makes the same calls of the backend
(`Gpio.onChip_pinCall`). What does not look at the handle needs no numbers at all (`Gpio.Wired`):
the calls of ports, and putting pins back.
-/

set_option autoImplicit false

namespace BoardGpio

open Bench

namespace PinTable

variable {t : PinTable}

/-- What a number of any numbering stands for is a chip pin in use. -/
theorem Accepted.mem_used (ht : t.Accepted) {pin mcu : Nat} {n : Numbering}
    (hpin : t.toMcu? pin n = some mcu) : mcu ∈ used t.logical := by
  cases n with
  | logical => exact mem_used_of_entry hpin
  | mcu =>
    obtain ⟨hmem, rfl⟩ : pin ∈ used t.logical ∧ pin = mcu := by simpa [toMcu?] using hpin
    exact hmem
  | physical => exact ht.mem_used_of_physical hpin

end PinTable

def Bench.PinCall.withPin : PinCall → Nat → PinCall
  | setMode _ m, pin => setMode pin m
  | mode _, pin => mode pin
  | setPull _ u, pin => setPull pin u
  | pull _, pin => pull pin
  | write _ high, pin => write pin high
  | read _, pin => read pin
  | toggle _, pin => toggle pin

/-! ## Handles in two numberings -/

/-- The second pin is the first, with the chip pin behind its number in the numbering `n`. -/
def OutputPin.Renumbered (t : PinTable) (n : Numbering) (p q : OutputPin) : Prop :=
  ∃ mcu, t.toMcu? p.pin n = some mcu ∧ q = { p with pin := mcu }

/-- The second pin is the first, with the chip pin behind its number in the numbering `n`. -/
def InputPin.Renumbered (t : PinTable) (n : Numbering) (p q : InputPin) : Prop :=
  ∃ mcu, t.toMcu? p.pin n = some mcu ∧ q = { p with pin := mcu }

/-- The second handle is in the numbering of the chip what the first is in the numbering `n`. Both
have the pins of an accepted table, and a record for each. -/
structure Handle.OnChip (t : PinTable) (n : Numbering) (h c : Handle) : Prop where
  accepted : t.Accepted
  covered : ∀ mcu ∈ PinTable.used t.logical, mcu < h.records.size
  table : h.table = t
  numbering : h.numbering = n
  chipTable : c.table = t
  chipNumbering : c.numbering = .mcu
  records : h.records = c.records
  released : h.released = c.released
  releaseOnClose : h.releaseOnClose = c.releaseOnClose

namespace Handle.OnChip

variable {t : PinTable} {n : Numbering} {h c : Handle}

/-- A number and the chip pin behind it are resolved alike. -/
theorem resolve (hc : h.OnChip t n c) {pin mcu : Nat} (hpin : t.toMcu? pin n = some mcu) :
    h.resolve pin = .ok mcu ∧ c.resolve mcu = .ok mcu := by
  have hmem : mcu ∈ PinTable.used t.logical := hc.accepted.mem_used hpin
  have hsize : mcu < h.records.size := hc.covered mcu hmem
  constructor
  · rw [resolve_eq_ok_iff, hc.table, hc.numbering]
    exact ⟨hpin, hsize⟩
  · rw [resolve_eq_ok_iff, hc.chipTable, hc.chipNumbering, ← hc.records]
    exact ⟨if_pos hmem, hsize⟩

theorem record (hc : h.OnChip t n c) (mcu : Nat) : h.record mcu = c.record mcu := by
  rw [Handle.record, Handle.record, hc.records]

theorem updateRecord (hc : h.OnChip t n c) (mcu : Nat) (f : PinRecord → PinRecord) :
    (h.updateRecord mcu f).OnChip t n (c.updateRecord mcu f) where
  accepted := hc.accepted
  covered m hm := by
    rw [Handle.updateRecord, Array.size_modify]
    exact hc.covered m hm
  table := hc.table
  numbering := hc.numbering
  chipTable := hc.chipTable
  chipNumbering := hc.chipNumbering
  records := congrArg (·.modify mcu f) hc.records
  released := hc.released
  releaseOnClose := hc.releaseOnClose

theorem setReleased (hc : h.OnChip t n c) (r : Bool) :
    { h with released := r }.OnChip t n { c with released := r } :=
  ⟨hc.accepted, hc.covered, hc.table, hc.numbering, hc.chipTable, hc.chipNumbering, hc.records, rfl,
    hc.releaseOnClose⟩

theorem setReleaseOnClose (hc : h.OnChip t n c) (r : Bool) :
    { h with releaseOnClose := r }.OnChip t n { c with releaseOnClose := r } :=
  ⟨hc.accepted, hc.covered, hc.table, hc.numbering, hc.chipTable, hc.chipNumbering, hc.records,
    hc.released, rfl⟩

/-- A change of numbering is no matter of the chip. -/
theorem setNumbering (hc : h.OnChip t n c) (k : Numbering) : (h.setNumbering k).OnChip t k c := by
  unfold Handle.setNumbering
  split
  case isTrue hsame => exact { hc with numbering := hsame }
  case isFalse =>
    exact ⟨hc.accepted, hc.covered, hc.table, rfl, hc.chipTable, hc.chipNumbering, hc.records,
      hc.released, hc.releaseOnClose⟩

end Handle.OnChip

namespace Gpio

variable {β α : Type}

/-! ## What does not look at the handle -/

/-- The handles are these two, and the backends are equal. -/
structure Wired (h h' : Handle) (g g' : Gpio β) : Prop where
  left : g.handle = h
  right : g'.handle = h'
  backend : g.backend = g'.backend

variable {h h' : Handle}

theorem wired_hardware (x : Act β α) : Act.Matches (Wired h h') (hardware x) (hardware x) := by
  intro g g' hg
  unfold Act.MatchesAt
  rw [run_hardware, run_hardware, hg.backend]
  exact ⟨rfl, hg.left, hg.right, rfl⟩

theorem wired_note (n n' : Notice) :
    Act.Matches (Wired (β := β) h h') (note n) (note n') :=
  Act.Matches.modify fun _ _ hg => ⟨hg.left, hg.right, hg.backend⟩

variable [Backend β]

theorem wired_switch (mcu : Nat) (m : Mode) :
    Act.Matches (Wired (β := β) h h') (switch mcu m) (switch mcu m) :=
  (wired_hardware _).bind fun _ =>
    Act.Matches.modify fun _ _ hg => ⟨hg.left, hg.right, hg.backend⟩

theorem wired_restoreMode (mcu : Nat) (record : PinRecord) :
    Act.Matches (Wired (β := β) h h') (restoreMode mcu record) (restoreMode mcu record) := by
  unfold restoreMode
  split
  · exact (wired_switch mcu _).bind fun _ => wired_note _ _
  · exact Act.Matches.pure ()

theorem wired_restorePull (mcu : Nat) (record : PinRecord) :
    Act.Matches (Wired (β := β) h h') (restorePull mcu record) (restorePull mcu record) := by
  unfold restorePull
  split
  · exact wired_hardware _
  · exact wired_hardware _
  · split
    · refine (wired_hardware _).bind fun seen => ?_
      split
      · exact wired_hardware _
      · exact Act.Matches.pure ()
    · exact Act.Matches.pure ()

/-- The calls of an output port go to the chip pins found when it was opened, in whatever numbering
the handle is now. -/
theorem wired_outputCall (p : OutputPort) (call : OutputCall) :
    Act.Matches (Wired (β := β) h h') (call.perform p) (call.perform p) :=
  matches_outputCall (fun _ _ => wired_hardware _) (fun _ => wired_hardware _) p call

theorem wired_readOutput (p : OutputPort) (index : Nat) :
    Act.Matches (Wired (β := β) h h') (p.read index) (p.read index) :=
  matches_readOutput (fun _ => wired_hardware _) p index

theorem wired_readOutputs (p : OutputPort) :
    Act.Matches (Wired (β := β) h h') p.readAll p.readAll :=
  matches_readIndices (fun _ => wired_hardware _) p _ _

/-! ## A handle in the numbering of the chip -/

/-- The backends are equal, and the second handle is in the numbering of the chip what the first is
in the numbering `n`. -/
structure OnChip (t : PinTable) (n : Numbering) (g c : Gpio β) : Prop where
  handle : g.handle.OnChip t n c.handle
  backend : g.backend = c.backend

variable {t : PinTable} {n : Numbering} {pin mcu : Nat}

section Parts

omit [Backend β]

/-- What does not look at the handle is done alike. -/
theorem onChip_of_wired {x y : Act (Gpio β) α} (hxy : ∀ h h', Act.Matches (Wired h h') x y) :
    Act.Matches (OnChip t n) x y := by
  intro g c hg
  obtain ⟨hres, hleft, hright, hbackend⟩ := hxy g.handle c.handle g c ⟨rfl, rfl, hg.backend⟩
  refine ⟨hres, ?_, hbackend⟩
  rw [hleft, hright]
  exact hg.handle

theorem onChip_hardware (x : Act β α) : Act.Matches (OnChip t n) (hardware x) (hardware x) :=
  onChip_of_wired fun _ _ => wired_hardware x

theorem onChip_note (m m' : Notice) :
    Act.Matches (OnChip (β := β) t n) (note m) (note m') :=
  onChip_of_wired fun _ _ => wired_note m m'

theorem onChip_update {f : Handle → Handle}
    (hf : ∀ h c, Handle.OnChip t n h c → (f h).OnChip t n (f c)) :
    Act.Matches (OnChip (β := β) t n) (update f) (update f) :=
  Act.Matches.modify fun _ _ hg => ⟨hf _ _ hg.handle, hg.backend⟩

theorem onChip_mcuPin (hpin : t.toMcu? pin n = some mcu) :
    Act.Matches (OnChip (β := β) t n) (mcuPin pin) (mcuPin mcu) := by
  intro g c hg
  obtain ⟨hleft, hright⟩ := hg.handle.resolve hpin
  unfold Act.MatchesAt
  rw [run_mcuPin, run_mcuPin, hleft, hright]
  exact ⟨rfl, hg⟩

/-- A change of numbering goes well, and nothing is done on the side of the chip. -/
theorem OnChip.setNumbering {g c : Gpio β} (hg : g.OnChip t n c) (k : Numbering) :
    ((Gpio.setNumbering k).run g).1 = .ok () ∧
      ((Gpio.setNumbering k).run g).2.OnChip t k c := by
  rw [Gpio.setNumbering, Act.run_bind_ok _ (Act.run_gets _ g)]
  by_cases hsame : g.handle.numbering = k
  · rw [if_pos hsame]
    exact ⟨rfl, { hg.handle with numbering := hsame }, hg.backend⟩
  · rw [if_neg hsame]
    exact ⟨rfl, hg.handle.setNumbering k, hg.backend⟩

end Parts

/-! ## Calls on pins -/

section Calls

variable (hpin : t.toMcu? pin n = some mcu)
include hpin

theorem onChip_setMode (m : Mode) :
    Act.Matches (OnChip (β := β) t n) (setMode pin m) (setMode mcu m) :=
  (onChip_mcuPin hpin).bind fun k => (onChip_hardware _).bind fun _ =>
    (onChip_of_wired fun _ _ => wired_switch k m).bind fun _ =>
      (onChip_update fun _ _ hc => hc.updateRecord k _).bind fun _ => onChip_note _ _

theorem onChip_setPull (u : Pull) :
    Act.Matches (OnChip (β := β) t n) (setPull pin u) (setPull mcu u) :=
  (onChip_mcuPin hpin).bind fun k => (onChip_hardware _).bind fun _ =>
    (onChip_hardware _).bind fun _ => onChip_update fun _ _ hc => hc.updateRecord k _

/-- A pull that the backend cannot read is remembered by chip pin. -/
theorem onChip_pull : Act.Matches (OnChip (β := β) t n) (pull pin) (pull mcu) :=
  (onChip_mcuPin hpin).bind fun k => (onChip_hardware _).bind fun _ =>
    (Act.Matches.gets fun _ _ hg => congrArg PinRecord.pull (hg.handle.record k)).bind fun _ =>
      Act.Matches.pure _

theorem onChip_write (high : Bool) :
    Act.Matches (OnChip (β := β) t n) (write pin high) (write mcu high) :=
  (onChip_mcuPin hpin).bind fun _ => onChip_hardware _

/-- A call with a number does what the call with the chip pin behind it does. -/
theorem onChip_pinCall {call : PinCall} (hcall : call.pin = pin) :
    Act.Matches (OnChip (β := β) t n) call.throughHandle (call.withPin mcu).throughHandle := by
  subst hcall
  cases call with
  | setMode _ m => exact matches_quiet (onChip_setMode hpin m)
  | mode _ => exact ((onChip_mcuPin hpin).bind fun _ => onChip_hardware _).map _
  | setPull _ u => exact matches_quiet (onChip_setPull hpin u)
  | pull _ => exact (onChip_pull hpin).map _
  | write _ high => exact matches_quiet (onChip_write hpin high)
  | read _ => exact ((onChip_mcuPin hpin).bind fun _ => onChip_hardware _).map _
  | toggle _ => exact matches_quiet ((onChip_mcuPin hpin).bind fun _ => onChip_hardware _)

end Calls

/-! ## Opening ports -/

theorem onChip_configureOutput {p q : OutputPin} (hpq : p.Renumbered t n q) :
    Act.Matches (OnChip (β := β) t n) (Output.unnumbered <$> OutputPort.configure p)
      (Output.unnumbered <$> OutputPort.configure q) := by
  obtain ⟨mcu, hpin, rfl⟩ := hpq
  simp only [OutputPort.configure, map_bind, map_pure]
  refine (onChip_mcuPin hpin).bind fun k => ?_
  refine (onChip_write hpin (p.active.raw false)).bind fun _ => ?_
  refine (onChip_setMode hpin .output).bind fun _ => ?_
  exact Act.Matches.pure (Output.unnumbered ⟨p, k⟩)

/-- Ports whose pins stand for the same chip pins are opened alike. -/
theorem onChip_openOutput {pins pins' : List OutputPin}
    (hpins : List.Forall₂ (OutputPin.Renumbered t n) pins pins') :
    Act.Matches (OnChip (β := β) t n) (OutputPort.unnumbered <$> OutputPort.openPort pins)
      (OutputPort.unnumbered <$> OutputPort.openPort pins') := by
  unfold OutputPort.openPort
  rw [hpins.length_eq]
  split
  · exact (Act.Matches.fail _).map _
  · have hall : Act.Matches (OnChip (β := β) t n)
        (List.map Output.unnumbered <$> Act.collect OutputPort.configure pins)
        (List.map Output.unnumbered <$> Act.collect OutputPort.configure pins') :=
      Act.Matches.collect_map (P := OutputPin.Renumbered t n)
        (fun _ _ hpq => onChip_configureOutput hpq) hpins
    simp only [map_bind, map_pure]
    refine hall.bind_map fun os os' hos => ?_
    refine (onChip_note _ _).bind fun _ => ?_
    rw [OutputPort.unnumbered, OutputPort.unnumbered, hos]
    exact Act.Matches.pure _

theorem onChip_configureInput {p q : InputPin} (hpq : p.Renumbered t n q) :
    Act.Matches (OnChip (β := β) t n) (InputPort.configure p) (InputPort.configure q) := by
  obtain ⟨mcu, hpin, rfl⟩ := hpq
  exact (onChip_setMode hpin .input).bind fun _ => (onChip_setPull hpin p.pull).bind fun _ =>
    onChip_mcuPin hpin

theorem onChip_prepare {pins pins' : List InputPin}
    (hpins : List.Forall₂ (InputPin.Renumbered t n) pins pins') (settings : InputSettings) :
    Act.Matches (OnChip (β := β) t n) (InputPort.prepare pins settings)
      (InputPort.prepare pins' settings) := by
  refine (Act.Matches.lift _).bind fun _ => ?_
  rw [hpins.length_eq]
  split
  · exact Act.Matches.fail _
  · have hall : Act.Matches (OnChip (β := β) t n)
        (List.map id <$> Act.collect InputPort.configure pins)
        (List.map id <$> Act.collect InputPort.configure pins') :=
      Act.Matches.collect_map (P := InputPin.Renumbered t n)
        (fun _ _ hpq => (onChip_configureInput hpq).map id) hpins
    rw [List.map_id_fun, id_map, id_map] at hall
    exact hall

theorem wired_reference {κ : Type} {h h' : Handle} {p q : InputPin}
    (hpq : p.unnumbered = q.unnumbered) (mcu : Nat) :
    Act.Matches (Wired (β := β) h h')
      (Input.unnumbered <$> InputPort.reference (κ := κ) p mcu)
      (Input.unnumbered <$> InputPort.reference q mcu) := by
  have hactive : p.active = q.active := (InputPin.mk.inj hpq).2.1
  simp only [InputPort.reference, map_bind, map_pure, Input.unnumbered]
  refine (wired_hardware _).bind fun high => ?_
  rw [hpq, hactive]
  exact Act.Matches.pure _

/-- The reference sample is taken of chip pins, so the numbers do not matter. -/
theorem wired_finish {κ : Type} {h h' : Handle} {pins pins' : List InputPin}
    (hpins : List.Forall₂ (fun p q => p.unnumbered = q.unnumbered) pins pins') (mcus : List Nat)
    (settings : InputSettings) (now : Nat) :
    Act.Matches (Wired (β := β) h h')
      (InputPort.unnumbered <$> InputPort.finish (κ := κ) pins mcus settings now)
      (InputPort.unnumbered <$> InputPort.finish pins' mcus settings now) := by
  have hzip : List.Forall₂
      (fun a b : InputPin × Nat => a.1.unnumbered = b.1.unnumbered ∧ a.2 = b.2)
      (pins.zip mcus) (pins'.zip mcus) := by
    induction hpins generalizing mcus with
    | nil => exact .nil
    | cons hpq _ ih =>
      cases mcus with
      | nil => exact .nil
      | cons mcu mcus => exact .cons ⟨hpq, rfl⟩ (ih mcus)
  have hall : Act.Matches (Wired (β := β) h h')
      (List.map Input.unnumbered <$>
        Act.collect (fun x => InputPort.reference x.1 x.2) (pins.zip mcus))
      (List.map (Input.unnumbered (κ := κ)) <$>
        Act.collect (fun x => InputPort.reference x.1 x.2) (pins'.zip mcus)) := by
    refine Act.Matches.collect_map ?_ hzip
    rintro ⟨p, mcu⟩ ⟨q, mcu'⟩ ⟨hpq, rfl⟩
    exact wired_reference hpq mcu
  simp only [InputPort.finish, map_bind, map_pure]
  refine hall.bind_map fun is is' his => (wired_note _ _).bind fun _ => ?_
  rw [InputPort.unnumbered, InputPort.unnumbered, his]
  exact Act.Matches.pure _

/-! ## Putting pins back -/

theorem onChip_restorePin (mcu : Nat) :
    Act.Matches (OnChip (β := β) t n) (restorePin mcu) (restorePin mcu) := by
  intro g c hg
  have hempty : OnChip t n { g with handle := g.handle.updateRecord mcu fun _ => {} }
      { c with handle := c.handle.updateRecord mcu fun _ => {} } :=
    ⟨hg.handle.updateRecord mcu _, hg.backend⟩
  unfold Act.MatchesAt
  rw [run_restorePin, run_restorePin, hg.handle.record]
  split
  · exact ⟨rfl, hempty⟩
  · refine Act.Matches.bind (onChip_of_wired fun _ _ => wired_restoreMode mcu _) (fun _ => ?_)
      _ _ hempty
    exact (onChip_of_wired fun _ _ => wired_restorePull mcu _).bind fun _ => Act.Matches.pure true

theorem onChip_release : Act.Matches (OnChip (β := β) t n) release release := by
  intro g c hg
  unfold Act.MatchesAt
  rw [release, Act.run_bind_ok _ (Act.run_gets _ g), Act.run_bind_ok _ (Act.run_gets _ c),
    hg.handle.released, hg.handle.releaseOnClose, hg.handle.records]
  split
  · exact ⟨rfl, hg⟩
  · refine ((onChip_update fun _ _ hc => hc.setReleased true).bind fun _ => ?_) g c hg
    split
    · exact onChip_note _ _
    · refine (matches_restoreAll onChip_restorePin (fun m => onChip_note m m) _ 0 none).bind
        fun outcome => (onChip_note _ _).bind fun _ => ?_
      split
      · exact Act.Matches.fail _
      · exact Act.Matches.pure ()

theorem onChip_farewell (how : Farewell) :
    Act.Matches (OnChip (β := Line β) t n) (Hub.farewell how) (Hub.farewell how) :=
  Hub.matches_farewell onChip_release (fun m => onChip_note m m) how

end Gpio

end BoardGpio
