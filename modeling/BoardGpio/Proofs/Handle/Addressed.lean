import BoardGpio.Proofs.Backend.Recorded
import BoardGpio.Proofs.Handle.Opening
import BoardGpio.Proofs.Handle.Paired
import BoardGpio.Proofs.Input.Chronicle

/-!
# Ports address chip pins

The chip pins of a port are the ones that its numbers stand for when it is opened
(`Hub.openOutput_names`, `Hub.openInput_names`). Later calls of an output port go to them, one by
one, whatever the handle has become (`OutputPort.adds_call`). The chip pins of an input port stay the
same in every session (`Desk.Session.names`), and it reads no others (`Hub.addresses_openInput`).
-/

set_option autoImplicit false

namespace BoardGpio

open Bench

/-! ## The chip pins of a port -/

/-- The outputs are these pins, each with the chip pin that its number stands for. -/
def OutputPort.Names (h : Handle) (pins : List OutputPin) (p : OutputPort) : Prop :=
  List.Forall₂ (fun pin o => o.pin = pin ∧ h.table.toMcu? pin.pin h.numbering = some o.mcu)
    pins p.outputs

/-- The inputs are these pins, each with the chip pin that its number stands for. -/
def InputPort.Names {κ : Type} (h : Handle) (pins : List InputPin) (p : InputPort κ) : Prop :=
  List.Forall₂ (fun pin i => i.pin = pin ∧ h.table.toMcu? pin.pin h.numbering = some i.mcu)
    pins p.inputs

namespace Gpio

variable {β κ : Type} {h₀ : Handle} {g g' : Gpio β} {mcu : Nat}

theorem mcuPin_names {pin : Nat} (hg : NumbersOf h₀ g) (hrun : (mcuPin pin).run g = (.ok mcu, g')) :
    h₀.table.toMcu? pin h₀.numbering = some mcu := by
  rw [run_mcuPin, hg.resolve] at hrun
  cases hpin : h₀.resolve pin with
  | error e =>
    rw [hpin] at hrun
    cases hrun
  | ok k =>
    rw [hpin] at hrun
    cases hrun
    exact (Handle.resolve_eq_ok_iff.mp hpin).1

variable [Backend β]

theorem openOutput_names {pins : List OutputPin} {p : OutputPort}
    (hopen : (OutputPort.openPort pins).run g = (.ok p, g')) : p.Names g.handle pins := by
  unfold OutputPort.openPort at hopen
  split at hopen
  · cases hopen
  · obtain ⟨os, g₁, hos, hrest⟩ := Act.run_bind_eq_ok_iff.mp hopen
    obtain ⟨_, g₂, -, hpure⟩ := Act.run_bind_eq_ok_iff.mp hrest
    cases hpure
    refine Act.collect_forall₂ numbers_output ?_ pins ⟨rfl, rfl, rfl⟩ hos
    intro pin s o t hs hrun
    obtain ⟨mcu, s₁, hmcu, hrest⟩ := Act.run_bind_eq_ok_iff.mp hrun
    obtain ⟨_, s₂, -, hrest⟩ := Act.run_bind_eq_ok_iff.mp hrest
    obtain ⟨_, s₃, -, hpure⟩ := Act.run_bind_eq_ok_iff.mp hrest
    cases hpure
    exact ⟨rfl, mcuPin_names hs hmcu⟩

theorem prepare_names {pins : List InputPin} {settings : InputSettings} {mcus : List Nat}
    (hrun : (InputPort.prepare pins settings).run g = (.ok mcus, g')) :
    List.Forall₂ (fun pin mcu => g.handle.table.toMcu? pin.pin g.handle.numbering = some mcu)
      pins mcus := by
  unfold InputPort.prepare at hrun
  obtain ⟨_, g₁, hvalid, hrest⟩ := Act.run_bind_eq_ok_iff.mp hrun
  have hg₁ : g₁ = g := by
    have hleaves := Act.Leaves.lift settings.validate g
    rw [hvalid] at hleaves
    exact hleaves
  subst hg₁
  split at hrest
  · cases hrest
  · refine Act.collect_forall₂ numbers_input ?_ pins ⟨rfl, rfl, rfl⟩ hrest
    intro pin s mcu t hs hconfigure
    obtain ⟨_, s₁, hmode, hrest⟩ := Act.run_bind_eq_ok_iff.mp hconfigure
    obtain ⟨_, s₂, hpull, hmcu⟩ := Act.run_bind_eq_ok_iff.mp hrest
    have hs₁ := numbers_setMode pin.pin .input s hs
    rw [hmode] at hs₁
    have hs₂ := numbers_setPull pin.pin pin.pull s₁ hs₁
    rw [hpull] at hs₂
    exact mcuPin_names hs₂ hmcu

/-- The reference sample gives every pin the chip pin found for it. -/
theorem finish_names {pins : List InputPin} {mcus : List Nat} {settings : InputSettings} {now : Nat}
    {p : InputPort κ} {P : InputPin → Nat → Prop} (hpins : List.Forall₂ P pins mcus)
    (hrun : (InputPort.finish pins mcus settings now).run g = (.ok p, g')) :
    List.Forall₂ (fun pin i => i.pin = pin ∧ P pin i.mcu) pins p.inputs := by
  obtain ⟨inputs, g₁, hinputs, hrest⟩ := Act.run_bind_eq_ok_iff.mp hrun
  obtain ⟨_, g₂, -, hpure⟩ := Act.run_bind_eq_ok_iff.mp hrest
  cases hpure
  clear hrun hrest
  show List.Forall₂ _ pins inputs
  induction hpins generalizing g inputs with
  | nil =>
    cases hinputs
    exact .nil
  | cons hpin _ ih =>
    obtain ⟨i, g₃, hfirst, hrest⟩ := Act.run_bind_eq_ok_iff.mp hinputs
    obtain ⟨is, g₄, his, hpure⟩ := Act.run_bind_eq_ok_iff.mp hrest
    obtain ⟨high, g₅, -, hi⟩ := Act.run_bind_eq_ok_iff.mp hfirst
    cases hpure
    cases hi
    exact .cons ⟨rfl, hpin⟩ (ih is his)

end Gpio

namespace Hub

variable {β κ α : Type} {s s' : Hub β} {h : Nat} {g : Gpio (Line β)}

/-- What a handle does at its site goes well if it goes well in the hub. -/
theorem site_of_onHandle (hg : s.site? h = some g) {x : Act (Gpio (Line β)) α} {a : α}
    (hrun : (onHandle h x).run s = (.ok a, s')) : ∃ g', x.run g = (.ok a, g') := by
  have hres := (run_onHandle hg x).1
  rw [hrun] at hres
  exact ⟨(x.run g).2, Prod.ext hres.symm rfl⟩

variable [Backend β]

/-- An output port has the chip pins that its numbers stand for when it is opened. -/
theorem openOutput_names (hg : s.site? h = some g) {pins : List OutputPin} {p : OutputPort}
    (hopen : (openOutput h pins).run s = (.ok p, s')) : p.Names g.handle pins := by
  obtain ⟨q, s₁, hport, hrest⟩ := Act.run_bind_eq_ok_iff.mp hopen
  obtain ⟨_, s₂, -, hpure⟩ := Act.run_bind_eq_ok_iff.mp hrest
  cases hpure
  obtain ⟨g', hrun⟩ := site_of_onHandle hg hport
  exact Gpio.openOutput_names hrun

/-- An input port has the chip pins that its numbers stand for when it is opened. -/
theorem openInput_names (hg : s.site? h = some g) {pins : List InputPin} {settings : InputSettings}
    {now : Nat} {p : InputPort κ}
    (hopen : (openInput h pins settings now).run s = (.ok p, s')) : p.Names g.handle pins := by
  obtain ⟨mcus, s₁, hprepare, hrest⟩ := Act.run_bind_eq_ok_iff.mp hopen
  obtain ⟨_, s₂, hretain, hfinish⟩ := Act.run_bind_eq_ok_iff.mp hrest
  obtain ⟨g₁, hprepared⟩ := site_of_onHandle hg hprepare
  have hfinished : (onHandle h (InputPort.finish pins mcus settings now)).run s₂ = (.ok p, s') := by
    rw [Act.run_orCleanUp] at hfinish
    rcases hrun : (onHandle h (InputPort.finish (κ := κ) pins mcus settings now)).run s₂ with
      ⟨e | q, s₃⟩
    · rw [hrun] at hfinish
      cases hfinish
    · rw [hrun] at hfinish
      exact hfinish
  -- a reference more or less moves no site, so the second half finds the handle where the first
  -- has left it
  have hsite : ∃ g₂, s₂.site? h = some g₂ := by
    have hafter := (run_onHandle hg (InputPort.prepare pins settings)).2.1
    rw [hprepare] at hafter
    have hs₂ : s₂ = ((countRefs h (· + 1)).run s₁).2 := (congrArg Prod.snd hretain).symm
    rw [hs₂, site?_countRefs, hafter]
    exact ⟨_, rfl⟩
  obtain ⟨g₂, hg₂⟩ := hsite
  obtain ⟨g₃, hrun⟩ := site_of_onHandle hg₂ hfinished
  exact Gpio.finish_names (Gpio.prepare_names hprepared) hrun

end Hub

/-! ## Calls of output ports -/

/-- What a call of an output port does with the chip pins of its outputs. -/
def Bench.OutputCall.chipCalls (p : OutputPort) : OutputCall → List PinCall
  | write index on => p.writes on index
  | set index => p.writes true index
  | clear index => p.writes false index
  | toggle index => p.toggles index
  | writeAll on => p.indices.flatMap fun index => p.writes (on.contains index) index
  | setAll => p.indices.flatMap (p.writes true)
  | clearAll => p.indices.flatMap (p.writes false)
  | toggleAll => p.indices.flatMap p.toggles

theorem OutputPort.adds_call {β : Type} [Backend β] (p : OutputPort) (call : OutputCall) :
    (call.perform p : Act (Gpio (Line (Recorded β))) Answer).Adds Gpio.tally (call.chipCalls p) := by
  have hquiet : ∀ {x : Act (Gpio (Line (Recorded β))) Unit} {cs : List PinCall},
      x.Adds Gpio.tally cs → (quiet x).Adds Gpio.tally cs :=
    fun hx => hx.before fun _ => Act.Adds.pure _
  cases call with
  | write index on => exact hquiet (p.adds_write index on)
  | set index => exact hquiet (p.adds_write index true)
  | clear index => exact hquiet (p.adds_write index false)
  | toggle index => exact hquiet (p.adds_toggle index)
  | writeAll on => exact hquiet (Act.Adds.each (fun index => p.adds_write index _) _)
  | setAll => exact hquiet (Act.Adds.each (fun index => p.adds_write index true) _)
  | clearAll => exact hquiet (Act.Adds.each (fun index => p.adds_write index false) _)
  | toggleAll => exact hquiet (Act.Adds.each p.adds_toggle _)

namespace Hub

variable {β α : Type}

/-- The calls made of the backend that a handle drives. -/
def tally (h : Nat) : Act.Tally (Hub (Recorded β)) PinCall where
  made s := ((s.site? h).map Gpio.tally.made).getD []
  whole s := ∀ g, s.site? h = some g → Gpio.tally.whole g

theorem run_onHandle_absent {s : Hub β} {h : Nat} (hnone : s.site? h = none)
    (x : Act (Gpio (Line β)) α) : ∃ e, (onHandle h x).run s = (.error e, s) := by
  unfold site? at hnone
  simp only [Act.run, onHandle]
  cases hs : s.handles[h]? with
  | none => exact ⟨_, rfl⟩
  | some shared =>
    rw [hs] at hnone
    have hrig : s.rigs[shared.rig]? = none := by simpa using hnone
    simp only [hrig]
    exact ⟨_, rfl⟩

theorem adds_onHandle (h : Nat) {x : Act (Gpio (Line (Recorded β))) α} {cs : List PinCall}
    (hx : x.Adds Gpio.tally cs) : (onHandle h x).Adds (tally h) cs := by
  intro s
  cases hg : s.site? h with
  | none =>
    obtain ⟨e, hrun⟩ := run_onHandle_absent hg x
    rw [hrun]
    exact ⟨[], (List.append_nil _).symm, List.nil_sublist cs, fun hs => ⟨hs, fun a h => by cases h⟩⟩
  | some g =>
    obtain ⟨made, hmade, hsub, hwhole⟩ := hx g
    obtain ⟨hres, hsite, -⟩ := run_onHandle hg x
    refine ⟨made, ?_, hsub, fun hs => ?_⟩
    · simp only [tally, hsite, hg, Option.map_some, Option.getD_some]
      exact hmade
    · obtain ⟨-, hall⟩ := hwhole (hs g hg)
      refine ⟨fun g' hg' => ?_, ?_⟩
      · rw [hsite] at hg'
        cases hg'
        exact hs g hg
      · rw [hres]
        exact hall

end Hub

/-! ## Sessions with input ports -/

namespace InputPort

variable {κ : Type}

/-- The pins of a port, each with its chip pin. -/
def wires (p : InputPort κ) : List (InputPin × Nat) := p.inputs.map fun i => (i.pin, i.mcu)

theorem names_iff {h : Handle} {pins : List InputPin} {p : InputPort κ} :
    p.Names h pins ↔ List.Forall₂
      (fun pin w => w.1 = pin ∧ h.table.toMcu? pin.pin h.numbering = some w.2) pins p.wires := by
  rw [Names, wires, List.forall₂_map_right_iff]

theorem wires_change {ws : List (InputPin × Nat)} (index : Nat) {f : Input κ → Input κ}
    (hf : ∀ i, (f i).pin = i.pin ∧ (f i).mcu = i.mcu) :
    (change index f).Keeps fun p => p.wires = ws := by
  intro p hp
  rw [run_change]
  cases p.inputs[index]? with
  | none => exact hp
  | some i =>
    refine Eq.trans (map_modify_inputs (fun j => ?_) p.inputs index) hp
    rw [(hf j).1, (hf j).2]

theorem wires_perform {ws : List (InputPin × Nat)} (call : CallbackCall κ) :
    call.perform.Keeps fun p => p.wires = ws := by
  have hinput : ∀ index, (input index : Act (InputPort κ) (Input κ)).Keeps fun p => p.wires = ws := by
    intro index p hp
    rw [run_input]
    cases p.inputs[index]? <;> exact hp
  refine Act.Keeps.bind ?_ fun _ => Act.Keeps.modify fun p hp => hp
  cases call with
  | install index action =>
    refine (hinput index).bind fun _ => Act.Keeps.bind (fun p hp => hp) fun callback => ?_
    exact wires_change index fun i => ⟨rfl, rfl⟩
  | uninstall index => exact wires_change index fun i => ⟨rfl, rfl⟩
  | installGroup action =>
    exact Act.Keeps.bind (fun p hp => hp) fun callback => Act.Keeps.modify fun p hp => hp
  | uninstallGroup => exact Act.Keeps.modify fun p hp => hp

/-- No call moves an input to another pin. -/
theorem wires_after (p : InputPort κ) (call : PortCall κ) : (p.after call).wires = p.wires := by
  cases call with
  | setEdge index trigger =>
    rw [after_setEdge]
    cases p.inputs[index]? with
    | none => rfl
    | some _ =>
      exact map_modify_inputs (f := fun i => { i with trigger := trigger }) (fun _ => rfl) _ index
  | takeEdge index =>
    rw [after_takeEdge]
    cases p.inputs[index]? with
    | none => rfl
    | some _ =>
      exact map_modify_inputs (f := fun i => { i with occurred := none }) (fun _ => rfl) _ index
  | callback call =>
    rw [after_callback]
    exact wires_perform call p rfl

end InputPort

theorem Moment.Step.wires {κ : Type} {m m' : Moment κ} {es : List (Event κ)} (h : m.Step es m') :
    m'.port.wires = m.port.wires := by
  cases h with
  | call m call => exact m.port.wires_after call
  | sample p => rfl
  | accept p levels hsize =>
    refine InputPort.map_accept_inputs p (fun i level => ?_) hsize
    obtain ⟨-, -, hpin, hmcu⟩ := i.accept_frame p.group level
    rw [hpin, hmcu]
  | enter p c rest active hcurrent => rfl
  | leave p c rest failed => rfl
  | skip p c rest hgone =>
    exact InputPort.map_modify_inputs (f := fun i => { i with occurred := some c.edge })
      (fun _ => rfl) _ c.index
  | report m throttle => rfl

theorem Trace.wires {κ : Type} {m m' : Moment κ} {es : List (Event κ)} (h : Trace m es m') :
    m'.port.wires = m.port.wires := by
  induction h with
  | none => rfl
  | step _ hstep ih => exact hstep.wires.trans ih

namespace Desk

variable {κ ε : Type}

/-- Whatever happens in a session, the inputs stay on the chip pins that their numbers stood for
when the port was opened. -/
theorem Session.names {log : ε → List (κ × Occasion)} {d₀ d : Desk κ ε} (h : Session log d₀ d)
    {handle : Handle} {pins : List InputPin} (hnames : d₀.port.Names handle pins) :
    d.port.Names handle pins := by
  obtain ⟨es, hrun⟩ := h.chronicle
  have htrace := hrun.trace.1
  rw [InputPort.names_iff] at hnames ⊢
  rw [htrace.wires]
  exact hnames

/-! ## What a cycle reads -/

/-- The surroundings differ at most in the levels of pins that are no pins of the port. -/
structure SameFor (p : InputPort κ) (s s' : Surroundings ε) : Prop where
  read : ∀ mcu ∈ p.chipPins, s.read mcu = s'.read mcu
  pause : s.pause = s'.pause
  now : s.now = s'.now
  note : s.note = s'.note

variable {p : InputPort κ} {s s' : Surroundings ε}

theorem collect_congr {σ α β : Type} {f g : α → Act σ β} {as : List α} (h : ∀ a ∈ as, f a = g a) :
    Act.collect f as = Act.collect g as := by
  induction as with
  | nil => rfl
  | cons a as ih =>
    rw [Act.collect, Act.collect, h a List.mem_cons_self,
      ih fun b hb => h b (List.mem_cons_of_mem a hb)]

theorem sample_congr (h : SameFor p s s') (w : ε) :
    (sample s).run ⟨p, w⟩ = (sample s').run ⟨p, w⟩ := by
  rw [run_sample_raw, run_sample_raw, collect_congr h.read]

theorem report_congr (h : SameFor p s s') (notice : Nat → Notice) :
    (report s notice : Desk κ ε → Desk κ ε) = report s' notice := by
  funext d
  unfold report
  rw [h.now, h.note]

theorem makeCall_congr (h : SameFor p s s') (invoke : Invoke κ ε) (active : PinSet)
    (c : PendingCall κ) (d : Desk κ ε) :
    makeCall s invoke active c d = makeCall s' invoke active c d := by
  unfold makeCall
  simp only [report_congr h]

theorem makeCalls_congr (h : SameFor p s s') (invoke : Invoke κ ε) (active : PinSet)
    (calls : List (PendingCall κ)) (d : Desk κ ε) :
    makeCalls s invoke active calls d = makeCalls s' invoke active calls d := by
  induction calls generalizing d with
  | nil => rfl
  | cons c calls ih => simp only [makeCalls, makeCall_congr h, ih]

theorem settle_congr (h : SameFor p s s') (invoke : Invoke κ ε) (levels : List Bool)
    (d : Desk κ ε) : (settle s invoke levels).run d = (settle s' invoke levels).run d := by
  rw [run_settle, run_settle]
  cases PinSet.ofLevels? levels with
  | error e => rfl
  | ok active => simp only [makeCalls_congr h]

theorem confirm_congr (h : SameFor p s s') (invoke : Invoke κ ε) (delay : Duration)
    (levels : List Bool) (w : ε) :
    (confirm s invoke delay levels).run ⟨p, w⟩ = (confirm s' invoke delay levels).run ⟨p, w⟩ := by
  rw [confirm, confirm, Act.run_bind_ok _ (Act.run_modify _ _),
    Act.run_bind_ok _ (Act.run_modify _ _), Act.run_bind, Act.run_bind, ← h.pause,
    ← sample_congr h]
  rcases (sample s).run ⟨p, s.pause delay w⟩ with ⟨e | again, d⟩
  · rfl
  · simp only
    split
    · exact settle_congr h invoke again d
    · rfl

/-- A cycle asks for no level but those of the port's chip pins. -/
theorem poll_congr (h : SameFor p s s') (invoke : Invoke κ ε) (w : ε) :
    (poll s invoke).run ⟨p, w⟩ = (poll s' invoke).run ⟨p, w⟩ := by
  have hport := (run_sample (s := s) ⟨p, w⟩).1
  rw [poll, poll, Act.run_bind, Act.run_bind, ← sample_congr h]
  rcases hrun : (sample s).run ⟨p, w⟩ with ⟨e | levels, q, v⟩
  · rfl
  · rw [hrun] at hport
    obtain rfl : q = p := hport
    have hcounted : SameFor q.countSample s s' := ⟨h.read, h.pause, h.now, h.note⟩
    simp only
    rw [Act.run_bind_ok _ (Act.run_modify _ _), Act.run_bind_ok _ (Act.run_modify _ _),
      Act.run_bind_ok _ (Act.run_gets _ _), Act.run_bind_ok _ (Act.run_gets _ _)]
    split
    · rfl
    · split
      · exact settle_congr h invoke levels _
      · exact confirm_congr hcounted invoke _ levels v

theorem monitorCycle_congr (h : SameFor p s s') (invoke : Invoke κ ε) (w : ε) :
    (monitorCycle s invoke).run ⟨p, w⟩ = (monitorCycle s' invoke).run ⟨p, w⟩ := by
  rw [monitorCycle, monitorCycle, Act.run_bind, Act.run_bind, Act.run_attempt, Act.run_attempt,
    ← poll_congr h]
  rcases (poll s invoke).run ⟨p, w⟩ with ⟨(e | f) | calls, d⟩
  · simp only [report_congr h]
  · rfl
  · rfl

theorem readAll_congr (h : SameFor p s s') (w : ε) :
    (readAll s).run ⟨p, w⟩ = (readAll s').run ⟨p, w⟩ := by
  rw [readAll, readAll, Act.run_bind, Act.run_bind, sample_congr h]

theorem read_congr (h : SameFor p s s') (index : Nat) (w : ε) :
    (read s index).run ⟨p, w⟩ = (read s' index).run ⟨p, w⟩ := by
  rw [read, read, Act.run_bind, Act.run_bind, onPort, Act.run_within, InputPort.run_input]
  cases hi : p.inputs[index]? with
  | none => rfl
  | some i =>
    have hmcu : i.mcu ∈ p.chipPins := List.mem_map_of_mem (List.mem_of_getElem? hi)
    simp only
    rw [run_level, run_level, h.read i.mcu hmcu]

end Desk

/-! ## Ports keep to their chip pins -/

/-- In whatever state the hub is, calls of the port go to the chip pins that its numbers stood for
in the handle `c`. -/
structure OutputPort.Addresses (β : Type) [Backend β] (h : Nat) (c : Handle)
    (pins : List OutputPin) (p : OutputPort) : Prop where
  names : p.Names c pins
  calls : ∀ call : OutputCall, (Hub.onHandle h (call.perform p) :
    Act (Hub (Recorded β)) Answer).Adds (Hub.tally h) (call.chipCalls p)
  read : ∀ index, (Hub.onHandle h (p.read index) :
    Act (Hub (Recorded β)) Bool).Adds (Hub.tally h) (p.reads index)
  readAll : (Hub.onHandle h p.readAll :
    Act (Hub (Recorded β)) PinSet).Adds (Hub.tally h) (p.indices.flatMap p.reads)

/-- The chip pins of the port are those that its numbers stood for in the handle `c`, and it reads
no others. -/
structure InputPort.Addresses {κ : Type} (c : Handle) (pins : List InputPin) (p : InputPort κ) :
    Prop where
  names : p.Names c pins
  reads : ∀ {ε : Type} {s s' : Surroundings ε}, Desk.SameFor p s s' → ∀ (w : ε) (index : Nat)
    (invoke : Invoke κ ε),
      (Desk.read s index).run ⟨p, w⟩ = (Desk.read s' index).run ⟨p, w⟩ ∧
        (Desk.readAll s).run ⟨p, w⟩ = (Desk.readAll s').run ⟨p, w⟩ ∧
        (Desk.poll s invoke).run ⟨p, w⟩ = (Desk.poll s' invoke).run ⟨p, w⟩ ∧
        (Desk.monitorCycle s invoke).run ⟨p, w⟩ = (Desk.monitorCycle s' invoke).run ⟨p, w⟩

namespace Hub

variable {β κ ε : Type} [Backend β] {h : Nat}

theorem addresses_openOutput {s s' : Hub (Recorded β)} {g : Gpio (Line (Recorded β))}
    (hg : s.site? h = some g) {pins : List OutputPin} {p : OutputPort}
    (hopen : (openOutput h pins).run s = (.ok p, s')) : p.Addresses β h g.handle pins where
  names := openOutput_names hg hopen
  calls call := adds_onHandle h (p.adds_call call)
  read index := adds_onHandle h (p.adds_read index)
  readAll := adds_onHandle h (p.adds_readIndices p.indices .empty)

theorem addresses_openInput {s s' : Hub β} {g : Gpio (Line β)} (hg : s.site? h = some g)
    {pins : List InputPin} {settings : InputSettings} {now : Nat} {p : InputPort κ}
    (hopen : (openInput h pins settings now).run s = (.ok p, s'))
    {log : ε → List (κ × Occasion)} {w : ε} {d : Desk κ ε} (hd : Desk.Session log ⟨p, w⟩ d) :
    d.port.Addresses g.handle pins where
  names := hd.names (openInput_names hg hopen)
  reads hsame w index invoke := ⟨Desk.read_congr hsame index w, Desk.readAll_congr hsame w,
    Desk.poll_congr hsame invoke w, Desk.monitorCycle_congr hsame invoke w⟩

end Hub

end BoardGpio
