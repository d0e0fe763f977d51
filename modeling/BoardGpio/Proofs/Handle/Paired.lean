import BoardGpio.Bench.Perform
import BoardGpio.Proofs.Act.Match
import BoardGpio.Proofs.Handle.Calls

/-!
# Uses of two handles that match

Handles on backends of two kinds are paired by a relation under which the calls they make of their
backends match. Then everything a program does with them matches, as it is made of these calls and
of the bookkeeping, which is the same on both sides (`Gpio.Paired`). Reading levels is left out, as
two backends may agree on everything but levels; with reading, a handle may be paired with itself
(`Gpio.Twin`).
-/

set_option autoImplicit false

namespace BoardGpio

open Bench

theorem Bench.matches_quiet {σ τ : Type} {R : σ → τ → Prop} {x : Act σ Unit} {y : Act τ Unit}
    (hx : Act.Matches R x y) : Act.Matches R (quiet x) (quiet y) :=
  hx.bind fun _ => Act.Matches.pure _

namespace Gpio

variable {β γ α : Type} [Backend β] [Backend γ]

/-- The relation pairs handles of equal bookkeeping, and calls on pins match under it. Modes are set
only if they are `Settable`. -/
structure Paired (R : Gpio β → Gpio γ → Prop) (Settable : Mode → Prop) : Prop where
  settable_input : Settable .input
  settable_output : Settable .output
  handle : ∀ g g', R g g' → g.handle = g'.handle
  askMode : ∀ mcu, Act.Matches R (hardware (Backend.mode mcu)) (hardware (Backend.mode mcu))
  askPull : ∀ mcu, Act.Matches R (hardware (Backend.pull mcu)) (hardware (Backend.pull mcu))
  writeMcu : ∀ mcu high, Act.Matches R (writeMcu mcu high) (writeMcu mcu high)
  toggleMcu : ∀ mcu, Act.Matches R (toggleMcu mcu) (toggleMcu mcu)
  setMode : ∀ pin m, Settable m → Act.Matches R (setMode pin m) (setMode pin m)
  setPull : ∀ pin u, Act.Matches R (setPull pin u) (setPull pin u)
  restorePin : ∀ mcu, Act.Matches R (restorePin mcu) (restorePin mcu)
  update : ∀ f : Handle → Handle,
    (∀ h, (f h).records = h.records ∧ (f h).released = h.released) →
      Act.Matches R (update f) (update f)
  note : ∀ n, Act.Matches R (note n) (note n)

/-- The relation pairs handles that also read the same levels, on backends of one name. -/
structure Twin (R : Gpio β → Gpio γ → Prop) (Settable : Mode → Prop) : Prop
    extends Paired R Settable where
  readMcu : ∀ mcu, Act.Matches R (readMcu mcu) (readMcu mcu)
  name : ∀ g g', R g g' → Backend.name g.backend = Backend.name g'.backend

variable {R : Gpio β → Gpio γ → Prop} {Settable : Mode → Prop}

omit [Backend β] [Backend γ] in
theorem matches_mcuPin (handle : ∀ g g', R g g' → g.handle = g'.handle) (pin : Nat) :
    Act.Matches R (mcuPin pin) (mcuPin pin) := by
  intro g g' hg
  unfold Act.MatchesAt
  rw [run_mcuPin, run_mcuPin, handle g g' hg]
  cases g'.handle.resolve pin <;> exact ⟨rfl, hg⟩

/-! ## Calls of output ports -/

omit [Backend β] [Backend γ] in
theorem matches_getOutput (p : OutputPort) (index : Nat) :
    Act.Matches R (p.output index : Act (Gpio β) Output) (p.output index) := by
  unfold OutputPort.output
  cases p.outputs[index]? with
  | none => exact Act.Matches.fail _
  | some o => exact Act.Matches.pure o

section Outputs

variable (hwrite : ∀ mcu high, Act.Matches R (writeMcu mcu high) (writeMcu mcu high))
  (htoggle : ∀ mcu, Act.Matches R (toggleMcu mcu) (toggleMcu mcu))
  (hread : ∀ mcu, Act.Matches R (readMcu mcu) (readMcu mcu))

include hwrite in
theorem matches_writeOutput (p : OutputPort) (index : Nat) (on : Bool) :
    Act.Matches R (p.write index on) (p.write index on) :=
  (matches_getOutput p index).bind fun o => hwrite o.mcu _

include htoggle in
theorem matches_toggleOutput (p : OutputPort) (index : Nat) :
    Act.Matches R (p.toggle index) (p.toggle index) :=
  (matches_getOutput p index).bind fun o => htoggle o.mcu

include hwrite htoggle in
/-- The calls of a port match if driving and inverting chip pins do. -/
theorem matches_outputCall (p : OutputPort) (call : OutputCall) :
    Act.Matches R (call.perform p) (call.perform p) := by
  have hwrites := matches_writeOutput hwrite p
  cases call with
  | write index on => exact matches_quiet (hwrites index on)
  | set index => exact matches_quiet (hwrites index true)
  | clear index => exact matches_quiet (hwrites index false)
  | toggle index => exact matches_quiet (matches_toggleOutput htoggle p index)
  | writeAll on => exact matches_quiet (Act.Matches.each (fun index => hwrites index _) _)
  | setAll => exact matches_quiet (Act.Matches.each (fun index => hwrites index true) _)
  | clearAll => exact matches_quiet (Act.Matches.each (fun index => hwrites index false) _)
  | toggleAll => exact matches_quiet (Act.Matches.each (matches_toggleOutput htoggle p) _)

include hread in
theorem matches_readOutput (p : OutputPort) (index : Nat) :
    Act.Matches R (p.read index) (p.read index) :=
  (matches_getOutput p index).bind fun o => (hread o.mcu).bind fun _ => Act.Matches.pure _

include hread in
theorem matches_readIndices (p : OutputPort) (indices : List Nat) (active : PinSet) :
    Act.Matches R (p.readIndices indices active) (p.readIndices indices active) := by
  induction indices generalizing active with
  | nil => exact Act.Matches.pure active
  | cons index rest ih =>
    refine (matches_readOutput hread p index).bind fun on => ?_
    cases on
    · exact ih active
    · exact (Act.Matches.lift _).bind fun active => ih active

end Outputs

/-- Pins are put back alike one after the other if each of them is. -/
theorem matches_restoreAll
    (hpin : ∀ mcu, Act.Matches R (restorePin mcu) (restorePin mcu))
    (hnote : ∀ n, Act.Matches R (note n) (note n)) (pins : List Nat) (restored : Nat)
    (first : Option Error) :
    Act.Matches R (restoreAll pins restored first) (restoreAll pins restored first) := by
  induction pins generalizing restored first with
  | nil => exact Act.Matches.pure _
  | cons mcu rest ih =>
    refine (hpin mcu).attempt.bind fun outcome => ?_
    rcases outcome with e | done
    · exact (hnote _).bind fun _ => ih restored (first.or (some e))
    · cases done
      · exact ih restored first
      · exact ih (restored + 1) first

/-! ## Handles of equal bookkeeping -/

namespace Paired

variable (hR : Paired R Settable)
include hR

theorem mcuPin (pin : Nat) : Act.Matches R (mcuPin pin) (mcuPin pin) :=
  matches_mcuPin hR.handle pin

theorem getHandle : Act.Matches R (Act.gets Gpio.handle) (Act.gets Gpio.handle) :=
  Act.Matches.gets hR.handle

theorem mode (pin : Nat) : Act.Matches R (mode pin) (mode pin) :=
  (hR.mcuPin pin).bind fun mcu => hR.askMode mcu

theorem pull (pin : Nat) : Act.Matches R (pull pin) (pull pin) := by
  refine (hR.mcuPin pin).bind fun mcu => (hR.askPull mcu).bind fun seen => ?_
  refine Act.Matches.bind (Act.Matches.gets fun g g' hg => ?_) fun _ => Act.Matches.pure _
  rw [hR.handle g g' hg]

theorem write (pin : Nat) (high : Bool) : Act.Matches R (write pin high) (write pin high) :=
  (hR.mcuPin pin).bind fun mcu => hR.writeMcu mcu high

theorem toggle (pin : Nat) : Act.Matches R (toggle pin) (toggle pin) :=
  (hR.mcuPin pin).bind fun mcu => hR.toggleMcu mcu

theorem ifOutput (mcu : Nat) {x : Act (Gpio β) Unit} {y : Act (Gpio γ) Unit}
    (hx : Act.Matches R x y) : Act.Matches R (ifOutput mcu x) (ifOutput mcu y) := by
  refine (hR.askMode mcu).bind fun m => ?_
  by_cases hm : m = .output
  · rw [if_pos hm, if_pos hm]
    exact hx
  · rw [if_neg hm, if_neg hm]
    exact Act.Matches.pure ()

theorem writeAll (pins : PinSet) (high : Bool) :
    Act.Matches R (writeAll pins high) (writeAll pins high) := by
  refine hR.getHandle.bind fun handle => Act.Matches.each ?_ _
  rintro ⟨_, mcu⟩
  exact hR.ifOutput mcu (hR.writeMcu mcu high)

theorem toggleAll (pins : PinSet) : Act.Matches R (toggleAll pins) (toggleAll pins) := by
  refine hR.getHandle.bind fun handle => Act.Matches.each ?_ _
  rintro ⟨_, mcu⟩
  exact hR.ifOutput mcu (hR.toggleMcu mcu)

theorem setNumbering (n : Numbering) : Act.Matches R (setNumbering n) (setNumbering n) := by
  refine Act.Matches.bind (Act.Matches.gets fun g g' hg => ?_) fun now => ?_
  · rw [hR.handle g g' hg]
  by_cases hnow : now = n
  · rw [if_pos hnow, if_pos hnow]
    exact Act.Matches.pure ()
  · rw [if_neg hnow, if_neg hnow]
    refine (hR.update _ fun h => ?_).bind fun _ => hR.note _
    unfold Handle.setNumbering
    split <;> exact ⟨rfl, rfl⟩

/-! ## Commands -/

theorem look (f : Handle → Answer) : Act.Matches R (look f) (look f) :=
  Act.Matches.gets fun g g' hg => by rw [hR.handle g g' hg]

theorem step {f : Handle → Option Nat × Handle}
    (hf : ∀ h, (f h).2.records = h.records ∧ (f h).2.released = h.released) :
    Act.Matches R (step f) (step f) := by
  refine Act.Matches.bind (Act.Matches.gets fun g g' hg => ?_) fun _ =>
    (hR.update _ hf).bind fun _ => Act.Matches.pure _
  rw [hR.handle g g' hg]

/-- A call on a pin matches, unless it reads a level or sets a mode that is not settable. -/
theorem pinCall {call : PinCall} (hset : ∀ pin m, call = .setMode pin m → Settable m)
    (hread : ∀ pin, call ≠ .read pin) :
    Act.Matches R call.throughHandle call.throughHandle := by
  cases call with
  | setMode pin m => exact matches_quiet (hR.setMode pin m (hset pin m rfl))
  | mode pin => exact (hR.mode pin).map _
  | setPull pin u => exact matches_quiet (hR.setPull pin u)
  | pull pin => exact (hR.pull pin).map _
  | write pin high => exact matches_quiet (hR.write pin high)
  | read pin => exact absurd rfl (hread pin)
  | toggle pin => exact matches_quiet (hR.toggle pin)

/-- A call on a handle matches, unless it reads levels or asks for the name of the backend. -/
theorem handleCall {call : HandleCall} (hread : ∀ pins, call ≠ .readAll pins)
    (hname : call ≠ .backendName) : Act.Matches R call.perform call.perform := by
  cases call with
  | mcuPin pin => exact (hR.mcuPin pin).map _
  | isValid pin => exact hR.look _
  | numbering => exact hR.look _
  | setNumbering n => exact matches_quiet (hR.setNumbering n)
  | releaseOnClose => exact hR.look _
  | setReleaseOnClose enabled => exact matches_quiet (hR.update _ fun h => ⟨rfl, rfl⟩)
  | readAll pins => exact absurd rfl (hread pins)
  | writeAll pins high => exact matches_quiet (hR.writeAll pins high)
  | toggleAll pins => exact matches_quiet (hR.toggleAll pins)
  | pins => exact hR.look _
  | toFront => exact matches_quiet (hR.update _ fun h => ⟨rfl, rfl⟩)
  | toBack => exact matches_quiet (hR.update _ fun h => ⟨rfl, rfl⟩)
  | hasNext => exact hR.look _
  | hasPrevious => exact hR.look _
  | next =>
    refine hR.step fun h => ?_
    unfold Handle.next
    split <;> exact ⟨rfl, rfl⟩
  | previous =>
    refine hR.step fun h => ?_
    unfold Handle.previous
    split <;> exact ⟨rfl, rfl⟩
  | backendName => exact absurd rfl hname
  | tableName => exact hR.look _

/-! ## Output ports -/

theorem openOutput (pins : List OutputPin) :
    Act.Matches R (OutputPort.openPort pins) (OutputPort.openPort pins) := by
  have hconfigure : ∀ pin : OutputPin,
      Act.Matches R (OutputPort.configure pin) (OutputPort.configure pin) := fun pin =>
    (hR.mcuPin pin.pin).bind fun mcu => (hR.write pin.pin _).bind fun _ =>
      (hR.setMode pin.pin .output hR.settable_output).bind fun _ => Act.Matches.pure _
  unfold OutputPort.openPort
  split
  · exact Act.Matches.fail _
  · exact (Act.Matches.collect hconfigure pins).bind fun outputs =>
      (hR.note _).bind fun _ => Act.Matches.pure _

theorem outputCall (p : OutputPort) (call : OutputCall) :
    Act.Matches R (call.perform p) (call.perform p) :=
  matches_outputCall hR.writeMcu hR.toggleMcu p call

/-! ## Restoring -/

theorem restoreAll (pins : List Nat) (restored : Nat) (first : Option Error) :
    Act.Matches R (restoreAll pins restored first) (restoreAll pins restored first) :=
  matches_restoreAll hR.restorePin hR.note pins restored first

end Paired

namespace Twin

variable (hR : Twin R Settable)
include hR

theorem read (pin : Nat) : Act.Matches R (read pin) (read pin) :=
  (hR.mcuPin pin).bind fun mcu => hR.readMcu mcu

theorem readTargets (targets : List (Nat × Nat)) (levels : PinSet) :
    Act.Matches R (readTargets targets levels) (readTargets targets levels) := by
  induction targets generalizing levels with
  | nil => exact Act.Matches.pure levels
  | cons target rest ih =>
    refine (hR.readMcu target.2).bind fun high => ?_
    cases high
    · exact ih levels
    · exact (Act.Matches.lift _).bind fun levels => ih levels

theorem readAll (pins : PinSet) : Act.Matches R (readAll pins) (readAll pins) := by
  refine hR.getHandle.bind fun handle => ?_
  cases pins.isEmpty
  · exact hR.readTargets _ _
  · exact (Act.Matches.lift _).bind fun pins => hR.readTargets _ _

theorem readOutput (p : OutputPort) (index : Nat) :
    Act.Matches R (p.read index) (p.read index) :=
  matches_readOutput hR.readMcu p index

theorem readIndices (p : OutputPort) (indices : List Nat) (active : PinSet) :
    Act.Matches R (p.readIndices indices active) (p.readIndices indices active) :=
  matches_readIndices hR.readMcu p indices active

theorem prepare (pins : List InputPin) (settings : InputSettings) :
    Act.Matches R (InputPort.prepare pins settings) (InputPort.prepare pins settings) := by
  have hconfigure : ∀ pin : InputPin,
      Act.Matches R (InputPort.configure pin) (InputPort.configure pin) := fun pin =>
    (hR.setMode pin.pin .input hR.settable_input).bind fun _ =>
      (hR.setPull pin.pin pin.pull).bind fun _ => hR.mcuPin pin.pin
  refine (Act.Matches.lift _).bind fun _ => ?_
  split
  · exact Act.Matches.fail _
  · exact Act.Matches.collect hconfigure pins

theorem finish {κ : Type} (pins : List InputPin) (mcus : List Nat) (settings : InputSettings)
    (now : Nat) :
    Act.Matches R (InputPort.finish pins mcus settings now : Act (Gpio β) (InputPort κ))
      (InputPort.finish pins mcus settings now) := by
  refine Act.Matches.bind (Act.Matches.collect ?_ _) fun inputs =>
    (hR.note _).bind fun _ => Act.Matches.pure _
  rintro ⟨pin, mcu⟩
  exact (hR.readMcu mcu).bind fun _ => Act.Matches.pure _

theorem pinCall (call : PinCall) (hset : ∀ m, Settable m) :
    Act.Matches R call.throughHandle call.throughHandle := by
  by_cases hread : ∃ pin, call = .read pin
  · obtain ⟨pin, rfl⟩ := hread
    exact (hR.read pin).map _
  · exact hR.toPaired.pinCall (fun _ m _ => hset m) fun pin h => hread ⟨pin, h⟩

theorem handleCall (call : HandleCall) : Act.Matches R call.perform call.perform := by
  by_cases hread : ∃ pins, call = .readAll pins
  · obtain ⟨pins, rfl⟩ := hread
    exact (hR.readAll pins).map _
  · by_cases hname : call = .backendName
    · subst hname
      exact Act.Matches.gets fun g g' hg => by rw [hR.name g g' hg]
    · exact hR.toPaired.handleCall (fun pins h => hread ⟨pins, h⟩) hname

end Twin

end Gpio

end BoardGpio
