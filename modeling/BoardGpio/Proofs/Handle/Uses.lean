import BoardGpio.Bench.Perform
import BoardGpio.Proofs.Handle.Calls

/-!
# Every use of a handle is made of calls

What a program can do with a handle, with a clone of it, or with a port that was opened on it
(`Gpio.IsUse`). All of it is made of a few calls on pins (`Gpio.Borne`) and of bookkeeping, so what
these keep true is kept true by every use (`Gpio.Upheld.use`). Opening a port may stop half-way and
leaves the pins it has changed until then; their records were made one by one, so they are true
there as well (`Gpio.IsUse.keeps`).
-/

set_option autoImplicit false

namespace BoardGpio

/-- What a program can do with a handle, a clone of it, or a port on it. A port reads chip pins that
were found when it was opened. -/
inductive Gpio.IsUse {β : Type} [Backend β] : {α : Type} → Act (Gpio β) α → Prop where
  | pin (call : Bench.PinCall) : IsUse call.throughHandle
  | handle (call : Bench.HandleCall) : IsUse call.perform
  | openInput {κ : Type} (pins : List InputPin) (settings : InputSettings) (now : Nat) :
      IsUse (InputPort.openPort pins settings now : Act (Gpio β) (InputPort κ))
  | openOutput (pins : List OutputPin) : IsUse (OutputPort.openPort pins)
  | output (port : OutputPort) (call : Bench.OutputCall) : IsUse (call.perform port)
  | readOutput (port : OutputPort) (index : Nat) : IsUse (port.read index)
  | readOutputs (port : OutputPort) : IsUse port.readAll
  | sample (mcu : Nat) : IsUse (Gpio.readMcu mcu)

open Gpio Backend

/-- Whether a call drives pins. -/
def Bench.HandleCall.drives : Bench.HandleCall → Bool
  | .writeAll _ _ => true
  | .toggleAll _ => true
  | _ => false

theorem Bench.keeps_quiet {σ : Type} {I : σ → Prop} {x : Act σ Unit} (hx : x.Keeps I) :
    (Bench.quiet x).Keeps I :=
  hx.bind fun _ => Act.Keeps.pure _

namespace OutputPort

theorem leaves_output {γ : Type} (p : OutputPort) (index : Nat) :
    (p.output index : Act (Gpio γ) Output).Leaves := by
  unfold output
  cases p.outputs[index]?
  · exact Act.Leaves.fail _
  · exact Act.Leaves.pure _

end OutputPort

namespace Gpio

variable {β : Type} [Backend β] {I : Gpio β → Prop}

/-- Reading levels keeps something true. -/
structure Readable (I : Gpio β → Prop) : Prop where
  readMcu : ∀ mcu, (readMcu mcu).Keeps I

/-- The calls on pins, and what is told to the log, keep something true. -/
structure Borne (I : Gpio β → Prop) : Prop extends Readable I where
  askMode : ∀ mcu, (hardware (Backend.mode mcu)).Keeps I
  askPull : ∀ mcu, (hardware (Backend.pull mcu)).Keeps I
  writeMcu : ∀ mcu high, (writeMcu mcu high).Keeps I
  toggleMcu : ∀ mcu, (toggleMcu mcu).Keeps I
  setMode : ∀ pin m, (setMode pin m).Keeps I
  setPull : ∀ pin u, (setPull pin u).Keeps I
  note : ∀ n, (note n).Keeps I

/-- Reading levels and the bookkeeping keep something true, and so does what is told to the log. -/
structure Tended (I : Gpio β → Prop) : Prop extends Readable I where
  note : ∀ n, (note n).Keeps I
  update : ∀ f : Handle → Handle,
    (∀ h, (f h).records = h.records ∧ (f h).released = h.released ∧ (f h).table = h.table) →
      (update f).Keeps I

/-- The calls that all uses of a handle are made of keep something true. -/
structure Upheld (I : Gpio β → Prop) : Prop extends Borne I, Tended I

namespace Readable

variable (hI : Readable I)
include hI

theorem readTargets (targets : List (Nat × Nat)) (levels : PinSet) :
    (readTargets targets levels).Keeps I := by
  induction targets generalizing levels with
  | nil => exact Act.Keeps.pure levels
  | cons target rest ih =>
    refine (hI.readMcu target.2).bind fun high => ?_
    cases high
    · exact ih levels
    · exact (Act.Leaves.lift _).keeps.bind fun levels => ih levels

theorem readAll (pins : PinSet) : (readAll pins).Keeps I := by
  refine (Act.Leaves.gets _).keeps.bind fun handle => ?_
  cases pins.isEmpty
  · exact hI.readTargets _ _
  · exact (Act.Leaves.lift _).keeps.bind fun pins => hI.readTargets _ _

theorem readOutput (p : OutputPort) (index : Nat) : (p.read index : Act (Gpio β) Bool).Keeps I :=
  (p.leaves_output index).keeps.bind fun o => (hI.readMcu o.mcu).bind fun _ =>
    Act.Keeps.pure _

theorem readIndices (p : OutputPort) (indices : List Nat) (active : PinSet) :
    (p.readIndices indices active : Act (Gpio β) PinSet).Keeps I := by
  induction indices generalizing active with
  | nil => exact Act.Keeps.pure active
  | cons index rest ih =>
    refine (hI.readOutput p index).bind fun on => ?_
    cases on
    · exact ih active
    · exact (Act.Leaves.lift _).keeps.bind fun active => ih active

end Readable

namespace Borne

variable (hI : Borne I)
include hI

theorem mode (pin : Nat) : (mode pin).Keeps I :=
  (leaves_mcuPin pin).keeps.bind fun mcu => hI.askMode mcu

theorem pull (pin : Nat) : (pull pin).Keeps I :=
  (leaves_mcuPin pin).keeps.bind fun mcu => (hI.askPull mcu).bind fun _ =>
    (Act.Leaves.gets _).keeps.bind fun _ => Act.Keeps.pure _

theorem write (pin : Nat) (high : Bool) : (write pin high).Keeps I :=
  (leaves_mcuPin pin).keeps.bind fun mcu => hI.writeMcu mcu high

theorem read (pin : Nat) : (read pin).Keeps I :=
  (leaves_mcuPin pin).keeps.bind fun mcu => hI.readMcu mcu

theorem toggle (pin : Nat) : (toggle pin).Keeps I :=
  (leaves_mcuPin pin).keeps.bind fun mcu => hI.toggleMcu mcu

theorem pinCall (call : Bench.PinCall) :
    (call.throughHandle : Act (Gpio β) Bench.Answer).Keeps I := by
  cases call with
  | setMode pin m => exact Bench.keeps_quiet (hI.setMode pin m)
  | mode pin => exact Act.Keeps.map _ (hI.mode pin)
  | setPull pin u => exact Bench.keeps_quiet (hI.setPull pin u)
  | pull pin => exact Act.Keeps.map _ (hI.pull pin)
  | write pin high => exact Bench.keeps_quiet (hI.write pin high)
  | read pin => exact Act.Keeps.map _ (hI.read pin)
  | toggle pin => exact Bench.keeps_quiet (hI.toggle pin)

/-! ## Sets of pins -/

theorem ifOutput (mcu : Nat) {x : Act (Gpio β) Unit} (hx : x.Keeps I) :
    (ifOutput mcu x).Keeps I := by
  refine (hI.askMode mcu).bind fun m => ?_
  by_cases hm : m = .output
  · rw [if_pos hm]
    exact hx
  · rw [if_neg hm]
    exact Act.Keeps.pure ()

theorem writeAll (pins : PinSet) (high : Bool) : (writeAll pins high).Keeps I := by
  refine (Act.Leaves.gets _).keeps.bind fun handle => Act.Keeps.each ?_ _
  rintro ⟨_, mcu⟩
  exact hI.ifOutput mcu (hI.writeMcu mcu high)

theorem toggleAll (pins : PinSet) : (toggleAll pins).Keeps I := by
  refine (Act.Leaves.gets _).keeps.bind fun handle => Act.Keeps.each ?_ _
  rintro ⟨_, mcu⟩
  exact hI.ifOutput mcu (hI.toggleMcu mcu)

/-! ## Ports -/

theorem prepare (pins : List InputPin) (settings : InputSettings) :
    (InputPort.prepare pins settings : Act (Gpio β) (List Nat)).Keeps I := by
  have hconfigure : ∀ pin : InputPin,
      (InputPort.configure pin : Act (Gpio β) Nat).Keeps I :=
    fun pin => (hI.setMode pin.pin .input).bind fun _ =>
      (hI.setPull pin.pin pin.pull).bind fun _ => (leaves_mcuPin pin.pin).keeps
  refine (Act.Leaves.lift _).keeps.bind fun _ => ?_
  split
  · exact (Act.Leaves.fail _).keeps
  · exact Act.Keeps.collect hconfigure pins

theorem finish {κ : Type} (pins : List InputPin) (mcus : List Nat) (settings : InputSettings)
    (now : Nat) :
    (InputPort.finish pins mcus settings now : Act (Gpio β) (InputPort κ)).Keeps I := by
  have hreference : ∀ (pin : InputPin) (mcu : Nat),
      (InputPort.reference pin mcu : Act (Gpio β) (Input κ)).Keeps I :=
    fun pin mcu => (hI.readMcu mcu).bind fun _ => Act.Keeps.pure _
  refine Act.Keeps.bind (Act.Keeps.collect ?_ _) fun inputs => ?_
  · rintro ⟨pin, mcu⟩
    exact hreference pin mcu
  · exact (hI.note _).bind fun _ => Act.Keeps.pure _

theorem openInput {κ : Type} (pins : List InputPin) (settings : InputSettings) (now : Nat) :
    (InputPort.openPort pins settings now : Act (Gpio β) (InputPort κ)).Keeps I := by
  rw [InputPort.openPort_eq]
  exact (hI.prepare pins settings).bind fun mcus => hI.finish pins mcus settings now

theorem openOutput (pins : List OutputPin) :
    (OutputPort.openPort pins : Act (Gpio β) OutputPort).Keeps I := by
  have hconfigure : ∀ pin : OutputPin,
      (OutputPort.configure pin : Act (Gpio β) Output).Keeps I :=
    fun pin => (leaves_mcuPin pin.pin).keeps.bind fun mcu => (hI.write pin.pin _).bind fun _ =>
      (hI.setMode pin.pin .output).bind fun _ => Act.Keeps.pure _
  unfold OutputPort.openPort
  split
  · exact (Act.Leaves.fail _).keeps
  · refine (Act.Keeps.collect hconfigure pins).bind fun outputs => ?_
    exact (hI.note _).bind fun _ => Act.Keeps.pure _

section

variable (p : OutputPort)

theorem writeOutput (index : Nat) (on : Bool) : (p.write index on : Act (Gpio β) Unit).Keeps I :=
  (p.leaves_output index).keeps.bind fun o => hI.writeMcu o.mcu _

theorem toggleOutput (index : Nat) : (p.toggle index : Act (Gpio β) Unit).Keeps I :=
  (p.leaves_output index).keeps.bind fun o => hI.toggleMcu o.mcu

theorem outputCall (call : Bench.OutputCall) :
    (call.perform p : Act (Gpio β) Bench.Answer).Keeps I := by
  cases call with
  | write index on => exact Bench.keeps_quiet (hI.writeOutput p index on)
  | set index => exact Bench.keeps_quiet (hI.writeOutput p index true)
  | clear index => exact Bench.keeps_quiet (hI.writeOutput p index false)
  | toggle index => exact Bench.keeps_quiet (hI.toggleOutput p index)
  | writeAll on =>
    exact Bench.keeps_quiet (Act.Keeps.each (fun index => hI.writeOutput p index _) _)
  | setAll =>
    exact Bench.keeps_quiet (Act.Keeps.each (fun index => hI.writeOutput p index true) _)
  | clearAll =>
    exact Bench.keeps_quiet (Act.Keeps.each (fun index => hI.writeOutput p index false) _)
  | toggleAll => exact Bench.keeps_quiet (Act.Keeps.each (hI.toggleOutput p) _)

end

end Borne

/-! ## Commands -/

namespace Tended

variable (hI : Tended I)
include hI

theorem setNumbering (numbering : Numbering) : (setNumbering numbering).Keeps I := by
  refine (Act.Leaves.gets _).keeps.bind fun now => ?_
  by_cases hnow : now = numbering
  · rw [if_pos hnow]
    exact Act.Keeps.pure ()
  · rw [if_neg hnow]
    refine (hI.update _ fun h => ?_).bind fun _ => hI.note _
    unfold Handle.setNumbering
    split <;> exact ⟨rfl, rfl, rfl⟩

/-- Taking something from the cursor moves the cursor at most. -/
theorem step {f : Handle → Option Nat × Handle}
    (hf : ∀ h, (f h).2.records = h.records ∧ (f h).2.released = h.released ∧
      (f h).2.table = h.table) :
    (Bench.step f : Act (Gpio β) Bench.Answer).Keeps I :=
  (Act.Leaves.gets _).keeps.bind fun _ => (hI.update _ hf).bind fun _ => Act.Keeps.pure _

theorem handleCall {call : Bench.HandleCall} (hcall : call.drives = false) :
    (call.perform : Act (Gpio β) Bench.Answer).Keeps I := by
  cases call with
  | mcuPin pin => exact Act.Keeps.map _ (leaves_mcuPin pin).keeps
  | isValid pin => exact (Act.Leaves.gets _).keeps
  | numbering => exact (Act.Leaves.gets _).keeps
  | setNumbering n => exact Bench.keeps_quiet (hI.setNumbering n)
  | releaseOnClose => exact (Act.Leaves.gets _).keeps
  | setReleaseOnClose enabled => exact Bench.keeps_quiet (hI.update _ fun h => ⟨rfl, rfl, rfl⟩)
  | readAll pins => exact Act.Keeps.map _ (hI.readAll pins)
  | writeAll pins high => cases hcall
  | toggleAll pins => cases hcall
  | pins => exact (Act.Leaves.gets _).keeps
  | toFront => exact Bench.keeps_quiet (hI.update _ fun h => ⟨rfl, rfl, rfl⟩)
  | toBack => exact Bench.keeps_quiet (hI.update _ fun h => ⟨rfl, rfl, rfl⟩)
  | hasNext => exact (Act.Leaves.gets _).keeps
  | hasPrevious => exact (Act.Leaves.gets _).keeps
  | next =>
    refine hI.step fun h => ?_
    unfold Handle.next
    split <;> exact ⟨rfl, rfl, rfl⟩
  | previous =>
    refine hI.step fun h => ?_
    unfold Handle.previous
    split <;> exact ⟨rfl, rfl, rfl⟩
  | backendName => exact (Act.Leaves.gets _).keeps
  | tableName => exact (Act.Leaves.gets _).keeps

end Tended

namespace Upheld

variable (hI : Upheld I)
include hI

theorem handleCall (call : Bench.HandleCall) :
    (call.perform : Act (Gpio β) Bench.Answer).Keeps I := by
  by_cases hcall : call.drives = false
  · exact hI.toTended.handleCall hcall
  · cases call with
    | writeAll pins high => exact Bench.keeps_quiet (hI.writeAll pins high)
    | toggleAll pins => exact Bench.keeps_quiet (hI.toggleAll pins)
    | _ => exact absurd rfl hcall

/-- What the calls keep true, every use of the handle keeps true. -/
theorem use {α : Type} {x : Act (Gpio β) α} (hx : IsUse x) : x.Keeps I := by
  cases hx with
  | pin call => exact hI.pinCall call
  | handle call => exact hI.handleCall call
  | openInput pins settings now => exact hI.openInput pins settings now
  | openOutput pins => exact hI.openOutput pins
  | output port call => exact hI.outputCall port call
  | readOutput port index => exact hI.readOutput port index
  | readOutputs port => exact hI.readIndices port _ _
  | sample mcu => exact hI.readMcu mcu

end Upheld

variable {b₀ : β} {Still : β → Prop}

/-- Where pins can be put back, the calls keep the records true. -/
theorem upheld_sound (hr : Restorable b₀ Still) : Upheld (Sound b₀ Still) where
  askMode := keeps_askMode hr
  askPull := keeps_askPull hr
  writeMcu := keeps_writeMcu hr
  toggleMcu := keeps_toggleMcu hr
  readMcu := keeps_readMcu hr
  setMode := keeps_setMode hr
  setPull := keeps_setPull hr
  update _ hf := keeps_update fun h => ⟨(hf h).1, (hf h).2.1⟩
  note := keeps_note

/-- Whatever a program does with a handle, its records stay true, with whatever failures on the
way. -/
theorem IsUse.keeps (hr : Restorable b₀ Still) {α : Type}
    {x : Act (Gpio (Line (Unsteady β))) α} (hx : IsUse x) : x.Keeps (Sound b₀ Still) :=
  (upheld_sound hr).use hx

end Gpio

end BoardGpio
