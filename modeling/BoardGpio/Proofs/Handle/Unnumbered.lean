import BoardGpio.Proofs.Backend.PinCalls
import BoardGpio.Proofs.Input.Calls

/-!
# Ports apart from their numbers

A port keeps the numbers that its pins were opened with, and looks at them no more: two output ports
that are alike apart from these do the same (`OutputPort.perform_unnumbered`), and so do callbacks
that are installed at two such input ports (`InputPort.perform_callback_unnumbered`).
-/

set_option autoImplicit false

namespace BoardGpio

open Bench

def OutputPin.unnumbered (p : OutputPin) : OutputPin := { p with pin := 0 }

def InputPin.unnumbered (p : InputPin) : InputPin := { p with pin := 0 }

def Output.unnumbered (o : Output) : Output := { o with pin := o.pin.unnumbered }

def Input.unnumbered {κ : Type} (i : Input κ) : Input κ := { i with pin := i.pin.unnumbered }

/-- The port without the numbers that its outputs were opened with. -/
def OutputPort.unnumbered (p : OutputPort) : OutputPort := ⟨p.outputs.map Output.unnumbered⟩

/-- The port without the numbers that its inputs were opened with. -/
def InputPort.unnumbered {κ : Type} (p : InputPort κ) : InputPort κ :=
  { p with inputs := p.inputs.map Input.unnumbered }

namespace OutputPort

variable {β : Type} (p : OutputPort)

theorem output_unnumbered {α : Type} (index : Nat) {f : Output → Act (Gpio β) α}
    (hf : ∀ o, f o.unnumbered = f o) : (p.unnumbered.output index >>= f) = p.output index >>= f := by
  unfold output unnumbered size
  rw [List.getElem?_map, List.length_map]
  cases p.outputs[index]? with
  | none => rfl
  | some o => exact hf o

variable [Backend β]

theorem write_unnumbered : (p.unnumbered.write : Nat → Bool → Act (Gpio β) Unit) = p.write := by
  funext index on
  exact p.output_unnumbered index fun _ => rfl

theorem toggle_unnumbered : (p.unnumbered.toggle : Nat → Act (Gpio β) Unit) = p.toggle := by
  funext index
  exact p.output_unnumbered index fun _ => rfl

theorem read_unnumbered : (p.unnumbered.read : Nat → Act (Gpio β) Bool) = p.read := by
  funext index
  exact p.output_unnumbered index fun _ => rfl

theorem readIndices_unnumbered (indices : List Nat) (active : PinSet) :
    (p.unnumbered.readIndices indices active : Act (Gpio β) PinSet) =
      p.readIndices indices active := by
  induction indices generalizing active with
  | nil => rfl
  | cons index rest ih =>
    simp only [readIndices, read_unnumbered, ih]

theorem indices_unnumbered : p.unnumbered.indices = p.indices := by
  rw [indices, indices, size, size, unnumbered, List.length_map]

/-- No call of an output port looks at the numbers it was opened with. -/
theorem perform_unnumbered (call : OutputCall) :
    (call.perform p.unnumbered : Act (Gpio β) Answer) = call.perform p := by
  have hset : (p.unnumbered.set : Nat → Act (Gpio β) Unit) = p.set := by
    funext index
    rw [set, set, write_unnumbered]
  have hclear : (p.unnumbered.clear : Nat → Act (Gpio β) Unit) = p.clear := by
    funext index
    rw [clear, clear, write_unnumbered]
  cases call <;>
    simp only [OutputCall.perform, writeAll, setAll, clearAll, toggleAll, write_unnumbered,
      toggle_unnumbered, hset, hclear, indices_unnumbered]

end OutputPort

namespace InputPort

variable {κ : Type} (p : InputPort κ)

theorem size_unnumbered : p.unnumbered.size = p.size := List.length_map ..

theorem getElem?_unnumbered (index : Nat) :
    p.unnumbered.inputs[index]? = p.inputs[index]?.map Input.unnumbered := List.getElem?_map

theorem change_unnumbered (index : Nat) {f : Input κ → Input κ}
    (hf : ∀ i, (f i).unnumbered = f i.unnumbered) :
    (change index f).run p.unnumbered =
      (((change index f).run p).1, ((change index f).run p).2.unnumbered) := by
  have hmodify : p.unnumbered.inputs.modify index f =
      (p.inputs.modify index f).map Input.unnumbered := by
    apply List.ext_getElem?
    intro j
    rw [List.getElem?_modify, getElem?_unnumbered, List.getElem?_map, List.getElem?_modify]
    cases p.inputs[j]? with
    | none => rfl
    | some i =>
      refine congrArg some ?_
      split
      · exact (hf i).symm
      · rfl
  rw [run_change, run_change, getElem?_unnumbered, hmodify, size_unnumbered]
  cases p.inputs[index]? <;> rfl

theorem synced_unnumbered : p.unnumbered.synced = p.synced.unnumbered := by
  have hcallbacks : p.unnumbered.hasCallbacks = p.hasCallbacks := by
    unfold hasCallbacks unnumbered
    rw [List.any_map]
    rfl
  unfold synced
  rw [hcallbacks]
  rfl

/-- Callbacks are put in their places and taken away by positions, not by numbers. -/
theorem perform_callback_unnumbered (call : CallbackCall κ) :
    call.perform.run p.unnumbered = ((call.perform.run p).1, (call.perform.run p).2.unnumbered) := by
  have hplace : call.place.run p.unnumbered =
      ((call.place.run p).1, (call.place.run p).2.unnumbered) := by
    cases call with
    | install index action =>
      have hrun : ∀ (q : InputPort κ) (i : Input κ), q.inputs[index]? = some i →
          (CallbackCall.install index action).place.run q =
            (change index fun i => { i with callback := some ⟨q.installs, action⟩ }).run
              { q with installs := q.installs + 1 } := by
        intro q i hi
        rw [CallbackCall.place, Act.run_bind, run_input, hi]
        rfl
      have hrefused : ∀ q : InputPort κ, q.inputs[index]? = none →
          (CallbackCall.install index action).place.run q =
            (.error (.error (.invalidPortIndex index q.size)), q) := by
        intro q hi
        rw [CallbackCall.place, Act.run_bind, run_input, hi]
      have hsame := p.getElem?_unnumbered index
      cases hi : p.inputs[index]? with
      | none =>
        rw [hi] at hsame
        rw [hrefused p hi, hrefused p.unnumbered hsame, size_unnumbered]
      | some i =>
        rw [hi] at hsame
        rw [hrun p i hi, hrun p.unnumbered i.unnumbered hsame]
        exact change_unnumbered { p with installs := p.installs + 1 } index fun _ => rfl
    | uninstall index => exact p.change_unnumbered index fun _ => rfl
    | installGroup action => rfl
    | uninstallGroup => rfl
  rw [run_perform, run_perform, hplace]
  rcases call.place.run p with ⟨e | _, q⟩
  · rfl
  · exact congrArg (Prod.mk _) q.synced_unnumbered

end InputPort

end BoardGpio
