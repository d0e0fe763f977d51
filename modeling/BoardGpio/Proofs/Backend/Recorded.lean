import BoardGpio.Bench.Command
import BoardGpio.Output.Port
import BoardGpio.Proofs.Act.Invariant

/-!
# Recorded backends

A recorded backend keeps a list of all calls made of it, questions included, in their order. An
action adds to such a list the calls that it comes to (`Act.Adds`): all of them, unless it fails or
a rig keeps calls from the backend, and never another or out of order. An output port adds what its
outputs' chip pins are called with (`OutputPort.adds_write` and its companions).
-/

set_option autoImplicit false

namespace BoardGpio

open Bench

namespace Act

/-- A list of calls in a state. From a whole state no call is kept from the list. -/
structure Tally (σ γ : Type) where
  made : σ → List γ
  whole : σ → Prop

variable {σ τ α β γ : Type} {T : Tally σ γ} {cs ds : List γ}

/-- The action adds these calls to the list, in their order. Some may be missing if it fails, or if
the state is not whole. -/
def Adds (T : Tally σ γ) (cs : List γ) (x : Act σ α) : Prop :=
  ∀ s, ∃ made, T.made (x.run s).2 = T.made s ++ made ∧ made.Sublist cs ∧
    (T.whole s → T.whole (x.run s).2 ∧ ∀ a, (x.run s).1 = .ok a → made = cs)

theorem Leaves.adds {x : Act σ α} (h : x.Leaves) : x.Adds T [] := by
  intro s
  rw [h s]
  exact ⟨[], (List.append_nil _).symm, .slnil, fun hs => ⟨hs, fun _ _ => rfl⟩⟩

theorem Adds.pure (a : α) : (pure a : Act σ α).Adds T [] := (Leaves.pure a).adds

theorem Adds.fail (e : Error) : (fail e : Act σ α).Adds T cs := fun _ =>
  ⟨[], (List.append_nil _).symm, List.nil_sublist cs, fun hs => ⟨hs, fun _ hok => by cases hok⟩⟩

theorem Adds.bind {x : Act σ α} {f : α → Act σ β} (hx : x.Adds T cs)
    (hf : ∀ a, (f a).Adds T ds) : (x >>= f).Adds T (cs ++ ds) := by
  intro s
  obtain ⟨made, hview, hmade, hwhole⟩ := hx s
  rw [run_bind]
  rcases hrun : x.run s with ⟨e | a, t⟩
  · rw [hrun] at hview hwhole
    refine ⟨made, hview, hmade.trans (List.sublist_append_left cs ds), fun hs => ?_⟩
    exact ⟨(hwhole hs).1, fun b hok => by cases hok⟩
  · rw [hrun] at hview hwhole
    obtain ⟨more, hview', hmore, hwhole'⟩ := hf a t
    refine ⟨made ++ more, ?_, hmade.append hmore, fun hs => ?_⟩
    · simp only at hview
      rw [hview', hview, List.append_assoc]
    · obtain ⟨ht, hall⟩ := hwhole hs
      obtain ⟨hu, hall'⟩ := hwhole' ht
      exact ⟨hu, fun b hb => by rw [hall a rfl, hall' b hb]⟩

/-- A last step that adds nothing. -/
theorem Adds.before {x : Act σ α} {f : α → Act σ β} (hx : x.Adds T cs)
    (hf : ∀ a, (f a).Adds T []) : (x >>= f).Adds T cs := by
  have h := hx.bind hf
  rw [List.append_nil] at h
  exact h

/-- A first step that adds nothing. -/
theorem Adds.after {x : Act σ α} {f : α → Act σ β} (hx : x.Adds T [])
    (hf : ∀ a, (f a).Adds T cs) : (x >>= f).Adds T cs :=
  hx.bind hf

theorem Adds.each {f : α → Act σ Unit} {cs : α → List γ} (hf : ∀ a, (f a).Adds T (cs a))
    (as : List α) : (each f as).Adds T (as.flatMap cs) := by
  induction as with
  | nil => exact Adds.pure ()
  | cons a as ih => exact (hf a).bind fun _ => ih

/-- What is added in a part of the state is added in the whole. -/
theorem Adds.within {part : σ → τ} {put : τ → σ → σ} {U : Tally τ γ} {x : Act τ α}
    (hx : x.Adds U cs) (hpart : ∀ s, T.made s = U.made (part s) ∧ (T.whole s → U.whole (part s)))
    (hput : ∀ t s, T.made (put t s) = U.made t ∧ (T.whole s → U.whole t → T.whole (put t s))) :
    (within part put x).Adds T cs := by
  intro s
  obtain ⟨made, hview, hmade, hwhole⟩ := hx (part s)
  refine ⟨made, ?_, hmade, fun hs => ?_⟩
  · rw [run_within, (hput _ s).1, hview, (hpart s).1]
  · obtain ⟨ht, hall⟩ := hwhole ((hpart s).2 hs)
    exact ⟨(hput _ s).2 hs ht, hall⟩

end Act

/-- A backend that records the calls made of it. -/
structure Recorded (β : Type) where
  device : β
  calls : List PinCall := []

namespace Recorded

variable {β α : Type}

def call (c : PinCall) (x : Act β α) : Act (Recorded β) α := do
  Act.modify fun r => { r with calls := r.calls ++ [c] }
  Act.within device (fun d r => { r with device := d }) x

instance [Backend β] : Backend (Recorded β) where
  name r := Backend.name r.device
  pinCount r := Backend.pinCount r.device
  setMode pin m := call (.setMode pin m) (Backend.setMode pin m)
  mode pin := call (.mode pin) (Backend.mode pin)
  setPull pin u := call (.setPull pin u) (Backend.setPull pin u)
  pull pin := call (.pull pin) (Backend.pull pin)
  write pin high := call (.write pin high) (Backend.write pin high)
  read pin := call (.read pin) (Backend.read pin)
  toggle pin := call (.toggle pin) (Backend.toggle pin)
  notice? r pin m := Backend.notice? r.device pin m

/-- All calls are in the list. -/
def tally : Act.Tally (Recorded β) PinCall := ⟨calls, fun _ => True⟩

theorem adds_call (c : PinCall) (x : Act β α) : (call c x).Adds tally [c] :=
  fun _ => ⟨[c], rfl, .refl _, fun _ => ⟨trivial, fun _ _ => rfl⟩⟩

end Recorded

section Rigs

variable {β α : Type} {cs : List PinCall}

/-- The calls made of the backend of a rig, which may keep any from it. -/
def Rig.tally : Act.Tally (Rig (Recorded β)) PinCall := ⟨fun r => r.device.calls, fun _ => False⟩

/-- The calls made of the backend at the end of a line. None is kept from it if the line goes past
the rig. -/
def Line.tally : Act.Tally (Line (Recorded β)) PinCall :=
  ⟨fun l => l.rig.device.calls, fun l => l.direct = true⟩

/-- The calls made of the backend that a handle drives. -/
def Gpio.tally : Act.Tally (Gpio (Line (Recorded β))) PinCall :=
  ⟨fun g => Line.tally.made g.backend, fun g => Line.tally.whole g.backend⟩

namespace Rig

theorem adds_onDevice {x : Act (Recorded β) α} (hx : x.Adds Recorded.tally cs) :
    (onDevice x).Adds tally cs :=
  hx.within (fun _ => ⟨rfl, fun _ => trivial⟩) fun _ _ => ⟨rfl, fun h _ => h⟩

theorem adds_checkFault (call : CallKind) (pin : Nat) :
    (checkFault call pin : Act (Rig (Recorded β)) Unit).Adds tally [] := by
  refine Act.Leaves.adds fun r => ?_
  simp only [Act.run, checkFault]
  split <;> rfl

theorem adds_change (call : CallKind) (c : Change) {x : Act (Recorded β) Unit}
    (hx : x.Adds Recorded.tally cs) : (change call c x).Adds tally cs := by
  have hrecord : (record c : Act (Rig (Recorded β)) Unit).Adds tally [] := fun r =>
    ⟨[], (List.append_nil _).symm, .slnil, fun h => h.elim⟩
  exact (adds_checkFault call c.pin).after fun _ => hrecord.after fun _ => adds_onDevice hx

theorem adds_readLevel (pin : Nat) {x : Act (Recorded β) Bool} (hx : x.Adds Recorded.tally cs) :
    (readLevel pin x).Adds tally cs := by
  intro r
  simp only [Act.run, readLevel]
  split
  · exact ⟨[], (List.append_nil _).symm, List.nil_sublist cs, fun h => h.elim⟩
  · exact adds_onDevice hx r

end Rig

theorem Line.adds_route {through : Act (Rig (Recorded β)) α} {past : Act (Recorded β) α}
    (hthrough : through.Adds Rig.tally cs) (hpast : past.Adds Recorded.tally cs) :
    (route through past).Adds tally cs := by
  intro l
  by_cases hdirect : l.direct = true
  · obtain ⟨made, hview, hmade, hwhole⟩ := hpast l.rig.device
    have hrun : (route through past).run l = ((past.run l.rig.device).1,
        { l with rig := { l.rig with device := (past.run l.rig.device).2 } }) := by
      simp only [Act.run, route, hdirect, if_true]
      rfl
    rw [hrun]
    exact ⟨made, hview, hmade, fun _ => ⟨hdirect, (hwhole trivial).2⟩⟩
  · obtain ⟨made, hview, hmade, -⟩ := hthrough l.rig
    have hrun : (route through past).run l =
        ((through.run l.rig).1, { l with rig := (through.run l.rig).2 }) := by
      simp only [Act.run, route, hdirect, if_false, Bool.false_eq_true]
    rw [hrun]
    exact ⟨made, hview, hmade, fun h => absurd h hdirect⟩

end Rigs

namespace Gpio

variable {β α : Type} {cs : List PinCall}

theorem adds_hardware {x : Act (Line (Recorded β)) α} (hx : x.Adds Line.tally cs) :
    (hardware x).Adds tally cs :=
  hx.within (fun _ => ⟨rfl, id⟩) fun _ _ => ⟨rfl, fun _ h => h⟩

variable [Backend β]

theorem adds_writeMcu (mcu : Nat) (high : Bool) :
    (writeMcu mcu high : Act (Gpio (Line (Recorded β))) Unit).Adds tally [.write mcu high] :=
  adds_hardware <| Line.adds_route (Rig.adds_change _ _ (Recorded.adds_call _ _))
    (Recorded.adds_call _ _)

theorem adds_toggleMcu (mcu : Nat) :
    (toggleMcu mcu : Act (Gpio (Line (Recorded β))) Unit).Adds tally [.toggle mcu] :=
  adds_hardware <| Line.adds_route (Rig.adds_change _ _ (Recorded.adds_call _ _))
    (Recorded.adds_call _ _)

theorem adds_readMcu (mcu : Nat) :
    (readMcu mcu : Act (Gpio (Line (Recorded β))) Bool).Adds tally [.read mcu] :=
  adds_hardware <| Line.adds_route
    ((Rig.adds_checkFault _ _).after fun _ => Rig.adds_readLevel mcu (Recorded.adds_call _ _))
    (Recorded.adds_call _ _)

end Gpio

/-! ## Output ports -/

namespace OutputPort

/-- The calls of the chip pin of an output, if the port has it. -/
def callsAt (p : OutputPort) (index : Nat) (call : Output → PinCall) : List PinCall :=
  (p.outputs[index]?.map call).toList

def writes (p : OutputPort) (on : Bool) (index : Nat) : List PinCall :=
  p.callsAt index fun o => .write o.mcu (o.level on)

def toggles (p : OutputPort) (index : Nat) : List PinCall :=
  p.callsAt index fun o => .toggle o.mcu

def reads (p : OutputPort) (index : Nat) : List PinCall :=
  p.callsAt index fun o => .read o.mcu

variable {β α : Type}

/-- What is done with an output adds what is to be done with its chip pin. -/
theorem adds_at (p : OutputPort) (index : Nat) {call : Output → PinCall}
    {x : Output → Act (Gpio (Line (Recorded β))) α}
    (hx : ∀ o, (x o).Adds Gpio.tally [call o]) :
    (p.output index >>= x).Adds Gpio.tally (p.callsAt index call) := by
  unfold output callsAt
  cases p.outputs[index]? with
  | none => exact Act.Adds.fail _
  | some o => exact hx o

variable [Backend β] (p : OutputPort)

theorem adds_write (index : Nat) (on : Bool) :
    (p.write index on : Act (Gpio (Line (Recorded β))) Unit).Adds Gpio.tally (p.writes on index) :=
  p.adds_at index fun o => Gpio.adds_writeMcu o.mcu _

theorem adds_toggle (index : Nat) :
    (p.toggle index : Act (Gpio (Line (Recorded β))) Unit).Adds Gpio.tally (p.toggles index) :=
  p.adds_at index fun o => Gpio.adds_toggleMcu o.mcu

theorem adds_read (index : Nat) :
    (p.read index : Act (Gpio (Line (Recorded β))) Bool).Adds Gpio.tally (p.reads index) :=
  p.adds_at index fun o => (Gpio.adds_readMcu o.mcu).before fun _ => Act.Adds.pure _

theorem adds_readIndices (indices : List Nat) (active : PinSet) :
    (p.readIndices indices active : Act (Gpio (Line (Recorded β))) PinSet).Adds Gpio.tally
      (indices.flatMap p.reads) := by
  induction indices generalizing active with
  | nil => exact Act.Adds.pure active
  | cons index rest ih =>
    refine (p.adds_read index).bind fun on => ?_
    cases on
    · exact ih active
    · exact (Act.Leaves.lift _).adds.after fun active => ih active

end OutputPort

end BoardGpio
