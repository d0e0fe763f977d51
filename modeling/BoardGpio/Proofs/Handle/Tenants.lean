import BoardGpio.Handle.Ports
import BoardGpio.Proofs.Act.Match
import BoardGpio.Proofs.Handle.LastClose

/-!
# The tenants of a handle

Clones of a handle and ports on it hold one reference each. What is inside an input port is shared
between its owner and the monitor of the port, which runs on its own; a monitor that is stopped from
one of its own callbacks cannot be waited for, so it still holds the inside until it ends. The
reference of the port goes with the last of these. A deed is one thing that a program does with a
handle, or that a monitor does (`Deed.perform`); a run is any sequence of deeds (`run`). A deed that
there is nobody to do is answered with a fault and changes nothing.
-/

set_option autoImplicit false

namespace BoardGpio

open Bench

/-- An input port with those who hold what is inside it. -/
structure InputHold (κ : Type) where
  port : InputPort κ
  /-- Whether its owner has not parted with it. -/
  owned : Bool := true
  /-- Monitors that were stopped from a callback of their own and have not ended. -/
  leaving : Nat := 0

namespace InputHold

variable {κ : Type}

/-- Number of those who hold the inside of the port: the owner, the monitor, and monitors that were
stopped but not waited for. -/
def holders (p : InputHold κ) : Nat := p.owned.toNat + p.port.monitoring.toNat + p.leaving

/-- Whether somebody holds the inside of the port. -/
def held (p : InputHold κ) : Bool := 0 < p.holders

/-- The port as a call left it, which the monitor made itself if `own`. A monitor that was stopped
is waited for, unless it made the call. -/
def after (p : InputHold κ) (own : Bool) (port : InputPort κ) : InputHold κ :=
  { p with
    port := port
    leaving := p.leaving + (own && p.port.monitoring && !port.monitoring).toNat }

def disowned (p : InputHold κ) : InputHold κ := { p with owned := false }

/-- The port after one of the monitors that were not waited for has ended. -/
def ended (p : InputHold κ) : InputHold κ := { p with leaving := p.leaving - 1 }

end InputHold

/-- A hub, and those who hold a reference to one of its handles. -/
structure Tenants (β κ : Type) where
  hub : Hub β
  clones : Nat := 1
  inputs : List (InputHold κ) := []
  /-- Output ports, without those that were closed or dropped. -/
  outputs : List (Option OutputPort) := []

/-- What a program does with a handle, or a monitor of one of its ports. Ports are told apart by the
order in which they were opened. -/
inductive Deed (κ : Type) where
  | pin (call : PinCall)
  | handle (call : HandleCall)
  | clone
  /-- Opening a shared handle while this one is the current one. -/
  | join (plan : HandlePlan)
  | openInput (pins : List InputPin) (settings : InputSettings) (now : Nat)
  | openOutput (pins : List OutputPin)
  | output (i : Nat) (call : OutputCall)
  | readOutput (i index : Nat)
  | readOutputs (i : Nat)
  /-- The port reads a chip pin, for its owner or for its monitor. -/
  | sample (i mcu : Nat)
  /-- A callback is installed or taken away, by a callback of the monitor itself if `own`. -/
  | callback (i : Nat) (own : Bool) (call : InputPort.CallbackCall κ)
  /-- A clone is closed or dropped. -/
  | partClone (how : Farewell)
  | partOutput (i : Nat) (how : Farewell)
  /-- An input port is closed or dropped, by a callback of its monitor if `own`. -/
  | partInput (i : Nat) (own : Bool) (how : Farewell)
  /-- A monitor ends that was not waited for. -/
  | monitorEnds (i : Nat)

namespace Tenants

variable {β κ α : Type}

/-- Number of tenants: of clones, and of ports of whose inside somebody is left to hold it. The
reference of an input port belongs to its inside. A port that a callback of its own monitor has
parted with is none of the program's any more, but it still counts here: that monitor cannot be
waited for, and its share in the inside keeps the reference until it ends. -/
def live (t : Tenants β κ) : Nat :=
  t.clones + t.outputs.countP Option.isSome + t.inputs.countP InputHold.held

/-- Number of clones and ports that the program has. -/
def values (t : Tenants β κ) : Nat :=
  t.clones + t.outputs.countP Option.isSome + t.inputs.countP InputHold.owned

def onHub (x : Act (Hub β) α) : Act (Tenants β κ) α :=
  Act.within hub (fun s t => { t with hub := s }) x

/-- There is nobody to do it. -/
def nobody (h : Nat) : Act (Tenants β κ) α := Act.fault (.noHandle h)

/-- Does something if there is somebody who can. -/
def provided (h : Nat) (can : Tenants β κ → Bool) (x : Act (Tenants β κ) α) :
    Act (Tenants β κ) α := fun t =>
  if can t then x t else nobody h t

def onOutput (h i : Nat) (x : OutputPort → Act (Tenants β κ) α) : Act (Tenants β κ) α := fun t =>
  match t.outputs[i]? with
  | some (some p) => x p t
  | _ => nobody h t

/-- The tenants with an input port changed. -/
def modifyInput (t : Tenants β κ) (i : Nat) (f : InputHold κ → InputHold κ) : Tenants β κ :=
  { t with inputs := t.inputs.modify i f }

/-- Calls an input port, which its owner still has; the monitor can make the call while it runs. -/
def onInput (h i : Nat) (own : Bool) (x : Act (InputPort κ) Unit) : Act (Tenants β κ) Unit :=
  fun t =>
  match t.inputs[i]? with
  | some p =>
    if p.owned && (!own || p.port.monitoring) then
      let (r, port) := x p.port
      (r, t.modifyInput i fun p => p.after own port)
    else nobody h t
  | none => nobody h t

theorem run_onHub (x : Act (Hub β) α) (t : Tenants β κ) :
    (onHub x).run t = ((x.run t.hub).1, { t with hub := (x.run t.hub).2 }) := rfl

theorem run_provided (h : Nat) (can : Tenants β κ → Bool) (x : Act (Tenants β κ) α)
    (t : Tenants β κ) :
    (provided h can x).run t =
      if can t then x.run t else (.error (.fault (.noHandle h)), t) := by
  simp only [Act.run, provided]
  by_cases hcan : can t = true
  · rw [if_pos hcan, if_pos hcan]
  · rw [if_neg hcan, if_neg hcan]
    rfl

theorem run_onOutput (h i : Nat) (x : OutputPort → Act (Tenants β κ) α) (t : Tenants β κ) :
    (onOutput h i x).run t = match t.outputs[i]? with
      | some (some p) => (x p).run t
      | _ => (.error (.fault (.noHandle h)), t) := by
  simp only [Act.run, onOutput]
  cases t.outputs[i]? with
  | none => rfl
  | some p => cases p <;> rfl

theorem run_onInput (h i : Nat) (own : Bool) (x : Act (InputPort κ) Unit) (t : Tenants β κ) :
    (onInput h i own x).run t = match t.inputs[i]? with
      | some p =>
        if p.owned && (!own || p.port.monitoring) then
          ((x.run p.port).1, t.modifyInput i fun p' => p'.after own (x.run p.port).2)
        else (.error (.fault (.noHandle h)), t)
      | none => (.error (.fault (.noHandle h)), t) := by
  simp only [Act.run, onInput]
  cases t.inputs[i]? with
  | none => rfl
  | some p =>
    simp only
    split <;> rfl

section After

variable {P : Tenants β κ → Prop} {t : Tenants β κ} {h i : Nat}

/-- What holds of the tenants, and after the action if they can do it, holds afterwards. -/
theorem after_provided (ht : P t) {can : Tenants β κ → Bool} {x : Act (Tenants β κ) α}
    (hx : can t = true → P (x.run t).2) : P ((provided h can x).run t).2 := by
  rw [run_provided]
  split
  case isTrue hcan => exact hx hcan
  case isFalse => exact ht

theorem after_onOutput (ht : P t) {x : OutputPort → Act (Tenants β κ) α}
    (hx : ∀ p, t.outputs[i]? = some (some p) → P ((x p).run t).2) :
    P ((onOutput h i x).run t).2 := by
  rw [run_onOutput]
  split
  case h_1 p hp => exact hx p hp
  case h_2 => exact ht

theorem after_onInput (ht : P t) {own : Bool} {x : Act (InputPort κ) Unit}
    (hx : ∀ p, t.inputs[i]? = some p → p.owned = true →
      P (t.modifyInput i fun p' => p'.after own (x.run p.port).2)) :
    P ((onInput h i own x).run t).2 := by
  rw [run_onInput]
  split
  case h_2 => exact ht
  case h_1 p hp =>
    split
    case isTrue hcan => exact hx p hp (Bool.and_eq_true _ _ ▸ hcan).1
    case isFalse => exact ht

end After

section Keeps

variable {I : Tenants β κ → Prop} {h : Nat}

/-- What an action keeps is kept by it where somebody can do it. -/
theorem keeps_provided {can : Tenants β κ → Bool} {x : Act (Tenants β κ) α} (hx : x.Keeps I) :
    (provided h can x).Keeps I := fun t ht => after_provided ht fun _ => hx t ht

theorem keeps_onOutput {i : Nat} {x : OutputPort → Act (Tenants β κ) α}
    (hx : ∀ p, (x p).Keeps I) : (onOutput h i x).Keeps I :=
  fun t ht => after_onOutput ht fun p _ => hx p t ht

theorem keeps_onHub (hI : ∀ t s, I t → I { t with hub := s }) (x : Act (Hub β) α) :
    (onHub x : Act (Tenants β κ) α).Keeps I := fun t ht => hI t _ ht

end Keeps

section Matches

variable {γ μ : Type} {R : Tenants β κ → Tenants γ μ → Prop} {t : Tenants β κ} {t' : Tenants γ μ}
  {h : Nat}

/-- What matches where somebody can do it matches where nobody can. -/
theorem matchesAt_provided (ht : R t t') {can : Tenants β κ → Bool} {can' : Tenants γ μ → Bool}
    (hcan : can t = can' t') {x : Act (Tenants β κ) α} {y : Act (Tenants γ μ) α}
    (hx : Act.MatchesAt R x y t t') :
    Act.MatchesAt R (provided h can x) (provided h can' y) t t' := by
  unfold Act.MatchesAt
  rw [run_provided, run_provided, hcan]
  split
  · exact hx
  · exact ⟨rfl, ht⟩

end Matches

variable [Backend β]

/-- Gives up the reference of an input port if nobody holds its inside any more. -/
def vacate (h i : Nat) (how : Farewell) : Act (Tenants β κ) Unit := do
  if (← Act.gets fun t => t.inputs[i]?.any InputHold.held) then pure ()
  else onHub (Hub.letGo h how)

theorem keeps_vacate {I : Tenants β κ → Prop} (hI : ∀ t s, I t → I { t with hub := s }) (h i : Nat)
    (how : Farewell) : (vacate h i how : Act (Tenants β κ) Unit).Keeps I := by
  refine (Act.Leaves.gets _).keeps.bind fun held => ?_
  split
  · exact Act.Keeps.pure ()
  · exact keeps_onHub hI _

end Tenants

open Tenants in
/-- A deed with the handle `h`. -/
def Deed.perform {β κ : Type} [Backend β] (h : Nat) : Deed κ → Act (Tenants β κ) Answer
  | pin call => provided h (0 < values ·) (onHub (Hub.onHandle h call.throughHandle))
  | handle call => provided h (0 < values ·) (onHub (Hub.onHandle h call.perform))
  | clone =>
    provided h (0 < values ·) <| quiet do
      onHub (Hub.retain h)
      Act.modify fun t => { t with clones := t.clones + 1 }
  | join plan =>
    provided h (fun t => t.hub.joinable? == some h) <| quiet do
      let _ ← onHub (Hub.openShared plan)
      Act.modify fun t => { t with clones := t.clones + 1 }
  | openInput pins settings now =>
    provided h (0 < values ·) <| quiet do
      let port ← onHub (Hub.openInput h pins settings now)
      Act.modify fun t => { t with inputs := t.inputs ++ [{ port := port }] }
  | openOutput pins =>
    provided h (0 < values ·) <| quiet do
      let port ← onHub (Hub.openOutput h pins)
      Act.modify fun t => { t with outputs := t.outputs ++ [some port] }
  | output i call => onOutput h i fun p => onHub (Hub.onHandle h (call.perform p))
  | readOutput i index => onOutput h i fun p => onHub (Hub.onHandle h (.flag <$> p.read index))
  | readOutputs i => onOutput h i fun p => onHub (Hub.onHandle h (.pins <$> p.readAll))
  | sample i mcu =>
    provided h (fun t => t.inputs[i]?.any InputHold.held)
      (.flag <$> onHub (Hub.onHandle h (Gpio.readMcu mcu)))
  | callback i own call => quiet (onInput h i own call.perform)
  | partClone how =>
    provided h (0 < clones ·) <| quiet do
      Act.modify fun t => { t with clones := t.clones - 1 }
      onHub (Hub.letGo h how)
  | partOutput i how =>
    onOutput h i fun _ => quiet do
      Act.modify fun t => { t with outputs := t.outputs.modify i fun _ => none }
      onHub (Hub.letGo h how)
  | partInput i own how => quiet do
    onInput h i own (Act.modify fun p => { p with monitoring := false })
    Act.modify fun t => t.modifyInput i InputHold.disowned
    vacate h i how
  | monitorEnds i =>
    provided h (fun t => t.inputs[i]?.any fun p => 0 < p.leaving) <| quiet do
      Act.modify fun t => t.modifyInput i InputHold.ended
      vacate h i .dropped

/-- How a deed parts with a reference, if it does. -/
def Deed.parts? {κ : Type} : Deed κ → Option Farewell
  | partClone how => some how
  | partOutput _ how => some how
  | partInput _ _ how => some how
  | monitorEnds _ => some .dropped
  | _ => none

/-- Whether there is somebody to part with a reference as a deed has it. -/
def Deed.canPart {β κ : Type} (t : Tenants β κ) : Deed κ → Bool
  | partClone _ => 0 < t.clones
  | partOutput i _ => t.outputs[i]?.any Option.isSome
  | partInput i own _ => t.inputs[i]?.any fun p => p.owned && (!own || p.port.monitoring)
  | monitorEnds i => t.inputs[i]?.any fun p => 0 < p.leaving
  | _ => false

/-- Whether the reference that a deed parts with is given up when it is done: an input port keeps
its reference as long as somebody holds its inside. -/
def Deed.vacates {β κ : Type} (t : Tenants β κ) : Deed κ → Bool
  | partInput i _ _ => !t.inputs[i]?.any InputHold.held
  | monitorEnds i => !t.inputs[i]?.any InputHold.held
  | _ => true

/-- Whether a deed is done by a callback of the monitor that it is about. -/
def Deed.byMonitor {κ : Type} : Deed κ → Bool
  | callback _ own _ => own
  | partInput _ own _ => own
  | _ => false

namespace Tenants

variable {β κ : Type}

def released (h : Nat) (t : Tenants β κ) : Bool :=
  (t.hub.site? h).any fun g => g.handle.released

variable [Backend β]

/-- What comes of a sequence of deeds, and the tenants in the end. -/
def run (h : Nat) : List (Deed κ) → Tenants β κ → List Reply × Tenants β κ
  | [], t => ([], t)
  | d :: deeds, t =>
    let (reply, t) := (d.perform h).run t
    let (replies, t) := run h deeds t
    (reply :: replies, t)

/-- How often the handle is released in the course of a sequence of deeds: how often it becomes
marked as released. -/
def releases (h : Nat) : List (Deed κ) → Tenants β κ → Nat
  | [], _ => 0
  | d :: deeds, t =>
    let t' := ((d.perform h).run t).2
    (!t.released h && t'.released h).toNat + releases h deeds t'

/-- Whether a deed runs `Hub.farewell`: it gives up a reference, and leaves none. -/
def takesLeave (h : Nat) (d : Deed κ) (t : Tenants β κ) : Bool :=
  let t' := ((d.perform h).run t).2
  d.canPart t && d.vacates t' && !t'.hub.isLive h

/-- How often `Hub.farewell` is run in the course of a sequence of deeds, whether or not the handle
was released before. -/
def farewells (h : Nat) : List (Deed κ) → Tenants β κ → Nat
  | [], _ => 0
  | d :: deeds, t => (takesLeave h d t).toNat + farewells h deeds ((d.perform h).run t).2

end Tenants

end BoardGpio
