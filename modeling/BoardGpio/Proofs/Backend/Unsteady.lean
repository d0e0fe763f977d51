import BoardGpio.Backend.Rig
import BoardGpio.Proofs.Act.Invariant

/-!
# Backends whose calls may fail

Any call of a backend may fail before it takes effect. An unsteady backend numbers its calls and
makes chosen ones fail, so whatever holds for every choice holds for every pattern of such failures.
A call through a line to an unsteady backend then has three outcomes (`Line.Outcome`): a rule of the
rig keeps it from the backend, or it is one of those that fail, or the chip below does it.
-/

set_option autoImplicit false

namespace BoardGpio

/-- A backend with chosen calls that fail before they take effect. -/
structure Unsteady (β : Type) where
  device : β
  /-- The error of the call with this number, if it is chosen. -/
  mishap : Nat → Option Error
  /-- Number of calls so far. -/
  calls : Nat := 0
  /-- Number of calls that failed, chosen ones and those that the device refused. -/
  failures : Nat := 0

namespace Unsteady

variable {β α : Type}

def failed (r : Except Failure α) : Nat := if r.isOk then 0 else 1

/-- A call: it fails if it is chosen, and otherwise the device does it. -/
def call (x : Act β α) : Act (Unsteady β) α := fun u =>
  match u.mishap u.calls with
  | some e => (.error (.error e), { u with calls := u.calls + 1, failures := u.failures + 1 })
  | none =>
    let (r, d) := x u.device
    (r, { u with device := d, calls := u.calls + 1, failures := u.failures + failed r })

theorem run_call (x : Act β α) (u : Unsteady β) :
    (call x).run u = match u.mishap u.calls with
      | some e =>
        (.error (.error e), { u with calls := u.calls + 1, failures := u.failures + 1 })
      | none =>
        ((x.run u.device).1,
          { u with
            device := (x.run u.device).2
            calls := u.calls + 1
            failures := u.failures + failed (x.run u.device).1 }) := rfl

instance [Backend β] : Backend (Unsteady β) where
  name u := Backend.name u.device
  pinCount u := Backend.pinCount u.device
  setMode pin mode := call (Backend.setMode pin mode)
  mode pin := call (Backend.mode pin)
  setPull pin pull := call (Backend.setPull pin pull)
  pull pin := call (Backend.pull pin)
  write pin high := call (Backend.write pin high)
  read pin := call (Backend.read pin)
  toggle pin := call (Backend.toggle pin)
  notice? u pin mode := Backend.notice? u.device pin mode

end Unsteady

namespace Line

variable {β α : Type}

/-- The chip at the end of a line. -/
def chip (l : Line (Unsteady β)) : β := l.rig.device.device

/-- Number of failing calls that got as far as the backend. -/
def failures (l : Line (Unsteady β)) : Nat := l.rig.device.failures

/-- A rule of the rig keeps this call from the backend. -/
def Barred (l : Line (Unsteady β)) (call : CallKind) (pin : Nat) : Prop :=
  l.direct = false ∧ (l.rig.faults.any fun f => f.covers call pin) = true

/-- A call got as far as the backend, ended as `r` and left the chip as `c`. -/
structure Called (l : Line (Unsteady β)) (r : Except Failure α) (c : β) (l' : Line (Unsteady β)) :
    Prop where
  chip : l'.chip = c
  failures : l'.failures = l.failures + Unsteady.failed r
  faults : l'.rig.faults = l.rig.faults
  direct : l'.direct = l.direct

/-- What can come of a call that the chip would do as `x`. -/
inductive Outcome (call : CallKind) (pin : Nat) (x : Act β α) (l : Line (Unsteady β)) :
    Except Failure α × Line (Unsteady β) → Prop where
  | barred (e : Failure) (h : l.Barred call pin) : Outcome call pin x l (.error e, l)
  | struck (e : Failure) (l' : Line (Unsteady β))
      (after : l.Called (.error e : Except Failure α) l.chip l') :
      Outcome call pin x l (.error e, l')
  | done (l' : Line (Unsteady β)) (after : l.Called (x.run l.chip).1 (x.run l.chip).2 l') :
      Outcome call pin x l ((x.run l.chip).1, l')

/-- A call either leaves the chip alone or is done by it. -/
theorem Outcome.chip_cases {call : CallKind} {pin : Nat} {x : Act β α} {l : Line (Unsteady β)}
    {r : Except Failure α × Line (Unsteady β)} (h : Outcome call pin x l r) :
    (∃ e, r.1 = .error e ∧ r.2.chip = l.chip) ∨
      (r.1 = (x.run l.chip).1 ∧ r.2.chip = (x.run l.chip).2) := by
  cases h with
  | barred e _ => exact .inl ⟨e, rfl, rfl⟩
  | struck e l' after => exact .inl ⟨_, rfl, after.chip⟩
  | done l' after => exact .inr ⟨rfl, after.chip⟩

/-- A call that has got past the rules is struck or done, whatever is written into the journal. -/
theorem outcome_onDevice (call : CallKind) (pin : Nat) (x : Act β α) (l : Line (Unsteady β))
    (journal : List Change) :
    Outcome call pin x l
      (((Rig.onDevice (Unsteady.call x)).run { l.rig with journal := journal }).1,
        { l with
          rig := ((Rig.onDevice (Unsteady.call x)).run { l.rig with journal := journal }).2 }) := by
  rw [Rig.onDevice, Act.run_within, Unsteady.run_call]
  cases l.rig.device.mishap l.rig.device.calls with
  | some e => exact .struck _ _ ⟨rfl, rfl, rfl, rfl⟩
  | none => exact .done _ ⟨rfl, rfl, rfl, rfl⟩

/-- The state of a rig is left alone by the check for rules, which fails if one covers the call. -/
theorem run_checkFault (call : CallKind) (pin : Nat) (r : Rig β) :
    (Rig.checkFault call pin).run r =
      (if (r.faults.any fun f => f.covers call pin) = true then
        .error (.error (.config (.injected call.word pin))) else .ok (), r) := by
  unfold Act.run Rig.checkFault
  split <;> rfl

theorem run_route_checked (call : CallKind) (pin : Nat) (rest : Act (Rig (Unsteady β)) α)
    (x : Act β α) (l : Line (Unsteady β)) :
    (route (Rig.checkFault call pin >>= fun _ => rest) (Unsteady.call x)).run l =
      if l.direct = true then
        (((Rig.onDevice (Unsteady.call x)).run l.rig).1,
          { l with rig := ((Rig.onDevice (Unsteady.call x)).run l.rig).2 })
      else if (l.rig.faults.any fun f => f.covers call pin) = true then
        (.error (.error (.config (.injected call.word pin))), l)
      else ((rest.run l.rig).1, { l with rig := (rest.run l.rig).2 }) := by
  by_cases hd : l.direct = true
  · simp only [Act.run, route, hd, if_true]
  · have hthrough : (route (Rig.checkFault call pin >>= fun _ => rest) (Unsteady.call x)).run l =
        (((Rig.checkFault call pin >>= fun _ => rest).run l.rig).1,
          { l with rig := ((Rig.checkFault call pin >>= fun _ => rest).run l.rig).2 }) := by
      simp only [Act.run, route, hd]
      rfl
    rw [hthrough, if_neg hd, Act.run_bind, run_checkFault]
    by_cases hf : (l.rig.faults.any fun f => f.covers call pin) = true
    · simp only [hf, if_true]
    · simp only [hf]
      rfl

/-- The outcomes of a call that a line routes through the rules. -/
theorem outcome_route (call : CallKind) (pin : Nat) (rest : Act (Rig (Unsteady β)) α)
    (x : Act β α) (l : Line (Unsteady β))
    (hrest : Outcome call pin x l ((rest.run l.rig).1, { l with rig := (rest.run l.rig).2 })) :
    Outcome call pin x l
      ((route (Rig.checkFault call pin >>= fun _ => rest) (Unsteady.call x)).run l) := by
  rw [run_route_checked]
  by_cases hd : l.direct = true
  · rw [if_pos hd]
    exact outcome_onDevice call pin x l l.rig.journal
  · rw [if_neg hd]
    by_cases hf : (l.rig.faults.any fun f => f.covers call pin) = true
    · rw [if_pos hf]
      exact .barred _ ⟨by simpa using hd, hf⟩
    · rw [if_neg hf]
      exact hrest

theorem outcome_change (call : CallKind) (c : Change) (x : Act β Unit) (l : Line (Unsteady β)) :
    Outcome call c.pin x l
      ((route (Rig.change call c (Unsteady.call x)) (Unsteady.call x)).run l) :=
  outcome_route call c.pin _ x l (outcome_onDevice call c.pin x l (l.rig.journal ++ [c]))

theorem outcome_query (call : CallKind) (pin : Nat) (x : Act β α) (l : Line (Unsteady β)) :
    Outcome call pin x l
      ((route (Rig.query call pin (Unsteady.call x)) (Unsteady.call x)).run l) :=
  outcome_route call pin _ x l (outcome_onDevice call pin x l l.rig.journal)

variable [Backend β] (l : Line (Unsteady β)) (pin : Nat)

theorem outcome_setMode (m : Mode) :
    Outcome .setMode pin (Backend.setMode pin m) l ((Backend.setMode pin m).run l) :=
  outcome_change .setMode (.setMode pin m) (Backend.setMode pin m) l

theorem outcome_mode : Outcome .mode pin (Backend.mode pin) l ((Backend.mode pin).run l) :=
  outcome_query .mode pin (Backend.mode pin) l

theorem outcome_setPull (u : Pull) :
    Outcome .setPull pin (Backend.setPull pin u) l ((Backend.setPull pin u).run l) :=
  outcome_change .setPull (.setPull pin u) (Backend.setPull pin u) l

theorem outcome_pull : Outcome .pull pin (Backend.pull pin) l ((Backend.pull pin).run l) :=
  outcome_query .pull pin (Backend.pull pin) l

theorem outcome_write (high : Bool) :
    Outcome .write pin (Backend.write pin high) l ((Backend.write pin high).run l) :=
  outcome_change .write (.write pin high) (Backend.write pin high) l

theorem outcome_toggle :
    Outcome .toggle pin (Backend.toggle pin) l ((Backend.toggle pin).run l) :=
  outcome_change .toggle (.toggle pin) (Backend.toggle pin) l

/-- Reading, which may be answered from the queue of the rig, leaves the chip as it is if the chip's
own reading does. -/
theorem chip_read (hleaves : ((Backend.read pin : Act β Bool).run l.chip).2 = l.chip) :
    ((Backend.read pin : Act (Line (Unsteady β)) Bool).run l).2.chip = l.chip := by
  have hdevice : Outcome .read pin (Backend.read pin : Act β Bool) l
      (((Rig.onDevice (Unsteady.call (Backend.read pin))).run l.rig).1,
        { l with rig := ((Rig.onDevice (Unsteady.call (Backend.read pin))).run l.rig).2 }) :=
    outcome_onDevice .read pin (Backend.read pin) l l.rig.journal
  have hreached : ∀ r, Outcome .read pin (Backend.read pin : Act β Bool) l r →
      r.2.chip = l.chip := by
    rintro _ (⟨e, _⟩ | ⟨e, l', after⟩ | ⟨l', after⟩)
    · rfl
    · exact after.chip
    · exact after.chip.trans hleaves
  show ((route (Rig.checkFault .read pin >>= fun _ =>
    Rig.readLevel pin (Unsteady.call (Backend.read pin)))
      (Unsteady.call (Backend.read pin))).run l).2.chip = l.chip
  rw [run_route_checked]
  by_cases hd : l.direct = true
  · rw [if_pos hd]
    exact hreached _ hdevice
  · rw [if_neg hd]
    by_cases hf : (l.rig.faults.any fun f => f.covers .read pin) = true
    · rw [if_pos hf]
    · rw [if_neg hf]
      -- a queued level is taken from the rig, and the chip is not asked
      cases hq : Rig.dequeue? pin l.rig.queued with
      | some taken => simp only [Act.run, Rig.readLevel, hq, chip]
      | none =>
        have hrun : (Rig.readLevel pin (Unsteady.call (Backend.read pin : Act β Bool))).run l.rig =
            (Rig.onDevice (Unsteady.call (Backend.read pin))).run l.rig := by
          simp only [Act.run, Rig.readLevel, hq]
        rw [hrun]
        exact hreached _ hdevice

end Line

end BoardGpio
