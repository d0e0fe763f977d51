import BoardGpio.Proofs.Backend.Reading
import BoardGpio.Proofs.Backend.Switching
import BoardGpio.Proofs.Backend.Unsteady

/-!
# Calls of an unsteady device

It is settled beforehand which calls of an unsteady backend fail, so of the next calls it can be
told how many go well (`Unsteady.steady`) and how a sequence ends that stops at the first failure
(`Unsteady.answer`). Driving or switching a pin of an unsteady device is struck, refused by the
device, or done (`Unsteady.driving`, `Unsteady.switching`); only what is done changes the device.
-/

set_option autoImplicit false

namespace BoardGpio.Unsteady

open Backend

variable {β α : Type}

/-- The error of the first of the next `n` calls that is chosen to fail. -/
def mishap? (u : Unsteady β) (n : Nat) : Option Error :=
  (List.range n).findSome? fun k => u.mishap (u.calls + k)

/-- How many of the next `n` calls there are before the first that is chosen to fail. -/
def steady (u : Unsteady β) (n : Nat) : Nat :=
  (List.range n).findIdx fun k => (u.mishap (u.calls + k)).isSome

/-- How `n` calls end, none of which the device refuses, if the first failure ends them. -/
def answer (u : Unsteady β) (n : Nat) (a : α) : Except Failure α :=
  match u.mishap? n with
  | some e => .error (.error e)
  | none => .ok a

/-- One call later, with the device in this state. -/
structure Past (u : Unsteady β) (d : β) (u' : Unsteady β) : Prop where
  device : u'.device = d
  mishap : u'.mishap = u.mishap
  calls : u'.calls = u.calls + 1

variable {u u' : Unsteady β} {d : β} {e : Error} {n : Nat}

/-! ## Sequences of calls -/

theorem answer_zero (u : Unsteady β) (a : α) : u.answer 0 a = .ok a := rfl

theorem answer_struck (h : u.mishap u.calls = some e) (a : α) :
    u.answer (n + 1) a = .error (.error e) := by
  simp [answer, mishap?, List.range_succ_eq_map, h]

theorem steady_struck (h : u.mishap u.calls = some e) : u.steady (n + 1) = 0 := by
  simp [steady, List.range_succ_eq_map, List.findIdx_cons, h]

theorem Past.mishap_add (hpast : u.Past d u') (k : Nat) :
    u'.mishap (u'.calls + k) = u.mishap (u.calls + (k + 1)) := by
  rw [hpast.mishap, hpast.calls]
  congr 1
  omega

/-- After a call that went well the sequence goes on. -/
theorem answer_past (h : u.mishap u.calls = none) (hpast : u.Past d u') (a : α) :
    u.answer (n + 1) a = u'.answer n a := by
  simp [answer, mishap?, List.range_succ_eq_map, List.findSome?_map, Function.comp_def, h,
    hpast.mishap_add]

theorem steady_past (h : u.mishap u.calls = none) (hpast : u.Past d u') :
    u.steady (n + 1) = u'.steady n + 1 := by
  simp [steady, List.range_succ_eq_map, List.findIdx_cons, h, hpast.mishap_add, Function.comp_def]

theorem answer_eq_ok_iff {a b : α} :
    u.answer n a = .ok b ↔ (∀ k < n, u.mishap (u.calls + k) = none) ∧ a = b := by
  have hcalm : u.mishap? n = none ↔ ∀ k < n, u.mishap (u.calls + k) = none := by
    simp [mishap?]
  unfold answer
  cases h : u.mishap? n with
  | some e =>
    refine ⟨nofun, fun hok => ?_⟩
    rw [hcalm.mpr hok.1] at h
    cases h
  | none =>
    rw [Except.ok.injEq]
    exact (and_iff_right (hcalm.mp h)).symm

/-- A sequence that ends well is done to its end. -/
theorem steady_of_ok {a b : α} (h : u.answer n a = .ok b) : u.steady n = n := by
  have hcalm := (answer_eq_ok_iff.mp h).1
  have hnone : ∀ k ∈ List.range n, (u.mishap (u.calls + k)).isSome = false := by
    intro k hk
    rw [hcalm k (List.mem_range.mp hk)]
    rfl
  exact (List.findIdx_eq_length_of_false hnone).trans List.length_range

/-- The failure that a sequence ends with is that of the first call that fails. -/
theorem answer_eq_error {u : Unsteady β} {a : α} {f : Failure} (h : u.answer n a = .error f) :
    ∃ e, f = .error e ∧ u.steady n < n ∧ u.mishap (u.calls + u.steady n) = some e := by
  induction n generalizing u with
  | zero => cases h
  | succ n ih =>
    cases hmishap : u.mishap u.calls with
    | some e =>
      rw [answer_struck hmishap] at h
      rw [steady_struck hmishap]
      exact ⟨e, (Except.error.inj h).symm, Nat.succ_pos n, hmishap⟩
    | none =>
      have past : u.Past u.device { u with calls := u.calls + 1 } := ⟨rfl, rfl, rfl⟩
      rw [answer_past hmishap past] at h
      obtain ⟨e, hf, hlt, he⟩ := ih h
      rw [past.mishap_add] at he
      rw [steady_past hmishap past]
      exact ⟨e, hf, Nat.succ_lt_succ hlt, he⟩

/-! ## Single calls -/

/-- A call that the device answers without a change. -/
theorem run_asking {x : Act β α} (hx : x.Leaves) {a : α} (ha : (x.run u.device).1 = .ok a) :
    ∃ u', (call x).run u = (u.answer 1 a, u') ∧ u.Past u.device u' := by
  rw [run_call]
  cases h : u.mishap u.calls with
  | some e =>
    rw [answer_struck h]
    exact ⟨_, rfl, rfl, rfl, rfl⟩
  | none =>
    have hanswer : u.answer 1 a = .ok a := by
      simp [answer, mishap?, h]
    rw [hanswer, ha]
    exact ⟨_, rfl, hx u.device, rfl, rfl⟩

/-- A question leaves the device as it is, also if the call fails. -/
theorem keeps_device {x : Act β α} (hx : x.Leaves) (d : β) :
    (call x).Keeps fun u : Unsteady β => u.device = d := by
  intro u hu
  rw [run_call]
  cases u.mishap u.calls with
  | some e => exact hu
  | none => exact (hx u.device).trans hu

/-- What comes of a call that changes the device as `R` says, unless something keeps it from doing
so. -/
inductive Tried (u : Unsteady β) (Refused : Prop) (R : β → Prop) :
    Except Failure Unit × Unsteady β → Prop where
  | struck {e : Error} {u' : Unsteady β} (h : u.mishap u.calls = some e)
      (past : u.Past u.device u') : Tried u Refused R (.error (.error e), u')
  | refused {e : Failure} {u' : Unsteady β} (h : u.mishap u.calls = none) (why : Refused)
      (past : u.Past u.device u') : Tried u Refused R (.error e, u')
  | done {d : β} {u' : Unsteady β} (h : u.mishap u.calls = none) (past : u.Past d u')
      (change : R d) : Tried u Refused R (.ok (), u')

/-- A call that the device refuses without a change or does. -/
theorem tried_call {x : Act β Unit} {Refused : Prop} {R : β → Prop}
    (hx : (∃ e, Refused ∧ x.run u.device = (.error e, u.device)) ∨
      ∃ d, R d ∧ x.run u.device = (.ok (), d)) : u.Tried Refused R ((call x).run u) := by
  rw [run_call]
  cases h : u.mishap u.calls with
  | some e => exact .struck h ⟨rfl, rfl, rfl⟩
  | none =>
    rcases hx with ⟨e, why, hrun⟩ | ⟨d, change, hrun⟩
    · rw [hrun]
      exact .refused h why ⟨rfl, rfl, rfl⟩
    · rw [hrun]
      exact .done h ⟨rfl, rfl, rfl⟩ change

variable {u : Unsteady Device}

theorem driving (hfull : u.device.Full) (d : Drive) (pin : Nat) :
    u.Tried (¬pin < pinCount u.device)
      (fun d' => pin < pinCount u.device ∧ Device.Drove d pin u.device d')
      ((d.call pin : Act (Unsteady Device) Unit).run u) := by
  have hdevice : (∃ e, ¬pin < pinCount u.device ∧
      (d.call pin : Act Device Unit).run u.device = (.error e, u.device)) ∨
        ∃ d', (pin < pinCount u.device ∧ Device.Drove d pin u.device d') ∧
          (d.call pin : Act Device Unit).run u.device = (.ok (), d') := by
    have hdriving := Device.driving hfull d pin
    rcases hrun : (d.call pin : Act Device Unit).run u.device with ⟨r, d'⟩
    rw [hrun] at hdriving
    cases hdriving with
    | refused hpin => exact .inl ⟨_, hpin, rfl⟩
    | drove hpin hdrove => exact .inr ⟨d', ⟨hpin, hdrove⟩, rfl⟩
  have hcall : (d.call pin : Act (Unsteady Device) Unit) = call (d.call pin) := by
    cases d <;> rfl
  rw [hcall]
  exact tried_call hdevice

theorem switching (hlatched : u.device.Latched) (pin : Nat) {m : Mode} (hm : m.Common) :
    u.Tried (¬pin < pinCount u.device) (Device.Switched pin m u.device)
      ((Backend.setMode pin m : Act (Unsteady Device) Unit).run u) := by
  refine tried_call ?_
  have hswitching := Device.switching hlatched pin hm
  rcases hrun : (Backend.setMode pin m : Act Device Unit).run u.device with ⟨r, d'⟩
  rw [hrun] at hswitching
  cases hswitching with
  | refused hpin => exact .inl ⟨_, hpin, rfl⟩
  | switched hpin hswitched => exact .inr ⟨d', hswitched, rfl⟩

end BoardGpio.Unsteady
