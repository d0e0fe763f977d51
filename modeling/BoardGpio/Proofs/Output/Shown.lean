import BoardGpio.Proofs.Backend.Mishap
import BoardGpio.Proofs.Handle.Uses
import BoardGpio.Proofs.PinSet

/-!
# Outputs as an array of booleans

The outputs of a port are an array of booleans: each pin is latched to the level that its polarity
makes of its boolean (`OutputPort.Shows`). A call that drives outputs changes the booleans of those
that it comes to, in ascending order, before something fails (`OutputPort.Shows.perform`). Reading
gives the booleans back (`OutputPort.Shows.readOutput`, `OutputPort.Shows.readAll`).
-/

set_option autoImplicit false

namespace BoardGpio

open Backend Bench

namespace Output

variable (o : Output)

theorem not_level (on : Bool) : (!o.level on) = o.level (!on) := by
  cases on <;> simp [level, ActiveLevel.raw]

/-- What is read tells whether the output is active. -/
theorem level_beq (on : Bool) : (o.level on == o.level true) = on := by
  cases on <;> simp [level, ActiveLevel.raw]

end Output

/-! ## What a call does with an array -/

namespace Bench.OutputCall

/-- The output that a call is about, if it is about a single one. -/
def index? : OutputCall → Option Nat
  | write index _ => some index
  | set index => some index
  | clear index => some index
  | toggle index => some index
  | _ => none

/-- What becomes of the boolean of an output. -/
def value : OutputCall → Nat → Bool → Bool
  | write _ on, _, _ => on
  | set _, _, _ => true
  | clear _, _, _ => false
  | toggle _, _, old => !old
  | writeAll on, index, _ => on.contains index
  | setAll, _, _ => true
  | clearAll, _, _ => false
  | toggleAll, _, old => !old

/-- The array after a call has come to these outputs. -/
def array (c : OutputCall) (reached : List Nat) (on : Nat → Bool) : Nat → Bool := fun index =>
  if index ∈ reached then c.value index (on index) else on index

/-- What a call comes to on an array of so many booleans, and the array afterwards, where the calls
of the backend that it takes may fail. -/
def onArray {β : Type} (c : OutputCall) (size : Nat) (u : Unsteady β) (on : Nat → Bool) :
    Except Failure Answer × (Nat → Bool) :=
  match c.index? with
  | some index =>
    if index < size then (u.answer 1 .done, c.array ([index].take (u.steady 1)) on)
    else (.error (.error (.invalidPortIndex index size)), on)
  | none => (u.answer size .done, c.array ((List.range size).take (u.steady size)) on)

/-- How a call drives an output. -/
def drive : OutputCall → Output → Nat → Drive
  | write _ on, o, _ => .write (o.level on)
  | set _, o, _ => .write (o.level true)
  | clear _, o, _ => .write (o.level false)
  | toggle _, _, _ => .toggle
  | writeAll on, o, index => .write (o.level (on.contains index))
  | setAll, o, _ => .write (o.level true)
  | clearAll, o, _ => .write (o.level false)
  | toggleAll, _, _ => .toggle

variable {on : Nat → Bool} {index : Nat} {rest : List Nat}

/-- The level an output is driven to is that of its new boolean. -/
theorem latch_drive (c : OutputCall) (o : Output) (index : Nat) (old : Bool) :
    (c.drive o index).latch (o.level old) = o.level (c.value index old) := by
  cases c with
  | toggle i => exact o.not_level old
  | toggleAll => exact o.not_level old
  | _ => rfl

theorem array_nil (c : OutputCall) : c.array [] on = on := by
  funext i
  simp [array]

theorem array_cons (c : OutputCall) (hnew : index ∉ rest) :
    c.array (index :: rest) on = c.array rest (c.array [index] on) := by
  funext i
  by_cases hi : i = index
  · subst hi
    simp [array, hnew]
  · simp [array, hi]

end Bench.OutputCall

namespace OutputPort

variable {β : Type} {p : OutputPort} {g : Gpio β} {i : Nat} {o : Output}

theorem exists_output (hi : i < p.size) : ∃ o, p.outputs[i]? = some o :=
  ⟨_, List.getElem?_eq_getElem hi⟩

theorem run_output (ho : p.outputs[i]? = some o) :
    (p.output i : Act (Gpio β) Output).run g = (.ok o, g) := by
  rw [output, ho]
  rfl

theorem run_output_beyond (hi : p.size ≤ i) :
    (p.output i : Act (Gpio β) Output).run g =
      (.error (.error (.invalidPortIndex i p.size)), g) := by
  rw [output, List.getElem?_eq_none_iff.mpr hi]
  rfl

variable [Backend β]

/-- A call on one output. -/
def driveOne (p : OutputPort) (c : OutputCall) (index : Nat) : Act (Gpio β) Unit := do
  let o ← p.output index
  Gpio.hardware ((c.drive o index).call o.mcu)

/-- Every call drives one output, or all of them one after the other. -/
theorem perform_eq (p : OutputPort) (c : OutputCall) :
    (c.perform p : Act (Gpio β) Answer) = quiet (match c.index? with
      | some index => p.driveOne c index
      | none => Act.each (p.driveOne c) p.indices) := by
  cases c <;> rfl

theorem run_driveOne (ho : p.outputs[i]? = some o) (c : OutputCall) :
    (p.driveOne c i).run g = ((((c.drive o i).call o.mcu).run g.backend).1,
      { g with backend := (((c.drive o i).call o.mcu).run g.backend).2 }) := by
  rw [driveOne, Act.run_bind_ok _ (run_output ho)]
  rfl

theorem run_readOutput (ho : p.outputs[i]? = some o) :
    (p.read i).run g = ((levelOf g.backend o.mcu).map fun high => high == o.level true,
      { g with backend := ((Backend.read o.mcu : Act β Bool).run g.backend).2 }) := by
  rw [read, Act.run_bind_ok _ (run_output ho), bind_pure_comp, Act.run_map]
  rfl

/-- An output that the port does not have is refused, and nothing is done. -/
theorem perform_beyond (c : OutputCall) (hindex : c.index? = some i) (hi : p.size ≤ i) :
    (c.perform p).run g = (.error (.error (.invalidPortIndex i p.size)), g) := by
  have hrun : (p.driveOne c i).run g = (.error (.error (.invalidPortIndex i p.size)), g) := by
    rw [driveOne, Act.run_bind_error _ (run_output_beyond hi)]
  rw [perform_eq, hindex]
  exact Act.run_bind_error _ hrun

theorem read_beyond (hi : p.size ≤ i) :
    (p.read i).run g = (.error (.error (.invalidPortIndex i p.size)), g) := by
  rw [read, Act.run_bind_error _ (run_output_beyond hi)]

/-! ## The array of a port -/

/-- The pins of the port are outputs, and each is latched to the level of its boolean. -/
structure Shows (p : OutputPort) (on : Nat → Bool) (d : Device) : Prop where
  latched : d.Latched
  distinct : (p.outputs.map Output.mcu).Nodup
  few : p.size ≤ PinSet.capacity
  modes : ∀ o ∈ p.outputs, modeOf d o.mcu = .ok .output
  latches : ∀ i (o : Output), p.outputs[i]? = some o → d.latchOf o.mcu = some (o.level (on i))

namespace Shows

variable {p : OutputPort} {on : Nat → Bool} {d d' : Device} {i : Nat} {o : Output}

/-- Driving one output changes its boolean and no other. -/
theorem drive (h : p.Shows on d) (ho : p.outputs[i]? = some o) (c : OutputCall)
    (hdrove : Device.Drove (c.drive o i) o.mcu d d') : p.Shows (c.array [i] on) d' where
  latched := hdrove.latched h.latched (Device.lt_pinCount_of_latchOf (h.latches i o ho))
  distinct := h.distinct
  few := h.few
  modes q hq := (hdrove.modes q.mcu).trans (h.modes q hq)
  latches j q hq := by
    rw [hdrove.latches, h.latches j q hq]
    by_cases hj : j = i
    · subst hj
      obtain rfl : q = o := Option.some.inj (hq.symm.trans ho)
      simp [OutputCall.array, c.latch_drive]
    · have hne : q.mcu ≠ o.mcu := by
        intro hsame
        have hq' : (p.outputs.map Output.mcu)[j]? = some q.mcu := by simp [hq]
        have ho' : (p.outputs.map Output.mcu)[i]? = some q.mcu := by simp [ho, hsame]
        have hlt : j < (p.outputs.map Output.mcu).length := (List.getElem?_eq_some_iff.mp hq').1
        exact hj ((List.getElem?_inj hlt h.distinct).mp (hq'.trans ho'.symm))
      simp [OutputCall.array, hj, hne]

section Run

variable {g : Gpio (Unsteady Device)} (h : p.Shows on g.backend.device)
include h

/-- Driving outputs in turn stops at the first call of the backend that fails, and the outputs
before it have their new booleans. -/
theorem each (c : OutputCall) {indices : List Nat} (hin : ∀ i ∈ indices, i < p.size)
    (hnodup : indices.Nodup) :
    ((Act.each (p.driveOne c) indices).run g).1 = g.backend.answer indices.length () ∧
      p.Shows (c.array (indices.take (g.backend.steady indices.length)) on)
        ((Act.each (p.driveOne c) indices).run g).2.backend.device := by
  induction indices generalizing g on with
  | nil =>
    rw [List.take_nil, c.array_nil]
    exact ⟨rfl, h⟩
  | cons i rest ih =>
    obtain ⟨hi, hrest⟩ := List.forall_mem_cons.mp hin
    obtain ⟨hnew, hnodup⟩ := List.nodup_cons.mp hnodup
    obtain ⟨o, ho⟩ := exists_output hi
    have hrun : (p.driveOne c i).run g = _ := run_driveOne ho c
    have htried := Unsteady.driving h.latched.full (c.drive o i) o.mcu
    rcases hcall : ((c.drive o i).call o.mcu).run g.backend with ⟨r, u⟩
    rw [hcall] at hrun htried
    rw [Act.each, List.length_cons]
    cases htried with
    | struck hmishap past =>
      rw [Act.run_bind_error _ hrun, Unsteady.answer_struck hmishap,
        Unsteady.steady_struck hmishap, List.take_zero, c.array_nil]
      refine ⟨rfl, ?_⟩
      show p.Shows on u.device
      rw [past.device]
      exact h
    | refused _ why _ => exact absurd (Device.lt_pinCount_of_latchOf (h.latches i o ho)) why
    | done hcalm past hdrove =>
      rw [Act.run_bind_ok _ hrun, Unsteady.answer_past hcalm past, Unsteady.steady_past hcalm past,
        List.take_succ_cons, c.array_cons fun hmem => hnew (List.mem_of_mem_take hmem)]
      refine ih ?_ hrest hnodup
      show p.Shows (c.array [i] on) u.device
      rw [past.device]
      exact h.drive ho c hdrove.2

/-- A call on the port does with its array what is done with an array of booleans. -/
theorem perform (c : OutputCall) :
    ((c.perform p).run g).1 = (c.onArray p.size g.backend on).1 ∧
      p.Shows (c.onArray p.size g.backend on).2 ((c.perform p).run g).2.backend.device := by
  have hquiet : ∀ (n : Nat) (x : Act (Gpio (Unsteady Device)) Unit),
      (x.run g).1 = g.backend.answer n () → ((quiet x).run g).1 = g.backend.answer n .done := by
    intro n x hx
    rw [run_quiet, hx, Unsteady.answer, Unsteady.answer]
    cases g.backend.mishap? n <;> rfl
  cases hindex : c.index? with
  | none =>
    have hin : ∀ i ∈ List.range p.size, i < p.size := fun i hi => List.mem_range.mp hi
    obtain ⟨hres, hshows⟩ := h.each c hin List.nodup_range
    rw [List.length_range] at hres hshows
    rw [perform_eq, hindex, run_quiet_state, OutputCall.onArray, hindex]
    exact ⟨hquiet p.size _ hres, hshows⟩
  | some i =>
    by_cases hi : i < p.size
    · have hin : ∀ j ∈ [i], j < p.size := by simp [hi]
      obtain ⟨hres, hshows⟩ := h.each c hin (by simp)
      have hone : Act.each (p.driveOne c) [i] = (p.driveOne c i : Act (Gpio (Unsteady Device)) _) :=
        bind_pure_unit
      rw [hone] at hres hshows
      rw [perform_eq, hindex, run_quiet_state, OutputCall.onArray, hindex]
      simp only [if_pos hi]
      exact ⟨hquiet 1 _ hres, hshows⟩
    · rw [perform_beyond c hindex (Nat.le_of_not_lt hi), OutputCall.onArray, hindex]
      simp only [if_neg hi]
      exact ⟨trivial, h⟩

/-- An output reads whether it is active. -/
theorem readOutput (hi : i < p.size) :
    ∃ u, (p.read i).run g = (g.backend.answer 1 (on i), { g with backend := u }) ∧
      g.backend.Past g.backend.device u := by
  obtain ⟨o, ho⟩ := exists_output hi
  have hlevel : ((Backend.read o.mcu : Act Device Bool).run g.backend.device).1 =
      .ok (o.level (on i)) :=
    Device.levelOf_output (h.modes o (List.mem_of_getElem? ho)) (h.latches i o ho)
  obtain ⟨u, hrun, past⟩ := Unsteady.run_asking (u := g.backend) (Device.leaves_read o.mcu) hlevel
  refine ⟨u, ?_, past⟩
  have hread : (Backend.read o.mcu : Act (Unsteady Device) Bool).run g.backend =
      (g.backend.answer 1 (o.level (on i)), u) := hrun
  rw [run_readOutput ho, levelOf, hread, Unsteady.answer, Unsteady.answer]
  cases g.backend.mishap? 1 with
  | some e => rfl
  | none => simp [Except.map, o.level_beq]

/-- Reading outputs in turn gives those that are active, unless a call of the backend fails. -/
theorem readIndices {indices : List Nat} (hin : ∀ i ∈ indices, i < p.size) (active : PinSet) :
    ∃ s : PinSet, (∀ i, s.contains i = (active.contains i || (decide (i ∈ indices) && on i))) ∧
      ((p.readIndices indices active).run g).1 = g.backend.answer indices.length s := by
  induction indices generalizing g active with
  | nil => exact ⟨active, by simp, rfl⟩
  | cons i rest ih =>
    obtain ⟨hi, hrest⟩ := List.forall_mem_cons.mp hin
    obtain ⟨u, hrun, past⟩ := h.readOutput hi
    have hafter : p.Shows on u.device := past.device ▸ h
    obtain ⟨t, ht, hstep⟩ : ∃ t : PinSet,
        (∀ j, t.contains j = (active.contains j || (decide (j = i) && on i))) ∧
          ∀ g', (p.read i).run g = (.ok (on i), g') →
            (p.readIndices (i :: rest) active).run g = (p.readIndices rest t).run g' := by
      cases hon : on i with
      | false =>
        refine ⟨active, by simp, fun g' hread => ?_⟩
        rw [OutputPort.readIndices, Act.run_bind_ok _ hread]
        rfl
      | true =>
        obtain ⟨t, ht⟩ := active.exists_insert? (Nat.lt_of_lt_of_le hi h.few)
        refine ⟨t, fun j => by simp [PinSet.contains_insert? ht], fun g' hread => ?_⟩
        rw [OutputPort.readIndices, Act.run_bind_ok _ hread, ht]
        rfl
    obtain ⟨s, hs, hres⟩ := ih (g := { g with backend := u }) hafter hrest t
    refine ⟨s, fun j => ?_, ?_⟩
    · rw [hs, ht]
      by_cases hj : j = i
      · subst hj
        cases on j <;> simp
      · simp [hj]
    · cases hmishap : g.backend.mishap g.backend.calls with
      | some e =>
        rw [Unsteady.answer_struck hmishap] at hrun
        rw [OutputPort.readIndices, Act.run_bind_error _ hrun, List.length_cons,
          Unsteady.answer_struck hmishap]
      | none =>
        rw [Unsteady.answer_past hmishap past, Unsteady.answer_zero] at hrun
        rw [hstep _ hrun, List.length_cons, Unsteady.answer_past hmishap past]
        exact hres

/-- Reading all outputs gives the whole array. -/
theorem readAll : ∃ s : PinSet, (∀ i, s.contains i = (decide (i < p.size) && on i)) ∧
    (p.readAll.run g).1 = g.backend.answer p.size s := by
  have hin : ∀ i ∈ List.range p.size, i < p.size := fun i hi => List.mem_range.mp hi
  obtain ⟨s, hs, hres⟩ := h.readIndices hin .empty
  refine ⟨s, fun i => ?_, ?_⟩
  · simpa using hs i
  · rw [List.length_range] at hres
    exact hres

end Run

end Shows

end OutputPort

/-- Reading and the bookkeeping leave the device as it is. -/
theorem Gpio.tended_device (d : Device) :
    Gpio.Tended fun g : Gpio (Unsteady Device) => g.backend.device = d where
  readMcu mcu g hg := Unsteady.keeps_device (Device.leaves_read mcu) d g.backend hg
  note _ _ hg := hg
  update _ _ _ hg := hg

end BoardGpio
