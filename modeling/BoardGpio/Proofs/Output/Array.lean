import BoardGpio.Proofs.Output.Opening

/-!
# An output port is an array of booleans

A port that was just opened is an array of inactive outputs. Whatever is done with it, with its
handle, or with other pins (`OutputPort.Run`), its pins show the array that the same calls make of
an array of booleans (`OutputPort.Run.shows`), so reading the port gives this array
(`OutputPort.outputs_array`). A call on all outputs that is cut short has given the outputs before a
certain one their new booleans and no other.
-/

set_option autoImplicit false

namespace BoardGpio.OutputPort

open Backend Bench

variable {p : OutputPort} {g₀ g : Gpio (Unsteady Device)} {on : Nat → Bool}

/-- What can happen after a port was opened, with the array of booleans that the calls on the port
make. Anything may happen elsewhere that leaves the port's pins as they are. -/
inductive Run (p : OutputPort) (g₀ : Gpio (Unsteady Device)) :
    Gpio (Unsteady Device) → (Nat → Bool) → Prop where
  | opened : Run p g₀ g₀ fun _ => false
  | call {g : Gpio (Unsteady Device)} {on : Nat → Bool} (h : Run p g₀ g on) (c : OutputCall) :
      Run p g₀ ((c.perform p).run g).2 (c.onArray p.size g.backend on).2
  | read {g : Gpio (Unsteady Device)} {on : Nat → Bool} (h : Run p g₀ g on) (index : Nat) :
      Run p g₀ ((p.read index).run g).2 on
  | readAll {g : Gpio (Unsteady Device)} {on : Nat → Bool} (h : Run p g₀ g on) :
      Run p g₀ (p.readAll.run g).2 on
  | handle {g : Gpio (Unsteady Device)} {on : Nat → Bool} (h : Run p g₀ g on) (c : HandleCall)
      (hc : c.drives = false) : Run p g₀ (c.perform.run g).2 on
  | elsewhere {g g' : Gpio (Unsteady Device)} {on : Nat → Bool} (h : Run p g₀ g on)
      (hlatched : g'.backend.device.Latched)
      (hstill : ∀ o ∈ p.outputs, o.Still g.backend.device g'.backend.device) : Run p g₀ g' on

/-- What leaves the device as it is leaves the array as it is. -/
theorem Shows.tended {α : Type} {x : Act (Gpio (Unsteady Device)) α}
    (h : p.Shows on g.backend.device)
    (hx : x.Keeps fun g' : Gpio (Unsteady Device) => g'.backend.device = g.backend.device) :
    p.Shows on (x.run g).2.backend.device := by
  rw [hx g rfl]
  exact h

/-- All along, the pins of the port show the array. -/
theorem Run.shows (hrun : p.Run g₀ g on) (hopened : p.Shows (fun _ => false) g₀.backend.device) :
    p.Shows on g.backend.device := by
  induction hrun with
  | opened => exact hopened
  | call _ c ih => exact (ih.perform c).2
  | read _ index ih => exact ih.tended ((Gpio.tended_device _).readOutput p index)
  | readAll _ ih => exact ih.tended ((Gpio.tended_device _).readIndices p _ _)
  | handle _ c hc ih => exact ih.tended ((Gpio.tended_device _).handleCall hc)
  | elsewhere _ hlatched hstill ih =>
    refine ⟨hlatched, ih.distinct, ih.few, fun o ho => ?_, fun i o ho => ?_⟩
    · exact (hstill o ho).mode.trans (ih.modes o ho)
    · exact (hstill o (List.mem_of_getElem? ho)).latch.trans (ih.latches i o ho)

/-- The port is the array: what reading it gives and what its calls come to, if calls of the backend
fail as they are chosen to. -/
structure AsArray (p : OutputPort) (on : Nat → Bool) (g : Gpio (Unsteady Device)) : Prop where
  read : ∀ i < p.size, ((p.read i).run g).1 = g.backend.answer 1 (on i)
  readAll : ∃ s : PinSet, (∀ i, s.contains i = (decide (i < p.size) && on i)) ∧
    (p.readAll.run g).1 = g.backend.answer p.size s
  calls : ∀ c : OutputCall, ((c.perform p).run g).1 = (c.onArray p.size g.backend on).1
  /-- A call on all outputs that goes well has come to every output. -/
  whole : ∀ (c : OutputCall) (a : Answer), c.index? = none → ((c.perform p).run g).1 = .ok a →
    ∀ i < p.size, (c.onArray p.size g.backend on).2 i = c.value i (on i)
  /-- A call on all outputs that fails has failed at one of them, and the outputs before this one
  have their new booleans. -/
  short : ∀ (c : OutputCall) (f : Failure), c.index? = none → ((c.perform p).run g).1 = .error f →
    ∃ k e, k < p.size ∧ g.backend.mishap (g.backend.calls + k) = some e ∧ f = .error e ∧
      ∀ i, (c.onArray p.size g.backend on).2 i = if i < k then c.value i (on i) else on i
  /-- After all outputs were written, reading gives what was written, as far as there are
  outputs. -/
  written : ∀ (m : PinSet) (g' : Gpio (Unsteady Device)), (p.writeAll m).run g = (.ok (), g') →
    ∃ s : PinSet, (∀ i, s.contains i = (decide (i < p.size) && m.contains i)) ∧
      (p.readAll.run g').1 = g'.backend.answer p.size s
  /-- An output that the port does not have is refused, and nothing is changed. -/
  beyond : ∀ i, p.size ≤ i →
    (p.read i).run g = (.error (.error (.invalidPortIndex i p.size)), g) ∧
      ∀ c : OutputCall, c.index? = some i →
        (c.perform p).run g = (.error (.error (.invalidPortIndex i p.size)), g)

/-! ## Calls on all outputs -/

section All

variable {β : Type} {c : OutputCall} {n : Nat} {u : Unsteady β}

theorem onArray_all (hall : c.index? = none) : c.onArray n u on =
    (u.answer n .done, c.array ((List.range n).take (u.steady n)) on) := by
  rw [OutputCall.onArray, hall]

/-- A call that goes well has come to every output. -/
theorem onArray_ok (hall : c.index? = none) {a : Answer} (hok : (c.onArray n u on).1 = .ok a) :
    (c.onArray n u on).2 = c.array (List.range n) on := by
  rw [onArray_all hall] at hok ⊢
  have hsteady : u.steady n = n := Unsteady.steady_of_ok hok
  have htake : (List.range n).take n = List.range n := List.take_of_length_le (by simp)
  simp only [hsteady, htake]

/-- A call that fails has come to the outputs before the one that it has failed at. -/
theorem onArray_error (hall : c.index? = none) {f : Failure}
    (herror : (c.onArray n u on).1 = .error f) :
    ∃ k e, k < n ∧ u.mishap (u.calls + k) = some e ∧ f = .error e ∧
      ∀ i, (c.onArray n u on).2 i = if i < k then c.value i (on i) else on i := by
  rw [onArray_all hall] at herror ⊢
  obtain ⟨e, hf, hlt, he⟩ := Unsteady.answer_eq_error herror
  refine ⟨u.steady n, e, hlt, he, hf, fun i => ?_⟩
  have hmem : i ∈ (List.range n).take (u.steady n) ↔ i < u.steady n := by
    rw [List.take_range, List.mem_range]
    omega
  simp only [OutputCall.array, hmem]

end All

theorem Shows.asArray (h : p.Shows on g.backend.device) : p.AsArray on g where
  read i hi := by
    obtain ⟨u, hrun, -⟩ := h.readOutput hi
    rw [hrun]
  readAll := h.readAll
  calls c := (h.perform c).1
  whole c a hall hok i hi := by
    rw [(h.perform c).1] at hok
    rw [onArray_ok hall hok]
    simp [OutputCall.array, hi]
  short c f hall herror := by
    rw [(h.perform c).1] at herror
    exact onArray_error hall herror
  written m g' hrun := by
    have hperform : ((OutputCall.writeAll m).perform p).run g = (.ok .done, g') :=
      Act.run_bind_ok _ hrun
    obtain ⟨hres, hshows⟩ := h.perform (.writeAll m)
    rw [hperform] at hres hshows
    rw [onArray_ok rfl hres.symm] at hshows
    obtain ⟨s, hs, hread⟩ := hshows.readAll
    refine ⟨s, fun i => ?_, hread⟩
    rw [hs]
    by_cases hi : i < p.size
    · simp [OutputCall.array, OutputCall.value, hi]
    · simp [hi]
  beyond i hi := ⟨read_beyond hi, fun c hc => perform_beyond c hc hi⟩

/-- However a port is used after it was opened, it is the array of booleans that its calls make. -/
theorem outputs_array {pins : List OutputPin} (htable : g₀.handle.table.Accepted)
    (hlatched : g₀.backend.device.Latched) (hdistinct : (pins.map OutputPin.pin).Nodup)
    {g₁ : Gpio (Unsteady Device)} (hopen : (openPort pins).run g₀ = (.ok p, g₁))
    (hrun : p.Run g₁ g on) : p.outputs.map Output.pin = pins ∧ p.AsArray on g := by
  obtain ⟨hpins, -, hshows⟩ := shows_openPort htable hlatched hdistinct hopen
  exact ⟨hpins, (hrun.shows hshows).asArray⟩

/-! ## A call that is cut short -/

/-- A handle on two simulated pins whose eighth call is made to fail. -/
def halting : Gpio (Unsteady Device) :=
  { engaged none with
    backend := { (engaged none).backend with
      mishap := fun n => if n = 7 then some (.config (.injected "write" 1)) else none } }

/-- What opening a port on it comes to. -/
def halted : Except Failure OutputPort × Gpio (Unsteady Device) := (openPort relays).run halting

/-- The outputs, one active at high level and one at low level. -/
def relayPort : OutputPort := ⟨[⟨{ pin := 0 }, 0⟩, ⟨{ pin := 1, active := .low }, 1⟩]⟩

/-- The handle after its numbering was changed and all outputs were to be set. -/
def setHalfway : Gpio (Unsteady Device) :=
  ((OutputCall.setAll.perform relayPort).run
    ((HandleCall.setNumbering .mcu).perform.run halted.2).2).2

/-- Setting all outputs is cut short at the second one, so the first alone is active. -/
theorem outputs_array_halfway :
    halting.handle.table.Accepted ∧ halting.backend.device.Latched ∧
      (relays.map OutputPin.pin).Nodup ∧ halted.1 = .ok relayPort ∧
        ∃ on, relayPort.Run halted.2 setHalfway on ∧ on 0 = true ∧ on 1 = false ∧
          relayPort.AsArray on setHalfway := by
  have htable : halting.handle.table.Accepted :=
    PinTable.problem?_eq_none_iff.mp (by decide +kernel)
  have hdistinct : (relays.map OutputPin.pin).Nodup := by decide
  have hopen : (openPort relays).run halting = (.ok relayPort, halted.2) := rfl
  have hrun : relayPort.Run halted.2 setHalfway _ :=
    (Run.opened.handle (.setNumbering .mcu) rfl).call .setAll
  obtain ⟨-, harray⟩ := outputs_array htable trivial hdistinct hopen hrun
  exact ⟨htable, trivial, hdistinct, rfl, _, hrun, rfl, rfl, harray⟩

end BoardGpio.OutputPort
