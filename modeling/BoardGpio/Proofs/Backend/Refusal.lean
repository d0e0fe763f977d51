import BoardGpio.Proofs.Act.Refusal
import BoardGpio.Proofs.Backend.Apart
import BoardGpio.Proofs.Backend.Unsteady

/-!
# Backends that refuse

The backends look at a call before they do anything for it. A call on a pin that the chip does not
have is refused, and so is a mode that the pin does not have. So an error of a call leaves the
backend as it was (`Device.guarded`), also where calls are made to fail before they take effect
(`Unsteady.guarded`). Once a call has begun only a register outside its window can stop it, and
where all registers are there nothing can (`Device.calm`).
-/

set_option autoImplicit false

namespace BoardGpio

open Bench

theorem Act.Refuses.quiet {σ ω : Type} {v : σ → ω} {P : ω → Error → Prop} {x : Act σ Unit}
    (hx : x.Refuses v P) : (Bench.quiet x).Refuses v P :=
  hx.map fun _ => Answer.done

theorem Act.Calm.quiet {σ : Type} {I : σ → Prop} {x : Act σ Unit} (hx : x.Calm I) :
    (Bench.quiet x).Calm I :=
  hx.map fun _ => Answer.done

theorem Act.Calm.of_quiet {σ : Type} {I : σ → Prop} {x : Act σ Unit}
    (hx : (Bench.quiet x).Calm I) : x.Calm I := by
  rw [Bench.quiet, bind_pure_comp] at hx
  exact hx.of_map

namespace Backend

variable {β ω : Type} [Backend β]

/-- Why a call on a pin is refused: the chip does not have the pin, or the pin not the mode. -/
inductive Refusal (pin : Nat) (b : β) : Error → Prop where
  | pin (h : pinCount b ≤ pin) : Refusal pin b (noSuchPin pin)
  | mode (m : Mode) : Refusal pin b (.unsupportedMode pin m)

/-- A reason to refuse is one also where the backend is taken over with all its pins. -/
theorem Refusal.put {γ : Type} [Backend γ] {pin : Nat} {b : β} {e : Error} (h : Refusal pin b e)
    (put : β → γ) (hcount : ∀ b, pinCount (put b) = pinCount b) : Refusal pin (put b) e := by
  cases h with
  | pin h => exact .pin ((hcount b).symm ▸ h)
  | mode m => exact .mode m

/-- Every call of the backend refuses, for the reasons `P` of its pin, and asking changes nothing.
The backend is looked at through `v`. -/
structure Guarded (v : β → ω) (P : Nat → ω → Error → Prop) : Prop where
  setMode : ∀ pin m, (Backend.setMode pin m : Act β Unit).Refuses v (P pin)
  mode : ∀ pin, (Backend.mode pin : Act β Mode).Refuses v (P pin)
  setPull : ∀ pin u, (Backend.setPull pin u : Act β Unit).Refuses v (P pin)
  pull : ∀ pin, (Backend.pull pin : Act β (Option Pull)).Refuses v (P pin)
  write : ∀ pin high, (Backend.write pin high : Act β Unit).Refuses v (P pin)
  read : ∀ pin, (Backend.read pin : Act β Bool).Refuses v (P pin)
  toggle : ∀ pin, (Backend.toggle pin : Act β Unit).Refuses v (P pin)
  mode_retains : ∀ pin, (Backend.mode pin : Act β Mode).Retains v
  pull_retains : ∀ pin, (Backend.pull pin : Act β (Option Pull)).Retains v

/-- Where this is true, no call on a pin breaks off with a fault. -/
def Calm (I : β → Prop) : Prop := ∀ c : PinCall, (c.onBackend : Act β Answer).Calm I

namespace Calm

variable {I : β → Prop} (h : Calm I) (pin : Nat)
include h

theorem setMode (m : Mode) : (Backend.setMode pin m : Act β Unit).Calm I :=
  Act.Calm.of_quiet (h (.setMode pin m))

theorem mode : (Backend.mode pin : Act β Mode).Calm I := Act.Calm.of_map (h (.mode pin))

theorem setPull (u : Pull) : (Backend.setPull pin u : Act β Unit).Calm I :=
  Act.Calm.of_quiet (h (.setPull pin u))

theorem pull : (Backend.pull pin : Act β (Option Pull)).Calm I := Act.Calm.of_map (h (.pull pin))

theorem write (high : Bool) : (Backend.write pin high : Act β Unit).Calm I :=
  Act.Calm.of_quiet (h (.write pin high))

theorem read : (Backend.read pin : Act β Bool).Calm I := Act.Calm.of_map (h (.read pin))

theorem toggle : (Backend.toggle pin : Act β Unit).Calm I :=
  Act.Calm.of_quiet (h (.toggle pin))

end Calm

end Backend

open Backend

/-! ## Simulated pins -/

namespace Sim

variable {α : Type} (pin : Nat)

theorem refuses_look (f : SimPin → α) : (look pin f).Refuses id (Refusal pin) := by
  intro s e h
  rw [run_look] at h ⊢
  cases hp : s.pins[pin]? with
  | some p => simp [hp] at h
  | none =>
    rw [hp] at h
    cases h
    exact ⟨rfl, .pin (Array.getElem?_eq_none_iff.mp hp)⟩

theorem refuses_mutate (f : SimPin → SimPin) : (mutate pin f).Refuses id (Refusal pin) := by
  intro s e h
  rw [run_mutate] at h ⊢
  cases hp : s.pins[pin]? with
  | some p => simp [hp] at h
  | none =>
    rw [hp] at h
    cases h
    exact ⟨rfl, .pin (Array.getElem?_eq_none_iff.mp hp)⟩

theorem guarded : Guarded (id : Sim → Sim) Refusal where
  setMode pin m := by
    refine Act.Refuses.bind (Act.Sure.gets _).refuses (Act.Leaves.gets _).retains fun mode => ?_
    cases mode with
    | none => exact Act.Refuses.fail fun _ => .mode m
    | some mode => exact refuses_mutate pin _
  mode pin := refuses_look pin _
  setPull pin u := refuses_mutate pin _
  pull pin := (refuses_look pin _).surely fun _ => (Act.Sure.gets _).bind fun _ => Act.Sure.pure _
  write pin high := refuses_mutate pin _
  read pin := refuses_look pin _
  toggle pin := refuses_mutate pin _
  mode_retains pin := (leaves_look pin _).retains
  pull_retains pin := ((leaves_look pin _).bind fun _ =>
    (Act.Leaves.gets _).bind fun _ => Act.Leaves.pure _).retains

theorem calm_look (f : SimPin → α) : (look pin f).Calm fun _ => True := by
  intro s g _ h
  rw [run_look] at h
  cases hp : s.pins[pin]? <;> rw [hp] at h <;> cases h

theorem calm_mutate (f : SimPin → SimPin) : (mutate pin f).Calm fun _ => True := by
  intro s g _ h
  rw [run_mutate] at h
  cases hp : s.pins[pin]? <;> rw [hp] at h <;> cases h

theorem calm : Calm fun _ : Sim => True := by
  intro c
  cases c with
  | setMode pin m =>
    refine Act.Calm.quiet (Act.Calm.bind (Act.Calm.gets _) (fun _ h => h) fun mode => ?_)
    cases mode with
    | none => exact Act.Calm.fail _
    | some mode => exact calm_mutate pin _
  | mode pin => exact (calm_look pin _).map _
  | setPull pin u => exact (calm_mutate pin _).quiet
  | pull pin =>
    exact Act.Calm.map _ ((calm_look pin _).bind (fun _ h => h) fun _ =>
      (Act.Calm.gets _).bind (fun _ h => h) fun _ => Act.Calm.pure _)
  | write pin high => exact (calm_mutate pin _).quiet
  | read pin => exact (calm_look pin _).map _
  | toggle pin => exact (calm_mutate pin _).quiet

end Sim

/-! ## Registers -/

namespace Window

theorem sure_read (i : Nat) : (read i).Sure := by
  intro w e h
  simp only [Act.run, read] at h
  split at h <;> cases h

theorem sure_write (i : Nat) (v : Word) : (write i v).Sure := by
  intro w e h
  simp only [Act.run, write] at h
  split at h <;> cases h

theorem sure_modify (i : Nat) (f : Word → Word) : (modify i f).Sure :=
  (sure_read i).bind fun _ => (sure_write i _).bind fun _ => Act.Sure.pure _

end Window

namespace Bcm

theorem leaves_check (pin : Nat) : (check pin).Leaves := by
  intro b
  rw [run_check]

/-- What ends with no error once the pin was checked refuses. -/
theorem refuses_checked {α : Type} (pin : Nat) {x : Act Bcm α}
    (hx : x.Refuses id (Refusal pin)) : (check pin >>= fun _ => x).Refuses id (Refusal pin) := by
  refine Act.Refuses.bind (fun b e h => ?_) (leaves_check pin).retains fun _ => hx
  rw [run_check] at h ⊢
  by_cases hpin : pin < pinCount
  · rw [if_pos hpin] at h
    cases h
  · rw [if_neg hpin] at h
    cases h
    exact ⟨rfl, .pin (Nat.not_lt.mp hpin)⟩

theorem sure_write (i : Nat) (v : Word) : (onWindow (Window.write i v)).Sure :=
  (Window.sure_write i v).within

theorem sure_modify (i : Nat) (f : Word → Word) : (onWindow (Window.modify i f)).Sure :=
  (Window.sure_modify i f).within

theorem sure_fetch {α : Type} (i : Nat) (f : Word → α) :
    (onWindow (Window.read i) >>= fun v => pure (f v)).Sure :=
  Act.Sure.bind (Window.sure_read i).within fun _ => Act.Sure.pure _

theorem refuses_read (pin : Nat) : (read pin).Refuses id (Refusal pin) :=
  refuses_checked pin (sure_fetch _ _).refuses

theorem refuses_write (pin : Nat) (high : Bool) : (write pin high).Refuses id (Refusal pin) :=
  refuses_checked pin (sure_write _ _).refuses

theorem guarded : Guarded (id : Bcm → Bcm) Refusal where
  setMode pin m := by
    refine refuses_checked pin
      (Act.Refuses.bind (Act.Sure.gets _).refuses (Act.Leaves.gets _).retains fun soc => ?_)
    cases (effectiveMode? soc pin m).bind functionCode? with
    | none => exact Act.Refuses.fail fun _ => .mode m
    | some code => exact ((sure_modify _ _).bind fun _ => Act.Sure.pure _).refuses
  mode pin := refuses_checked pin (sure_fetch _ _).refuses
  setPull pin u := by
    refine refuses_checked pin (Act.Sure.bind (Act.Sure.gets _) fun soc => ?_).refuses
    split
    · exact (sure_modify _ _).bind fun _ => Act.Sure.pure _
    · exact (sure_write _ _).bind fun _ => (sure_write _ _).bind fun _ =>
        (sure_write _ _).bind fun _ => sure_write _ _
  pull pin := by
    refine refuses_checked pin (Act.Sure.bind (Act.Sure.gets _) fun soc => ?_).refuses
    split
    · exact sure_fetch _ _
    · exact Act.Sure.pure _
  write := refuses_write
  read := refuses_read
  toggle pin := (refuses_read pin).bind (read_leaves pin).retains fun _ => refuses_write pin _
  mode_retains pin := by
    refine Act.Leaves.retains fun b => ?_
    rw [run_mode]
  pull_retains pin := Act.Leaves.retains fun b => by
    by_cases hs : b.soc = .bcm2711
    · rw [run_pull hs]
    · rw [run_pull_unread hs]

end Bcm

namespace H3

/-- What ends with no error once the pin was found refuses. -/
theorem refuses_located {α : Type} (pin : Nat) {f : Place → Act H3 α}
    (hf : ∀ p, (f p).Refuses id (Refusal pin)) :
    (locate pin >>= f).Refuses id (Refusal pin) := by
  intro h e herr
  rw [run_locate] at herr ⊢
  cases hp : place? pin with
  | some p =>
    rw [hp] at herr
    exact hf p h e herr
  | none =>
    rw [hp] at herr
    cases herr
    refine ⟨rfl, .pin (Nat.not_lt.mp fun hlt => ?_)⟩
    obtain ⟨p, hplace⟩ := (exists_place_iff pin).mpr hlt
    rw [hp] at hplace
    cases hplace

theorem sure_onWindow {α : Type} (p : Place) {x : Act Window α} (hx : x.Sure) :
    (onWindow p x).Sure := by
  unfold onWindow
  split
  · exact hx.within
  · exact hx.within

theorem sure_modify (p : Place) (i : Nat) (f : Word → Word) :
    (onWindow p (Window.modify i f) >>= fun _ => pure ()).Sure :=
  (sure_onWindow p (Window.sure_modify i f)).bind fun _ => Act.Sure.pure ()

theorem sure_fetch {α : Type} (p : Place) (i : Nat) (f : Word → α) :
    (onWindow p (Window.read i) >>= fun v => pure (f v)).Sure :=
  (sure_onWindow p (Window.sure_read i)).bind fun _ => Act.Sure.pure _

theorem guarded : Guarded (id : H3 → H3) Refusal where
  setMode pin m := by
    refine refuses_located pin fun p => ?_
    cases functionCode? pin m with
    | none => exact Act.Refuses.fail fun _ => .mode m
    | some code => exact (sure_modify p _ _).refuses
  mode pin := refuses_located pin fun p => (sure_fetch p _ _).refuses
  setPull pin u := refuses_located pin fun p =>
    ((sure_onWindow p (Window.sure_modify _ _)).bind fun _ => sure_modify p _ _).refuses
  pull pin := refuses_located pin fun p => (sure_fetch p _ _).refuses
  write pin high := refuses_located pin fun p => (sure_modify p _ _).refuses
  read pin := refuses_located pin fun p => (sure_fetch p _ _).refuses
  toggle pin := refuses_located pin fun p => (sure_modify p _ _).refuses
  mode_retains pin := Act.Leaves.retains fun h => (restorable h).mode_leaves h pin trivial
  pull_retains pin := Act.Leaves.retains fun h => (restorable h).pull_leaves h pin trivial

end H3

/-! ## Devices -/

namespace Device

theorem refuses_dispatch {α : Type} {pin : Nat} {x : Act Sim α} {y : Act Bcm α} {z : Act H3 α}
    (hx : x.Refuses id (Refusal pin)) (hy : y.Refuses id (Refusal pin))
    (hz : z.Refuses id (Refusal pin)) : (dispatch x y z).Refuses id (Refusal pin) := by
  rintro (s | b | h) e herr
  · obtain ⟨hsame, hreason⟩ := hx s e herr
    exact ⟨congrArg Device.sim hsame, hreason.put Device.sim fun _ => rfl⟩
  · obtain ⟨hsame, hreason⟩ := hy b e herr
    exact ⟨congrArg Device.bcm hsame, hreason.put Device.bcm fun _ => rfl⟩
  · obtain ⟨hsame, hreason⟩ := hz h e herr
    exact ⟨congrArg Device.h3 hsame, hreason.put Device.h3 fun _ => rfl⟩

theorem retains_dispatch {α : Type} {x : Act Sim α} {y : Act Bcm α} {z : Act H3 α}
    (hx : x.Retains id) (hy : y.Retains id) (hz : z.Retains id) :
    (dispatch x y z).Retains id := by
  rintro (s | b | h)
  · exact congrArg Device.sim (hx s)
  · exact congrArg Device.bcm (hy b)
  · exact congrArg Device.h3 (hz h)

theorem calm_dispatch {α : Type} {x : Act Sim α} {y : Act Bcm α} {z : Act H3 α}
    (hx : x.Calm fun _ => True) (hy : y.Calm Bcm.Full) (hz : z.Calm H3.Full) :
    (dispatch x y z).Calm Full := by
  rintro (s | b | h) f hfull
  · exact hx s f trivial
  · exact hy b f hfull
  · exact hz h f hfull

/-- Where all registers are there no call breaks off. -/
theorem calm : Calm Full := by
  have hbcm : Calm Bcm.Full := fun c b f hfull => Bcm.call_ne_fault hfull c f
  have hh3 : Calm H3.Full := fun c h f hfull => (H3.pins_isolated hfull).inside c f
  intro c
  cases c with
  | setMode pin m =>
    exact (calm_dispatch (Sim.calm.setMode pin m) (hbcm.setMode pin m) (hh3.setMode pin m)).quiet
  | mode pin => exact (calm_dispatch (Sim.calm.mode pin) (hbcm.mode pin) (hh3.mode pin)).map _
  | setPull pin u =>
    exact (calm_dispatch (Sim.calm.setPull pin u) (hbcm.setPull pin u) (hh3.setPull pin u)).quiet
  | pull pin => exact (calm_dispatch (Sim.calm.pull pin) (hbcm.pull pin) (hh3.pull pin)).map _
  | write pin high =>
    exact (calm_dispatch (Sim.calm.write pin high) (hbcm.write pin high) (hh3.write pin high)).quiet
  | read pin => exact (calm_dispatch (Sim.calm.read pin) (hbcm.read pin) (hh3.read pin)).map _
  | toggle pin =>
    exact (calm_dispatch (Sim.calm.toggle pin) (hbcm.toggle pin) (hh3.toggle pin)).quiet

/-- Every call on a device refuses before it does anything, or not at all. -/
theorem guarded : Guarded (id : Device → Device) Refusal where
  setMode pin m := refuses_dispatch (Sim.guarded.setMode pin m) (Bcm.guarded.setMode pin m)
    (H3.guarded.setMode pin m)
  mode pin := refuses_dispatch (Sim.guarded.mode pin) (Bcm.guarded.mode pin) (H3.guarded.mode pin)
  setPull pin u := refuses_dispatch (Sim.guarded.setPull pin u) (Bcm.guarded.setPull pin u)
    (H3.guarded.setPull pin u)
  pull pin := refuses_dispatch (Sim.guarded.pull pin) (Bcm.guarded.pull pin) (H3.guarded.pull pin)
  write pin high := refuses_dispatch (Sim.guarded.write pin high) (Bcm.guarded.write pin high)
    (H3.guarded.write pin high)
  read pin := refuses_dispatch (Sim.guarded.read pin) (Bcm.guarded.read pin) (H3.guarded.read pin)
  toggle pin := refuses_dispatch (Sim.guarded.toggle pin) (Bcm.guarded.toggle pin)
    (H3.guarded.toggle pin)
  mode_retains pin := retains_dispatch (Sim.guarded.mode_retains pin)
    (Bcm.guarded.mode_retains pin) (H3.guarded.mode_retains pin)
  pull_retains pin := retains_dispatch (Sim.guarded.pull_retains pin)
    (Bcm.guarded.pull_retains pin) (H3.guarded.pull_retains pin)

end Device

/-! ## Failing calls -/

namespace Unsteady

variable {β ω α : Type} {v : β → ω} {P : Nat → ω → Error → Prop}

/-- What is seen of a backend with failing calls: the backend, and which calls fail, but not how
many have been made. -/
def seen (v : β → ω) (u : Unsteady β) : ω × (Nat → Option Error) := (v u.device, u.mishap)

/-- Why a call fails: it was chosen to, or the device refuses it. -/
def Reason (P : Nat → ω → Error → Prop) (pin : Nat) (w : ω × (Nat → Option Error)) (e : Error) :
    Prop :=
  (∃ n, w.2 n = some e) ∨ P pin w.1 e

theorem refuses_call {pin : Nat} {x : Act β α} (hx : x.Refuses v (P pin)) :
    (call x).Refuses (seen v) (Reason P pin) := by
  intro u e h
  rw [run_call] at h ⊢
  cases hm : u.mishap u.calls with
  | some e' =>
    rw [hm] at h
    cases h
    exact ⟨rfl, .inl ⟨u.calls, hm⟩⟩
  | none =>
    rw [hm] at h
    obtain ⟨hsame, hreason⟩ := hx u.device e h
    exact ⟨Prod.ext hsame rfl, .inr hreason⟩

theorem retains_call {x : Act β α} (hx : x.Retains v) : (call x).Retains (seen v) := by
  intro u
  rw [run_call]
  cases u.mishap u.calls with
  | some e => rfl
  | none => exact Prod.ext (hx u.device) rfl

/-- Calls that are made to fail before they take effect change nothing else. -/
theorem guarded [Backend β] (h : Guarded v P) : Guarded (seen v) (Reason P) where
  setMode pin m := refuses_call (h.setMode pin m)
  mode pin := refuses_call (h.mode pin)
  setPull pin u := refuses_call (h.setPull pin u)
  pull pin := refuses_call (h.pull pin)
  write pin high := refuses_call (h.write pin high)
  read pin := refuses_call (h.read pin)
  toggle pin := refuses_call (h.toggle pin)
  mode_retains pin := retains_call (h.mode_retains pin)
  pull_retains pin := retains_call (h.pull_retains pin)

theorem calm_call {I : β → Prop} {x : Act β α} (hx : x.Calm I) :
    (call x).Calm fun u => I u.device := by
  intro u f hu h
  rw [run_call] at h
  cases hm : u.mishap u.calls with
  | some e =>
    rw [hm] at h
    cases h
  | none =>
    rw [hm] at h
    exact hx u.device f hu h

theorem calm [Backend β] {I : β → Prop} (h : Calm I) : Calm fun u : Unsteady β => I u.device := by
  intro c
  cases c with
  | setMode pin m => exact (calm_call (h.setMode pin m)).quiet
  | mode pin => exact (calm_call (h.mode pin)).map _
  | setPull pin u => exact (calm_call (h.setPull pin u)).quiet
  | pull pin => exact (calm_call (h.pull pin)).map _
  | write pin high => exact (calm_call (h.write pin high)).quiet
  | read pin => exact (calm_call (h.read pin)).map _
  | toggle pin => exact (calm_call (h.toggle pin)).quiet

end Unsteady

end BoardGpio
