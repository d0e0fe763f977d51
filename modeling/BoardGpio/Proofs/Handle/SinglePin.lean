import BoardGpio.Proofs.Backend.Refusal
import BoardGpio.Proofs.Handle.ChipNumbers
import BoardGpio.Proofs.Handle.Lasting
import BoardGpio.Proofs.Handle.Opening
import BoardGpio.Proofs.Handle.Said

/-!
# Calls on single pins fail safely

A call on a pin first resolves its number, then asks, then changes, and touches the record last. A
handle resolves a number exactly if it stands for a pin in its table, and to a pin that the backend
has (`Gpio.Fitted`): the backend was compared with the table when the handle was built, and neither
changes in size (`Gpio.Reached.fitted`). Main statement: a number that stands for no pin is refused
before anything is said to the backend; nothing is ever said about a pin that the backend does not
have; and whatever the error, the backend and the bookkeeping are as before the call
(`Gpio.fails_safe`).
-/

set_option autoImplicit false

namespace BoardGpio

open Backend Bench

namespace Gpio

variable {β ω α : Type}

/-! ## Handles that fit their backend -/

/-- The handles with the table `t` that a program can make calls through. Putting the pins back is
no use of a handle, as it is left to the last reference. What is done with other handles, or behind
the back of all, changes the backend and the log, but the chip keeps its pins. -/
inductive Reached [Backend β] (t : PinTable) : Gpio β → Prop where
  | built {backend : β} {settings : HandleSettings} {handle : Handle} (log : List Notice)
      (h : Handle.build (name backend) (pinCount backend) t settings = .ok handle) :
      Reached t { handle := handle, backend := backend, log := log }
  | used {g : Gpio β} (hg : Reached t g) {α : Type} {x : Act (Gpio β) α} (hx : IsUse x) :
      Reached t (x.run g).2
  | elsewhere {g : Gpio β} (hg : Reached t g) {backend : β} (log : List Notice)
      (h : pinCount backend = pinCount g.backend) :
      Reached t { g with backend := backend, log := log }

/-- The handle has the table `t`, a record for every pin of its backend, and a backend with all the
pins of the table. -/
structure Fitted [Backend β] (t : PinTable) (g : Gpio β) : Prop where
  table : g.handle.table = t
  records : g.handle.records.size = pinCount g.backend
  covered : ∀ mcu ∈ PinTable.used t.logical, mcu < pinCount g.backend

section

variable [Backend β] {t : PinTable}

theorem keeps_fitted_hardware {x : Act β α} (hx : ∀ n, x.Keeps fun b => pinCount b = n) :
    (hardware x).Keeps (Fitted t) := by
  intro g hg
  have hcount : pinCount (x.run g.backend).2 = pinCount g.backend := hx _ g.backend rfl
  rw [run_hardware]
  refine ⟨hg.table, hg.records.trans hcount.symm, fun mcu hmcu => ?_⟩
  show mcu < pinCount (x.run g.backend).2
  rw [hcount]
  exact hg.covered mcu hmcu

theorem keeps_fitted_record (mcu : Nat) (f : PinRecord → PinRecord) :
    (update fun h => h.updateRecord mcu f : Act (Gpio β) Unit).Keeps (Fitted t) := fun _ hg =>
  ⟨hg.table, Array.size_modify.trans hg.records, hg.covered⟩

theorem keeps_fitted_log (f : Gpio β → List Notice) :
    (Act.modify fun g : Gpio β => { g with log := f g }).Keeps (Fitted t) := fun _ hg =>
  ⟨hg.table, hg.records, hg.covered⟩

/-- Every use of a handle keeps it fitting, where no call changes the size of the chip. -/
theorem upheld_fitted (hlast : ∀ n, Lasting fun b : β => pinCount b = n) :
    Upheld (Fitted t : Gpio β → Prop) where
  askMode mcu := keeps_fitted_hardware fun n => (hlast n).mode mcu
  askPull mcu := keeps_fitted_hardware fun n => (hlast n).pull mcu
  writeMcu mcu high := keeps_fitted_hardware fun n => (hlast n).write mcu high
  toggleMcu mcu := keeps_fitted_hardware fun n => (hlast n).toggle mcu
  readMcu mcu := keeps_fitted_hardware fun n => (hlast n).read mcu
  setMode pin m := by
    refine (leaves_mcuPin pin).keeps.bind fun mcu => ?_
    refine (keeps_fitted_hardware fun n => (hlast n).mode mcu).bind fun _ => ?_
    have hswitch : (switch mcu m : Act (Gpio β) Unit).Keeps (Fitted t) :=
      (keeps_fitted_hardware fun n => (hlast n).setMode mcu m).bind fun _ => keeps_fitted_log _
    exact hswitch.bind fun _ => (keeps_fitted_record mcu _).bind fun _ => keeps_fitted_log _
  setPull pin u := by
    refine (leaves_mcuPin pin).keeps.bind fun mcu => ?_
    refine (keeps_fitted_hardware fun n => (hlast n).pull mcu).bind fun _ => ?_
    exact (keeps_fitted_hardware fun n => (hlast n).setPull mcu u).bind fun _ =>
      keeps_fitted_record mcu _
  update f hf := fun g hg =>
    ⟨(hf g.handle).2.2.trans hg.table, (congrArg Array.size (hf g.handle).1).trans hg.records,
      hg.covered⟩
  note _ := keeps_fitted_log _

/-- The handle that is built fits the backend it was compared with. -/
theorem fitted_of_build {backend : β} {settings : HandleSettings} {handle : Handle}
    (log : List Notice)
    (h : Handle.build (name backend) (pinCount backend) t settings = .ok handle) :
    Fitted t { handle := handle, backend := backend, log := log } := by
  obtain ⟨hfit, rfl⟩ := Hub.build_eq_ok_iff.mp h
  refine ⟨rfl, Array.size_replicate, fun mcu hmcu => ?_⟩
  obtain ⟨max, hmax⟩ := Option.isSome_iff_exists.mp (List.isSome_max?_of_mem hmcu)
  exact Nat.lt_of_le_of_lt ((List.max?_eq_some_iff.mp hmax).2 mcu hmcu) (hfit max hmax)

theorem Reached.fitted (hlast : ∀ n, Lasting fun b : β => pinCount b = n) {g : Gpio β}
    (hg : g.Reached t) : g.Fitted t := by
  induction hg with
  | built log h => exact fitted_of_build log h
  | used _ hx ih => exact (upheld_fitted hlast).use hx _ ih
  | elsewhere _ log h ih =>
    exact ⟨ih.table, ih.records.trans h.symm, fun mcu hmcu => h.symm ▸ ih.covered mcu hmcu⟩

/-- A handle that fits resolves exactly the numbers that stand for pins in its table. -/
theorem Fitted.resolves_iff {g : Gpio β} (hg : g.Fitted t) (ht : t.Accepted) (pin : Nat) :
    (∃ mcu, g.handle.resolve pin = .ok mcu) ↔ t.isValid pin g.handle.numbering = true := by
  rw [PinTable.isValid, Option.isSome_iff_exists]
  refine exists_congr fun mcu => ?_
  rw [Handle.resolve_eq_ok_iff, hg.table, hg.records]
  exact ⟨And.left, fun hmcu => ⟨hmcu, hg.covered mcu (ht.mem_used hmcu)⟩⟩

theorem Fitted.resolve_invalid {g : Gpio β} (hg : g.Fitted t) (ht : t.Accepted) {pin : Nat}
    (hpin : t.isValid pin g.handle.numbering = false) :
    g.handle.resolve pin = .error (.invalidPin pin g.handle.numbering) := by
  rw [Handle.resolve]
  cases hmcu : g.handle.mcu? pin with
  | none => rfl
  | some mcu =>
    have hvalid := (hg.resolves_iff ht pin).mp ⟨mcu, by rw [Handle.resolve, hmcu]⟩
    rw [hpin] at hvalid
    cases hvalid

theorem Fitted.lt_pinCount {g : Gpio β} (hg : g.Fitted t) {pin mcu : Nat}
    (h : g.handle.resolve pin = .ok mcu) : mcu < pinCount g.backend := by
  rw [← hg.records]
  exact (Handle.resolve_eq_ok_iff.mp h).2

end

/-! ## Errors without effect -/

/-- What is seen of a handle whose backend is looked at through `v`. -/
def seen (v : β → ω) (g : Gpio β) : Gpio ω :=
  { handle := g.handle, backend := v g.backend, log := g.log }

/-- Why a call with a number ends with an error: the number stands for no pin, or the backend
refuses a call on the pin it stands for. -/
def Reason (P : Nat → ω → Error → Prop) (pin : Nat) (w : Gpio ω) (e : Error) : Prop :=
  w.handle.resolve pin = .error e ∨ ∃ mcu, w.handle.resolve pin = .ok mcu ∧ P mcu w.backend e

section

variable {v : β → ω} {P : Nat → ω → Error → Prop}

theorem refuses_hardware {Q : ω → Error → Prop} {x : Act β α} (hx : x.Refuses v Q) :
    (hardware x).Refuses (seen v) fun w => Q w.backend := by
  intro g e h
  obtain ⟨hsame, hreason⟩ := hx g.backend e h
  exact ⟨congrArg (fun b => ({ seen v g with backend := b } : Gpio ω)) hsame, hreason⟩

theorem retains_hardware {x : Act β α} (hx : x.Retains v) : (hardware x).Retains (seen v) :=
  fun g => congrArg (fun b => ({ seen v g with backend := b } : Gpio ω)) (hx g.backend)

/-- What refuses the pin behind a number refuses the number. -/
theorem refuses_resolved {pin : Nat} {f : Nat → Act (Gpio β) α}
    (hf : ∀ mcu, (f mcu).Refuses (seen v) fun w => P mcu w.backend) :
    (mcuPin pin >>= f).Refuses (seen v) (Reason P pin) := by
  intro g e h
  have hresolve := run_mcuPin pin g
  cases hpin : g.handle.resolve pin with
  | error e' =>
    rw [hpin] at hresolve
    rw [Act.run_bind_error f hresolve] at h ⊢
    cases h
    exact ⟨rfl, .inl hpin⟩
  | ok mcu =>
    rw [hpin] at hresolve
    rw [Act.run_bind_ok f hresolve] at h ⊢
    obtain ⟨hsame, hreason⟩ := hf mcu g e h
    exact ⟨hsame, .inr ⟨mcu, hpin, hreason⟩⟩

/-- A call on a pin refuses, as every call it makes of the backend does. -/
theorem refuses_pinCall [Backend β] (h : Guarded v P) (call : PinCall) :
    (call.throughHandle : Act (Gpio β) Answer).Refuses (seen v) (Reason P call.pin) := by
  cases call with
  | setMode pin m =>
    refine Act.Refuses.quiet (refuses_resolved fun mcu => ?_)
    have hswitch : (switch mcu m : Act (Gpio β) Unit).Refuses (seen v) fun w => P mcu w.backend :=
      (refuses_hardware (h.setMode mcu m)).surely fun _ => Act.Sure.modify _
    refine (refuses_hardware (h.mode mcu)).bind (retains_hardware (h.mode_retains mcu)) fun _ => ?_
    exact hswitch.surely fun _ => (Act.Sure.modify _).bind fun _ => Act.Sure.modify _
  | mode pin => exact Act.Refuses.map _ (refuses_resolved fun mcu => refuses_hardware (h.mode mcu))
  | setPull pin u =>
    refine Act.Refuses.quiet (refuses_resolved fun mcu => ?_)
    refine (refuses_hardware (h.pull mcu)).bind (retains_hardware (h.pull_retains mcu)) fun _ => ?_
    exact (refuses_hardware (h.setPull mcu u)).surely fun _ => Act.Sure.modify _
  | pull pin =>
    refine Act.Refuses.map _ (refuses_resolved fun mcu => ?_)
    exact (refuses_hardware (h.pull mcu)).surely fun _ =>
      (Act.Sure.gets _).bind fun _ => Act.Sure.pure _
  | write pin high =>
    exact Act.Refuses.quiet (refuses_resolved fun mcu => refuses_hardware (h.write mcu high))
  | read pin => exact Act.Refuses.map _ (refuses_resolved fun mcu => refuses_hardware (h.read mcu))
  | toggle pin =>
    exact Act.Refuses.quiet (refuses_resolved fun mcu => refuses_hardware (h.toggle mcu))

end

/-- The first thing that a call on a pin does is to resolve its number. -/
theorem exists_resolved [Backend β] (call : PinCall) :
    ∃ f, (call.throughHandle : Act (Gpio β) Answer) = mcuPin call.pin >>= f := by
  cases call with
  | setMode pin m => exact ⟨_, bind_assoc _ _ _⟩
  | mode pin => exact ⟨_, map_bind _ _ _⟩
  | setPull pin u => exact ⟨_, bind_assoc _ _ _⟩
  | pull pin => exact ⟨_, map_bind _ _ _⟩
  | write pin high => exact ⟨_, bind_assoc _ _ _⟩
  | read pin => exact ⟨_, map_bind _ _ _⟩
  | toggle pin => exact ⟨_, bind_assoc _ _ _⟩

/-- A call with a number that stands for no pin ends there. -/
theorem run_pinCall_wrong [Backend β] {g : Gpio β} {call : PinCall} {e : Error}
    (hpin : g.handle.resolve call.pin = .error e) :
    call.throughHandle.run g = (.error (.error e), g) := by
  obtain ⟨f, hf⟩ : ∃ f, (call.throughHandle : Act (Gpio β) Answer) = mcuPin call.pin >>= f :=
    exists_resolved call
  rw [hf, Act.run_bind_error f (run_mcuPin_wrong hpin)]

/-! ## What is said to the backend -/

/-- Nothing has been said but about one chip pin. -/
def OnlyAbout (mcu : Nat) (t : Gpio (Transcribed β)) : Prop :=
  ∀ x ∈ t.backend.transcript, x.pin = mcu

theorem about_call {mcu : Nat} (y : Act β α) (exchange : Except Failure α → Exchange)
    (hpin : ∀ r, (exchange r).pin = mcu) :
    (hardware (Transcribed.call y exchange)).Keeps (OnlyAbout mcu) := by
  intro t ht x hx
  rcases List.mem_append.mp hx with hx | hx
  · exact ht x hx
  · rw [List.mem_singleton.mp hx]
    exact hpin _

theorem about_modify {mcu : Nat} {f : Gpio (Transcribed β) → Gpio (Transcribed β)}
    (hf : ∀ t, (f t).backend = t.backend) : (Act.modify f).Keeps (OnlyAbout mcu) := by
  intro t ht x hx
  exact ht x (hf t ▸ hx)

/-- What is done with the pin behind a number is all that is said for it. -/
theorem about_resolved {pin : Nat} {f : Nat → Act (Gpio (Transcribed β)) α}
    (hf : ∀ mcu, (f mcu).Keeps (OnlyAbout mcu)) (g : Gpio β) :
    ∀ x ∈ g.said (mcuPin pin >>= f), g.handle.resolve pin = .ok x.pin := by
  intro x hx
  have hresolve := run_mcuPin pin g.transcribed
  cases hpin : g.handle.resolve pin with
  | error e =>
    rw [show g.transcribed.handle.resolve pin = .error e from hpin] at hresolve
    rw [said, Act.run_bind_error f hresolve] at hx
    cases hx
  | ok mcu =>
    rw [show g.transcribed.handle.resolve pin = .ok mcu from hpin] at hresolve
    rw [said, Act.run_bind_ok f hresolve] at hx
    have hstart : OnlyAbout mcu g.transcribed := fun x hx => absurd hx List.not_mem_nil
    rw [hf mcu g.transcribed hstart x hx]

theorem said_map {γ : Type} (f : α → γ) (x : Act (Gpio (Transcribed β)) α) (g : Gpio β) :
    g.said (f <$> x) = g.said x := by
  rw [said, said, Act.run_map]

theorem said_quiet (x : Act (Gpio (Transcribed β)) Unit) (g : Gpio β) :
    g.said (Bench.quiet x) = g.said x := by
  rw [said, said, run_quiet]

/-- A call on a pin says nothing but about the chip pin behind the number. -/
theorem about_pinCall [Backend β] (g : Gpio β) (call : PinCall) :
    ∀ x ∈ g.said call.throughHandle, g.handle.resolve call.pin = .ok x.pin := by
  cases call with
  | setMode pin m =>
    rw [PinCall.throughHandle, said_quiet]
    refine about_resolved (fun mcu => ?_) g
    have hswitch : (switch mcu m : Act (Gpio (Transcribed β)) Unit).Keeps (OnlyAbout mcu) :=
      (about_call (Backend.setMode mcu m) (.setMode mcu m) fun _ => rfl).bind fun _ =>
        about_modify fun _ => rfl
    refine (about_call (Backend.mode mcu) (.mode mcu) fun _ => rfl).bind fun _ => ?_
    refine hswitch.bind fun _ => ?_
    exact (about_modify fun _ => rfl).bind fun _ => about_modify fun _ => rfl
  | mode pin =>
    rw [PinCall.throughHandle, said_map]
    exact about_resolved (fun mcu => about_call (Backend.mode mcu) (.mode mcu) fun _ => rfl) g
  | setPull pin u =>
    rw [PinCall.throughHandle, said_quiet]
    refine about_resolved (fun mcu => ?_) g
    refine (about_call (Backend.pull mcu) (.pull mcu) fun _ => rfl).bind fun _ => ?_
    exact (about_call (Backend.setPull mcu u) (.setPull mcu u) fun _ => rfl).bind fun _ =>
      about_modify fun _ => rfl
  | pull pin =>
    rw [PinCall.throughHandle, said_map]
    refine about_resolved (fun mcu => ?_) g
    exact (about_call (Backend.pull mcu) (.pull mcu) fun _ => rfl).bind fun _ =>
      (Act.Leaves.gets _).keeps.bind fun _ => Act.Keeps.pure _
  | write pin high =>
    rw [PinCall.throughHandle, said_quiet]
    refine about_resolved (fun mcu => ?_) g
    exact about_call (Backend.write mcu high) (.write mcu high) fun _ => rfl
  | read pin =>
    rw [PinCall.throughHandle, said_map]
    exact about_resolved (fun mcu => about_call (Backend.read mcu) (.read mcu) fun _ => rfl) g
  | toggle pin =>
    rw [PinCall.throughHandle, said_quiet]
    exact about_resolved (fun mcu => about_call (Backend.toggle mcu) (.toggle mcu) fun _ => rfl) g

/-! ## Breaking off -/

section

variable {I : β → Prop}

theorem calm_resolved {pin : Nat} {f : Nat → Act (Gpio β) α}
    (hf : ∀ mcu, (f mcu).Calm fun g => I g.backend) :
    (mcuPin pin >>= f).Calm fun g => I g.backend := by
  refine Act.Calm.bind (fun g fault _ h => ?_) (leaves_mcuPin pin).keeps hf
  rw [run_mcuPin] at h
  cases hpin : g.handle.resolve pin <;> rw [hpin] at h <;> cases h

theorem calm_hardware {x : Act β α} (hx : x.Calm I) :
    (hardware x).Calm fun g => I g.backend :=
  hx.within

/-- A call on a pin does not break off where no call of the backend does. -/
theorem calm_pinCall [Backend β] (hcalm : Calm I) (hlast : Lasting I) (call : PinCall) :
    (call.throughHandle : Act (Gpio β) Answer).Calm fun g => I g.backend := by
  cases call with
  | setMode pin m =>
    refine Act.Calm.quiet (calm_resolved fun mcu => ?_)
    have hswitch : (switch mcu m : Act (Gpio β) Unit).Calm fun g => I g.backend :=
      (calm_hardware (hcalm.setMode mcu m)).bind (keeps_lasting (hlast.setMode mcu m)) fun _ =>
        Act.Calm.modify _
    have hswitched : (switch mcu m : Act (Gpio β) Unit).Keeps fun g => I g.backend :=
      (keeps_lasting (hlast.setMode mcu m)).bind fun _ => keeps_beside fun _ => rfl
    refine (calm_hardware (hcalm.mode mcu)).bind (keeps_lasting (hlast.mode mcu)) fun _ => ?_
    refine hswitch.bind hswitched fun _ => ?_
    exact (Act.Calm.modify _).bind (keeps_beside fun _ => rfl) fun _ => Act.Calm.modify _
  | mode pin => exact Act.Calm.map _ (calm_resolved fun mcu => calm_hardware (hcalm.mode mcu))
  | setPull pin u =>
    refine Act.Calm.quiet (calm_resolved fun mcu => ?_)
    refine (calm_hardware (hcalm.pull mcu)).bind (keeps_lasting (hlast.pull mcu)) fun _ => ?_
    exact (calm_hardware (hcalm.setPull mcu u)).bind (keeps_lasting (hlast.setPull mcu u))
      fun _ => Act.Calm.modify _
  | pull pin =>
    refine Act.Calm.map _ (calm_resolved fun mcu => ?_)
    exact (calm_hardware (hcalm.pull mcu)).bind (keeps_lasting (hlast.pull mcu)) fun _ =>
      (Act.Calm.gets _).bind (Act.Leaves.gets _).keeps fun _ => Act.Calm.pure _
  | write pin high =>
    exact Act.Calm.quiet (calm_resolved fun mcu => calm_hardware (hcalm.write mcu high))
  | read pin => exact Act.Calm.map _ (calm_resolved fun mcu => calm_hardware (hcalm.read mcu))
  | toggle pin =>
    exact Act.Calm.quiet (calm_resolved fun mcu => calm_hardware (hcalm.toggle mcu))

end

/-! ## Devices whose calls may fail -/

/-- A call on a pin, made through a handle with the table `t`, either goes well or fails safely. -/
structure FailsSafe (t : PinTable) (g : Gpio (Unsteady Device)) (call : PinCall) : Prop where
  /-- A number is refused as no pin exactly if it stands for none. -/
  refused : (∃ pin n, (call.throughHandle.run g).1 = .error (.error (.invalidPin pin n))) ↔
    t.isValid call.pin g.handle.numbering = false
  /-- It is refused before anything is said to the backend. -/
  silent : t.isValid call.pin g.handle.numbering = false →
    call.throughHandle.run g =
        (.error (.error (.invalidPin call.pin g.handle.numbering)), g) ∧
      g.said call.throughHandle = []
  /-- The numbers that stand for pins are those that the table lists, where all its pins have
  numbers of their own. -/
  listed : t.Numbered →
    (call.pin ∈ t.pins g.handle.numbering ↔ t.isValid call.pin g.handle.numbering = true)
  /-- Nothing is said about a pin that the backend does not have. -/
  inside : ∀ x ∈ g.said call.throughHandle, x.pin < pinCount g.backend
  /-- An error leaves the device, the bookkeeping and the log as they were. -/
  unchanged : ∀ e, (call.throughHandle.run g).1 = .error (.error e) →
    (call.throughHandle.run g).2.handle = g.handle ∧
      (call.throughHandle.run g).2.backend.device = g.backend.device ∧
        (call.throughHandle.run g).2.log = g.log
  /-- Where all registers are there, the call ends with a value or an error. -/
  ends : g.backend.device.Full → ∀ f, (call.throughHandle.run g).1 ≠ .error (.fault f)

/-- Calls on single pins fail safely, whatever has been done with the handle before, and whichever
calls of the backend are made to fail as misconfigured before they take effect. -/
theorem fails_safe {t : PinTable} (ht : t.Accepted) {g : Gpio (Unsteady Device)} (hg : g.Reached t)
    (hmishap : ∀ n e, g.backend.mishap n = some e → ∃ why, e = .config why) (call : PinCall) :
    FailsSafe t g call := by
  have hfit : g.Fitted t := hg.fitted fun n => Unsteady.lasting (Device.lasting_pinCount n)
  have hrefuses := refuses_pinCall (Unsteady.guarded Device.guarded) call g
  have hsaid := about_pinCall g call
  refine ⟨⟨?_, fun hpin => ?_⟩, fun hpin => ⟨?_, ?_⟩, fun hn => hn.mem_pins_iff _ _,
    fun x hx => hfit.lt_pinCount (hsaid x hx), fun e he => ?_, fun hfull f => ?_⟩
  · rintro ⟨pin, n, herror⟩
    rw [Bool.eq_false_iff]
    intro hpin
    obtain ⟨mcu, hmcu⟩ := (hfit.resolves_iff ht call.pin).mpr hpin
    obtain ⟨-, hno | ⟨mcu', hmcu', ⟨k, hchosen⟩ | hrefused⟩⟩ := hrefuses _ herror
    · have hno : g.handle.resolve call.pin = .error _ := hno
      rw [hmcu] at hno
      cases hno
    · obtain ⟨why, hwhy⟩ := hmishap k _ hchosen
      cases hwhy
    · -- the device refuses no pin that it has
      cases hrefused with
      | pin hlarge => exact absurd (hfit.lt_pinCount hmcu') (Nat.not_lt.mpr hlarge)
  · exact ⟨_, _, congrArg Prod.fst (run_pinCall_wrong (hfit.resolve_invalid ht hpin))⟩
  · exact run_pinCall_wrong (hfit.resolve_invalid ht hpin)
  · refine List.eq_nil_iff_forall_not_mem.mpr fun x hx => ?_
    have hmcu := hsaid x hx
    rw [hfit.resolve_invalid ht hpin] at hmcu
    cases hmcu
  · obtain ⟨hsame, -⟩ := hrefuses e he
    exact ⟨(congrArg Gpio.handle hsame :), (congrArg (fun w => w.backend.1) hsame :),
      (congrArg Gpio.log hsame :)⟩
  · exact calm_pinCall (Unsteady.calm Device.calm) (Unsteady.lasting Device.lasting) call g f hfull

/-- Twenty simulated pins whose fifth call is made to fail. -/
def faltering : Unsteady Device where
  device := .sim (Sim.fresh 20)
  mishap n := if n = 4 then some (.config (.other "bus")) else none

/-- A new handle on them, with pins 17, 4 and 0 of the chip. -/
def unused : Gpio (Unsteady Device) where
  handle := .create PinTable.gapped {} 20
  backend := faltering

/-- The handle after the second of its pins was made an output, and set. -/
def driven : Gpio (Unsteady Device) :=
  ((PinCall.write 2 true).throughHandle.run
    ((PinCall.setMode 2 .output).throughHandle.run unused).2).2

/-- Switching that pin back fails after its mode was asked for: the call that is made to fail is the
one that would change the pin. -/
theorem fails_safe_driven :
    PinTable.gapped.Accepted ∧ driven.Reached PinTable.gapped ∧
      (∀ n e, driven.backend.mishap n = some e → ∃ why, e = .config why) ∧
        ((PinCall.setMode 2 .input).throughHandle.run driven).1 =
          .error (.error (.config (.other "bus"))) ∧
        FailsSafe PinTable.gapped driven (.setMode 2 .input) := by
  have haccepted : PinTable.gapped.Accepted :=
    PinTable.problem?_eq_none_iff.mp (by decide +kernel)
  have hbuild : Handle.build (name faltering) (pinCount faltering) PinTable.gapped {} =
      .ok unused.handle := rfl
  have hreached : driven.Reached PinTable.gapped :=
    ((Reached.built [] hbuild).used (.pin _)).used (.pin _)
  have hmishap : ∀ n e, driven.backend.mishap n = some e → ∃ why, e = .config why := by
    intro n e h
    have h : (if n = 4 then some (.config (.other "bus")) else none) = some e := h
    split at h <;> cases h
    exact ⟨_, rfl⟩
  exact ⟨haccepted, hreached, hmishap, rfl, fails_safe haccepted hreached hmishap _⟩

end Gpio

end BoardGpio
