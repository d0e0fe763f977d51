import BoardGpio.Proofs.Backend.Transcript
import BoardGpio.Proofs.Handle.Paired
import BoardGpio.Proofs.Handle.Restore
import BoardGpio.Proofs.Handle.Uses

/-!
# What a handle says to its backend

What passes between a handle and its backend while something is done with the handle is read off a
copy of the handle whose backend is transcribed (`Gpio.said`). Using the copy, or releasing it, comes
to the same as doing so with the handle itself (`Gpio.copied`, `Gpio.copied_release`), so the
conversation of the copy is the conversation of the handle. A use is given by what is to be done,
apart from the kind of backend that it is done with (`Gpio.Use`).
-/

set_option autoImplicit false

namespace BoardGpio.Gpio

variable {β γ α : Type}

/-- The handle with a transcript begun. -/
def transcribed (g : Gpio β) : Gpio (Transcribed β) :=
  { handle := g.handle, backend := ⟨g.backend, []⟩, log := g.log }

/-- What passes between the handle and its backend while something is done with the handle. -/
def said (x : Act (Gpio (Transcribed β)) α) (g : Gpio β) : List Exchange :=
  (x.run g.transcribed).2.backend.transcript

/-- The same handle on the same backend, but for a transcript. -/
structure Copied (g : Gpio β) (t : Gpio (Transcribed β)) : Prop where
  handle : t.handle = g.handle
  device : t.backend.device = g.backend
  log : t.log = g.log

theorem copied_transcribed (g : Gpio β) : g.Copied g.transcribed := ⟨rfl, rfl, rfl⟩

theorem copied_hardware {x : Act β α} {y : Act (Transcribed β) α}
    (hx : Act.Matches Transcribed.Of x y) : Act.Matches Copied (hardware x) (hardware y) := by
  intro g t h
  obtain ⟨hres, hrel⟩ := hx _ _ h.device
  exact ⟨hres, h.handle, hrel, h.log⟩

theorem copied_update (f : Handle → Handle) :
    Act.Matches (Copied : Gpio β → _ → Prop) (update f) (update f) :=
  Act.Matches.modify fun _ _ h => ⟨congrArg f h.handle, h.device, h.log⟩

theorem copied_note (n : Notice) :
    Act.Matches (Copied : Gpio β → _ → Prop) (note n) (note n) :=
  Act.Matches.modify fun _ _ h => ⟨h.handle, h.device, congrArg (· ++ [n]) h.log⟩

theorem copied_mcuPin (pin : Nat) :
    Act.Matches (Copied : Gpio β → _ → Prop) (mcuPin pin) (mcuPin pin) :=
  matches_mcuPin (fun _ _ h => h.handle.symm) pin

section Calls

variable [Backend β]

theorem copied_switch (mcu : Nat) (m : Mode) :
    Act.Matches (Copied : Gpio β → _ → Prop) (switch mcu m) (switch mcu m) := by
  refine (copied_hardware (Transcribed.matches_call _ _)).bind fun _ => ?_
  refine Act.Matches.modify fun g t h => ⟨h.handle, h.device, ?_⟩
  show t.log ++ (Backend.notice? t.backend.device mcu m).toList = _
  rw [h.log, h.device]

theorem copied_setMode (pin : Nat) (m : Mode) :
    Act.Matches (Copied : Gpio β → _ → Prop) (setMode pin m) (setMode pin m) :=
  (copied_mcuPin pin).bind fun mcu =>
    (copied_hardware (Transcribed.matches_call _ _)).bind fun _ =>
      (copied_switch mcu m).bind fun _ => (copied_update _).bind fun _ => copied_note _

theorem copied_setPull (pin : Nat) (u : Pull) :
    Act.Matches (Copied : Gpio β → _ → Prop) (setPull pin u) (setPull pin u) :=
  (copied_mcuPin pin).bind fun _ =>
    (copied_hardware (Transcribed.matches_call _ _)).bind fun _ =>
      (copied_hardware (Transcribed.matches_call _ _)).bind fun _ => copied_update _

theorem copied_restoreMode (mcu : Nat) (record : PinRecord) :
    Act.Matches (Copied : Gpio β → _ → Prop) (restoreMode mcu record)
      (restoreMode mcu record) := by
  unfold restoreMode
  split
  · exact (copied_switch mcu _).bind fun _ => copied_note _
  · exact Act.Matches.pure ()

theorem copied_restorePull (mcu : Nat) (record : PinRecord) :
    Act.Matches (Copied : Gpio β → _ → Prop) (restorePull mcu record)
      (restorePull mcu record) := by
  unfold restorePull
  split
  · exact copied_hardware (Transcribed.matches_call _ _)
  · exact copied_hardware (Transcribed.matches_call _ _)
  · split
    · refine (copied_hardware (Transcribed.matches_call _ _)).bind fun seen => ?_
      split
      · exact copied_hardware (Transcribed.matches_call _ _)
      · exact Act.Matches.pure ()
    · exact Act.Matches.pure ()

theorem copied_restorePin (mcu : Nat) :
    Act.Matches (Copied : Gpio β → _ → Prop) (restorePin mcu) (restorePin mcu) := by
  intro g t h
  have hempty : Copied { g with handle := g.handle.updateRecord mcu fun _ => {} }
      { t with handle := g.handle.updateRecord mcu fun _ => {} } := ⟨rfl, h.device, h.log⟩
  unfold Act.MatchesAt
  rw [run_restorePin, run_restorePin, h.handle]
  split
  · exact ⟨rfl, hempty⟩
  · refine Act.Matches.bind (copied_restoreMode mcu _) (fun _ => ?_) _ _ hempty
    exact (copied_restorePull mcu _).bind fun _ => Act.Matches.pure true

/-- A handle and its copy are used alike. -/
theorem copied : Twin (Copied : Gpio β → _ → Prop) fun _ => True where
  settable_input := trivial
  settable_output := trivial
  handle _ _ h := h.handle.symm
  askMode _ := copied_hardware (Transcribed.matches_call _ _)
  askPull _ := copied_hardware (Transcribed.matches_call _ _)
  writeMcu _ _ := copied_hardware (Transcribed.matches_call _ _)
  toggleMcu _ := copied_hardware (Transcribed.matches_call _ _)
  setMode pin m _ := copied_setMode pin m
  setPull := copied_setPull
  restorePin := copied_restorePin
  update f _ := copied_update f
  note := copied_note
  readMcu _ := copied_hardware (Transcribed.matches_call _ _)
  name _ _ h := congrArg Backend.name h.device.symm

/-- A handle and its copy are released alike. -/
theorem copied_release : Act.Matches (Copied : Gpio β → _ → Prop) release release := by
  refine copied.getHandle.bind fun handle => ?_
  split
  · exact Act.Matches.pure ()
  · refine (copied_update _).bind fun _ => ?_
    split
    · exact copied_note _
    · refine (copied.restoreAll _ 0 none).bind fun outcome => (copied_note _).bind fun _ => ?_
      split
      · exact Act.Matches.fail _
      · exact Act.Matches.pure ()

end Calls

/-! ## Uses -/

/-- Something to be done with a handle, a clone of it, or a port on it. -/
inductive Use where
  | pin (call : Bench.PinCall)
  | handle (call : Bench.HandleCall)
  | openInput (pins : List InputPin) (settings : InputSettings) (now : Nat)
  | openOutput (pins : List OutputPin)
  | output (port : OutputPort) (call : Bench.OutputCall)
  | readOutput (port : OutputPort) (index : Nat)
  | readOutputs (port : OutputPort)
  | sample (mcu : Nat)

/-- Does it with a handle on some backend; what comes of it is left out. -/
def Use.perform [Backend β] : Use → Act (Gpio β) Unit
  | pin call => (fun _ => ()) <$> (call.throughHandle : Act (Gpio β) _)
  | handle call => (fun _ => ()) <$> (call.perform : Act (Gpio β) _)
  | openInput pins settings now =>
    (fun _ => ()) <$> (InputPort.openPort pins settings now : Act (Gpio β) (InputPort Unit))
  | openOutput pins => (fun _ => ()) <$> (OutputPort.openPort pins : Act (Gpio β) _)
  | output port call => (fun _ => ()) <$> (call.perform port : Act (Gpio β) _)
  | readOutput port index => (fun _ => ()) <$> (port.read index : Act (Gpio β) _)
  | readOutputs port => (fun _ => ()) <$> (port.readAll : Act (Gpio β) _)
  | sample mcu => (fun _ => ()) <$> (readMcu mcu : Act (Gpio β) _)

variable [Backend β] [Backend γ]

theorem Upheld.perform {I : Gpio β → Prop} (hI : Upheld I) (u : Use) :
    (u.perform : Act (Gpio β) Unit).Keeps I := by
  cases u with
  | pin call => exact Act.Keeps.map _ (hI.use (.pin call))
  | handle call => exact Act.Keeps.map _ (hI.use (.handle call))
  | openInput pins settings now => exact Act.Keeps.map _ (hI.use (.openInput pins settings now))
  | openOutput pins => exact Act.Keeps.map _ (hI.use (.openOutput pins))
  | output port call => exact Act.Keeps.map _ (hI.use (.output port call))
  | readOutput port index => exact Act.Keeps.map _ (hI.use (.readOutput port index))
  | readOutputs port => exact Act.Keeps.map _ (hI.use (.readOutputs port))
  | sample mcu => exact Act.Keeps.map _ (hI.use (.sample mcu))

theorem Twin.openInput {κ : Type} {R : Gpio β → Gpio γ → Prop} {Settable : Mode → Prop}
    (hR : Twin R Settable) (pins : List InputPin) (settings : InputSettings) (now : Nat) :
    Act.Matches R (InputPort.openPort pins settings now : Act (Gpio β) (InputPort κ))
      (InputPort.openPort pins settings now) := by
  rw [InputPort.openPort_eq, InputPort.openPort_eq]
  exact (hR.prepare pins settings).bind fun mcus => hR.finish pins mcus settings now

/-- Handles that are twins are used alike, if every mode can be set. -/
theorem Twin.perform {R : Gpio β → Gpio γ → Prop} {Settable : Mode → Prop}
    (hR : Twin R Settable) (hset : ∀ m, Settable m) (u : Use) :
    Act.Matches R u.perform u.perform := by
  cases u with
  | pin call => exact (hR.pinCall call hset).map _
  | handle call => exact (hR.handleCall call).map _
  | openInput pins settings now => exact (hR.openInput pins settings now).map _
  | openOutput pins => exact (hR.toPaired.openOutput pins).map _
  | output port call => exact (hR.toPaired.outputCall port call).map _
  | readOutput port index => exact (hR.readOutput port index).map _
  | readOutputs port => exact (hR.readIndices port _ _).map _
  | sample mcu => exact (hR.readMcu mcu).map _

/-- After a use of a handle its copy is a copy still. -/
theorem copied_perform (u : Use) (g : Gpio β) :
    (u.perform.run g).2.Copied (u.perform.run g.transcribed).2 :=
  (copied.perform (fun _ => trivial) u g _ g.copied_transcribed).2

end BoardGpio.Gpio
