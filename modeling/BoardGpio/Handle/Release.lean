import BoardGpio.Handle.Gpio

/-!
# Putting pins back

When the last reference to a handle goes, every pin it changed is put back, in ascending order: the
mode that the first mode change replaced, then the pull. A pull that could not be read is put back
as a pull-down, also for a pin that goes back to being an input. A pin that cannot be put back is
reported and does not keep the others from it.
-/

set_option autoImplicit false

namespace BoardGpio.Gpio

variable {β : Type} [Backend β]

/-- Puts back the pull of a pin whose mode, if it was changed, has just been put back. -/
def restorePull (mcu : Nat) (record : PinRecord) : Act (Gpio β) Unit := do
  match record.restorePull with
  | some (some previous) => hardware (Backend.setPull mcu previous)
  | some none => hardware (Backend.setPull mcu .down)
  | none =>
    if record.restoreMode = some .input then
      if (← hardware (Backend.pull mcu)) = none then hardware (Backend.setPull mcu .down)

/-- Puts one pin back and empties its record; tells whether there was something to do. -/
def restorePin (mcu : Nat) : Act (Gpio β) Bool := do
  let record ← Act.gets fun g => g.handle.record mcu
  update fun h => h.updateRecord mcu fun _ => {}
  if record.isClean then pure false
  else
    match record.restoreMode with
    | some mode =>
      switch mcu mode
      note (.modeRestored mcu mode)
    | none => pure ()
    restorePull mcu record
    pure true

/-- Puts pins back one after the other; counts those put back and keeps the first error. -/
def restoreAll : List Nat → Nat → Option Error → Act (Gpio β) (Nat × Option Error)
  | [], restored, first => pure (restored, first)
  | mcu :: rest, restored, first => do
    match (← Act.attempt (restorePin mcu)) with
    | .ok true => restoreAll rest (restored + 1) first
    | .ok false => restoreAll rest restored first
    | .error e =>
      note (.restoreFailed mcu e)
      restoreAll rest restored (first.or (some e))

/-- Puts back what the handle changed, once, if the handle is set to do so. -/
def release : Act (Gpio β) Unit := do
  let handle ← Act.gets Gpio.handle
  if handle.released then pure ()
  else
    update fun h => { h with released := true }
    if !handle.releaseOnClose then note .closedAsIs
    else
      let (restored, first) ← restoreAll (List.range handle.records.size) 0 none
      note (.closed restored)
      match first with
      | some e => Act.fail e
      | none => pure ()

/-- What happens to a handle whose last reference is dropped without being closed: it is released,
and a failure is only told to the log. -/
def abandon : Act (Gpio β) Unit := do
  match (← Act.attempt release) with
  | .ok () => pure ()
  | .error e => note (.releaseFailed e)

end BoardGpio.Gpio
