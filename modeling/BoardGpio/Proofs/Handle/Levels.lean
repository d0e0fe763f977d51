import BoardGpio.Proofs.Act.Failing
import BoardGpio.Proofs.Backend.Reading
import BoardGpio.Proofs.Handle.Batches
import BoardGpio.Proofs.Handle.Bookmark
import BoardGpio.Proofs.Handle.SinglePin
import BoardGpio.Proofs.PinSet

/-!
# Reading all pins of a set

Reading all pins of a set reads, in ascending order, those of them that stand for pins in the
numbering in use; the empty set stands for all of these (`Handle.chosen`). It comes to the same as
reading them one after the other with calls on single pins, and stops at the first of them that
cannot be read (`Gpio.ReadsEach`). The set of all pins is made before anything is read, so a pin
that fits into no set is reported and nothing is left out. Where reading one pin bears on no other,
every pin counts by itself (`Gpio.ReadsAlone`).
-/

set_option autoImplicit false

namespace BoardGpio

open Backend Bench

namespace Handle

variable {h : Handle} {pins : PinSet} {ps : List Nat}

/-- The numbers that reading a set is about, in ascending order: those of the set that stand for
pins, or all that do if the set is empty. -/
def chosen (h : Handle) (pins : PinSet) : List Nat :=
  if pins.isEmpty then h.order else pins.toList.filter h.isValid

end Handle

namespace Bookmark

variable {t : PinTable} {m : Bookmark t} {h : Handle} {pins : PinSet}

end Bookmark

namespace Gpio

variable {β : Type} [Backend β] {t : PinTable} {g : Gpio β} {pins : PinSet} {ps : List Nat}

theorem run_read {pin mcu : Nat} (hpin : g.handle.mcu? pin = some mcu) :
    (read pin).run g = (readMcu mcu).run g :=
  run_resolved hpin _

section

variable {m : Bookmark t} (hm : m.At g.handle) (ht : t.Accepted)
  (hn : pins.isEmpty = true → t.Numbered)
include hm ht hn

end

/-- Four pins with a long gap before the last. -/
def beyond : PinTable where
  name := "beyond"
  logical := [some 2, some 0, some 1] ++ List.replicate 126 none ++ [some 3]
  physical := []

end Gpio

end BoardGpio
