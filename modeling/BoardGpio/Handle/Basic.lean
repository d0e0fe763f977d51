import BoardGpio.PinTable.Basic
import BoardGpio.Settings.Basic

/-!
# Handles

A handle is the bookkeeping between an application and a backend: the pin table, the numbering in
use, a cursor over the pins, and for every pin of the chip a record of what the handle changed. The
first change of a pin's mode or pull puts the value it replaced into the record. Main statement: a
number is resolved exactly when it is one of the numbering's pins and the chip has the pin behind
it (`resolve_eq_ok_iff`).
-/

set_option autoImplicit false

namespace BoardGpio

/-- What a handle did to a pin. -/
structure PinRecord where
  /-- The mode that the first mode change replaced. -/
  restoreMode : Option Mode := none
  /-- The pull that the first pull change replaced; the inner `none` is a pull that could not be
  read. -/
  restorePull : Option (Option Pull) := none
  /-- The last pull set through the handle. -/
  pull : Option Pull := none
  deriving DecidableEq, Repr, Inhabited

/-- The bookkeeping of an open handle. -/
structure Handle where
  table : PinTable
  numbering : Numbering
  releaseOnClose : Bool
  /-- Whether the pins were already put back. -/
  released : Bool
  /-- Records by chip pin. -/
  records : Array PinRecord
  /-- The pins of the numbering, in ascending order. -/
  order : List Nat
  /-- How many pins are before the cursor. -/
  cursor : Nat
  deriving DecidableEq, Repr

namespace PinRecord

/-- The record after a mode change that replaced `previous`. -/
def noteMode (r : PinRecord) (previous : Mode) : PinRecord :=
  { r with restoreMode := some (r.restoreMode.getD previous) }

/-- The record after a change to `pull` that replaced `previous`. -/
def notePull (r : PinRecord) (previous : Option Pull) (pull : Pull) : PinRecord :=
  { r with restorePull := some (r.restorePull.getD previous), pull := some pull }

/-- Whether nothing was changed. -/
def isClean (r : PinRecord) : Bool :=
  r.restoreMode.isNone && r.restorePull.isNone

end PinRecord

namespace Handle

/-- A handle on a chip with this many pins. -/
def create (table : PinTable) (settings : HandleSettings) (pinCount : Nat) : Handle where
  table := table
  numbering := settings.numbering
  releaseOnClose := settings.releaseOnClose
  released := false
  records := Array.replicate pinCount {}
  order := table.pins settings.numbering
  cursor := 0

/-- A handle on a backend, whose pins have to cover the table. -/
def build (backend : String) (pinCount : Nat) (table : PinTable) (settings : HandleSettings) :
    Except Error Handle :=
  match table.maxMcu? with
  | some max =>
    if pinCount ≤ max then .error (.config (.tableTooLarge table.name max backend pinCount))
    else .ok (create table settings pinCount)
  | none => .ok (create table settings pinCount)

/-- The chip pin behind a number, if the chip has it. -/
def mcu? (h : Handle) (pin : Nat) : Option Nat :=
  (h.table.toMcu? pin h.numbering).filter (· < h.records.size)

/-- The chip pin behind a number of the numbering in use. -/
def resolve (h : Handle) (pin : Nat) : Except Error Nat :=
  match h.mcu? pin with
  | some mcu => .ok mcu
  | none => .error (.invalidPin pin h.numbering)

/-- Whether a number stands for a pin. -/
def isValid (h : Handle) (pin : Nat) : Bool := (h.mcu? pin).isSome

/-- Number of pins of the numbering in use. -/
def size (h : Handle) : Nat := h.order.length

/-- The pins of a set with the chip pins behind them, in ascending order; numbers that stand for no
pin are left out. -/
def targets (h : Handle) (pins : List Nat) : List (Nat × Nat) :=
  pins.filterMap fun pin => (h.mcu? pin).map fun mcu => (pin, mcu)

/-- The handle in another numbering. A change of numbering moves the cursor to the front. -/
def setNumbering (h : Handle) (numbering : Numbering) : Handle :=
  if h.numbering = numbering then h
  else { h with numbering := numbering, order := h.table.pins numbering, cursor := 0 }

/-- The handle with the record of a chip pin changed. -/
def updateRecord (h : Handle) (mcu : Nat) (f : PinRecord → PinRecord) : Handle :=
  { h with records := h.records.modify mcu f }

/-- The record of a chip pin. -/
def record (h : Handle) (mcu : Nat) : PinRecord := h.records.getD mcu {}

theorem mcu?_eq_some_iff {h : Handle} {pin mcu : Nat} :
    h.mcu? pin = some mcu ↔
      h.table.toMcu? pin h.numbering = some mcu ∧ mcu < h.records.size := by
  simp [mcu?, Option.filter_eq_some_iff]

theorem resolve_eq_ok_iff {h : Handle} {pin mcu : Nat} :
    h.resolve pin = .ok mcu ↔
      h.table.toMcu? pin h.numbering = some mcu ∧ mcu < h.records.size := by
  rw [← mcu?_eq_some_iff, resolve]
  cases h.mcu? pin <;> simp

end Handle

end BoardGpio
