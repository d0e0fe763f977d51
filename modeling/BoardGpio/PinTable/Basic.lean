import BoardGpio.Failure

/-!
# Pin tables

A board's pin table lists, for every logical pin and for every position of the header, the number
the pin has on the chip. A position without a pin behind it is a gap. The chip numbers in use are
those of the logical list, so all three numberings address pins of one set. `PinTable.make` accepts
a table when neither list names a chip pin twice and the header names no pin that the logical list
lacks; `make_eq_ok_iff` says so.

A position is handed out as a number of 32 bits (`number`). `make` does not ask how long the lists
are, and where they are so long that a pin has no number of its own (see `Numbered`), the numbers
start from zero again.
-/

set_option autoImplicit false

namespace BoardGpio

/-- One position of a list: a pin of the chip, or a gap. -/
abbrev Slot := Option Nat

/-- The pins of a board. -/
structure PinTable where
  name : String
  /-- Chip pins by logical pin. -/
  logical : List Slot
  /-- Chip pins by header position, from position one on. -/
  physical : List Slot
  deriving DecidableEq, Repr

namespace PinTable

/-- The pin at a position of a list, if there is one. -/
def entry? (slots : List Slot) (index : Nat) : Option Nat :=
  slots[index]?.join

/-- The chip pins of a list, in its order. -/
def used (slots : List Slot) : List Nat :=
  slots.filterMap id

/-- The number of a position, counted from `first`: the position is cut off after 32 bits, and so is
the sum. A build that checks its sums breaks off where this one wraps; a table that is `Numbered`
has no pin there. -/
def number (first : UInt32) (index : Nat) : Nat :=
  (index.toUInt32 + first).toNat

/-- The numbers of the positions that are no gaps, counted from `first`. -/
def positions (first : UInt32) (slots : List Slot) : List Nat :=
  (slots.zipIdx.filter (·.1.isSome)).map (number first ·.2)

/-- The chip pin behind a number of a numbering. -/
def toMcu? (t : PinTable) (pin : Nat) : Numbering → Option Nat
  | .logical => entry? t.logical pin
  | .mcu => if pin ∈ used t.logical then some pin else none
  | .physical => if pin = 0 then none else entry? t.physical (pin - 1)

/-- The number that a chip pin has in a numbering. -/
def ofMcu? (t : PinTable) (mcu : Nat) : Numbering → Option Nat
  | .logical => (t.logical.findIdx? (· == some mcu)).map (number 0)
  | .mcu => if mcu ∈ used t.logical then some mcu else none
  | .physical => (t.physical.findIdx? (· == some mcu)).map (number 1)

/-- Whether a number stands for a pin. -/
def isValid (t : PinTable) (pin : Nat) (numbering : Numbering) : Bool :=
  (t.toMcu? pin numbering).isSome

/-- The numbers of a numbering that stand for pins, in ascending order. -/
def pins (t : PinTable) : Numbering → List Nat
  | .logical => positions 0 t.logical
  | .mcu => (used t.logical).mergeSort
  | .physical => positions 1 t.physical

/-- How many numbers of a numbering stand for pins. -/
def count (t : PinTable) : Numbering → Nat
  | .logical => t.logical.countP Option.isSome
  | .mcu => t.logical.countP Option.isSome
  | .physical => t.physical.countP Option.isSome

/-- Whether no number stands for a pin. -/
def isEmpty (t : PinTable) : Bool :=
  t.count .logical == 0

/-- The greatest chip pin in use. -/
def maxMcu? (t : PinTable) : Option Nat :=
  (used t.logical).max?

/-- Number of positions of the header, gaps included. -/
def headerSize (t : PinTable) : Nat :=
  t.physical.length

/-- Why a table cannot be used, if it cannot. -/
def problem? (t : PinTable) : Option ConfigProblem :=
  if (used t.logical).Nodup then
    if t.physical.isEmpty then none
    else if (used t.physical).Nodup then
      if ∀ m ∈ used t.physical, m ∈ used t.logical then none else some (.headerOnly t.name)
    else some (.sharedHeader t.name)
  else some (.sharedLogical t.name)

/-- A table from its two lists. -/
def make (name : String) (logical physical : List Slot) : Except Error PinTable :=
  let t : PinTable := ⟨name, logical, physical⟩
  match t.problem? with
  | none => .ok t
  | some p => .error (.config p)

/-- A table of a board whose header is not described. -/
def logicalOnly (name : String) (logical : List Slot) : Except Error PinTable :=
  make name logical []

/-- What every accepted table promises. -/
structure Accepted (t : PinTable) : Prop where
  logical_nodup : (used t.logical).Nodup
  physical_nodup : (used t.physical).Nodup
  physical_subset : ∀ m ∈ used t.physical, m ∈ used t.logical

/-- Every pin of a list is at a position that has a number of its own in 32 bits, counted from
`first`. -/
def Counts (first : UInt32) (slots : List Slot) : Prop :=
  ∀ index, ( entry? slots index).isSome = true → index + first.toNat < UInt32.size

/-- Every pin of the two lists has a number of its own in 32 bits. -/
structure Numbered (t : PinTable) : Prop where
  logical : Counts 0 t.logical
  physical : Counts 1 t.physical

theorem number_of_lt {first : UInt32} {index : Nat} (h : index + first.toNat < UInt32.size) :
    number first index = index + first.toNat := by
  have hindex : index.toUInt32.toNat = index :=
    Nat.mod_eq_of_lt (Nat.lt_of_le_of_lt (Nat.le_add_right index first.toNat) h)
  rw [number, UInt32.toNat_add, hindex]
  exact Nat.mod_eq_of_lt h

theorem mem_used {slots : List Slot} {m : Nat} : m ∈ used slots ↔ some m ∈ slots := by
  simp [used]

theorem problem?_eq_none_iff {t : PinTable} : t.problem? = none ↔ t.Accepted := by
  unfold problem?
  constructor
  · intro h
    split at h
    · rename_i hl
      split at h
      · rename_i he
        have hp : t.physical = [] := List.isEmpty_iff.mp he
        exact ⟨hl, by simp [hp, used], by simp [hp, used]⟩
      · split at h
        · rename_i hp
          split at h
          · rename_i hs
            exact ⟨hl, hp, hs⟩
          · simp at h
        · simp at h
    · simp at h
  · rintro ⟨hl, hp, hs⟩
    simp only [if_pos hl, if_pos hp, if_pos hs, ite_self]

/-- Exactly the tables that keep the promise are made. -/
theorem make_eq_ok_iff {name : String} {logical physical : List Slot} {t : PinTable} :
    make name logical physical = .ok t ↔ t = ⟨name, logical, physical⟩ ∧ t.Accepted := by
  unfold make
  cases h : (PinTable.mk name logical physical).problem? with
  | none =>
    simp only [h, Except.ok.injEq]
    constructor
    · rintro rfl
      exact ⟨rfl, problem?_eq_none_iff.mp h⟩
    · exact fun h => h.1.symm
  | some p =>
    simp only [h, reduceCtorEq, false_iff, not_and]
    rintro rfl ha
    rw [problem?_eq_none_iff.mpr ha] at h
    simp at h

end PinTable

end BoardGpio
