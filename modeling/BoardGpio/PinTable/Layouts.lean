import BoardGpio.PinTable.Basic

/-!
# Layouts of the known boards

The pin tables of the six board layouts. A list is written with `-1` for a gap. Every layout is
accepted (`BoardRevision.table_accepted`).
-/

set_option autoImplicit false

namespace BoardGpio

/-- The layout of a board's pins. -/
inductive BoardRevision where
  | rpiRev1
  | rpiRev2
  | rpiRev3
  | nanoPiNeo
  | nanoPiM1
  | nanoPiM1Plus
  deriving DecidableEq, Repr, Inhabited

namespace PinTable

/-- A position from its number, where a negative number is a gap. -/
def slot (n : Int) : Slot :=
  if n < 0 then none else some n.toNat

def slots (ns : List Int) : List Slot :=
  ns.map slot

/-- The first Raspberry Pi layout, with a header of 26 pins. -/
def rpiRev1 : PinTable where
  name := "Raspberry Pi GPIO rev 1"
  logical := slots
    [17, 18, 21, 22, 23, 24, 25, 4, 0, 1, 8, 7, 10, 9, 11, 14, 15]
  physical := slots
    [-1, -1, 0, -1, 1, -1, 4, 14, -1, 15, 17, 18, 21, -1, 22, 23, -1, 24, 10, -1, 9, 25, 11, 8,
      -1, 7]

/-- The second Raspberry Pi layout; the header of eight pins follows the one of 26. -/
def rpiRev2 : PinTable where
  name := "Raspberry Pi GPIO rev 2"
  logical := slots
    [17, 18, 27, 22, 23, 24, 25, 4, 2, 3, 8, 7, 10, 9, 11, 14, 15, 28, 29, 30, 31]
  physical := slots
    [-1, -1, 2, -1, 3, -1, 4, 14, -1, 15, 17, 18, 27, -1, 22, 23, -1, 24, 10, -1, 9, 25, 11, 8,
      -1, 7, -1, -1, 28, 29, 30, 31, -1, -1]

/-- The layout of the Raspberry Pi boards with a header of 40 pins. -/
def rpiRev3 : PinTable where
  name := "Raspberry Pi GPIO rev 3"
  logical := slots
    [17, 18, 27, 22, 23, 24, 25, 4, 2, 3, 8, 7, 10, 9, 11, 14, 15, -1, -1, -1, -1, 5, 6, 13, 19,
      26, 12, 16, 20, 21, 0, 1]
  physical := slots
    [-1, -1, 2, -1, 3, -1, 4, 14, -1, 15, 17, 18, 27, -1, 22, 23, -1, 24, 10, -1, 9, 25, 11, 8,
      -1, 7, 0, 1, 5, -1, 6, 12, 13, -1, 19, 16, 26, 20, -1, 21]

/-- The NanoPi NEO; debug port, lights and the audio header follow the header of 24 pins. -/
def nanoPiNeo : PinTable where
  name := "NanoPi NEO"
  logical := slots
    [0, 6, 2, 3, 88, 89, 1, 91, 12, 11, 25, 17, 22, 23, 24, 86, 87, 4, 5, 10, 105, 20, 21, 19,
      18, 104]
  physical := slots
    [-1, -1, 12, -1, 11, -1, 91, 86, -1, 87, 0, 6, 2, -1, 3, 88, -1, 89, 22, -1, 23, 1, 24, 25,
      -1, -1, 4, 5, 10, 104, -1, -1, -1, -1, -1, 105, 17, 18, 19, 20, 21]

def nanoPiM1 : PinTable where
  name := "NanoPi M1"
  logical := slots
    [0, 6, 2, 3, 88, 89, 1, 91, 12, 11, 25, 17, 22, 23, 24, 86, 87, 20, 21, 8, 16, 9, 7, 13, 15,
      14, 19, 18]
  physical := slots
    [-1, -1, 12, -1, 11, -1, 91, 86, -1, 87, 0, 6, 2, -1, 3, 88, -1, 89, 22, -1, 23, 1, 24, 25,
      -1, 17, 19, 18, 20, -1, 21, 7, 8, -1, 16, 13, 9, 15, -1, 14]

/-- The NanoPi M1 Plus, wired like the M1. -/
def nanoPiM1Plus : PinTable :=
  { nanoPiM1 with name := "NanoPi M1 Plus" }

end PinTable

namespace BoardRevision

/-- Every layout, in the order documents list them. -/
def all : List BoardRevision :=
  [.rpiRev1, .rpiRev2, .rpiRev3, .nanoPiNeo, .nanoPiM1, .nanoPiM1Plus]

/-- The word for a layout in documents. -/
def word : BoardRevision → String
  | rpiRev1 => "RpiRev1"
  | rpiRev2 => "RpiRev2"
  | rpiRev3 => "RpiRev3"
  | nanoPiNeo => "NanoPiNeo"
  | nanoPiM1 => "NanoPiM1"
  | nanoPiM1Plus => "NanoPiM1Plus"

def ofWord? (w : String) : Option BoardRevision :=
  all.find? (fun r => r.word == w)

/-- The pin table of a layout. -/
def table : BoardRevision → PinTable
  | rpiRev1 => .rpiRev1
  | rpiRev2 => .rpiRev2
  | rpiRev3 => .rpiRev3
  | nanoPiNeo => .nanoPiNeo
  | nanoPiM1 => .nanoPiM1
  | nanoPiM1Plus => .nanoPiM1Plus

/-- The name of a layout in messages is that of its table. -/
def label (r : BoardRevision) : String :=
  r.table.name

theorem mem_all (r : BoardRevision) : r ∈ all := by
  cases r <;> decide

theorem ofWord?_word (r : BoardRevision) : ofWord? r.word = some r := by
  cases r <;> decide

theorem table_problem? (r : BoardRevision) : r.table.problem? = none := by
  cases r <;> decide +kernel

theorem table_accepted (r : BoardRevision) : r.table.Accepted :=
  PinTable.problem?_eq_none_iff.mp r.table_problem?

end BoardRevision

end BoardGpio
