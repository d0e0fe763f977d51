import BoardGpio.PinTable.Layouts

/-!
# Boards

A board is described by its model name, its chip, its pin layout and the address of its peripherals.
Chips fall into two families of registers.
-/

set_option autoImplicit false

namespace BoardGpio

/-- The chip of a board. -/
inductive Soc where
  | bcm2835
  | bcm2836
  | bcm2837
  | bcm2711
  | allwinnerH3
  deriving DecidableEq, Repr, Inhabited

/-- The register layouts that chips share. -/
inductive SocFamily where
  | bcm283x
  | allwinnerH3
  deriving DecidableEq, Repr

/-- What is known about a board. -/
structure BoardInfo where
  model : String
  soc : Soc
  revision : BoardRevision
  /-- The revision code of a Raspberry Pi. -/
  revisionCode : Option Nat
  /-- Physical address of the peripherals. -/
  ioBase : Nat
  deriving DecidableEq, Repr

namespace Soc

/-- Every chip, in the order documents list them. -/
def all : List Soc :=
  [.bcm2835, .bcm2836, .bcm2837, .bcm2711, .allwinnerH3]

/-- The word for a chip in documents. -/
def word : Soc → String
  | bcm2835 => "Bcm2835"
  | bcm2836 => "Bcm2836"
  | bcm2837 => "Bcm2837"
  | bcm2711 => "Bcm2711"
  | allwinnerH3 => "AllwinnerH3"

def label : Soc → String
  | bcm2835 => "BCM2835"
  | bcm2836 => "BCM2836"
  | bcm2837 => "BCM2837"
  | bcm2711 => "BCM2711"
  | allwinnerH3 => "Allwinner H3"

def ofWord? (w : String) : Option Soc :=
  all.find? (fun s => s.word == w)

def family : Soc → SocFamily
  | allwinnerH3 => .allwinnerH3
  | _ => .bcm283x

/-- Physical address of a chip's peripherals. -/
def peripheralBase : Soc → Nat
  | bcm2835 => 0x20000000
  | bcm2836 => 0x3f000000
  | bcm2837 => 0x3f000000
  | bcm2711 => 0xfe000000
  | allwinnerH3 => 0x01c20000

theorem mem_all (s : Soc) : s ∈ all := by
  cases s <;> decide

theorem ofWord?_word (s : Soc) : ofWord? s.word = some s := by
  cases s <;> decide

end Soc

def SocFamily.word : SocFamily → String
  | bcm283x => "bcm283x"
  | allwinnerH3 => "allwinner-h3"

namespace BoardInfo

def family (b : BoardInfo) : SocFamily := b.soc.family

def table (b : BoardInfo) : PinTable := b.revision.table

end BoardInfo

end BoardGpio
