import BoardGpio.Handle.Basic

/-!
# The pin cursor

The cursor stands between the pins of the numbering in use. Taking the next pin moves it forward,
taking the previous one moves it back; at the ends nothing is taken and nothing moves.
-/

set_option autoImplicit false

namespace BoardGpio.Handle

/-- Puts the cursor before the first pin. -/
def toFront (h : Handle) : Handle := { h with cursor := 0 }

/-- Puts the cursor after the last pin. -/
def toBack (h : Handle) : Handle := { h with cursor := h.order.length }

/-- Whether a pin is after the cursor. -/
def hasNext (h : Handle) : Bool := h.cursor < h.order.length

/-- Whether a pin is before the cursor. -/
def hasPrevious (h : Handle) : Bool := 0 < h.cursor

def next (h : Handle) : Option Nat × Handle :=
  match h.order[h.cursor]? with
  | some pin => (some pin, { h with cursor := h.cursor + 1 })
  | none => (none, h)

def previous (h : Handle) : Option Nat × Handle :=
  match h.cursor with
  | 0 => (none, h)
  | i + 1 => (h.order[i]?, { h with cursor := i })

/-- A list with a place between its elements: those before the place, nearest first, and those
after it. -/
structure Zipper where
  before : List Nat
  after : List Nat
  deriving DecidableEq, Repr

namespace Zipper

/-- The place before all elements of a list. -/
def start (xs : List Nat) : Zipper := ⟨[], xs⟩

def next : Zipper → Option Nat × Zipper
  | ⟨before, x :: after⟩ => (some x, ⟨x :: before, after⟩)
  | z => (none, z)

/-- Moves back over the previous element. -/
def previous : Zipper → Option Nat × Zipper
  | ⟨x :: before, after⟩ => (some x, ⟨before, x :: after⟩)
  | z => (none, z)

end Zipper

/-- The cursor as a place in the list of pins. -/
def zipper (h : Handle) : Zipper :=
  ⟨(h.order.take h.cursor).reverse, h.order.drop h.cursor⟩

end BoardGpio.Handle
