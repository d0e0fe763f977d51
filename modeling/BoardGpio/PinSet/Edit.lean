import BoardGpio.Act
import BoardGpio.PinSet

/-!
# Changing a set in place

The operations on a set, done one after the other on one set. A pin that does not fit is refused
before the set is touched; the operations after it go on.
-/

set_option autoImplicit false

namespace BoardGpio.PinSet

/-- Puts a pin into the set, unless it does not fit. -/
def tryInsert (pin : Nat) : Act PinSet Unit :=
  if pin < capacity then Act.modify fun s => ⟨s.bits ||| BitVec.twoPow 128 pin⟩
  else Act.fail (.maskOverflow pin capacity)

/-- One operation that gives a set its new contents. -/
inductive Edit where
  | insert (pin : Nat)
  /-- Puts a pin into a copy of the set, which then takes the set's place. -/
  | insertCopy (pin : Nat)
  | erase (pin : Nat)
  | union (t : PinSet)
  | inter (t : PinSet)
  | symmDiff (t : PinSet)
  deriving DecidableEq, Repr

namespace Edit

def perform : Edit → Act PinSet Unit
  | insert pin => tryInsert pin
  | insertCopy pin => do
    let copy ← Act.gets fun s => s.insert? pin
    let t ← Act.lift copy
    Act.modify fun _ => t
  | erase pin => Act.modify fun s => s.erase pin
  | union t => Act.modify fun s => s.union t
  | inter t => Act.modify fun s => s.inter t
  | symmDiff t => Act.modify fun s => s.symmDiff t

end Edit

/-- Does the operations in turn and collects their answers. -/
def edit (edits : List Edit) : Act PinSet (List (Except Error Unit)) :=
  Act.collect (fun e => Act.attempt e.perform) edits

end BoardGpio.PinSet
