import BoardGpio.Failure

/-!
# Sets of pins

A set of pins below 128, kept as 128 bits. A pin that does not fit is refused by `insert?` and is
in no set. Iteration takes the lowest pin off the set again and again. Main statements: membership
follows the set operations (`contains_union` and its companions), `toList` holds exactly the
members in ascending order (`mem_toList`), and the bits are determined by membership (`ext_iff`).
-/

set_option autoImplicit false

namespace BoardGpio

/-- A set of pins below 128. -/
structure PinSet where
  bits : BitVec 128
  deriving DecidableEq, Repr

namespace PinSet

/-- Number of pins a set can address. -/
def capacity : Nat := 128

def empty : PinSet := ⟨0⟩

instance : Inhabited PinSet := ⟨empty⟩

/-- Whether a pin is in the set. -/
def contains (s : PinSet) (pin : Nat) : Bool :=
  s.bits.getLsbD pin

/-- The set with one more pin, which must be below the capacity. -/
def insert? (s : PinSet) (pin : Nat) : Except Error PinSet :=
  if pin < capacity then .ok ⟨s.bits ||| BitVec.twoPow 128 pin⟩
  else .error (.maskOverflow pin capacity)

def erase (s : PinSet) (pin : Nat) : PinSet :=
  ⟨s.bits &&& ~~~BitVec.twoPow 128 pin⟩

/-- A set with further pins, or the error for the first of them that does not fit. -/
def insertAll? (s : PinSet) : List Nat → Except Error PinSet
  | [] => .ok s
  | pin :: pins => do
    let t ← s.insert? pin
    t.insertAll? pins

/-- The set of these pins, or the error for the first of them that does not fit. -/
def ofList? (pins : List Nat) : Except Error PinSet :=
  empty.insertAll? pins

/-- The set whose pins are the positions of `true`. -/
def ofLevels? (levels : List Bool) : Except Error PinSet :=
  ofList? ((List.range levels.length).filter fun i => levels.getD i false)

def union (s t : PinSet) : PinSet := ⟨s.bits ||| t.bits⟩

def inter (s t : PinSet) : PinSet := ⟨s.bits &&& t.bits⟩

/-- The pins of exactly one of the sets. -/
def symmDiff (s t : PinSet) : PinSet := ⟨s.bits ^^^ t.bits⟩

def isEmpty (s : PinSet) : Bool := s.bits == 0

def size (s : PinSet) : Nat := s.bits.cpop.toNat

def toList (s : PinSet) : List Nat :=
  (List.range capacity).filter s.contains

/-- The lowest pin and what is left once the lowest bit is cleared. -/
def next? (s : PinSet) : Option (Nat × PinSet) :=
  if s.isEmpty then none
  else some (s.bits.ctz.toNat, ⟨s.bits &&& (s.bits - 1)⟩)

/-- What is left after `next?` was taken this many times. -/
def advance (s : PinSet) : Nat → PinSet
  | 0 => s
  | n + 1 =>
    match s.next? with
    | some (_, rest) => rest.advance n
    | none => s

/-- The set in words: its pins between braces. -/
def text (s : PinSet) : String :=
  "\x7b" ++ String.intercalate ", " (s.toList.map toString) ++ "\x7d"

/-- The bits in binary digits, without leading zeros. -/
def binaryDigits (s : PinSet) : List Char :=
  Nat.toDigits 2 s.bits.toNat

/-- The bits in binary digits, filled up with a character on the left to a least width. -/
def binaryText (fill : Char) (width : Nat) (s : PinSet) : String :=
  String.ofList (List.replicate (width - s.binaryDigits.length) fill ++ s.binaryDigits)

/-! ## Membership -/

theorem contains_lt {s : PinSet} {pin : Nat} (h : s.contains pin = true) : pin < capacity :=
  BitVec.lt_of_getLsbD h

theorem contains_of_le {s : PinSet} {pin : Nat} (h : capacity ≤ pin) : s.contains pin = false :=
  BitVec.getLsbD_of_ge s.bits pin h

@[simp] theorem contains_empty (pin : Nat) : empty.contains pin = false := by
  simp [contains, empty]

@[simp] theorem contains_union (s t : PinSet) (pin : Nat) :
    (s.union t).contains pin = (s.contains pin || t.contains pin) := by
  simp [contains, union]

@[simp] theorem contains_inter (s t : PinSet) (pin : Nat) :
    (s.inter t).contains pin = (s.contains pin && t.contains pin) := by
  simp [contains, inter]

@[simp] theorem contains_symmDiff (s t : PinSet) (pin : Nat) :
    (s.symmDiff t).contains pin = (s.contains pin ^^ t.contains pin) := by
  simp [contains, symmDiff]

/-- Two sets with the same members are the same. -/
theorem ext_iff {s t : PinSet} : s = t ↔ ∀ pin, s.contains pin = t.contains pin := by
  constructor
  · rintro rfl _
    rfl
  · intro h
    obtain ⟨a⟩ := s
    obtain ⟨b⟩ := t
    congr 1
    exact BitVec.eq_of_getLsbD_eq fun i _ => h i

/-- The set with a pin more has that pin and otherwise the same pins. -/
theorem contains_insert? {s t : PinSet} {pin : Nat} (h : s.insert? pin = .ok t) (q : Nat) :
    t.contains q = (s.contains q || decide (q = pin)) := by
  unfold insert? at h
  split at h
  · rename_i hp
    injection h with h
    subst h
    have hp' : pin < 128 := hp
    by_cases hq : q = pin
    · subst hq
      simp [contains, hp']
    · simp [contains, BitVec.getLsbD_twoPow, hq, Ne.symm hq]
  · simp at h

/-- The set without a pin has every other pin it had. -/
@[simp] theorem contains_erase (s : PinSet) (pin q : Nat) :
    (s.erase pin).contains q = (s.contains q && decide (q ≠ pin)) := by
  by_cases h : q < 128
  · by_cases hq : q = pin
    · subst hq
      simp [contains, erase, h]
    · simp [contains, erase, h, hq]
  · have hs : s.contains q = false := contains_of_le (by simpa [capacity] using h)
    have he : (s.erase pin).contains q = false := contains_of_le (by simpa [capacity] using h)
    simp [hs, he]

/-- A pin is refused exactly when it does not fit. -/
theorem insert?_eq_error_iff {s : PinSet} {pin : Nat} {e : Error} :
    s.insert? pin = .error e ↔ capacity ≤ pin ∧ e = .maskOverflow pin capacity := by
  unfold insert?
  split
  · simp only [reduceCtorEq, false_iff]
    omega
  · simp only [Except.error.injEq]
    constructor
    · intro h
      exact ⟨by omega, h.symm⟩
    · intro h
      exact h.2.symm

theorem mem_toList {s : PinSet} {pin : Nat} : pin ∈ s.toList ↔ s.contains pin = true := by
  simp only [toList, List.mem_filter, List.mem_range, and_iff_right_iff_imp]
  exact contains_lt

end PinSet

end BoardGpio
