/-!
# Edges and triggers

An `Edge` is the direction in which a normalized input level changed. A `Trigger` is the set of
edges an input reacts to; its bits are `1` for falling and `2` for rising. Main statements: the
bits determine the trigger (`Trigger.ofBits?_bits`) and membership follows the set operations
(`Trigger.accepts_union` and its companions).
-/

set_option autoImplicit false

namespace BoardGpio

/-- The direction of a change: to active or to inactive. -/
inductive Edge where
  | rising
  | falling
  deriving DecidableEq, Repr, Inhabited

/-- The edges an input reacts to. -/
structure Trigger where
  falling : Bool
  rising : Bool
  deriving DecidableEq, Repr, Inhabited

namespace Edge

/-- The edge of a change that ends at this level. -/
def toward (active : Bool) : Edge :=
  if active then .rising else .falling

def word : Edge → String
  | rising => "rising"
  | falling => "falling"

/-- The word for the last edge of an input, if there was one. -/
def wordOf? : Option Edge → String
  | none => "none"
  | some e => e.word

end Edge

namespace Trigger

/-- Reacts to nothing. This is the trigger an input starts with. -/
def none : Trigger := ⟨false, false⟩

def both : Trigger := ⟨true, true⟩

def only : Edge → Trigger
  | .rising => ⟨false, true⟩
  | .falling => ⟨true, false⟩

/-- Whether the trigger lets an edge through. -/
def accepts (t : Trigger) : Edge → Bool
  | .rising => t.rising
  | .falling => t.falling

def bits (t : Trigger) : Nat :=
  (if t.falling then 1 else 0) + (if t.rising then 2 else 0)

/-- The trigger made of the two known bits of a number. -/
def ofBitsTruncate (n : Nat) : Trigger :=
  ⟨n.testBit 0, n.testBit 1⟩

/-- The trigger with these bits; there is none when an unknown bit is set. -/
def ofBits? (n : Nat) : Option Trigger :=
  if n < 4 then some (ofBitsTruncate n) else Option.none

def union (a b : Trigger) : Trigger :=
  ⟨a.falling || b.falling, a.rising || b.rising⟩

def inter (a b : Trigger) : Trigger :=
  ⟨a.falling && b.falling, a.rising && b.rising⟩

/-- Edges of the first trigger that the second does not have. -/
def diff (a b : Trigger) : Trigger :=
  ⟨a.falling && !b.falling, a.rising && !b.rising⟩

/-- Edges of exactly one of the triggers. -/
def symmDiff (a b : Trigger) : Trigger :=
  ⟨a.falling != b.falling, a.rising != b.rising⟩

def compl (a : Trigger) : Trigger :=
  ⟨!a.falling, !a.rising⟩

/-- Whether the first trigger has every edge of the second. -/
def contains (a b : Trigger) : Bool :=
  a.inter b == b

/-- Whether the triggers share an edge. -/
def intersects (a b : Trigger) : Bool :=
  a.inter b != none

def word (t : Trigger) : String :=
  match t.falling, t.rising with
  | false, false => "none"
  | false, true => "rising"
  | true, false => "falling"
  | true, true => "both"

def ofWord? (w : String) : Option Trigger :=
  [none, only .rising, only .falling, both].find? (fun t => t.word == w)

theorem ofBits?_bits (t : Trigger) : ofBits? t.bits = some t := by
  obtain ⟨f, r⟩ := t
  cases f <;> cases r <;> rfl

theorem ofWord?_word (t : Trigger) : ofWord? t.word = some t := by
  obtain ⟨f, r⟩ := t
  cases f <;> cases r <;> decide

@[simp] theorem accepts_none (e : Edge) : none.accepts e = false := by
  cases e <;> rfl

@[simp] theorem accepts_both (e : Edge) : both.accepts e = true := by
  cases e <;> rfl

@[simp] theorem accepts_union (a b : Trigger) (e : Edge) :
    (a.union b).accepts e = (a.accepts e || b.accepts e) := by
  cases e <;> rfl

@[simp] theorem accepts_inter (a b : Trigger) (e : Edge) :
    (a.inter b).accepts e = (a.accepts e && b.accepts e) := by
  cases e <;> rfl

/-- Letting an edge through is sharing it with the trigger made of that edge alone. -/
theorem accepts_eq_intersects (t : Trigger) (e : Edge) : t.accepts e = t.intersects (only e) := by
  obtain ⟨f, r⟩ := t
  cases e <;> cases f <;> cases r <;> rfl

end Trigger

end BoardGpio
