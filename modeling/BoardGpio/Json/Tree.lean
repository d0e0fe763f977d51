import BoardGpio.Ascending
import BoardGpio.Json.Reader

/-!
# Documents in memory

A document that was read as a whole, before anybody asked for a type. The members of an object stand
in the order of their names, and a name stands there once: of members with one name the last one in
the text counts.
-/

set_option autoImplicit false

namespace BoardGpio.Json

/-- A document in memory. -/
inductive Tree where
  | null
  | boolean (b : Bool)
  | number (n : Number)
  | text (s : String)
  | list (items : List Tree)
  | object (members : List (String × Tree))

/-- The members of an object of a document in memory. -/
abbrev Members : Type := Ascending String Tree

namespace Tree

/-- How a message names a document. -/
def found : Tree → Found
  | null => .null
  | boolean b => .boolean b
  | number n => n.found
  | text s => .text s
  | list _ => .sequence
  | object _ => .map

/-- The member of an object with a name. -/
def member? (name : String) : Tree → Option Tree
  | object ms => Ascending.get? name ms
  | _ => none

end Tree

namespace Reader

mutual

/-- A document, with fuel for every item and two for every bracket. -/
def treeFrom : Nat → Reader Tree
  | 0 => malformed
  | fuel + 1 => do
    match (← peek?) with
    | some 'n' => do
      drop
      skip (literal ['u', 'l', 'l'])
      pure .null
    | some 't' => do
      drop
      skip (literal ['r', 'u', 'e'])
      pure (.boolean true)
    | some 'f' => do
      drop
      skip (literal ['a', 'l', 's', 'e'])
      pure (.boolean false)
    | some '-' => do
      drop
      let n ← number true
      pure (.number n)
    | some '"' => do
      drop
      let cs ← text
      pure (.text (String.ofList cs))
    | some '[' => do
      drop
      let items ← itemsFrom fuel true
      pure (.list items)
    | some '\x7b' => do
      drop
      let ms ← membersFrom fuel true []
      pure (.object ms)
    | some c =>
      if c.isDigit then do
        let n ← number false
        pure (.number n)
      else malformed
    | none => malformed

/-- The items of an array, and its closing bracket. -/
def itemsFrom : Nat → Bool → Reader (List Tree)
  | 0, _ => malformed
  | fuel + 1, first => do
    if (← nextItem first) then
      let item ← treeFrom fuel
      let rest ← itemsFrom fuel false
      pure (item :: rest)
    else
      drop
      pure []

/-- The members of an object, put with those read before, and its closing brace. -/
def membersFrom : Nat → Bool → Members → Reader Members
  | 0, _, _ => malformed
  | fuel + 1, first, ms => do
    if (← nextKey first) then
      drop
      let key ← text
      expect ':'
      let value ← treeFrom fuel
      membersFrom fuel false (ms.put (String.ofList key) value)
    else
      drop
      pure ms

end

def tree : Reader Tree := fun cs => treeFrom (2 * cs.length + 2) cs

end Reader

namespace Tree

/-- The document that a text holds. -/
def ofText (s : String) : Except Problem Tree :=
  Reader.tree.document s.toList

end Tree

end BoardGpio.Json
