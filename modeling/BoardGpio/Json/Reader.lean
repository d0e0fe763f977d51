import BoardGpio.Json.Scan

/-!
# Readers

A reader takes one value from the front of a text. It reads the text once, from left to right, so a
value of the wrong type is reported even when the text breaks off later. Here are the readers of
single values, and the steps from one item or member to the next.
-/

set_option autoImplicit false

namespace BoardGpio.Json

/-- How a message names a number. -/
def Number.found : Number → Found
  | natural n => .integer n
  | negative n => .integer n
  | float bits => .float bits

/-- Takes a value from the front of a text. -/
abbrev Reader := StateT (List Char) (Except Problem)

namespace Reader

variable {α ρ : Type}

/-- The text is no document. -/
def malformed : Reader α := fun _ => .error .malformed

/-- The value does not fit its place. -/
def mismatch (m : Mismatch) : Reader α := fun _ => .error (.mismatch m)

/-- Runs a step that only moves forward. -/
def skip (step : List Char → Except Problem (List Char)) : Reader Unit :=
  fun cs => (step cs).map fun rest => ((), rest)

/-- The next character after blanks, left in place. -/
def peek? : Reader (Option Char) :=
  fun cs => .ok ((skipSpace cs).head?, skipSpace cs)

def drop : Reader Unit :=
  fun cs => .ok ((), cs.drop 1)

def expect (c : Char) : Reader Unit := do
  if (← peek?) = some c then drop else malformed

/-- Reports the value that comes next as being of the wrong type. The value is read as far as its
name in the message needs it. -/
def wrongType (expected : String) : Reader α := do
  let found ← match (← peek?) with
    | some 'n' => do
      drop
      skip (literal ['u', 'l', 'l'])
      pure Found.null
    | some 't' => do
      drop
      skip (literal ['r', 'u', 'e'])
      pure (Found.boolean true)
    | some 'f' => do
      drop
      skip (literal ['a', 'l', 's', 'e'])
      pure (Found.boolean false)
    | some '-' => do
      drop
      let n ← number true
      pure n.found
    | some '"' => do
      drop
      let cs ← text
      pure (Found.text (String.ofList cs))
    | some '[' => pure Found.sequence
    | some '\x7b' => pure Found.map
    | some c =>
      if c.isDigit then do
        let n ← number false
        pure n.found
      else malformed
    | none => malformed
  mismatch (.wrongType found expected)

/-- A whole number below a bound; `expected` names the numbers of that bound. -/
def natural (bound : Nat) (expected : String) : Reader Nat := do
  let n ← match (← peek?) with
    | some '-' => do
      drop
      number true
    | some c => if c.isDigit then number false else wrongType expected
    | none => malformed
  match n with
  | .natural n => if n < bound then pure n else mismatch (.wrongValue (.integer n) expected)
  | .negative n => mismatch (.wrongValue (.integer n) expected)
  | .float bits => mismatch (.wrongType (.float bits) expected)

/-- A whole number of 32 bits. -/
def nat32 : Reader Nat := natural UInt32.size "u32"

/-- A whole number of 64 bits. -/
def nat64 : Reader Nat := natural UInt64.size "u64"

/-- A whole number below a bound, where every other text counts as malformed. -/
def plainNatural (bound : Nat) : Reader Nat := do
  match (← peek?) with
  | some _ => do
    let ds ← wholeDigits
    let n := ds.foldl (fun acc d => 10 * acc + digitValue d) 0
    if n < bound then pure n else malformed
  | none => malformed

def flag : Reader Bool := do
  match (← peek?) with
  | some 't' => do
    drop
    skip (literal ['r', 'u', 'e'])
    pure true
  | some 'f' => do
    drop
    skip (literal ['a', 'l', 's', 'e'])
    pure false
  | some _ => wrongType "a boolean"
  | none => malformed

/-- A string; `expected` names its role in messages. -/
def string (expected : String) : Reader String := do
  match (← peek?) with
  | some '"' => do
    drop
    let cs ← text
    pure (String.ofList cs)
  | some _ => wrongType expected
  | none => malformed

def optional (value : Reader α) : Reader (Option α) := do
  match (← peek?) with
  | some 'n' => do
    drop
    skip (literal ['u', 'l', 'l'])
    pure none
  | _ => do
    let v ← value
    pure (some v)

def unit : Reader Unit := do
  match (← peek?) with
  | some 'n' => do
    drop
    skip (literal ['u', 'l', 'l'])
  | some _ => wrongType "unit"
  | none => malformed

/-- Moves to the next item of an array; tells whether there is one. -/
def nextItem (first : Bool) : Reader Bool := do
  match (← peek?) with
  | some ']' => pure false
  | some ',' =>
    if first then pure true
    else do
      drop
      match (← peek?) with
      | some ']' => malformed
      | some _ => pure true
      | none => malformed
  | some _ => if first then pure true else malformed
  | none => malformed

/-- Moves to the next key of an object; tells whether there is one. -/
def nextKey (first : Bool) : Reader Bool := do
  match (← peek?) with
  | some '\x7d' => pure false
  | some ',' =>
    if first then malformed
    else do
      drop
      match (← peek?) with
      | some '"' => pure true
      | _ => malformed
  | some '"' => if first then pure true else malformed
  | _ => malformed

/-- A whole document: one value, and nothing but blanks after it. -/
def document (value : Reader α) (cs : List Char) : Except Problem α := do
  let (a, rest) ← value.run cs
  if (skipSpace rest).isEmpty then pure a else .error .malformed

end Reader

end BoardGpio.Json
