import BoardGpio.Json.Problem
import BoardGpio.Text.Hex

/-!
# Tokens of a document

The smallest parts of a JSON text, read from the front of a list of characters: blanks, literals,
numbers and strings, and the skipping of a whole value that nobody asked for. Each function returns
what it read and the rest of the text. A number that is no whole number, or that does not fit its
64 bits, becomes a double; it is built from a significand of at most 64 bits and a power of ten, so
it may differ from the nearest double in its last place.
-/

set_option autoImplicit false

namespace BoardGpio.Json

/-- A step of reading: what was read, and the rest of the text. -/
abbrev Scan (α : Type) := Except Problem (α × List Char)

/-- The text is no document. -/
def malformed {α : Type} : Except Problem α := .error .malformed

/-- The four blanks of the format. -/
def isSpace (c : Char) : Bool :=
  c == ' ' || c == '\n' || c == '\t' || c == '\r'

/-- The text after its leading blanks. -/
def skipSpace (cs : List Char) : List Char :=
  cs.dropWhile isSpace

def literal : List Char → List Char → Except Problem (List Char)
  | [], cs => .ok cs
  | w :: ws, c :: cs => if w = c then literal ws cs else malformed
  | _ :: _, [] => malformed

/-- Reads a colon, blanks before it included. -/
def colon (cs : List Char) : Except Problem (List Char) :=
  literal [':'] (skipSpace cs)

/-! ## Numbers -/

/-- A number of a document: a whole number of 64 bits, or a double given by its bits. -/
inductive Number where
  | natural (n : Nat)
  | negative (n : Int)
  | float (bits : UInt64)
  deriving DecidableEq, Repr

/-- The value of a decimal digit. -/
def digitValue (c : Char) : Nat :=
  c.toNat - '0'.toNat

/-- The leading digits and the rest. -/
def spanDigits (cs : List Char) : List Char × List Char :=
  cs.span Char.isDigit

/-- Largest significand that is kept exactly. -/
def significandMax : Nat := UInt64.size - 1

/-- Appends digits to a significand while it stays within its bound, and counts the digits taken
and the digits left over. -/
def accumulate (acc taken : Nat) : List Char → Nat × Nat × Nat
  | [] => (acc, taken, 0)
  | d :: ds =>
    let next := 10 * acc + digitValue d
    if next ≤ significandMax then accumulate next (taken + 1) ds else (acc, taken, ds.length + 1)

/-- The double `significand * 10 ^ exponent`, computed with one rounding per step; `none` when it
is too large. -/
def scaleFloat : Nat → Float → Int → Option Float
  | 0, _, _ => some 0.0
  | fuel + 1, f, e =>
    if e.natAbs ≤ 308 then
      let power := Float.ofScientific 1 false e.natAbs
      if 0 ≤ e then
        let product := f * power
        if product.isInf then none else some product
      else some (f / power)
    else if f == 0.0 then some f
    else if 0 ≤ e then none
    else scaleFloat fuel (f / Float.ofScientific 1 false 308) (e + 308)

def floatNumber (negative : Bool) (significand : Nat) (exponent : Int) : Except Problem Number :=
  match scaleFloat 8 (UInt64.ofNat significand).toFloat exponent with
  | none => malformed
  | some f => .ok (.float (if negative then (-f).toBits else f.toBits))

/-- Largest written exponent that is taken at face value. -/
def exponentMax : Nat := 0x7fffffff

/-- The value of exponent digits, or nothing when it is beyond its bound. -/
def exponentValue? (acc : Nat) : List Char → Option Nat
  | [] => some acc
  | d :: ds =>
    let next := 10 * acc + digitValue d
    if next ≤ exponentMax then exponentValue? next ds else none

/-- Keeps an exponent within 32 bits. -/
def clampExponent (e : Int) : Int :=
  max (-0x80000000) (min e 0x7fffffff)

/-- The number after its significand, where an exponent may follow. -/
def exponentPart (negative : Bool) (significand : Nat) (exponent : Int) (cs : List Char) :
    Scan Number :=
  let finish (e : Int) (rest : List Char) : Scan Number :=
    (floatNumber negative significand e).map fun n => (n, rest)
  match cs with
  | c :: tail =>
    if c = 'e' ∨ c = 'E' then
      let (down, tail) : Bool × List Char := match tail with
        | '+' :: t => (false, t)
        | '-' :: t => (true, t)
        | t => (false, t)
      let (ds, rest) := spanDigits tail
      if ds.isEmpty then malformed
      else
        match exponentValue? 0 ds with
        | some n =>
          finish (clampExponent (if down then exponent - Int.ofNat n else exponent + Int.ofNat n))
            rest
        | none =>
          if significand ≠ 0 ∧ !down then malformed
          else .ok (.float (if negative then (-0.0 : Float).toBits else (0.0 : Float).toBits), rest)
    else finish exponent cs
  | [] => finish exponent cs

/-- The digits of a whole part: at least one, and no zero before others. -/
def wholeDigits (cs : List Char) : Scan (List Char) :=
  let (ds, rest) := spanDigits cs
  match ds with
  | [] => malformed
  | d :: more => if d = '0' ∧ !more.isEmpty then malformed else .ok (ds, rest)

/-- A whole number of 64 bits, or a double when it does not fit. Zero with a minus sign is a
double. -/
def wholeNumber (negative : Bool) (n : Nat) : Number :=
  if !negative then .natural n
  else if n = 0 ∨ UInt64.size / 2 < n then .float (-(UInt64.ofNat n).toFloat).toBits
  else .negative (-Int.ofNat n)

/-- A number after its minus sign, if it has one. -/
def number (negative : Bool) (cs : List Char) : Except Problem (Number × List Char) := do
  let (ds, rest) ← wholeDigits cs
  let (significand, _, dropped) := accumulate 0 0 ds
  match rest with
  | '.' :: tail =>
    let (fs, rest) := spanDigits tail
    if fs.isEmpty then malformed
    else
      let (significand, taken, _) := accumulate significand 0 fs
      exponentPart negative significand (Int.ofNat dropped - Int.ofNat taken) rest
  | c :: _ =>
    if c = 'e' ∨ c = 'E' ∨ dropped ≠ 0 then exponentPart negative significand dropped rest
    else .ok (wholeNumber negative significand, rest)
  | [] =>
    if dropped ≠ 0 then exponentPart negative significand dropped rest
    else .ok (wholeNumber negative significand, rest)

/-! ## Strings -/

/-- The character that a letter after a backslash stands for. -/
def shortEscape? : Char → Option Char
  | '"' => some '"'
  | '\\' => some '\\'
  | '/' => some '/'
  | 'b' => some '\x08'
  | 'f' => some '\x0c'
  | 'n' => some '\n'
  | 'r' => some '\r'
  | 't' => some '\t'
  | _ => none

/-- The 16-bit unit of four hexadecimal digits. -/
def unit? (a b c d : Char) : Option Nat :=
  Text.hexValue? 0 [a, b, c, d]

/-- Whether a unit is the first of a pair. -/
def isLeading (u : Nat) : Bool := 0xd800 ≤ u && u ≤ 0xdbff

/-- Whether a unit is the second of a pair. -/
def isTrailing (u : Nat) : Bool := 0xdc00 ≤ u && u ≤ 0xdfff

/-- The character of a pair of units. -/
def pairChar (hi lo : Nat) : Char :=
  Char.ofNat (0x10000 + (hi - 0xd800) * 0x400 + (lo - 0xdc00))

/-- A character in front of what is read next. -/
def prepend (c : Char) (s : Scan (List Char)) : Scan (List Char) :=
  s.map fun (cs, rest) => (c :: cs, rest)

/-- The characters of a string after its opening quote. -/
def text : List Char → Scan (List Char)
  | [] => malformed
  | c :: rest =>
    if c = '"' then .ok ([], rest)
    else if c = '\\' then
      match rest with
      | 'u' :: h0 :: h1 :: h2 :: h3 :: rest =>
        match unit? h0 h1 h2 h3 with
        | none => malformed
        | some u =>
          if isTrailing u then malformed
          else if isLeading u then
            match rest with
            | '\\' :: 'u' :: l0 :: l1 :: l2 :: l3 :: rest =>
              match unit? l0 l1 l2 l3 with
              | none => malformed
              | some l => if isTrailing l then prepend (pairChar u l) (text rest) else malformed
            | _ => malformed
          else prepend (Char.ofNat u) (text rest)
      | e :: rest =>
        match shortEscape? e with
        | some ch => prepend ch (text rest)
        | none => malformed
      | [] => malformed
    else if c.toNat < 0x20 then malformed
    else prepend c (text rest)

/-! ## Skipping -/

/-- The rest after a string that is not kept; its units need not form characters. -/
def skipText : List Char → Except Problem (List Char)
  | [] => malformed
  | c :: rest =>
    if c = '"' then .ok rest
    else if c = '\\' then
      match rest with
      | 'u' :: h0 :: h1 :: h2 :: h3 :: rest =>
        match unit? h0 h1 h2 h3 with
        | none => malformed
        | some _ => skipText rest
      | e :: rest =>
        match shortEscape? e with
        | some _ => skipText rest
        | none => malformed
      | [] => malformed
    else if c.toNat < 0x20 then malformed
    else skipText rest

/-- The rest after an exponent, if one follows. -/
def skipExponent (cs : List Char) : Except Problem (List Char) :=
  match cs with
  | c :: tail =>
    if c = 'e' ∨ c = 'E' then
      let tail := match tail with
        | '+' :: t => t
        | '-' :: t => t
        | t => t
      let (ds, rest) := spanDigits tail
      if ds.isEmpty then malformed else .ok rest
    else .ok cs
  | [] => .ok cs

/-- The rest after a number that is not kept; its size does not matter. -/
def skipNumber (cs : List Char) : Except Problem (List Char) := do
  let (_, rest) ← wholeDigits cs
  match rest with
  | '.' :: tail =>
    let (fs, rest) := spanDigits tail
    if fs.isEmpty then malformed else skipExponent rest
  | _ => skipExponent rest

/-- What encloses a value that is being skipped. -/
inductive Bracket where
  | list
  | object
  deriving DecidableEq, Repr

/-- The rest after a key and its colon. -/
def skipKey (cs : List Char) : Except Problem (List Char) :=
  match skipSpace cs with
  | '"' :: rest => do
    let rest ← skipText rest
    colon rest
  | _ => malformed

/-- The rest after a value that is not kept. The flag says whether a value comes next or one has
just ended; the list holds the brackets around it. Every step takes a character or closes a step
that did, so twice the length of the text is fuel enough. -/
def skipFrom : Nat → Bool → List Bracket → List Char → Except Problem (List Char)
  | 0, _, _, _ => malformed
  | fuel + 1, true, enclosing, cs =>
    match skipSpace cs with
    | 'n' :: rest => do skipFrom fuel false enclosing (← literal ['u', 'l', 'l'] rest)
    | 't' :: rest => do skipFrom fuel false enclosing (← literal ['r', 'u', 'e'] rest)
    | 'f' :: rest => do skipFrom fuel false enclosing (← literal ['a', 'l', 's', 'e'] rest)
    | '-' :: rest => do skipFrom fuel false enclosing (← skipNumber rest)
    | '"' :: rest => do skipFrom fuel false enclosing (← skipText rest)
    | '[' :: rest =>
      match skipSpace rest with
      | ']' :: rest => skipFrom fuel false enclosing rest
      | _ => skipFrom fuel true (.list :: enclosing) rest
    | '\x7b' :: rest =>
      match skipSpace rest with
      | '\x7d' :: rest => skipFrom fuel false enclosing rest
      | _ => do skipFrom fuel true (.object :: enclosing) (← skipKey rest)
    | c :: rest =>
      if c.isDigit then do skipFrom fuel false enclosing (← skipNumber (c :: rest)) else malformed
    | [] => malformed
  | _ + 1, false, [], cs => .ok cs
  | fuel + 1, false, .list :: enclosing, cs =>
    match skipSpace cs with
    | ',' :: rest => skipFrom fuel true (.list :: enclosing) rest
    | ']' :: rest => skipFrom fuel false enclosing rest
    | _ => malformed
  | fuel + 1, false, .object :: enclosing, cs =>
    match skipSpace cs with
    | ',' :: rest => do skipFrom fuel true (.object :: enclosing) (← skipKey rest)
    | '\x7d' :: rest => skipFrom fuel false enclosing rest
    | _ => malformed

/-- The rest after one value that is not kept. -/
def skipValue (cs : List Char) : Except Problem (List Char) :=
  skipFrom (2 * cs.length + 2) true [] cs

end BoardGpio.Json
