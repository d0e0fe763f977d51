/-!
# Writing documents

The values that documents hold, and their two written forms: compact, and spread over lines with
two blanks per level. A string is escaped as little as the format allows.
-/

set_option autoImplicit false

namespace BoardGpio.Json

/-- A value of a document. -/
inductive Doc where
  | null
  | boolean (b : Bool)
  | number (n : Nat)
  | text (s : String)
  | record (fields : List (String × Doc))

/-- The character that follows a backslash in the short form of an escape. -/
def escapeLetter? (c : Char) : Option Char :=
  if c = '"' then some '"'
  else if c = '\\' then some '\\'
  else if c = '\x08' then some 'b'
  else if c = '\x0c' then some 'f'
  else if c = '\n' then some 'n'
  else if c = '\r' then some 'r'
  else if c = '\t' then some 't'
  else none

def escapeChar (c : Char) : List Char :=
  match escapeLetter? c with
  | some e => ['\\', e]
  | none =>
    if c.toNat < 0x20 then
      ['\\', 'u', '0', '0', Nat.digitChar (c.toNat / 16), Nat.digitChar (c.toNat % 16)]
    else [c]

def escape (cs : List Char) : List Char :=
  '"' :: (cs.flatMap escapeChar ++ ['"'])

/-- A line break and the blanks of a level. -/
def newline (level : Nat) : List Char :=
  '\n' :: List.replicate (2 * level) ' '

mutual

def compact : Doc → List Char
  | .null => ['n', 'u', 'l', 'l']
  | .boolean true => ['t', 'r', 'u', 'e']
  | .boolean false => ['f', 'a', 'l', 's', 'e']
  | .number n => Nat.toDigits 10 n
  | .text s => escape s.toList
  | .record fields => '\x7b' :: compactFields true fields

/-- The compact form of the rest of a record, with its closing brace. -/
def compactFields : Bool → List (String × Doc) → List Char
  | _, [] => ['\x7d']
  | first, (name, value) :: rest =>
    (if first then [] else [',']) ++ escape name.toList ++ [':'] ++ compact value ++
      compactFields false rest

end

mutual

/-- The form of a value spread over lines, inside this many levels. -/
def pretty (level : Nat) : Doc → List Char
  | .null => ['n', 'u', 'l', 'l']
  | .boolean true => ['t', 'r', 'u', 'e']
  | .boolean false => ['f', 'a', 'l', 's', 'e']
  | .number n => Nat.toDigits 10 n
  | .text s => escape s.toList
  | .record [] => ['\x7b', '\x7d']
  | .record (field :: rest) => '\x7b' :: prettyFields level true (field :: rest)

/-- The lines of the rest of a record, with its closing brace. -/
def prettyFields (level : Nat) : Bool → List (String × Doc) → List Char
  | _, [] => newline level ++ ['\x7d']
  | first, (name, value) :: rest =>
    (if first then [] else [',']) ++ newline (level + 1) ++ escape name.toList ++ [':', ' '] ++
      pretty (level + 1) value ++ prettyFields level false rest

end

def Doc.compactText (d : Doc) : String :=
  String.ofList (compact d)

/-- The text of a value spread over lines. -/
def Doc.prettyText (d : Doc) : String :=
  String.ofList (pretty 0 d)

end BoardGpio.Json
