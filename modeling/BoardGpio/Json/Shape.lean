import BoardGpio.Json.Tree

/-!
# Shapes of values

The shape of a type says how its values stand in documents. It serves two purposes: a value is read
from a text, or picked from a document in memory. Both accept the same values, but a text is judged
up to its first problem, while a document in memory is known to be one. A record stands as an object
with its fields in any order, or as an array in the declared order; a choice stands as its name, or
as an object with that name and `null`.
-/

set_option autoImplicit false

namespace BoardGpio.Json

/-- Takes a value from a document in memory. -/
abbrev Picker (α : Type) : Type := Tree → Except Mismatch α

/-- How the values of a type stand in documents. -/
structure Shape (α : Type) where
  /-- Reads a value from a text. -/
  read : Reader α
  /-- Takes a value from a document in memory. -/
  pick : Picker α

namespace Shape

variable {α β ρ : Type}

/-- The shape of the images of values. -/
def map (f : α → β) (s : Shape α) : Shape β where
  read := f <$> s.read
  pick t := (s.pick t).map f

/-! ## Single values -/

/-- Takes a whole number below a bound; `expected` names the numbers of that bound. -/
def pickNatural (bound : Nat) (expected : String) : Picker Nat
  | .number (.natural n) =>
    if n < bound then .ok n else .error (.wrongValue (.integer n) expected)
  | .number (.negative n) => .error (.wrongValue (.integer n) expected)
  | t => .error (.wrongType t.found expected)

/-- A whole number below a bound; `expected` names the numbers of that bound. -/
def natural (bound : Nat) (expected : String) : Shape Nat where
  read := Reader.natural bound expected
  pick := pickNatural bound expected

/-- A whole number of 32 bits. -/
def nat32 : Shape Nat := natural UInt32.size "u32"

/-- A whole number of 64 bits. -/
def nat64 : Shape Nat := natural UInt64.size "u64"

/-- A whole number of 128 bits. In a text every other value counts as malformed. -/
def nat128 : Shape Nat where
  read := Reader.plainNatural (UInt64.size * UInt64.size)
  pick := pickNatural (UInt64.size * UInt64.size) "u128"

def pickFlag : Picker Bool
  | .boolean b => .ok b
  | t => .error (.wrongType t.found "a boolean")

def flag : Shape Bool := ⟨Reader.flag, pickFlag⟩

/-- Takes a string; `expected` names its role in messages. -/
def pickString (expected : String) : Picker String
  | .text s => .ok s
  | t => .error (.wrongType t.found expected)

/-- A string; `expected` names its role in messages. -/
def string (expected : String) : Shape String := ⟨Reader.string expected, pickString expected⟩

def pickOptional (pick : Picker α) : Picker (Option α)
  | .null => .ok none
  | t => (pick t).map some

def optional (s : Shape α) : Shape (Option α) := ⟨Reader.optional s.read, pickOptional s.pick⟩

/-! ## Choices -/

/-- The value with this name among the known ones. -/
def named (options : List α) (name : α → String) (key : String) : Except Mismatch α :=
  match options.find? (fun a => name a == key) with
  | some a => .ok a
  | none => .error (.unknownVariant key (options.map name))

/-- The value with the name that comes next in a text. -/
def readNamed (options : List α) (name : α → String) : Reader α := do
  Reader.drop
  let key ← text
  match named options name (String.ofList key) with
  | .ok a => pure a
  | .error m => Reader.mismatch m

/-- Reads one of several named values. -/
def readChoice (options : List α) (name : α → String) : Reader α := do
  match (← Reader.peek?) with
  | some '"' => readNamed options name
  | some '\x7b' => do
    Reader.drop
    match (← Reader.peek?) with
    | some '"' => do
      let a ← readNamed options name
      Reader.expect ':'
      Reader.unit
      Reader.expect '\x7d'
      pure a
    | _ => Reader.malformed
  | _ => Reader.malformed

/-- Takes one of several named values. -/
def pickChoice (options : List α) (name : α → String) : Picker α
  | .text key => named options name key
  | .object [(key, value)] => do
    let a ← named options name key
    match value with
    | .null => pure a
    | t => .error (.wrongType t.found "unit")
  | .object _ => .error (.wrongValue .map "map with a single key")
  | t => .error (.wrongType t.found "string or map")

/-- One of several named values: its name, or an object that maps its name to `null`. -/
def choice (options : List α) (name : α → String) : Shape α :=
  ⟨readChoice options name, pickChoice options name⟩

/-! ## Arrays -/

/-- Reads the items of an array. An item takes at least one character, so the length of the text is
fuel enough. -/
def readItems (read : Reader α) : Nat → Bool → Reader (List α)
  | 0, _ => Reader.malformed
  | fuel + 1, first => do
    if (← Reader.nextItem first) then
      let a ← read
      let rest ← readItems read fuel false
      pure (a :: rest)
    else pure []

def readList (read : Reader α) : Reader (List α) := do
  match (← Reader.peek?) with
  | some '[' => do
    Reader.drop
    let items ← readItems read ((← get).length + 1) true
    Reader.expect ']'
    pure items
  | some _ => Reader.wrongType "a sequence"
  | none => Reader.malformed

def pickList (pick : Picker α) : Picker (List α)
  | .list items => items.mapM pick
  | t => .error (.wrongType t.found "a sequence")

/-- An array of values of one shape. -/
def list (s : Shape α) : Shape (List α) := ⟨readList s.read, pickList s.pick⟩

end Shape

/-! ## Records -/

/-- One field of a record that is being put together in a draft `ρ`. -/
structure FieldShape (ρ : Type) where
  name : String
  /-- Whether the draft already holds this field. -/
  isSet : ρ → Bool
  /-- The shape of the field, as what a value of it does to the draft. -/
  shape : Shape (ρ → ρ)
  /-- Whether an array may end before this field. -/
  hasDefault : Bool

namespace FieldShape

variable {ρ : Type}

/-- The field that `get` and `set` keep in the draft. -/
def of {τ : Type} (name : String) (get : ρ → Option τ) (set : τ → ρ → ρ) (shape : Shape τ)
    (hasDefault : Bool) : FieldShape ρ where
  name := name
  isSet draft := (get draft).isSome
  shape := shape.map set
  hasDefault := hasDefault

def named? (fields : List (FieldShape ρ)) (name : String) : Option (FieldShape ρ) :=
  fields.find? fun f => f.name == name

/-- The value of a field that has to be there. -/
def required {τ : Type} (name : String) (value : Option τ) : Except Mismatch τ :=
  match value with
  | some v => .ok v
  | none => .error (.missingField name)

/-! ### From a text -/

/-- Reads the fields of a record from the items of an array. -/
def readItems (expected : String) : Bool → Nat → List (FieldShape ρ) → ρ → Reader ρ
  | _, _, [], draft => pure draft
  | first, index, f :: fs, draft => do
    if (← Reader.nextItem first) then
      let set ← f.shape.read
      readItems expected false (index + 1) fs (set draft)
    else if f.hasDefault then readItems expected first (index + 1) fs draft
    else Reader.mismatch (.wrongLength index expected)

/-- Reads the fields of a record from the members of an object. A member takes at least one
character, so the length of the text is fuel enough. -/
def readMembers (fields : List (FieldShape ρ)) : Nat → Bool → ρ → Reader ρ
  | 0, _, _ => Reader.malformed
  | fuel + 1, first, draft => do
    if (← Reader.nextKey first) then
      Reader.drop
      let key ← text
      match named? fields (String.ofList key) with
      | some f =>
        if f.isSet draft then Reader.mismatch (.duplicateField f.name)
        else do
          Reader.expect ':'
          let set ← f.shape.read
          readMembers fields fuel false (set draft)
      | none => do
        Reader.expect ':'
        Reader.skip skipValue
        readMembers fields fuel false draft
    else pure draft

/-! ### From a document in memory -/

/-- Takes the fields of a record from the items of an array; answers the items left over too. -/
def pickItems (expected : String) :
    Nat → List (FieldShape ρ) → List Tree → ρ → Except Mismatch (ρ × List Tree)
  | _, [], items, draft => .ok (draft, items)
  | index, f :: fs, item :: items, draft => do
    let set ← f.shape.pick item
    pickItems expected (index + 1) fs items (set draft)
  | index, f :: fs, [], draft =>
    if f.hasDefault then pickItems expected (index + 1) fs [] draft
    else .error (.wrongLength index expected)

/-- Takes the fields of a record from the members of an object; the other members do not matter. -/
def pickMembers (fields : List (FieldShape ρ)) : Members → ρ → Except Mismatch ρ
  | [], draft => .ok draft
  | (name, value) :: rest, draft =>
    match named? fields name with
    | some f => do
      let set ← f.shape.pick value
      pickMembers fields rest (set draft)
    | none => pickMembers fields rest draft

end FieldShape

namespace Shape

variable {α ρ : Type}

/-- How a message names the array that a record stands as. -/
def arrayOf (name : String) (count : Nat) : String :=
  "struct " ++ name ++ " with " ++ toString count ++ if count = 1 then " element" else " elements"

def readRecord (name : String) (fields : List (FieldShape ρ)) (empty : ρ)
    (finish : ρ → Except Mismatch α) : Reader α := do
  let draft ← match (← Reader.peek?) with
    | some '[' => do
      Reader.drop
      let draft ← FieldShape.readItems (arrayOf name fields.length) true 0 fields empty
      Reader.expect ']'
      pure draft
    | some '\x7b' => do
      Reader.drop
      let draft ← FieldShape.readMembers fields ((← get).length + 1) true empty
      Reader.expect '\x7d'
      pure draft
    | some _ => Reader.wrongType ("struct " ++ name)
    | none => Reader.malformed
  match finish draft with
  | .ok a => pure a
  | .error m => Reader.mismatch m

def pickRecord (name : String) (fields : List (FieldShape ρ)) (empty : ρ)
    (finish : ρ → Except Mismatch α) : Picker α
  | .list items => do
    let (draft, rest) ← FieldShape.pickItems (arrayOf name fields.length) 0 fields items empty
    let a ← finish draft
    if rest.isEmpty then pure a
    else .error (.wrongLength items.length "fewer elements in array")
  | .object members => do
    let draft ← FieldShape.pickMembers fields members empty
    finish draft
  | t => .error (.wrongType t.found ("struct " ++ name))

/-- A record: an array of its fields in order, or an object with them in any order. -/
def record (name : String) (fields : List (FieldShape ρ)) (empty : ρ)
    (finish : ρ → Except Mismatch α) : Shape α :=
  ⟨readRecord name fields empty finish, pickRecord name fields empty finish⟩

end Shape

end BoardGpio.Json
