import BoardGpio.Json.Render
import BoardGpio.Json.Shape

/-!
# Formats, and libraries of documents

A format describes how the values of a type stand in documents: which kind of value they are, the
names that a choice has, the fields of a record and what each does to the draft that the record is
put together in. It says nothing of texts. Texts are the business of a library of documents, which
reads a value as its format describes it and writes a document down. `Library.stream` is one: it
reads with the readers of `Format.shape`, and spreads what it writes over lines.
-/

set_option autoImplicit false

namespace BoardGpio.Json

/-- How many bits a whole number may take. -/
inductive Width where
  | bits32
  | bits64
  | bits128

namespace Width

/-- The numbers of a width are those below its bound. -/
def bound : Width → Nat
  | bits32 => UInt32.size
  | bits64 => UInt64.size
  | bits128 => UInt64.size * UInt64.size

def shape : Width → Shape Nat
  | bits32 => .nat32
  | bits64 => .nat64
  | bits128 => .nat128

end Width

mutual

/-- How the values of a type stand in documents. -/
inductive Format : Type → Type 1 where
  | natural (width : Width) : Format Nat
  | flag : Format Bool
  /-- A string; `expected` names its role in messages. -/
  | string (expected : String) : Format String
  /-- One of several values, by its name. -/
  | choice {α : Type} (options : List α) (name : α → String) : Format α
  /-- A value that may be missing. -/
  | optional {α : Type} (value : Format α) : Format (Option α)
  /-- Values made from others that stand in the document. -/
  | map {α β : Type} (f : α → β) (value : Format α) : Format β
  /-- A record: its fields change a draft, empty at first, and the draft is finished to a value. -/
  | record {ρ α : Type} (name : String) (fields : Fields ρ) (empty : ρ)
      (finish : ρ → Except Mismatch α) : Format α

/-- The fields of a record, in their declared order. -/
inductive Fields : Type → Type 1 where
  | nil {ρ : Type} : Fields ρ
  /-- A field that `get` and `set` keep in the draft; an array may end before it if it has a
  default. -/
  | field {ρ τ : Type} (name : String) (get : ρ → Option τ) (set : τ → ρ → ρ) (value : Format τ)
      (hasDefault : Bool) (rest : Fields ρ) : Fields ρ

end

mutual

/-- The readers and pickers that a format describes. -/
def Format.shape : {α : Type} → Format α → Shape α
  | _, .natural width => width.shape
  | _, .flag => .flag
  | _, .string expected => .string expected
  | _, .choice options name => .choice options name
  | _, .optional value => .optional value.shape
  | _, .map f value => value.shape.map f
  | _, .record name fields empty finish => .record name fields.shapes empty finish

def Fields.shapes : {ρ : Type} → Fields ρ → List (FieldShape ρ)
  | _, .nil => []
  | _, .field name get set value hasDefault rest =>
    .of name get set value.shape hasDefault :: rest.shapes

end

/-- Reads values from texts and writes documents as texts. -/
structure Library where
  read : {α : Type} → Format α → String → Except Problem α
  write : Doc → String

/-- The library that reads a text once, from left to right. -/
def Library.stream : Library where
  read format s := format.shape.read.document s.toList
  write doc := doc.prettyText

end BoardGpio.Json
