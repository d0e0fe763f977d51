import BoardGpio.Board.Basic
import BoardGpio.File
import BoardGpio.Json.Format
import BoardGpio.PinSet
import BoardGpio.Settings.Basic

/-!
# Documents of the library's types

Which types have a written form: the format they are read in, and the document they are written as.
Fields of settings may be left out and then keep their defaults; durations are written in whole
milliseconds. A whole program's settings are checked after reading, whichever library reads them, so
a document with a poll interval of zero is refused.
-/

set_option autoImplicit false

namespace BoardGpio

open Json

/-- A type with a written form. -/
class Document (α : Type) where
  /-- How the values stand in documents. -/
  format : Format α
  /-- The value as a document. -/
  toDoc : α → Doc

namespace Document

variable {α : Type}

/-- The value that a text holds, as a library reads it. -/
def read [Document α] (lib : Library) (s : String) : Except Error α :=
  match lib.read (format : Format α) s with
  | .ok a => .ok a
  | .error p => .error (.json p)

/-- The text that a library writes for a value. -/
def write [Document α] (lib : Library) (a : α) : String :=
  lib.write (toDoc a)

/-- The value that a text holds. -/
def parse [Document α] (s : String) : Except Error α :=
  read .stream s

/-- The value that a document in memory holds. -/
def pick [Document α] (t : Tree) : Except Error α :=
  match (format : Format α).shape.pick t with
  | .ok a => .ok a
  | .error m => .error (.json (.mismatch m))

/-- The values that an array in memory holds. -/
def pickList [Document α] (t : Tree) : Except Error (List α) :=
  match (Shape.list (format : Format α).shape).pick t with
  | .ok as => .ok as
  | .error m => .error (.json (.mismatch m))

def compactText [Document α] (a : α) : String :=
  (toDoc a).compactText

end Document

def docOfOption (x : Option Doc) : Doc := x.getD .null

instance : Document Mode := ⟨.choice Mode.all Mode.word, fun m => .text m.word⟩

instance : Document Pull := ⟨.choice Pull.all Pull.word, fun p => .text p.word⟩

instance : Document Numbering := ⟨.choice Numbering.all Numbering.word, fun n => .text n.word⟩

instance : Document ActiveLevel :=
  ⟨.choice ActiveLevel.all ActiveLevel.word, fun a => .text a.word⟩

instance : Document Soc := ⟨.choice Soc.all Soc.word, fun s => .text s.word⟩

instance : Document BoardRevision :=
  ⟨.choice BoardRevision.all BoardRevision.word, fun r => .text r.word⟩

instance : Document PinSet where
  format := .map (fun n => ⟨BitVec.ofNat 128 n⟩) (.natural .bits128)
  toDoc s := .number s.bits.toNat

/-! ## Pins of ports -/

/-- An input pin that is being read. -/
structure InputPinDraft where
  pin : Option Nat := none
  active : Option ActiveLevel := none
  pull : Option Pull := none

def InputPinDraft.fields : Fields InputPinDraft :=
  .field "pin" (·.pin) (fun v d => { d with pin := some v }) (.natural .bits32) false <|
  .field "active" (·.active) (fun v d => { d with active := some v }) Document.format true <|
  .field "pull" (·.pull) (fun v d => { d with pull := some v }) Document.format true <|
  .nil

/-- The input pin of a draft. -/
def InputPinDraft.finish (d : InputPinDraft) : Except Mismatch InputPin := do
  let pin ← FieldShape.required "pin" d.pin
  pure { pin := pin, active := d.active.getD .high, pull := d.pull.getD .off }

instance : Document InputPin where
  format := .record "DinPin" InputPinDraft.fields {} InputPinDraft.finish
  toDoc p := .record
    [("pin", .number p.pin), ("active", Document.toDoc p.active), ("pull", Document.toDoc p.pull)]

/-- An output pin that is being read. -/
structure OutputPinDraft where
  pin : Option Nat := none
  active : Option ActiveLevel := none

def OutputPinDraft.fields : Fields OutputPinDraft :=
  .field "pin" (·.pin) (fun v d => { d with pin := some v }) (.natural .bits32) false <|
  .field "active" (·.active) (fun v d => { d with active := some v }) Document.format true <|
  .nil

/-- The output pin of a draft. -/
def OutputPinDraft.finish (d : OutputPinDraft) : Except Mismatch OutputPin := do
  let pin ← FieldShape.required "pin" d.pin
  pure { pin := pin, active := d.active.getD .high }

instance : Document OutputPin where
  format := .record "DoutPin" OutputPinDraft.fields {} OutputPinDraft.finish
  toDoc p := .record [("pin", .number p.pin), ("active", Document.toDoc p.active)]

/-! ## Boards -/

/-- A board that is being read. -/
structure BoardDraft where
  model : Option String := none
  soc : Option Soc := none
  revision : Option BoardRevision := none
  revisionCode : Option (Option Nat) := none
  ioBase : Option Nat := none

def BoardDraft.fields : Fields BoardDraft :=
  .field "model" (·.model) (fun v d => { d with model := some v }) (.string "a string") false <|
  .field "soc" (·.soc) (fun v d => { d with soc := some v }) Document.format false <|
  .field "revision" (·.revision) (fun v d => { d with revision := some v }) Document.format false <|
  .field "revision_code" (·.revisionCode) (fun v d => { d with revisionCode := some v })
    (.optional (.natural .bits32)) false <|
  .field "io_base" (·.ioBase) (fun v d => { d with ioBase := some v }) (.natural .bits64) false <|
  .nil

/-- The board of a draft; an object may leave out the revision code. -/
def BoardDraft.finish (d : BoardDraft) : Except Mismatch BoardInfo := do
  let model ← FieldShape.required "model" d.model
  let soc ← FieldShape.required "soc" d.soc
  let revision ← FieldShape.required "revision" d.revision
  let ioBase ← FieldShape.required "io_base" d.ioBase
  pure
    { model := model
      soc := soc
      revision := revision
      revisionCode := d.revisionCode.join
      ioBase := ioBase }

instance : Document BoardInfo where
  format := .record "BoardInfo" BoardDraft.fields {} BoardDraft.finish
  toDoc b := .record
    [ ("model", .text b.model),
      ("soc", Document.toDoc b.soc),
      ("revision", Document.toDoc b.revision),
      ("revision_code", docOfOption (b.revisionCode.map .number)),
      ("io_base", .number b.ioBase) ]

/-! ## Settings -/

/-- Handle settings that are being read. -/
structure HandleDraft where
  numbering : Option Numbering := none
  releaseOnClose : Option Bool := none
  memDevice : Option String := none

def HandleDraft.fields : Fields HandleDraft :=
  .field "numbering" (·.numbering) (fun v d => { d with numbering := some v })
    Document.format true <|
  .field "release_on_close" (·.releaseOnClose) (fun v d => { d with releaseOnClose := some v })
    .flag true <|
  .field "mem_device" (·.memDevice) (fun v d => { d with memDevice := some v })
    (.string "path string") true <|
  .nil

/-- The handle settings of a draft; what was left out keeps its default. -/
def HandleDraft.finish (d : HandleDraft) : Except Mismatch HandleSettings :=
  let default : HandleSettings := {}
  .ok
    { numbering := d.numbering.getD default.numbering
      releaseOnClose := d.releaseOnClose.getD default.releaseOnClose
      memDevice := d.memDevice.getD default.memDevice }

instance : Document HandleSettings where
  format := .record "GpioConfig" HandleDraft.fields {} HandleDraft.finish
  toDoc s := .record
    [ ("numbering", Document.toDoc s.numbering),
      ("release_on_close", .boolean s.releaseOnClose),
      ("mem_device", .text s.memDevice) ]

def millisFormat : Format Duration := .map Duration.ofMillis (.natural .bits64)

/-- Input settings that are being read. -/
structure InputDraft where
  pollInterval : Option Duration := none
  debounce : Option (Option Duration) := none

def InputDraft.fields : Fields InputDraft :=
  .field "poll_interval_ms" (·.pollInterval) (fun v d => { d with pollInterval := some v })
    millisFormat true <|
  .field "debounce_ms" (·.debounce) (fun v d => { d with debounce := some v })
    (.optional millisFormat) true <|
  .nil

/-- The input settings of a draft; what was left out keeps its default. -/
def InputDraft.finish (d : InputDraft) : Except Mismatch InputSettings :=
  let default : InputSettings := {}
  .ok
    { pollInterval := d.pollInterval.getD default.pollInterval
      debounce := d.debounce.getD default.debounce }

instance : Document InputSettings where
  format := .record "DinConfig" InputDraft.fields {} InputDraft.finish
  toDoc s := .record
    [ ("poll_interval_ms", .number s.pollInterval.documentMillis),
      ("debounce_ms", docOfOption (s.debounce.map fun d => .number d.documentMillis)) ]

/-- Settings that are being read. -/
structure SettingsDraft where
  handle : Option HandleSettings := none
  input : Option InputSettings := none

def SettingsDraft.fields : Fields SettingsDraft :=
  .field "gpio" (·.handle) (fun v d => { d with handle := some v }) Document.format true <|
  .field "din" (·.input) (fun v d => { d with input := some v }) Document.format true <|
  .nil

/-- The settings of a draft; what was left out keeps its default. -/
def SettingsDraft.finish (d : SettingsDraft) : Except Mismatch Settings :=
  .ok { handle := d.handle.getD {}, input := d.input.getD {} }

instance : Document Settings where
  format := .record "Config" SettingsDraft.fields {} SettingsDraft.finish
  toDoc s := .record [("gpio", Document.toDoc s.handle), ("din", Document.toDoc s.input)]

namespace Settings

/-- Reads settings from a text and checks them. -/
def read (lib : Library) (s : String) : Except Error Settings := do
  let settings ← Document.read (α := Settings) lib s
  settings.input.validate
  pure settings

def write (lib : Library) (s : Settings) : String :=
  Document.write lib s

def ofText (s : String) : Except Error Settings :=
  read .stream s

/-- Reads settings from a file and checks them. -/
def ofFile (file : Option ByteArray) : Except Error Settings := do
  let text ← File.text file
  ofText text

def text (s : Settings) : String :=
  s.write .stream

end Settings

end BoardGpio
