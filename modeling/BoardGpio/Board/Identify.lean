import BoardGpio.Board.Basic
import BoardGpio.File
import BoardGpio.Text.Blank
import BoardGpio.Text.Hex

/-!
# Identifying a board

A board is told from the processor description, a text of lines `name : value`, and from the model
string of its device tree. Of several lines with one name the first counts. Boards with an
Allwinner chip are told by their model string, Raspberry Pi boards by a revision code: a new-style
code (bit 23 set) holds the processor in bits 12 to 15 and the type in bits 4 to 11, an old-style
code is looked up by its low 24 bits.
-/

set_option autoImplicit false

namespace BoardGpio

namespace CpuInfo

/-- The lines of a text, without their line breaks. -/
def lines (cs : List Char) : List (List Char) :=
  cs.splitOn '\n'

/-- The trimmed name and value of a line with a colon. -/
def entry? (line : List Char) : Option (List Char × List Char) :=
  if ':' ∈ line then
    some (Text.trim (line.takeWhile (· ≠ ':')), Text.trim ((line.dropWhile (· ≠ ':')).drop 1))
  else none

/-- The value of the first line with this name. -/
def value? (name : List Char) (lines : List (List Char)) : Option (List Char) :=
  lines.findSome? fun line =>
    match entry? line with
    | some (key, value) => if key = name then some value else none
    | none => none

end CpuInfo

namespace BoardInfo

/-- Whether a text occurs in another. -/
def mentions (cs : List Char) (word : String) : Bool :=
  Text.occursIn word.toList cs

/-- The model of a new-style revision code, by its type field. -/
def newStyleModel? : Nat → Option String
  | 0x00 => some "Raspberry Pi Model A"
  | 0x01 => some "Raspberry Pi Model B"
  | 0x02 => some "Raspberry Pi Model A+"
  | 0x03 => some "Raspberry Pi Model B+"
  | 0x04 => some "Raspberry Pi 2 Model B"
  | 0x06 => some "Raspberry Pi Compute Module"
  | 0x08 => some "Raspberry Pi 3 Model B"
  | 0x09 => some "Raspberry Pi Zero"
  | 0x0a => some "Raspberry Pi Compute Module 3"
  | 0x0c => some "Raspberry Pi Zero W"
  | 0x0d => some "Raspberry Pi 3 Model B+"
  | 0x0e => some "Raspberry Pi 3 Model A+"
  | 0x10 => some "Raspberry Pi Compute Module 3+"
  | 0x11 => some "Raspberry Pi 4 Model B"
  | 0x12 => some "Raspberry Pi Zero 2 W"
  | 0x13 => some "Raspberry Pi 400"
  | 0x14 => some "Raspberry Pi Compute Module 4"
  | _ => none

/-- The chip of a new-style revision code, by its processor field. -/
def newStyleSoc? : Nat → Option Soc
  | 0 => some .bcm2835
  | 1 => some .bcm2836
  | 2 => some .bcm2837
  | 3 => some .bcm2711
  | _ => none

/-- The model and layout of an old-style revision code. -/
def oldStyle? (low : Nat) : Option (String × BoardRevision) :=
  if low = 0x02 ∨ low = 0x03 then some ("Raspberry Pi Model B", .rpiRev1)
  else if (0x04 ≤ low ∧ low ≤ 0x06) ∨ (0x0d ≤ low ∧ low ≤ 0x0f) then
    some ("Raspberry Pi Model B", .rpiRev2)
  else if 0x07 ≤ low ∧ low ≤ 0x09 then some ("Raspberry Pi Model A", .rpiRev2)
  else if low = 0x10 ∨ low = 0x13 then some ("Raspberry Pi Model B+", .rpiRev3)
  else if low = 0x11 ∨ low = 0x14 then some ("Raspberry Pi Compute Module", .rpiRev3)
  else if low = 0x12 ∨ low = 0x15 then some ("Raspberry Pi Model A+", .rpiRev3)
  else none

/-- What a revision code tells: the model, the chip and the layout. -/
def ofRevision? (code : Nat) : Option (String × Soc × BoardRevision) :=
  if code.testBit 23 then do
    let soc ← newStyleSoc? ((code >>> 12) % 0x10)
    let model ← newStyleModel? ((code >>> 4) % 0x100)
    pure (model, soc, .rpiRev3)
  else do
    let (model, revision) ← oldStyle? (code % 0x1000000)
    pure (model, .bcm2835, revision)

/-- The Raspberry Pi with this revision code. A model string that names a Raspberry Pi is used in
place of the model the code tells. -/
def raspberryPi (code : Nat) (dtModel : Option String) : Except Error BoardInfo :=
  match ofRevision? code with
  | none => .error (.unsupportedBoard (.unknownRevision code))
  | some (model, soc, revision) =>
    let named := dtModel.filter fun m => "Raspberry Pi".toList.isPrefixOf m.toList
    .ok
      { model := named.getD model
        soc := soc
        revision := revision
        revisionCode := some code
        ioBase := soc.peripheralBase }

/-- The layout that a NanoPi's model string tells. -/
def nanoPi? (model : List Char) : Option BoardRevision :=
  let lower := model.map Char.toLower
  if mentions lower "m1 plus" || mentions lower "m1plus" then some .nanoPiM1Plus
  else if mentions lower "m1" then some .nanoPiM1
  else if mentions lower "neo" then some .nanoPiNeo
  else none

/-- The board with an Allwinner chip that has this model string. -/
def allwinner (hardware : String) (dtModel : Option String) : Except Error BoardInfo :=
  match dtModel with
  | none => .error (.unsupportedBoard (.noModel hardware))
  | some model =>
    match nanoPi? model.toList with
    | none => .error (.unsupportedBoard (.unknownModel model))
    | some revision =>
      .ok
        { model := model
          soc := .allwinnerH3
          revision := revision
          revisionCode := none
          ioBase := Soc.allwinnerH3.peripheralBase }

/-- A model string without the zero characters at its end and without blanks around it. -/
def cleanModel (model : String) : String :=
  String.ofList (Text.trim (Text.trimEnd (· == '\x00') model.toList))

/-- Whether the hardware name or the model string points to an Allwinner chip. -/
def isAllwinner (hardware : List Char) (model : Option String) : Bool :=
  mentions hardware "sun8i" || mentions hardware "Allwinner" ||
    model.any fun m => mentions m.toList "NanoPi"

/-- The board that lines of a processor description and a cleaned model string tell. -/
def ofLines (lines : List (List Char)) (model : Option String) : Except Error BoardInfo :=
  let hardware := (CpuInfo.value? "Hardware".toList lines).getD []
  if isAllwinner hardware model then allwinner (String.ofList hardware) model
  else
    match (CpuInfo.value? "Revision".toList lines).bind (Text.hexNumber? UInt32.size) with
    | none => .error (.unsupportedBoard (.noRevision (String.ofList hardware)))
    | some code => raspberryPi code model

/-- The board that a processor description and a model string tell. -/
def ofSources (cpuinfo : String) (dtModel : Option String) : Except Error BoardInfo :=
  ofLines (CpuInfo.lines cpuinfo.toList) (dtModel.map cleanModel)

/-- The board that two files tell. A model file that is missing or not valid counts for nothing. -/
def ofFiles (cpuinfo dtModel : Option ByteArray) : Except Error BoardInfo := do
  let text ← File.text cpuinfo
  ofSources text (File.text dtModel).toOption

end BoardInfo

end BoardGpio
