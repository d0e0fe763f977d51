import BoardGpio.Json.Problem
import BoardGpio.Pin
import BoardGpio.Text.Hex

/-!
# Failures

What can go wrong, kept as causes: the wording is made in one place per type, by its `message`. An
`Error` is an answer that a caller handles. A `Fault` is a broken promise inside the library, such
as a word outside its window; it stops the operation where it stands. One fault ends nothing: an
operation in a `deadlock` never returns.
-/

set_option autoImplicit false

namespace BoardGpio

/-- Why the operating system refused. -/
inductive IoError where
  | notFound
  | outOfMemory
  | notADirectory
  | isADirectory
  | invalidArgument
  | nameTooLong
  | valueTooLarge
  | nulInPath
  | invalidText
  | baseOutOfRange
  | other (text : String)
  deriving DecidableEq, Repr

/-- Why settings, a pin table or a pin call were refused. -/
inductive ConfigProblem where
  | zeroPollInterval
  | sharedLogical (table : String)
  | sharedHeader (table : String)
  | headerOnly (table : String)
  | tableTooLarge (table : String) (max : Nat) (backend : String) (count : Nat)
  | injected (call : String) (pin : Nat)
  | other (text : String)
  deriving DecidableEq, Repr

/-- Why a board was not recognised. -/
inductive BoardProblem where
  | noRevision (hardware : String)
  | unknownRevision (code : Nat)
  | noModel (hardware : String)
  | unknownModel (model : String)
  | other (text : String)
  deriving DecidableEq, Repr

/-- An answer that tells a caller why an operation did not happen. -/
inductive Error where
  | invalidPin (pin : Nat) (numbering : Numbering)
  | invalidPortIndex (index size : Nat)
  | unsupportedMode (pin : Nat) (mode : Mode)
  | unsupportedBoard (why : BoardProblem)
  | maskOverflow (pin capacity : Nat)
  | map (path : String) (base : Nat) (why : IoError)
  | io (why : IoError)
  | config (why : ConfigProblem)
  | json (why : Json.Problem)
  | thread (text : String)
  deriving DecidableEq, Repr

/-- A broken promise inside the library. -/
inductive Fault where
  | outsideWindow (word len : Nat)
  | addressOverflow
  | noBackend (rig : Nat)
  | noHandle (handle : Nat)
  | unfit (name : String)
  /-- The operation waits for what waits for the operation. -/
  | deadlock
  deriving DecidableEq, Repr

/-- Why an operation ended early. -/
inductive Failure where
  | error (e : Error)
  | fault (f : Fault)
  deriving DecidableEq, Repr

/-- The wording of a refusal by the operating system. -/
def IoError.message : IoError → String
  | notFound => "No such file or directory (os error 2)"
  | outOfMemory => "Cannot allocate memory (os error 12)"
  | notADirectory => "Not a directory (os error 20)"
  | isADirectory => "Is a directory (os error 21)"
  | invalidArgument => "Invalid argument (os error 22)"
  | nameTooLong => "File name too long (os error 36)"
  | valueTooLarge => "Value too large for defined data type (os error 75)"
  | nulInPath => "file name contained an unexpected NUL byte"
  | invalidText => "stream did not contain valid UTF-8"
  | baseOutOfRange => "base address does not fit the platform file offset"
  | other text => text

def ConfigProblem.message : ConfigProblem → String
  | zeroPollInterval => "poll interval must be non-zero"
  | sharedLogical table =>
    "pin table '" ++ table ++ "' maps two logical pins to the same MCU pin"
  | sharedHeader table =>
    "pin table '" ++ table ++ "' maps two header pins to the same MCU pin"
  | headerOnly table =>
    "pin table '" ++ table ++ "' has header pins without a logical pin"
  | tableTooLarge table max backend count =>
    "pin table '" ++ table ++ "' uses MCU pin " ++ toString max ++ " but the " ++ backend ++
      " backend has " ++ toString count ++ " pins"
  | injected call pin => "injected " ++ call ++ " fault on pin " ++ toString pin
  | other text => text

def BoardProblem.message : BoardProblem → String
  | noRevision hardware =>
    "no Raspberry Pi revision in cpuinfo (hardware '" ++ hardware ++ "')"
  | unknownRevision code => "Raspberry Pi revision " ++ Text.hexLower 4 code
  | noModel hardware => "Allwinner board '" ++ hardware ++ "' without a device-tree model"
  | unknownModel model => model
  | other text => text

/-- The wording of a problem in a document. -/
def Json.Problem.message : Json.Problem → String
  | malformed => "malformed document"
  | mismatch m => m.message

namespace Error

def message : Error → String
  | invalidPin pin numbering => "Invalid " ++ numbering.word ++ " pin: " ++ toString pin
  | invalidPortIndex index size =>
    "Invalid port index " ++ toString index ++ " (port has " ++ toString size ++ " pins)"
  | unsupportedMode pin mode =>
    "Mode " ++ mode.label ++ " is not supported on MCU pin " ++ toString pin
  | unsupportedBoard why => "Unsupported board: " ++ why.message
  | maskOverflow pin capacity =>
    "Pin " ++ toString pin ++ " exceeds the pin mask capacity of " ++ toString capacity
  | map path base why =>
    "Failed to map " ++ path ++ " at 0x" ++ Text.hexUpper 8 base ++ ": " ++ why.message
  | io why => "I/O error: " ++ why.message
  | config why => "Invalid configuration: " ++ why.message
  | json why => "Configuration parse error: " ++ why.message
  | thread text => "Monitor thread error: " ++ text

/-- The wording of the error behind this one, if there is one. -/
def source? : Error → Option String
  | map _ _ why => some why.message
  | io why => some why.message
  | json why => some why.message
  | _ => none

end Error

def Fault.message : Fault → String
  | outsideWindow word len =>
    "register word " ++ toString word ++ " outside a " ++ toString len ++ "-byte window"
  | addressOverflow => "attempt to add with overflow"
  | noBackend rig => "no backend " ++ toString rig
  | noHandle handle => "no handle " ++ toString handle
  | unfit name => "nothing to call on '" ++ name ++ "'"
  | deadlock => "waiting for a monitor that waits in turn"

end BoardGpio
