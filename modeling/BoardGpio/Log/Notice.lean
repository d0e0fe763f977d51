import BoardGpio.Board.Basic
import BoardGpio.Edge

/-!
# Log records

What the library tells its log, kept as the fact itself; level and wording are functions of the
fact. A reader of the log sees the records up to a chosen level.
-/

set_option autoImplicit false

namespace BoardGpio

/-- How important a log record is. -/
inductive Level where
  | error
  | warn
  | info
  | debug
  | trace
  deriving DecidableEq, Repr

namespace Level

/-- The rank of a level; more important levels come first. -/
def rank : Level → Nat
  | error => 1
  | warn => 2
  | info => 3
  | debug => 4
  | trace => 5

def word : Level → String
  | error => "error"
  | warn => "warn"
  | info => "info"
  | debug => "debug"
  | trace => "trace"

def ofWord? (w : String) : Option Level :=
  [error, warn, info, debug, trace].find? (fun l => l.word == w)

/-- Whether a record of this level is seen by a reader of records up to `max`; without a level
nothing is seen. -/
def admits (max : Option Level) (l : Level) : Bool :=
  max.any fun m => l.rank ≤ m.rank

end Level

/-- A fact for the log. -/
inductive Notice where
  | said (level : Level) (text : String)
  | backendMode (backend : String) (pin : Nat) (mode : Mode)
  | modeChanged (pin mcu : Nat) (previous mode : Mode)
  | modeRestored (mcu : Nat) (mode : Mode)
  | opened (table backend : String) (numbering : Numbering) (pins : Nat)
  | joined (references : Nat)
  | numberingSet (numbering : Numbering)
  | closedAsIs
  | closed (restored : Nat)
  | restoreFailed (mcu : Nat) (e : Error)
  | releaseFailed (e : Error)
  | mapped (len base : Nat) (device : String)
  | unmapped (base : Nat)
  | backendReady (backend model : String)
  | identified (board : BoardInfo)
  | inputOpened (pins : Nat)
  | outputOpened (pins : Nat)
  | callbackFailed (index : Nat) (edge : Edge) (reason : String) (suppressed : Nat)
  | samplingFailed (e : Error) (suppressed : Nat)
  deriving DecidableEq, Repr

namespace Notice

def level : Notice → Level
  | said l _ => l
  | backendMode .. => .trace
  | modeChanged .. => .trace
  | modeRestored .. => .trace
  | opened .. => .info
  | backendReady .. => .info
  | restoreFailed .. => .warn
  | releaseFailed .. => .warn
  | callbackFailed .. => .warn
  | samplingFailed .. => .warn
  | _ => .debug

/-- How a record tells that similar ones were left out. -/
def suppressedText (n : Nat) : String :=
  if n = 0 then "" else " (" ++ toString n ++ " similar messages suppressed)"

def text : Notice → String
  | said _ text => text
  | backendMode backend pin mode => backend ++ ": pin " ++ toString pin ++ " -> " ++ mode.label
  | modeChanged pin mcu previous mode =>
    "pin " ++ toString pin ++ " (MCU " ++ toString mcu ++ "): " ++ previous.label ++ " -> " ++
      mode.label
  | modeRestored mcu mode => "MCU pin " ++ toString mcu ++ " restored to " ++ mode.label
  | opened table backend numbering pins =>
    "GPIO opened: " ++ table ++ " on " ++ backend ++ " backend, " ++ numbering.word ++
      " numbering, " ++ toString pins ++ " pins"
  | joined references => "GPIO handle joined, " ++ toString references ++ " references"
  | numberingSet numbering => "GPIO numbering set to " ++ numbering.word
  | closedAsIs => "GPIO closed, pins left as configured"
  | closed restored => "GPIO closed, " ++ toString restored ++ " pins restored"
  | restoreFailed mcu e => "Failed to restore MCU pin " ++ toString mcu ++ ": " ++ e.message
  | releaseFailed e => "GPIO release on drop failed: " ++ e.message
  | mapped len base device =>
    "Mapped " ++ toString len ++ " bytes at 0x" ++ Text.hexUpper 8 base ++ " from " ++ device
  | unmapped base => "Unmapped register window at 0x" ++ Text.hexUpper 8 base
  | backendReady backend model =>
    "GPIO backend initialized: " ++ backend ++ " (" ++ model ++ ")"
  | identified board =>
    match board.revisionCode with
    | some code =>
      "Raspberry Pi revision " ++ Text.hexLower 6 code ++ ": " ++ board.model ++ ", " ++
        board.soc.label ++ ", " ++ board.revision.label
    | none => "Allwinner board '" ++ board.model ++ "': " ++ board.revision.label
  | inputOpened pins => "Input port opened with " ++ toString pins ++ " pins"
  | outputOpened pins => "Output port opened with " ++ toString pins ++ " pins"
  | callbackFailed index edge reason suppressed =>
    "Input " ++ toString index ++ " callback failed on " ++ edge.word ++ " edge: " ++ reason ++
      suppressedText suppressed
  | samplingFailed e suppressed =>
    "Input sampling failed: " ++ e.message ++ suppressedText suppressed

end Notice

/-- Records in the order they were made, seen up to a level. -/
def seen (max : Option Level) (notices : List Notice) : List Notice :=
  notices.filter fun n => Level.admits max n.level

end BoardGpio
