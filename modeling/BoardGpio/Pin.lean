/-!
# Pins and their settings

The words used about a single pin: its mode, its pull resistor, the scheme its number is given in,
and the level at which it counts as active. Each type lists its values once, with the lower-case
word used in documents, so that reading and writing a word share one table. Main statement of the
module: every word reads back as the value it was written for (`Mode.ofWord?_word` and its
companions).
-/

set_option autoImplicit false

namespace BoardGpio

/-- What a pin is switched to: plain input or output, one of the alternate functions of the chip,
pulse-width modulation, or parked. -/
inductive Mode where
  | input
  | output
  | alt0
  | alt1
  | alt2
  | alt3
  | alt4
  | alt5
  | pwm
  | disabled
  deriving DecidableEq, Repr, Inhabited

/-- The resistor behind an input that nothing drives. -/
inductive Pull where
  | off
  | down
  | up
  deriving DecidableEq, Repr, Inhabited

/-- The scheme a pin number is given in: position in the board's logical list, number on the
chip, or position on the header counted from one. -/
inductive Numbering where
  | logical
  | mcu
  | physical
  deriving DecidableEq, Repr, Inhabited

/-- The raw level at which an input or output of a port counts as active. -/
inductive ActiveLevel where
  | high
  | low
  deriving DecidableEq, Repr, Inhabited

namespace Mode

/-- Every mode, in the order documents list them. -/
def all : List Mode :=
  [.input, .output, .alt0, .alt1, .alt2, .alt3, .alt4, .alt5, .pwm, .disabled]

/-- The word for a mode in documents. -/
def word : Mode → String
  | input => "input"
  | output => "output"
  | alt0 => "alt0"
  | alt1 => "alt1"
  | alt2 => "alt2"
  | alt3 => "alt3"
  | alt4 => "alt4"
  | alt5 => "alt5"
  | pwm => "pwm"
  | disabled => "disabled"

def label : Mode → String
  | input => "INPUT"
  | output => "OUTPUT"
  | alt0 => "ALT0"
  | alt1 => "ALT1"
  | alt2 => "ALT2"
  | alt3 => "ALT3"
  | alt4 => "ALT4"
  | alt5 => "ALT5"
  | pwm => "PWM"
  | disabled => "DISABLED"

def ofWord? (w : String) : Option Mode :=
  all.find? (fun m => m.word == w)

theorem mem_all (m : Mode) : m ∈ all := by
  cases m <;> decide

theorem ofWord?_word (m : Mode) : ofWord? m.word = some m := by
  cases m <;> decide

end Mode

namespace Pull

/-- Every pull, in the order documents list them. -/
def all : List Pull :=
  [.off, .down, .up]

/-- The word for a pull in documents. -/
def word : Pull → String
  | off => "off"
  | down => "down"
  | up => "up"

def label : Pull → String
  | off => "OFF"
  | down => "DOWN"
  | up => "UP"

def ofWord? (w : String) : Option Pull :=
  all.find? (fun p => p.word == w)

theorem mem_all (p : Pull) : p ∈ all := by
  cases p <;> decide

theorem ofWord?_word (p : Pull) : ofWord? p.word = some p := by
  cases p <;> decide

end Pull

namespace Numbering

/-- Every numbering, in the order documents list them. -/
def all : List Numbering :=
  [.logical, .mcu, .physical]

/-- The word for a numbering, in documents and in messages. -/
def word : Numbering → String
  | logical => "logical"
  | mcu => "mcu"
  | physical => "physical"

def ofWord? (w : String) : Option Numbering :=
  all.find? (fun n => n.word == w)

theorem mem_all (n : Numbering) : n ∈ all := by
  cases n <;> decide

theorem ofWord?_word (n : Numbering) : ofWord? n.word = some n := by
  cases n <;> decide

end Numbering

namespace ActiveLevel

/-- Both levels, in the order documents list them. -/
def all : List ActiveLevel :=
  [.high, .low]

/-- The word for an active level in documents. -/
def word : ActiveLevel → String
  | high => "high"
  | low => "low"

def ofWord? (w : String) : Option ActiveLevel :=
  all.find? (fun a => a.word == w)

/-- The raw level of a pin that is active (`on`) or inactive. -/
def raw (a : ActiveLevel) (on : Bool) : Bool :=
  on == decide (a = .high)

/-- Whether a raw level counts as active. -/
def normalize (a : ActiveLevel) (level : Bool) : Bool :=
  level == decide (a = .high)

theorem mem_all (a : ActiveLevel) : a ∈ all := by
  cases a <;> decide

theorem ofWord?_word (a : ActiveLevel) : ofWord? a.word = some a := by
  cases a <;> decide

/-- Normalizing undoes the choice of the raw level. -/
@[simp] theorem normalize_raw (a : ActiveLevel) (on : Bool) : a.normalize (a.raw on) = on := by
  cases a <;> cases on <;> rfl

/-- The raw level of what a raw level means is that raw level. -/
@[simp] theorem raw_normalize (a : ActiveLevel) (level : Bool) :
    a.raw (a.normalize level) = level := by
  cases a <;> cases level <;> rfl

end ActiveLevel

end BoardGpio
