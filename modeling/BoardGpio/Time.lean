/-!
# Durations

A length of time in nanoseconds, and its two written forms: whole milliseconds in documents, where
the count is kept modulo `2 ^ 64`, and a short text with the largest unit that leaves a whole part,
used when a port is shown.
-/

set_option autoImplicit false

namespace BoardGpio

/-- A length of time. -/
structure Duration where
  nanos : Nat
  deriving DecidableEq, Repr, Inhabited

namespace Duration

/-- Number of values a document's millisecond count can take. -/
def millisBound : Nat := UInt64.size

/-- A duration of whole seconds and further nanoseconds. -/
def ofParts (secs nanos : Nat) : Duration :=
  ⟨secs * 1000000000 + nanos⟩

def ofMillis (ms : Nat) : Duration :=
  ⟨ms * 1000000⟩

def secs (d : Duration) : Nat :=
  d.nanos / 1000000000

/-- The nanoseconds beyond the whole seconds. -/
def subsecNanos (d : Duration) : Nat :=
  d.nanos % 1000000000

def millis (d : Duration) : Nat :=
  d.nanos / 1000000

/-- The millisecond count a document holds for this duration. -/
def documentMillis (d : Duration) : Nat :=
  d.millis % millisBound

def isZero (d : Duration) : Bool :=
  d.nanos == 0

/-- A fraction of the unit `10 ^ places`, without its trailing zeros and with its point; nothing
for zero. -/
def fractionText (places : Nat) (part : Nat) : String :=
  if part = 0 then ""
  else
    let digits := (Nat.toDigits 10 part)
    let padded := List.replicate (places - digits.length) '0' ++ digits
    "." ++ String.ofList (padded.reverse.dropWhile (· == '0')).reverse

/-- The duration in its largest unit: seconds, milliseconds, microseconds or nanoseconds. -/
def text (d : Duration) : String :=
  if d.secs > 0 then
    toString d.secs ++ fractionText 9 d.subsecNanos ++ "s"
  else if d.nanos ≥ 1000000 then
    toString (d.nanos / 1000000) ++ fractionText 6 (d.nanos % 1000000) ++ "ms"
  else if d.nanos ≥ 1000 then
    toString (d.nanos / 1000) ++ fractionText 3 (d.nanos % 1000) ++ "µs"
  else
    toString d.nanos ++ "ns"

@[simp] theorem millis_ofMillis (ms : Nat) : (ofMillis ms).millis = ms := by
  simp [ofMillis, millis]

end Duration

end BoardGpio
