/-!
# Throttling repeated records

A throttle lets at most `cap` records through per time window and counts those it refuses. A window
ends when more than its length has passed since it began; the next record begins a new one.
-/

set_option autoImplicit false

namespace BoardGpio

/-- The state of a throttle. Times are ticks of one clock. -/
structure Throttle where
  windowMs : Nat
  cap : Nat
  /-- Ticks of the clock in a millisecond. -/
  ticks : Nat
  /-- Records asked for in the current window. -/
  count : Nat := 0
  /-- Records refused since the count was last taken. -/
  suppressed : Nat := 0
  /-- When the current window began. -/
  start : Nat
  deriving DecidableEq, Repr

namespace Throttle

/-- Where counting stops. -/
def countMax : Nat := UInt32.size - 1

/-- A throttle whose first window begins now. The clock counts milliseconds if nothing else is
said. -/
def begin (windowMs cap now : Nat) (ticks : Nat := 1) : Throttle :=
  { windowMs := windowMs, cap := cap, ticks := ticks, start := now }

/-- Whole milliseconds since the current window began, in a 64-bit word. -/
def elapsedMs (t : Throttle) (now : Nat) : Nat :=
  (now - t.start) / t.ticks % UInt64.size

/-- The throttle with a new window if the current one is over. -/
def roll (t : Throttle) (now : Nat) : Throttle :=
  if t.elapsedMs now > t.windowMs then { t with start := now, count := 0 } else t

/-- Asks for one record; tells whether it is let through. -/
def allow (t : Throttle) (now : Nat) : Bool × Throttle :=
  let t := t.roll now
  let count := min (t.count + 1) countMax
  if count ≤ t.cap then (true, { t with count := count })
  else (false, { t with count := count, suppressed := t.suppressed + 1 })

/-- The number of records refused, counted anew from here on. -/
def take (t : Throttle) : Nat × Throttle :=
  (t.suppressed, { t with suppressed := 0 })

/-- A call of a throttle. -/
inductive Call where
  | allow
  | take
  deriving DecidableEq, Repr

/-- What a call answers. -/
inductive Answer where
  | allowed (yes : Bool)
  | taken (n : Nat)
  deriving DecidableEq, Repr

def perform (t : Throttle) (now : Nat) : Call → Answer × Throttle
  | .allow => let (b, t) := t.allow now; (.allowed b, t)
  | .take => let (n, t) := t.take; (.taken n, t)

/-- The answers to calls at given times, and the throttle after them. -/
def history (t : Throttle) : List (Nat × Call) → List Answer × Throttle
  | [] => ([], t)
  | (now, call) :: rest =>
    let (a, t) := t.perform now call
    let (as, t) := t.history rest
    (a :: as, t)

end Throttle

end BoardGpio
