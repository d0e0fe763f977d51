/-!
# The shortest decimal of a double

A finite double is `m * 2 ^ q`. Among the decimals that round to it, the one with the fewest digits
is chosen, and of those the nearest. The search is done in exact natural-number arithmetic: for one
digit, two digits, up to seventeen, the two grid points around the value are tested. Where
positional notation ends is one record value, `Decimal.Layout.document`; past it an exponent is
written, with its sign and unpadded.
-/

set_option autoImplicit false

namespace BoardGpio.Decimal

/-- A finite nonzero double without its sign: `mantissa * 2 ^ exponent`. -/
structure Binary where
  mantissa : Nat
  exponent : Int
  deriving DecidableEq, Repr

/-- Digits and a power of ten: `digits * 10 ^ exponent`. -/
structure Scaled where
  digits : Nat
  exponent : Int
  deriving DecidableEq, Repr

/-- Where positional notation is used; beyond it a decimal has one digit before its point and an
exponent. -/
structure Layout where
  /-- Least exponent of the first digit that is written positionally. -/
  minPositional : Int
  /-- Greatest exponent of the first digit that is written positionally. -/
  maxPositional : Int

/-- Documents write numbers from `1e-5` below `1e16` positionally. -/
def Layout.document : Layout := ⟨-5, 15⟩

namespace Binary

/-- The bit that a normal double leaves out of its fraction. -/
def hidden : Nat := 0x10000000000000

/-- The magnitude of the finite double with these bits. -/
def ofBits (bits : UInt64) : Binary :=
  let fraction := bits.toNat % hidden
  let biased : Nat := bits.toNat / hidden % 0x800
  if biased = 0 then ⟨fraction, -1074⟩ else ⟨fraction + hidden, Int.ofNat biased - 1075⟩

/-- Numerator of four times the value, over `scale`. -/
def quadruple (b : Binary) : Nat :=
  4 * b.mantissa * (1 <<< b.exponent.toNat)

/-- Denominator that goes with `quadruple`, four included. -/
def scale (b : Binary) : Nat :=
  4 * (1 <<< (-b.exponent).toNat)

/-- Distance from four times the value down to the end of the interval that rounds to it. -/
def below (b : Binary) : Nat :=
  (if b.mantissa = hidden ∧ b.exponent > -1074 then 1 else 2) * (1 <<< b.exponent.toNat)

/-- Distance from four times the value up to the end of the interval that rounds to it. -/
def above (b : Binary) : Nat :=
  2 * (1 <<< b.exponent.toNat)

/-- Whether a decimal lies in the interval that rounds to the value; the ends belong to it when the
mantissa is even. -/
def admits (b : Binary) (d : Scaled) : Bool :=
  let lhs := d.digits * Nat.pow 10 d.exponent.toNat * b.scale
  let unit := Nat.pow 10 (-d.exponent).toNat
  let lo := (b.quadruple - b.below) * unit
  let hi := (b.quadruple + b.above) * unit
  if b.mantissa % 2 = 0 then lo ≤ lhs && lhs ≤ hi else lo < lhs && lhs < hi

/-- Exponent of the first decimal digit, searched downwards from a bound that is surely enough. -/
def leadingExponent (b : Binary) : Nat → Int → Int
  | 0, e => e
  | fuel + 1, e =>
    if Nat.pow 10 e.toNat * b.scale ≤ b.quadruple * Nat.pow 10 (-e).toNat then e
    else b.leadingExponent fuel (e - 1)

/-- The nearer of the two points of the grid `10 ^ e` around the value that round to it. -/
def onGrid? (b : Binary) (e : Int) : Option Scaled :=
  let num := b.quadruple * Nat.pow 10 (-e).toNat
  let den := b.scale * Nat.pow 10 e.toNat
  let down : Scaled := ⟨num / den, e⟩
  let up : Scaled := ⟨num / den + 1, e⟩
  let rest := num % den
  match b.admits down, b.admits up with
  | true, true =>
    if 2 * rest < den then some down
    else if 2 * rest > den then some up
    else if down.digits % 2 = 0 then some down else some up
  | true, false => some down
  | false, true => some up
  | false, false => none

/-- The first grid with a hit, from one digit on. -/
def search (b : Binary) (lead : Int) : List Nat → Scaled
  | [] => ⟨0, 0⟩
  | n :: rest =>
    match b.onGrid? (lead - n) with
    | some d => d
    | none => b.search lead rest

/-- The shortest decimal that rounds to the value. -/
def shortest (b : Binary) : Scaled :=
  b.search (b.leadingExponent 640 309) (List.range 17)

end Binary

/-- Digits without trailing zeros, and the exponent that makes up for them. -/
def Scaled.trim (s : Scaled) : Nat → Scaled
  | 0 => s
  | fuel + 1 =>
    if s.digits ≠ 0 ∧ s.digits % 10 = 0 then
      Scaled.trim ⟨s.digits / 10, s.exponent + 1⟩ fuel
    else s

/-- An exponent: always signed, and with no more digits than it needs. -/
def exponentText (e : Int) : String :=
  (if e < 0 then "e-" else "e+") ++ String.ofList (Nat.toDigits 10 e.natAbs)

/-- A nonzero decimal in a layout. -/
def Layout.text (l : Layout) (s : Scaled) : String :=
  let s := s.trim 20
  let digits := Nat.toDigits 10 s.digits
  let lead := s.exponent + (digits.length : Int) - 1
  if l.minPositional ≤ lead ∧ lead ≤ l.maxPositional then
    if 0 ≤ s.exponent then
      String.ofList (digits ++ List.replicate s.exponent.toNat '0') ++ ".0"
    else if 0 ≤ lead then
      String.ofList (digits.take (lead.toNat + 1)) ++ "." ++
        String.ofList (digits.drop (lead.toNat + 1))
    else
      "0." ++ String.ofList (List.replicate ((-lead).toNat - 1) '0' ++ digits)
  else
    match digits with
    | [] => ""
    | [d] => String.ofList [d] ++ exponentText lead
    | d :: rest => String.ofList [d] ++ "." ++ String.ofList rest ++ exponentText lead

/-- The text of the finite double with these bits. -/
def text (l : Layout) (bits : UInt64) : String :=
  let sign := if UInt64.size / 2 ≤ bits.toNat then "-" else ""
  let b := Binary.ofBits bits
  sign ++ (if b.mantissa = 0 then "0.0" else l.text b.shortest)

end BoardGpio.Decimal
