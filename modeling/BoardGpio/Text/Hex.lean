/-!
# Numbers in base sixteen

Writing a number in hexadecimal digits, filled up with zeros to a least width, and reading one back
within a bound.
-/

set_option autoImplicit false

namespace BoardGpio.Text

/-- The characters filled up with zeros on the left to a least width. -/
def zeroFill (width : Nat) (cs : List Char) : List Char :=
  List.replicate (width - cs.length) '0' ++ cs

/-- A number in lower-case hexadecimal digits of at least this width. -/
def hexLower (width n : Nat) : String :=
  String.ofList (zeroFill width (Nat.toDigits 16 n))

/-- A number in upper-case hexadecimal digits of at least this width. -/
def hexUpper (width n : Nat) : String :=
  String.ofList ((zeroFill width (Nat.toDigits 16 n)).map Char.toUpper)

/-- The value of a hexadecimal digit of either case. -/
def hexDigit? (c : Char) : Option Nat :=
  if '0' ≤ c ∧ c ≤ '9' then some (c.toNat - '0'.toNat)
  else if 'a' ≤ c ∧ c ≤ 'f' then some (c.toNat - 'a'.toNat + 10)
  else if 'A' ≤ c ∧ c ≤ 'F' then some (c.toNat - 'A'.toNat + 10)
  else none

/-- The number that hexadecimal digits continue from `acc`. -/
def hexValue? (acc : Nat) : List Char → Option Nat
  | [] => some acc
  | c :: cs => (hexDigit? c).bind fun d => hexValue? (16 * acc + d) cs

/-- The number below `bound` that a text of hexadecimal digits stands for; one plus sign may come
first, and there is at least one digit. -/
def hexNumber? (bound : Nat) (cs : List Char) : Option Nat :=
  let digits := match cs with
    | '+' :: rest => rest
    | _ => cs
  if digits.isEmpty then none
  else (hexValue? 0 digits).filter (· < bound)

end BoardGpio.Text
