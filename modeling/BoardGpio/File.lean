import BoardGpio.Failure

/-!
# Text files

The contents of a file are bytes, or nothing when there is no such file. A text file holds valid
UTF-8.
-/

set_option autoImplicit false

namespace BoardGpio.File

/-- The text of a file, which has to exist and to be valid. -/
def text (contents : Option ByteArray) : Except Error String :=
  match contents with
  | none => .error (.io .notFound)
  | some bytes =>
    match String.fromUTF8? bytes with
    | some s => .ok s
    | none => .error (.io .invalidText)

end BoardGpio.File
