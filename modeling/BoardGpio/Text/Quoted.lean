import BoardGpio.Text.Graphic
import BoardGpio.Text.Hex

/-!
# Quoted text

A text between double quotes, with a backslash before quotes and backslashes, the short forms of
the common controls, and the code point in braces for every other character without a shape of its
own. Messages quote the text they complain about in this form.
-/

set_option autoImplicit false

namespace BoardGpio.Text

def quotedChar (c : Char) : List Char :=
  if c = '\x00' then ['\\', '0']
  else if c = '\t' then ['\\', 't']
  else if c = '\n' then ['\\', 'n']
  else if c = '\r' then ['\\', 'r']
  else if c = '"' then ['\\', '"']
  else if c = '\\' then ['\\', '\\']
  else if isGraphic c then [c]
  else ['\\', 'u', '\x7b'] ++ Nat.toDigits 16 c.toNat ++ ['\x7d']

def quoted (s : String) : String :=
  String.ofList ('"' :: (s.toList.flatMap quotedChar ++ ['"']))

end BoardGpio.Text
