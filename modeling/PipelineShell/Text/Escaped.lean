/-
The quoted form in which a message shows a text that may hold anything.

`quoted` puts a text between double quotes.  Backslash, double quote, NUL, tab,
carriage return and line feed have a short escape; any other character that
cannot be shown as it is (`isPlain`) is written as its code point in lower-case
hexadecimal, without leading zeros.
-/
import PipelineShell.Text.Printable

namespace PipelineShell.Text

/-- The hexadecimal digits of a number, lower case, without leading zeros. -/
def hexDigits (n : Nat) : List Char := Nat.toDigits 16 n

/-- One character of a quoted text. -/
def escaped (c : Char) : List Char :=
  if c = '\x00' then ['\\', '0']
  else if c = '\t' then ['\\', 't']
  else if c = '\r' then ['\\', 'r']
  else if c = '\n' then ['\\', 'n']
  else if c = '"' then ['\\', '"']
  else if c = '\\' then ['\\', '\\']
  else if isPlain c then [c]
  else ['\\', 'u', '\x7b'] ++ hexDigits c.toNat ++ ['\x7d']

/-- The text between double quotes, with escapes. -/
def quoted (text : List Char) : List Char := ['"'] ++ text.flatMap escaped ++ ['"']

end PipelineShell.Text
