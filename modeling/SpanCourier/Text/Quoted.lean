import SpanCourier.Text.Hex
import SpanCourier.Text.Printable

set_option autoImplicit false

/-! # Quoted text

A text inside a message is quoted so that a reader sees where it ends and what it holds: double
quotes around it, a backslash before a quote or a backslash, the usual letters for tab, return,
line feed and NUL, and the code point in braces for every other character without a visible
form. An apostrophe stands for itself.
-/

namespace SpanCourier.Quoted

/-- A character as it stands between the quotes. -/
def escape (c : Char) : List Char :=
  if c = '"' ∨ c = '\\' then ['\\', c]
  else if c = '\t' then ['\\', 't']
  else if c = '\r' then ['\\', 'r']
  else if c = '\n' then ['\\', 'n']
  else if c.toNat = 0 then ['\\', '0']
  else if isPrintable c then [c]
  else ['\\', 'u', '\x7b'] ++ hexOfNat c.toNat ++ ['\x7d']

/-- A text in double quotes, with escapes. -/
def text (s : String) : String := String.ofList ('"' :: s.toList.flatMap escape ++ ['"'])

end SpanCourier.Quoted
