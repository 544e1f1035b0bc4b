import SpanCourier.Text.Hex

set_option autoImplicit false

/-! # JSON values and their compact text

A value is written without blanks. In a quoted text the quote, the backslash and the controls are
escaped, with a letter where there is one, and every other character stands for itself.
-/

namespace SpanCourier.Json

/-- A value; its numbers are natural numbers. -/
inductive Value
  | null
  | flag (value : Bool)
  | number (value : Nat)
  | text (value : String)
  | list (items : List Value)
  | object (entries : List (String × Value))

instance : Inhabited Value := ⟨.null⟩

namespace Value

/-! ## Text -/

/-- A character as it stands inside quotes. -/
def escape (c : Char) : List Char :=
  if c = '"' ∨ c = '\\' then ['\\', c]
  else if c = '\x08' then ['\\', 'b']
  else if c = '\x0c' then ['\\', 'f']
  else if c = '\n' then ['\\', 'n']
  else if c = '\r' then ['\\', 'r']
  else if c = '\t' then ['\\', 't']
  else if c.toNat < 0x20 then
    ['\\', 'u', '0', '0', hexDigit (c.toNat / 16), hexDigit (c.toNat % 16)]
  else [c]

/-- A text in quotes. -/
def quote (s : String) : List Char := '"' :: s.toList.flatMap escape ++ ['"']

mutual

/-- The text of a value. -/
def render : Value → List Char
  | .null => "null".toList
  | .flag true => "true".toList
  | .flag false => "false".toList
  | .number n => Nat.toDigits 10 n
  | .text s => quote s
  | .list items => '[' :: renderItems items ++ [']']
  | .object entries => '\x7b' :: renderEntries entries ++ ['\x7d']

/-- The text of the items of a list, with commas between them. -/
def renderItems : List Value → List Char
  | [] => []
  | [item] => render item
  | item :: rest => render item ++ ',' :: renderItems rest

/-- The text of the entries of an object, with commas between them. -/
def renderEntries : List (String × Value) → List Char
  | [] => []
  | [(key, item)] => quote key ++ ':' :: render item
  | (key, item) :: rest => quote key ++ ':' :: render item ++ ',' :: renderEntries rest

end

/-- A text, or null. -/
def ofText? (s : Option String) : Value := (s.map text).getD null

/-- A number, or null. -/
def ofNumber? (n : Option Nat) : Value := (n.map number).getD null

/-! ## Content -/

/-- The value under a key of an object. -/
def get? (key : String) : Value → Option Value
  | .object entries => entries.lookup key
  | _ => none

/-- The content of a text. -/
def text? : Value → Option String
  | .text s => some s
  | _ => none

/-- The content of a truth value. -/
def flag? : Value → Option Bool
  | .flag b => some b
  | _ => none

/-- The content of a number. -/
def number? : Value → Option Nat
  | .number n => some n
  | _ => none

/-- The items of a list, each read in the same way. -/
def items? {α : Type} (read : Value → Option α) : Value → Option (List α)
  | .list items => items.mapM read
  | _ => none

/-- The entries of an object, each value read in the same way. -/
def entries? {α : Type} (read : Value → Option α) : Value → Option (List (String × α))
  | .object entries => entries.mapM fun (key, item) => (read item).map (key, ·)
  | _ => none

/-- Null, or a value read in some way. -/
def optional? {α : Type} (read : Value → Option α) : Value → Option (Option α)
  | .null => some none
  | value => (read value).map some

end Value

end SpanCourier.Json
