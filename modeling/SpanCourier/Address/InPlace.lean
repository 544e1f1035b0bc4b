import SpanCourier.Address.IPv6

set_option autoImplicit false

/-! # Reading an IPv6 address in place

An address is read from the bytes of a text into an array of eight groups, and from there into an
array of sixteen bytes. Every step that needs a bound asks for it: a text is cut only between two
characters, a cell is written only within its array, as many cells are overwritten as there are
values for them, and every number fits in its word. A step that goes wrong is no refusal of the text
but a slip of the reader (`Stop`).
-/

namespace SpanCourier

/-- Why a reader stops early: the text is refused, something outside of a text or of an array was
asked for, or a number does not fit. -/
inductive Stop
  | refused
  | outside
  | overflow
deriving DecidableEq, Repr

/-- What is read, or why nothing is. -/
abbrev Reading := Except Stop

namespace Reading

variable {α : Type}

/-- Nothing read is a refusal. -/
def ofOption (read : Option α) : Reading α := read.elim (.error .refused) .ok

/-- A number in a word, which can hold so many. -/
def inWord (size n : Nat) : Reading Nat := if n < size then .ok n else .error .overflow

/-- The difference of two numbers, if it is not negative. -/
def minus (m n : Nat) : Reading Nat := if n ≤ m then .ok (m - n) else .error .overflow

/-- Writes one cell. -/
def write (cells : List α) (place : Nat) (value : α) : Reading (List α) :=
  if place < cells.length then .ok (cells.set place value) else .error .outside

/-- The cells before a place. -/
def firstCells (cells : List α) (count : Nat) : Reading (List α) :=
  if count ≤ cells.length then .ok (cells.take count) else .error .outside

/-- Overwrites the cells from one place up to another with as many values. -/
def overwrite (cells : List α) (first last : Nat) (values : List α) : Reading (List α) :=
  if first ≤ last ∧ last ≤ cells.length ∧ values.length = last - first then
    .ok (cells.take first ++ values ++ cells.drop last)
  else .error .outside

/-! ## Texts as bytes -/

/-- A text is cut at its end or where a character begins. -/
def isCut (text : List UInt8) (place : Nat) : Bool :=
  match text[place]? with
  | some b => b.toNat < 0x80 || 0xC0 ≤ b.toNat
  | none => place = text.length

/-- The text before a place. -/
def textBefore (text : List UInt8) (place : Nat) : Reading (List UInt8) :=
  if isCut text place then .ok (text.take place) else .error .outside

/-- The text from a place on. -/
def textFrom (text : List UInt8) (place : Nat) : Reading (List UInt8) :=
  if isCut text place then .ok (text.drop place) else .error .outside

/-- The place of the first doubled byte. -/
def findPair (sep : UInt8) : List UInt8 → Option Nat
  | [] => none
  | [_] => none
  | b :: c :: rest =>
    if b = sep ∧ c = sep then some 0 else (findPair sep (c :: rest)).map (· + 1)

end Reading

namespace IPv6.InPlace

open Reading

/-- The byte of the colon. -/
def colon : UInt8 := 0x3A

/-- Goes on with a group whose first digits are read: each byte is a digit and shifts the group by
four bits, within sixteen bits. -/
def readDigits (group : Nat) : List UInt8 → Reading Nat
  | [] => .ok group
  | b :: rest => do
    let digit ← ofOption (hexValue? (Char.ofNat b.toNat))
    let group ← inWord UInt16.size (group <<< 4 ||| digit)
    readDigits group rest

/-- Reads the part of a text between two colons as a group. -/
def readGroup (part : List UInt8) : Reading UInt16 :=
  if part = [] ∨ 4 < part.length then .error .refused
  else (readDigits 0 part).map UInt16.ofNat

/-- Reads each part into its cell, after so many groups, and counts the groups. -/
def readParts (cells : List UInt16) (count : Nat) : List (List UInt8) → Reading (List UInt16 × Nat)
  | [] => .ok (cells, count)
  | part :: rest =>
    if count = 8 then .error .refused
    else do
      let group ← readGroup part
      let cells ← write cells count group
      let count ← inWord UInt64.size (count + 1)
      readParts cells count rest

/-- Reads groups between single colons into eight cells that are zero, and counts them. -/
def readRow (text : List UInt8) : Reading (List UInt16 × Nat) :=
  let cells := List.replicate 8 0
  if text = [] then .ok (cells, 0) else readParts cells 0 (text.splitOn colon)

/-- Puts the groups of the second row into the last cells of the first, if a cell at least stays
free between both. -/
def fillCells (head tail : List UInt16 × Nat) : Reading (List UInt16) := do
  let count ← inWord UInt64.size (head.2 + tail.2)
  if 7 < count then .error .refused
  else
    let first ← minus 8 tail.2
    let groups ← firstCells tail.1 tail.2
    overwrite head.1 first 8 groups

/-- Reads a text with a doubled colon at a place. The place behind it needs no check of its own,
because it is within the text, whose length is a word. -/
def readGap (text : List UInt8) (gap : Nat) : Reading (List UInt16) := do
  let head ← textBefore text gap
  let tail ← textFrom text (gap + 2)
  if (findPair colon tail).isSome then .error .refused
  else fillCells (← readRow head) (← readRow tail)

/-- Reads the eight groups of a text. -/
def readGroups (text : List UInt8) : Reading (List UInt16) :=
  match findPair colon text with
  | none => do
    let (cells, count) ← readRow text
    if count = 8 then .ok cells else .error .refused
  | some gap => readGap text gap

/-- The two bytes of a group, the high one first. -/
def groupBytes (group : UInt16) : List UInt8 :=
  [UInt8.ofNat (group.toNat / 256), UInt8.ofNat (group.toNat % 256)]

/-- Writes the bytes of each group, from the cells of the group at hand on. -/
def writeGroups (bytes : List UInt8) (place : Nat) : List UInt16 → Reading (List UInt8)
  | [] => .ok bytes
  | group :: rest => do
    let first ← inWord UInt64.size (place * 2)
    let last ← inWord UInt64.size (place * 2 + 2)
    let bytes ← overwrite bytes first last (groupBytes group)
    writeGroups bytes (place + 1) rest

/-- Reads an address into its sixteen bytes. -/
def read (text : List UInt8) : Reading (List UInt8) := do
  writeGroups (List.replicate 16 0) 0 (← readGroups text)

example : (read "1::ab:F".toUTF8.toList).toOption =
    some [0, 1, 0, 0, 0, 0, 0, 0, 0, 0, 0, 0, 0, 0xab, 0, 0xf] := by decide +kernel

end IPv6.InPlace

end SpanCourier
