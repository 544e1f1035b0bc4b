import SpanCourier.Json.Token
import SpanCourier.Json.Value

set_option autoImplicit false

/-! # Reading values of a known shape

A shape says what a text has to hold. Reading goes from the front and stops at the first problem.
A record is written as an object of its fields in any order, with other entries passed over, or
as the list of its fields in order. In a strict record every field must be there, though an
optional one may be left out of an object and then counts as null; in a lenient record any may be
left out, and a list may be short.
-/

namespace SpanCourier.Json

/-- What a text has to hold. -/
inductive Shape
  | text
  | flag
  | number (bound : Nat)
  | choice (names : List String)
  | optional (inner : Shape)
  | list (inner : Shape)
  | map (inner : Shape)
  | record (lenient : Bool) (fields : List (String × Shape))

/-- Why a text does not hold what it should. -/
inductive Problem
  | missing (field : String)
  | duplicate (field : String)
  | malformed
deriving DecidableEq, Repr

/-- The text of a problem, where it has one. -/
def Problem.message? : Problem → Option String
  | missing field => some ("missing field \x60" ++ field ++ "\x60")
  | duplicate field => some ("duplicate field \x60" ++ field ++ "\x60")
  | malformed => none

/-- Reads a value off the front of words, and gives the words that follow it. -/
abbrev Reader := List Token → Except Problem (Value × List Token)

/-! ## Passing over a value -/

/-- What an open bracket has to be closed with. -/
inductive Bracket
  | list
  | object
deriving DecidableEq, Repr

mutual

/-- Passes over a value within open brackets, and on to the end of the outermost value. -/
def skipValue (stack : List Bracket) : List Token → Option (List Token)
  | .null :: rest => skipRest stack rest
  | .flag _ :: rest => skipRest stack rest
  | .number _ :: rest => skipRest stack rest
  | .text _ :: rest => skipRest stack rest
  | .openBracket :: .closeBracket :: rest => skipRest stack rest
  | .openBracket :: rest => skipValue (.list :: stack) rest
  | .openBrace :: .closeBrace :: rest => skipRest stack rest
  | .openBrace :: .text _ :: .colon :: rest => skipValue (.object :: stack) rest
  | _ => none

/-- Goes on after a value within open brackets. -/
def skipRest : List Bracket → List Token → Option (List Token)
  | [], rest => some rest
  | .list :: stack, .comma :: rest => skipValue (.list :: stack) rest
  | .list :: stack, .closeBracket :: rest => skipRest stack rest
  | .object :: stack, .comma :: .text _ :: .colon :: rest => skipValue (.object :: stack) rest
  | .object :: stack, .closeBrace :: rest => skipRest stack rest
  | _, _ => none

end

/-- Passes over one value. -/
def skip (words : List Token) : Except Problem (List Token) :=
  match skipValue [] words with
  | some rest => .ok rest
  | none => .error .malformed

/-! ## Parts of readers -/

/-- Takes a word that must come next. -/
def expect (word : Token) : List Token → Except Problem (List Token)
  | [] => .error .malformed
  | w :: rest => if w = word then .ok rest else .error .malformed

/-- The items of a list from the first on, through the closing bracket. -/
def readItems (read : Reader) :
    Nat → List Token → Except Problem (List Value × List Token)
  | 0, _ => .error .malformed
  | fuel + 1, words => do
    let (item, rest) ← read words
    match rest with
    | .closeBracket :: rest => return ([item], rest)
    | .comma :: rest =>
      let (items, rest) ← readItems read fuel rest
      return (item :: items, rest)
    | _ => throw .malformed

/-- The entries of a map from the first on, through the closing brace. -/
def readEntries (read : Reader) :
    Nat → List Token → Except Problem (List (String × Value) × List Token)
  | fuel + 1, .text (some key) :: words => do
    let words ← expect .colon words
    let (item, rest) ← read words
    match rest with
    | .closeBrace :: rest => return ([(key, item)], rest)
    | .comma :: rest =>
      let (entries, rest) ← readEntries read fuel rest
      return ((key, item) :: entries, rest)
    | _ => throw .malformed
  | _, _ => .error .malformed

/-- The fields of a record from the first on, written as an object, through the closing brace.
`seen` holds the fields that are already read. -/
def readFields (readers : List (String × Reader)) :
    Nat → List (String × Value) → List Token →
      Except Problem (List (String × Value) × List Token)
  | fuel + 1, seen, .text (some key) :: words => do
    let (seen, rest) ← match readers.lookup key with
      | some read =>
        -- the second of two equal fields is a problem before anything of it but its name is read
        if (seen.lookup key).isSome then throw (.duplicate key)
        let words ← expect .colon words
        let (item, rest) ← read words
        pure ((key, item) :: seen, rest)
      | none =>
        let words ← expect .colon words
        let rest ← skip words
        pure (seen, rest)
    match rest with
    | .closeBrace :: rest => return (seen, rest)
    | .comma :: rest => readFields readers fuel seen rest
    | _ => throw .malformed
  | _, _, _ => .error .malformed

/-- The fields of a record written as a list, through the closing bracket. -/
def readRow (lenient first : Bool) : List (String × Reader) → List Token →
      Except Problem (List (String × Value) × List Token)
  -- the list ends early
  | _ :: _, .closeBracket :: rest => if lenient then .ok ([], rest) else .error .malformed
  | [], words => do return ([], ← expect .closeBracket words)
  | (name, read) :: readers, words => do
    let words ← if first then pure words else expect .comma words
    let (item, rest) ← read words
    let (items, rest) ← readRow lenient false readers rest
    return ((name, item) :: items, rest)

/-- A field may be left out of an object: its value is then null. -/
def Shape.isOptional : Shape → Bool
  | .optional _ => true
  | _ => false

/-- The fields of a record in the order of its shape, from those that were read. -/
def arrange (lenient : Bool) (seen : List (String × Value)) :
    List (String × Shape) → Except Problem (List (String × Value))
  | [] => .ok []
  | (name, shape) :: fields => do
    match seen.lookup name with
    | some item => return (name, item) :: (← arrange lenient seen fields)
    | none =>
      if lenient then arrange lenient seen fields
      else if shape.isOptional then return (name, .null) :: (← arrange lenient seen fields)
      else throw (.missing name)

/-- One of several names, alone or as the only key of an object over null. -/
def readChoice (names : List String) : Reader
  | .text (some name) :: rest =>
    if name ∈ names then .ok (.text name, rest) else .error .malformed
  | .openBrace :: .text (some name) :: .colon :: .null :: .closeBrace :: rest =>
    if name ∈ names then .ok (.text name, rest) else .error .malformed
  | _ => .error .malformed

/-! ## Readers -/

mutual

/-- The reader of a shape. -/
def Shape.read : Shape → Reader
  | .text => fun
    | .text (some s) :: rest => .ok (.text s, rest)
    | _ => .error .malformed
  | .flag => fun
    | .flag b :: rest => .ok (.flag b, rest)
    | _ => .error .malformed
  | .number bound => fun
    | .number (some n) :: rest => if n < bound then .ok (.number n, rest) else .error .malformed
    | _ => .error .malformed
  | .choice names => readChoice names
  | .optional inner =>
    let read := inner.read
    fun
    | .null :: rest => .ok (.null, rest)
    | words => read words
  | .list inner =>
    let read := inner.read
    fun
    | .openBracket :: .closeBracket :: rest => .ok (.list [], rest)
    | .openBracket :: rest => do
      let (items, rest) ← readItems read rest.length rest
      return (.list items, rest)
    | _ => .error .malformed
  | .map inner =>
    let read := inner.read
    fun
    | .openBrace :: .closeBrace :: rest => .ok (.object [], rest)
    | .openBrace :: rest => do
      let (entries, rest) ← readEntries read rest.length rest
      return (.object entries, rest)
    | _ => .error .malformed
  | .record lenient fields =>
    let readers := Shape.readers fields
    fun
    | .openBracket :: rest => do
      let (entries, rest) ← readRow lenient true readers rest
      return (.object entries, rest)
    | .openBrace :: .closeBrace :: rest => do
      return (.object (← arrange lenient [] fields), rest)
    | .openBrace :: rest => do
      let (seen, rest) ← readFields readers rest.length [] rest
      return (.object (← arrange lenient seen fields), rest)
    | _ => .error .malformed

/-- The readers of the fields of a record. -/
def Shape.readers : List (String × Shape) → List (String × Reader)
  | [] => []
  | (name, shape) :: fields => (name, shape.read) :: Shape.readers fields

end

/-- Reads a whole text: blanks may stand before and after the value, and nothing else. -/
def Shape.parse (shape : Shape) (text : String) : Except Problem Value := do
  let (value, rest) ← shape.read (tokens text.toList)
  if rest.isEmpty then return value else throw .malformed

end SpanCourier.Json
