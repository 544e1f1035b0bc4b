import SpanCourier.Text.Hex

set_option autoImplicit false

/-! # The words of a JSON text

`tokens` takes a text apart into words: brackets, separators, literals, numbers and quoted texts.
Blanks between words are space, tab, return and line feed. A place that starts no word gives the
word `invalid` and ends the list, so a reader that works from the front meets it exactly when it
gets there.
-/

namespace SpanCourier.Json

/-- A word. A number keeps its value only if it is written with digits alone; a quoted text keeps
its content only if its escapes spell whole characters. -/
inductive Token
  | openBrace
  | closeBrace
  | openBracket
  | closeBracket
  | colon
  | comma
  | null
  | flag (value : Bool)
  | number (value : Option Nat)
  | text (value : Option String)
  | invalid
deriving DecidableEq, Repr

/-- A blank between words. -/
def isBlank (c : Char) : Bool := c = ' ' || c = '\t' || c = '\r' || c = '\n'

/-- A decimal digit. -/
def isDigit (c : Char) : Bool := '0' ≤ c && c ≤ '9'

/-- The number that decimal digits denote. -/
def natOfDigits (digits : List Char) : Nat :=
  digits.foldl (fun n c => 10 * n + (c.toNat - '0'.toNat)) 0

/-! ## Quoted texts -/

/-- A part of a quoted text: a character, or a sixteen-bit unit that is written by number. -/
inductive Piece
  | char (c : Char)
  | unit (n : Nat)
deriving DecidableEq, Repr

/-- The character that a letter stands for after a backslash. -/
def unescape? : Char → Option Char
  | '"' => some '"'
  | '\\' => some '\\'
  | '/' => some '/'
  | 'b' => some '\x08'
  | 'f' => some '\x0c'
  | 'n' => some '\n'
  | 'r' => some '\r'
  | 't' => some '\t'
  | _ => none

/-- The unit that four hexadecimal digits denote. -/
def unit? (digits : List Char) : Option Nat :=
  if digits.all isHex then some (natOfHex digits) else none

/-- The pieces of a quoted text after its opening quote, and what follows the closing one.
Controls must be escaped. -/
def pieces? : List Char → Option (List Piece × List Char)
  | [] => none
  | '"' :: rest => some ([], rest)
  | '\\' :: 'u' :: a :: b :: c :: d :: rest => do
    let n ← unit? [a, b, c, d]
    let (pieces, rest) ← pieces? rest
    return (.unit n :: pieces, rest)
  | '\\' :: c :: rest => do
    let c ← unescape? c
    let (pieces, rest) ← pieces? rest
    return (.char c :: pieces, rest)
  | c :: rest =>
    if c.toNat < 0x20 ∨ c = '\\' then none
    else (pieces? rest).map fun (pieces, rest) => (.char c :: pieces, rest)

/-- The unit is the first half of a pair that spells one character. -/
def isHighHalf (n : Nat) : Bool := 0xD800 ≤ n && n < 0xDC00

/-- The unit is the second half of a pair. -/
def isLowHalf (n : Nat) : Bool := 0xDC00 ≤ n && n < 0xE000

/-- The characters that pieces spell; a half without its other half spells none. -/
def assemble? : List Piece → Option (List Char)
  | [] => some []
  | .char c :: rest => (assemble? rest).map (c :: ·)
  | .unit n :: .unit m :: rest =>
    if isHighHalf n then
      if isLowHalf m then
        (assemble? rest).map (Char.ofNat (0x10000 + 0x400 * (n - 0xD800) + (m - 0xDC00)) :: ·)
      else none
    else if isLowHalf n then none
    else (assemble? (.unit m :: rest)).map (Char.ofNat n :: ·)
  | .unit n :: rest =>
    if isHighHalf n || isLowHalf n then none else (assemble? rest).map (Char.ofNat n :: ·)

/-! ## Numbers -/

/-- The digits at the front of a text, and what follows them. -/
def digits (s : List Char) : List Char × List Char := (s.takeWhile isDigit, s.dropWhile isDigit)

/-- The whole part of a number: zero, or digits that do not start with zero. -/
def whole? (s : List Char) : Option (Nat × List Char) :=
  match digits s with
  | ([], _) => none
  | ('0' :: more, rest) => if more = [] then some (0, rest) else none
  | (d :: more, rest) => some (natOfDigits (d :: more), rest)

/-- At least one digit. -/
def someDigits? (s : List Char) : Option (List Char) :=
  match digits s with
  | ([], _) => none
  | (_, rest) => some rest

/-- A point and decimal places, if there is a point: whether there is, and what follows. -/
def fraction? : List Char → Option (Bool × List Char)
  | '.' :: rest => (someDigits? rest).map (true, ·)
  | s => some (false, s)

/-- The sign of an exponent, if there is one, is passed over. -/
def dropSign : List Char → List Char
  | '+' :: rest => rest
  | '-' :: rest => rest
  | s => s

/-- A power of ten, if there is one: whether there is, and what follows. -/
def exponent? : List Char → Option (Bool × List Char)
  | 'e' :: rest => (someDigits? (dropSign rest)).map (true, ·)
  | 'E' :: rest => (someDigits? (dropSign rest)).map (true, ·)
  | s => some (false, s)

/-- A number without its sign: its value if it is digits alone, and what follows. -/
def unsigned? (s : List Char) : Option (Option Nat × List Char) := do
  let (n, rest) ← whole? s
  let (point, rest) ← fraction? rest
  let (power, rest) ← exponent? rest
  return (if point || power then none else some n, rest)

/-- A number: its value if it is digits alone, and what follows. -/
def number? : List Char → Option (Option Nat × List Char)
  | '-' :: rest => (unsigned? rest).map fun (_, rest) => (none, rest)
  | s => unsigned? s

/-! ## Words -/

/-- What follows a word that is spelled out, if the text starts with it. -/
def after? (word s : List Char) : Option (List Char) :=
  if word <+: s then some (s.drop word.length) else none

/-- The word at the front of a text that starts without a blank, and what follows it. -/
def word (c : Char) (rest : List Char) : Token × List Char :=
  let bad := (Token.invalid, [])
  if c = '\x7b' then (.openBrace, rest)
  else if c = '\x7d' then (.closeBrace, rest)
  else if c = '[' then (.openBracket, rest)
  else if c = ']' then (.closeBracket, rest)
  else if c = ':' then (.colon, rest)
  else if c = ',' then (.comma, rest)
  else if c = '"' then
    match pieces? rest with
    | some (pieces, rest) => (.text ((assemble? pieces).map String.ofList), rest)
    | none => bad
  else if c = 'n' then ((after? "ull".toList rest).map (.null, ·)).getD bad
  else if c = 't' then ((after? "rue".toList rest).map (.flag true, ·)).getD bad
  else if c = 'f' then ((after? "alse".toList rest).map (.flag false, ·)).getD bad
  else
    match number? (c :: rest) with
    | some (value, rest) => (.number value, rest)
    | none => bad

/-! ## What follows a word is shorter -/

theorem pieces?_length {s rest : List Char} {p : List Piece} (h : pieces? s = some (p, rest)) :
    rest.length < s.length := by
  fun_induction pieces? s generalizing p rest with
  | case1 => simp at h
  | case2 r =>
    obtain ⟨-, rfl⟩ := Prod.mk.inj (Option.some.inj h)
    simp
  | case3 a b c d r ih =>
    simp only [Option.bind_eq_bind, Option.bind_eq_some_iff] at h
    obtain ⟨n, -, ⟨q, t⟩, hq, h⟩ := h
    obtain ⟨-, rfl⟩ := Prod.mk.inj (Option.some.inj h)
    have := ih hq
    simp only [List.length_cons]
    omega
  | case4 c r _ ih =>
    simp only [Option.bind_eq_bind, Option.bind_eq_some_iff] at h
    obtain ⟨n, -, ⟨q, t⟩, hq, h⟩ := h
    obtain ⟨-, rfl⟩ := Prod.mk.inj (Option.some.inj h)
    have := ih hq
    simp only [List.length_cons]
    omega
  | case5 => simp at h
  | case6 c r _ _ _ _ ih =>
    obtain ⟨⟨q, t⟩, hq, h⟩ := Option.map_eq_some_iff.1 h
    obtain ⟨-, rfl⟩ := Prod.mk.inj h
    have := ih hq
    simp only [List.length_cons]
    omega

theorem digits_length (s : List Char) : (digits s).2.length ≤ s.length :=
  (List.dropWhile_sublist _).length_le

theorem digits_append (s : List Char) : (digits s).1 ++ (digits s).2 = s :=
  List.takeWhile_append_dropWhile

theorem someDigits?_length {s rest : List Char} (h : someDigits? s = some rest) :
    rest.length ≤ s.length := by
  rw [someDigits?] at h
  have hs := digits_length s
  split at h
  · simp at h
  · next heq =>
    obtain rfl := Option.some.inj h
    rwa [heq] at hs

theorem whole?_length {s rest : List Char} {n : Nat} (h : whole? s = some (n, rest)) :
    rest.length < s.length := by
  have hs := congrArg List.length (digits_append s)
  rw [List.length_append] at hs
  rw [whole?] at h
  split at h
  · simp at h
  · next heq =>
    split at h
    · obtain ⟨-, rfl⟩ := Prod.mk.inj (Option.some.inj h)
      rw [heq] at hs
      simp only [List.length_cons] at hs
      omega
    · simp at h
  · next heq =>
    obtain ⟨-, rfl⟩ := Prod.mk.inj (Option.some.inj h)
    rw [heq] at hs
    simp only [List.length_cons] at hs
    omega

theorem fraction?_length {s rest : List Char} {b : Bool} (h : fraction? s = some (b, rest)) :
    rest.length ≤ s.length := by
  rw [fraction?.eq_def] at h
  split at h
  · obtain ⟨t, ht, h⟩ := Option.map_eq_some_iff.1 h
    obtain ⟨-, rfl⟩ := Prod.mk.inj h
    exact Nat.le_succ_of_le (someDigits?_length ht)
  · obtain ⟨-, rfl⟩ := Prod.mk.inj (Option.some.inj h)
    exact Nat.le_refl _

theorem dropSign_length (s : List Char) : (dropSign s).length ≤ s.length := by
  rw [dropSign.eq_def]
  split <;> simp

theorem exponent?_length {s rest : List Char} {b : Bool} (h : exponent? s = some (b, rest)) :
    rest.length ≤ s.length := by
  rw [exponent?.eq_def] at h
  split at h
  · obtain ⟨t, ht, h⟩ := Option.map_eq_some_iff.1 h
    obtain ⟨-, rfl⟩ := Prod.mk.inj h
    exact Nat.le_succ_of_le (Nat.le_trans (someDigits?_length ht) (dropSign_length _))
  · obtain ⟨t, ht, h⟩ := Option.map_eq_some_iff.1 h
    obtain ⟨-, rfl⟩ := Prod.mk.inj h
    exact Nat.le_succ_of_le (Nat.le_trans (someDigits?_length ht) (dropSign_length _))
  · obtain ⟨-, rfl⟩ := Prod.mk.inj (Option.some.inj h)
    exact Nat.le_refl _

theorem unsigned?_length {s rest : List Char} {v : Option Nat}
    (h : unsigned? s = some (v, rest)) : rest.length < s.length := by
  simp only [unsigned?, Option.bind_eq_bind, Option.bind_eq_some_iff] at h
  obtain ⟨⟨n, r₁⟩, h₁, ⟨b, r₂⟩, h₂, ⟨e, r₃⟩, h₃, h⟩ := h
  obtain ⟨-, rfl⟩ := Prod.mk.inj (Option.some.inj h)
  exact Nat.lt_of_le_of_lt (exponent?_length h₃)
    (Nat.lt_of_le_of_lt (fraction?_length h₂) (whole?_length h₁))

theorem number?_length {s rest : List Char} {v : Option Nat} (h : number? s = some (v, rest)) :
    rest.length < s.length := by
  rw [number?.eq_def] at h
  split at h
  · obtain ⟨⟨w, t⟩, ht, h⟩ := Option.map_eq_some_iff.1 h
    obtain ⟨-, rfl⟩ := Prod.mk.inj h
    exact Nat.lt_succ_of_lt (unsigned?_length ht)
  · exact unsigned?_length h

theorem after?_length {w s : List Char} {t : Token} :
    (((after? w s).map (t, ·)).getD (Token.invalid, [])).2.length ≤ s.length := by
  rw [after?]
  split <;> simp

theorem word_length (c : Char) (rest : List Char) : (word c rest).2.length ≤ rest.length := by
  rw [word]
  repeat' split
  all_goals try exact Nat.le_refl _
  all_goals try exact after?_length
  · next h => exact Nat.le_of_lt (pieces?_length h)
  · exact Nat.zero_le _
  · next h => exact Nat.le_of_lt_succ (number?_length h)
  · exact Nat.zero_le _

/-- The words of a text, in order. -/
def tokens : List Char → List Token
  | [] => []
  | c :: rest =>
    if isBlank c then tokens rest
    else (word c rest).1 :: tokens (word c rest).2
termination_by s => s.length
decreasing_by
  · exact Nat.lt_succ_self _
  · exact Nat.lt_succ_of_le (word_length c rest)

example : tokens "[1, -0,\"\\u00e9\"]x".toList =
    [.openBracket, .number (some 1), .comma, .number none, .comma, .text (some "é"),
      .closeBracket, .invalid] := by
  decide +kernel

end SpanCourier.Json
