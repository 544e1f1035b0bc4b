import Mathlib.Tactic.SplitIfs
import SpanCourier.Json.Token
import SpanCourier.Json.Value

set_option autoImplicit false

/-! # The words of a written value

A written value is taken apart into words again, and these are the words of the value
(`Value.tokens_render`). Brackets, separators and literals stand for themselves. A number is read
back because its digits end where the number ends (`AfterValue`) and do not start with a zero. A
quoted text is read back character by character: each is written as one piece, and that piece spells
the character and no half of a pair.
-/

namespace SpanCourier.Json

/-! ## Numbers -/

/-- What may follow a value: nothing, a comma or a closing bracket. -/
def AfterValue (rest : List Char) : Prop := ∀ c ∈ rest.head?, c = ',' ∨ c = ']' ∨ c = '\x7d'

theorem afterValue_nil : AfterValue [] := by simp [AfterValue]

theorem afterValue_cons {c : Char} (h : c = ',' ∨ c = ']' ∨ c = '\x7d') (rest : List Char) :
    AfterValue (c :: rest) := by
  simpa [AfterValue] using h

theorem ne_of_isDigit {d c : Char} (hd : d.isDigit = true) (hc : c.isDigit = false) : d ≠ c := by
  rintro rfl
  simp [hc] at hd

theorem natOfDigits_toDigits (n : Nat) : natOfDigits (Nat.toDigits 10 n) = n := by
  have hfold : natOfDigits (Nat.toDigits 10 n) = Nat.ofDigitChars 10 (Nat.toDigits 10 n) 0 := by
    rw [natOfDigits, Nat.ofDigitChars]
  rw [hfold, Nat.ofDigitChars_toDigits (by decide) (by decide)]

/-- The digits of a number other than zero do not start with zero. -/
theorem head?_toDigits {n : Nat} (h : n ≠ 0) : (Nat.toDigits 10 n).head? ≠ some '0' := by
  induction n using Nat.strongRecOn with
  | ind n ih =>
    rw [Nat.toDigits_eq_if (by decide)]
    split
    · next hlt =>
      have hall : ∀ m : Fin 10, m.val ≠ 0 → Nat.digitChar m ≠ '0' := by decide
      simpa using hall ⟨n, hlt⟩ h
    · next hle =>
      have hrest := ih (n / 10) (by omega) (by omega)
      cases hdigits : Nat.toDigits 10 (n / 10) with
      | nil => exact absurd hdigits (by simp)
      | cons d more => simpa [hdigits] using hrest

/-- The digits of a number are all that is read as digits. -/
theorem digits_toDigits (n : Nat) {rest : List Char} (hrest : AfterValue rest) :
    digits (Nat.toDigits 10 n ++ rest) = (Nat.toDigits 10 n, rest) := by
  have hall : ∀ c ∈ Nat.toDigits 10 n, isDigit c = true := fun c hc =>
    Nat.isDigit_of_mem_toDigits (by decide) (by decide) hc
  -- what may follow a value starts with no digit
  have hstop : rest.takeWhile isDigit = [] ∧ rest.dropWhile isDigit = rest := by
    cases rest with
    | nil => exact ⟨rfl, rfl⟩
    | cons c rest =>
      have hc : isDigit c = false := by
        rcases hrest c rfl with rfl | rfl | rfl <;> decide
      simp [hc]
  rw [digits, List.takeWhile_append_of_pos hall, List.dropWhile_append_of_pos hall, hstop.1,
    hstop.2, List.append_nil]

theorem whole?_toDigits (n : Nat) {rest : List Char} (hrest : AfterValue rest) :
    whole? (Nat.toDigits 10 n ++ rest) = some (n, rest) := by
  have hvalue := natOfDigits_toDigits n
  rw [whole?, digits_toDigits n hrest]
  by_cases hn : n = 0
  · subst hn
    rfl
  · have hhead := head?_toDigits hn
    cases hdigits : Nat.toDigits 10 n with
    | nil => exact absurd hdigits (by simp)
    | cons d more =>
      rw [hdigits] at hhead hvalue
      have hd : d ≠ '0' := by simpa using hhead
      simp [hvalue]

theorem exists_toDigits_eq (n : Nat) :
    ∃ d more, Nat.toDigits 10 n = d :: more ∧ d.isDigit = true := by
  obtain ⟨d, more, hdigits⟩ := List.exists_cons_of_ne_nil (Nat.toDigits_ne_nil (b := 10) (n := n))
  refine ⟨d, more, hdigits, Nat.isDigit_of_mem_toDigits (b := 10) (n := n) ?_ ?_ ?_⟩
  all_goals simp [hdigits]

/-- A number is read from its digits. -/
theorem number?_toDigits (n : Nat) {rest : List Char} (hrest : AfterValue rest) :
    number? (Nat.toDigits 10 n ++ rest) = some (some n, rest) := by
  -- nor does it start with a point or with the letter of an exponent
  have hfraction : fraction? rest = some (false, rest) := by
    cases rest with
    | nil => rfl
    | cons c rest => rcases hrest c rfl with rfl | rfl | rfl <;> rfl
  have hexponent : exponent? rest = some (false, rest) := by
    cases rest with
    | nil => rfl
    | cons c rest => rcases hrest c rfl with rfl | rfl | rfl <;> rfl
  have hunsigned : unsigned? (Nat.toDigits 10 n ++ rest) = some (some n, rest) := by
    simp [unsigned?, whole?_toDigits n hrest, hfraction, hexponent]
  obtain ⟨d, more, hdigits, hd⟩ := exists_toDigits_eq n
  rw [hdigits, List.cons_append] at hunsigned ⊢
  rw [number?.eq_def]
  split
  · next heq => exact absurd (List.cons.inj heq).1 (ne_of_isDigit hd rfl)
  · exact hunsigned

/-! ## Quoted texts -/

/-- The piece that a character is written as: a control without a letter is written by number. -/
def pieceOf (c : Char) : Piece :=
  if c.toNat < 0x20 ∧ c ∉ ['\x08', '\x0c', '\n', '\r', '\t'] then .unit c.toNat else .char c

theorem unit?_hex {n : Nat} (h : n < 0x20) :
    unit? ['0', '0', hexDigit (n / 16), hexDigit (n % 16)] = some n := by
  have hall : ∀ m : Fin 0x20, unit? ['0', '0', hexDigit (m / 16), hexDigit (m % 16)] = some m := by
    decide +kernel
  exact hall ⟨n, h⟩

/-- A character is read as one piece. -/
theorem pieces?_escape_append (c : Char) {rest after : List Char} {pieces : List Piece}
    (h : pieces? rest = some (pieces, after)) :
    pieces? (Value.escape c ++ rest) = some (pieceOf c :: pieces, after) := by
  -- a backslash and a letter that stands for the character
  have hletter : ∀ letter, letter ≠ 'u' → unescape? letter = some c → pieceOf c = .char c →
      pieces? ('\\' :: letter :: rest) = some (pieceOf c :: pieces, after) := by
    intro letter hu hunescape hpiece
    rw [pieces?.eq_def]
    simp [hu, hunescape, hpiece, h]
  unfold Value.escape
  split_ifs with hself hb hf hn hr ht hcontrol
  · rcases hself with rfl | rfl <;> exact hletter _ (by decide) rfl rfl
  · exact hletter 'b' (by decide) (by rw [hb]; rfl) (by rw [hb]; rfl)
  · exact hletter 'f' (by decide) (by rw [hf]; rfl) (by rw [hf]; rfl)
  · exact hletter 'n' (by decide) (by rw [hn]; rfl) (by rw [hn]; rfl)
  · exact hletter 'r' (by decide) (by rw [hr]; rfl) (by rw [hr]; rfl)
  · exact hletter 't' (by decide) (by rw [ht]; rfl) (by rw [ht]; rfl)
  · have hpiece : pieceOf c = .unit c.toNat := if_pos ⟨hcontrol, by simp [hb, hf, hn, hr, ht]⟩
    simp [pieces?, unit?_hex hcontrol, hpiece, h]
  · have hpiece : pieceOf c = .char c := if_neg fun h => hcontrol h.1
    rw [not_or] at hself
    rw [List.singleton_append, pieces?.eq_def]
    simp [hself, hcontrol, hpiece, h]

/-- What stands inside the quotes is read character by character, up to the closing quote. -/
theorem pieces?_escaped (chars rest : List Char) :
    pieces? (chars.flatMap Value.escape ++ '"' :: rest) = some (chars.map pieceOf, rest) := by
  induction chars with
  | nil => simp [pieces?]
  | cons c chars ih =>
    rw [List.flatMap_cons, List.append_assoc]
    exact pieces?_escape_append c ih

/-- A piece spells the character that was written as it. -/
theorem assemble?_pieceOf_cons (c : Char) (pieces : List Piece) :
    assemble? (pieceOf c :: pieces) = (assemble? pieces).map (c :: ·) := by
  by_cases h : c.toNat < 0x20 ∧ c ∉ ['\x08', '\x0c', '\n', '\r', '\t']
  · -- a control is no half of a pair
    have hhigh : isHighHalf c.toNat = false := by
      have := h.1
      simp [isHighHalf]
      omega
    have hlow : isLowHalf c.toNat = false := by
      have := h.1
      simp [isLowHalf]
      omega
    rw [pieceOf, if_pos h]
    rcases pieces with - | ⟨⟨d⟩ | ⟨m⟩, rest⟩ <;>
      simp [assemble?, hhigh, hlow]
  · rw [pieceOf, if_neg h, assemble?]

theorem assemble?_map_pieceOf (chars : List Char) :
    assemble? (chars.map pieceOf) = some chars := by
  induction chars with
  | nil => rw [List.map_nil, assemble?]
  | cons c chars ih => rw [List.map_cons, assemble?_pieceOf_cons, ih, Option.map_some]

/-- A quoted text is read as one word. -/
theorem word_quote (s : String) (rest : List Char) :
    word '"' (s.toList.flatMap Value.escape ++ '"' :: rest) = (.text (some s), rest) := by
  simp [word, pieces?_escaped, assemble?_map_pieceOf]

/-! ## Words -/

theorem tokens_of_word {c : Char} {more rest : List Char} {t : Token} (hblank : isBlank c = false)
    (hword : word c more = (t, rest)) : tokens (c :: more) = t :: tokens rest := by
  rw [tokens, if_neg (by simp [hblank]), hword]

@[simp] theorem tokens_openBrace (rest : List Char) :
    tokens ('\x7b' :: rest) = .openBrace :: tokens rest :=
  tokens_of_word rfl rfl

@[simp] theorem tokens_closeBrace (rest : List Char) :
    tokens ('\x7d' :: rest) = .closeBrace :: tokens rest :=
  tokens_of_word rfl rfl

@[simp] theorem tokens_openBracket (rest : List Char) :
    tokens ('[' :: rest) = .openBracket :: tokens rest :=
  tokens_of_word rfl rfl

@[simp] theorem tokens_closeBracket (rest : List Char) :
    tokens (']' :: rest) = .closeBracket :: tokens rest :=
  tokens_of_word rfl rfl

@[simp] theorem tokens_colon (rest : List Char) : tokens (':' :: rest) = .colon :: tokens rest :=
  tokens_of_word rfl rfl

@[simp] theorem tokens_comma (rest : List Char) : tokens (',' :: rest) = .comma :: tokens rest :=
  tokens_of_word rfl rfl

/-- A literal is read if it is spelled out. -/
theorem literal_append (t : Token) (w rest : List Char) :
    ((after? w (w ++ rest)).map (t, ·)).getD (.invalid, []) = (t, rest) := by
  rw [after?, if_pos (List.prefix_append w rest), List.drop_left]
  rfl

@[simp] theorem tokens_quote_append (s : String) (rest : List Char) :
    tokens (Value.quote s ++ rest) = .text (some s) :: tokens rest := by
  have hquote : Value.quote s ++ rest = '"' :: (s.toList.flatMap Value.escape ++ '"' :: rest) := by
    simp [Value.quote]
  rw [hquote, tokens_of_word rfl (word_quote s rest)]

/-- Where a digit stands, a number is read. -/
theorem tokens_digit {d : Char} (hd : d.isDigit = true) {more rest : List Char}
    {value : Option Nat} (h : number? (d :: more) = some (value, rest)) :
    tokens (d :: more) = .number value :: tokens rest := by
  have hblank : isBlank d = false := by simp (disch := decide) [isBlank, ne_of_isDigit hd]
  have hword : word d more = (.number value, rest) := by
    simp (disch := decide) [word, ne_of_isDigit hd, h]
  exact tokens_of_word hblank hword

theorem tokens_toDigits_append (n : Nat) {rest : List Char} (hrest : AfterValue rest) :
    tokens (Nat.toDigits 10 n ++ rest) = .number (some n) :: tokens rest := by
  have hnumber := number?_toDigits n hrest
  obtain ⟨d, more, hdigits, hd⟩ := exists_toDigits_eq n
  rw [hdigits, List.cons_append] at hnumber ⊢
  exact tokens_digit hd hnumber

namespace Value

mutual

/-- The words of a value. -/
def words : Value → List Token
  | .null => [.null]
  | .flag value => [.flag value]
  | .number n => [.number (some n)]
  | .text s => [.text (some s)]
  | .list items => .openBracket :: itemWords items ++ [.closeBracket]
  | .object entries => .openBrace :: entryWords entries ++ [.closeBrace]

/-- The words of the items of a list, with commas between them. -/
def itemWords : List Value → List Token
  | [] => []
  | [item] => words item
  | item :: rest => words item ++ .comma :: itemWords rest

/-- The words of the entries of an object, with commas between them. -/
def entryWords : List (String × Value) → List Token
  | [] => []
  | [(key, item)] => .text (some key) :: .colon :: words item
  | (key, item) :: rest => .text (some key) :: .colon :: words item ++ .comma :: entryWords rest

end

mutual

/-- What is written of a value is taken apart into the words of the value. -/
theorem tokens_render_append : ∀ (value : Value) {rest : List Char}, AfterValue rest →
    tokens (value.render ++ rest) = value.words ++ tokens rest
  | .null, rest, _ => tokens_of_word rfl (literal_append .null "ull".toList rest)
  | .flag true, rest, _ => tokens_of_word rfl (literal_append (.flag true) "rue".toList rest)
  | .flag false, rest, _ => tokens_of_word rfl (literal_append (.flag false) "alse".toList rest)
  | .number n, rest, hrest => by
    rw [render, words, tokens_toDigits_append n hrest]
    rfl
  | .text s, rest, _ => by
    rw [render, words, tokens_quote_append]
    rfl
  | .list items, rest, _ => by
    -- the items are followed by the closing bracket, which may follow a value
    have hitems := tokens_renderItems_append items (afterValue_cons (c := ']') (by simp) rest)
    simp [render, words, hitems]
  | .object entries, rest, _ => by
    have hentries := tokens_renderEntries_append entries
      (afterValue_cons (c := '\x7d') (by simp) rest)
    simp [render, words, hentries]

theorem tokens_renderItems_append : ∀ (items : List Value) {rest : List Char}, AfterValue rest →
    tokens (renderItems items ++ rest) = itemWords items ++ tokens rest
  | [], rest, _ => by rw [renderItems, itemWords]; rfl
  | [item], rest, hrest => by rw [renderItems, itemWords, tokens_render_append item hrest]
  | item :: next :: items, rest, hrest => by
    have hitem := tokens_render_append item (afterValue_cons (c := ',') (by simp)
      (renderItems (next :: items) ++ rest))
    have hitems := tokens_renderItems_append (next :: items) hrest
    simp [renderItems, itemWords, hitem, hitems]

theorem tokens_renderEntries_append : ∀ (entries : List (String × Value)) {rest : List Char},
    AfterValue rest → tokens (renderEntries entries ++ rest) = entryWords entries ++ tokens rest
  | [], rest, _ => by rw [renderEntries, entryWords]; rfl
  | [(key, item)], rest, hrest => by
    have hitem := tokens_render_append item hrest
    simp [renderEntries, entryWords, hitem]
  | (key, item) :: next :: entries, rest, hrest => by
    have hitem := tokens_render_append item (afterValue_cons (c := ',') (by simp)
      (renderEntries (next :: entries) ++ rest))
    have hentries := tokens_renderEntries_append (next :: entries) hrest
    simp [renderEntries, entryWords, hitem, hentries]

end

/-- The words of what is written of a value are the words of the value. -/
theorem tokens_render (value : Value) : tokens value.render = value.words := by
  have h := tokens_render_append value afterValue_nil
  rwa [List.append_nil, show tokens [] = [] by rw [tokens], List.append_nil] at h

end Value

end SpanCourier.Json
