import SpanCourier.Span.Basic
import SpanCourier.Text.Quoted

set_option autoImplicit false

/-! # Tags for failures

A span that failed is written with one more tag. A tagger fixes the key of that tag and finds its
value from the failure, or none. The usual tagger takes the text of the failure, and its kind if
it has no text.
-/

namespace SpanCourier

/-- How failures become tags. -/
structure ErrorTagger where
  key : String
  value : RecordedError → Option String

instance : Inhabited ErrorTagger := ⟨"", fun _ => none⟩

/-- Ways to find the value of a failure's tag. -/
inductive TagRule
  | textOrKind
  | kind
  | text
  | both
  | blank
  | nothing
deriving DecidableEq, Repr

namespace TagRule

/-- A text, unless it is empty. -/
def nonempty? (s : String) : Option String := if s = "" then none else some s

/-- The value that a rule finds. -/
def value : TagRule → RecordedError → Option String
  | textOrKind, error => (error.message.bind nonempty?).or (nonempty? error.kind)
  | kind, error => some error.kind
  | text, error => error.message
  | both, error => some (error.kind ++ ":" ++ error.message.getD "-")
  | blank, _ => some ""
  | nothing, _ => none

end TagRule

namespace ErrorTagger

/-- The tagger of a key and a rule. -/
def ofRule (key : String) (rule : TagRule) : ErrorTagger := ⟨key, rule.value⟩

/-- The usual tagger, under a key of choice. -/
def usual (key : String) : ErrorTagger := ofRule key .textOrKind

/-- The usual tagger under the key `error`. -/
def standard : ErrorTagger := usual "error"

/-- The tag that a span gets for its failure: none if the span already has a tag under the
key. -/
def tag? (tagger : ErrorTagger) (span : Span) : Option String :=
  if span.tags.contains tagger.key then none else span.error.bind tagger.value

/-- The text that describes an encoder with this tagger. -/
def describe (tagger : ErrorTagger) : String :=
  "Proto3Encoder \x7b error_tag_key: " ++ Quoted.text tagger.key ++ " \x7d"

end ErrorTagger

end SpanCourier
