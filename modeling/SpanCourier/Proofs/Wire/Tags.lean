import SpanCourier.Proofs.Span.Identifiers
import SpanCourier.Proofs.Span.Tags
import SpanCourier.Proofs.Wire.RoundTrip

set_option autoImplicit false

/-! # Tags on the wire

Tags are set on a draft and, after it is built, on the span, among other calls that leave them alone
(`TagCall`). What the span then holds is decided by the calls that set tags, in their order
(`Span.MadeBy.tags_eq`), and what is written of it is one entry for each key, in the order of the
keys' bytes, and behind them at most one more for the failure.
-/

namespace SpanCourier

/-! ## Calls that set tags -/

variable {α : Type} {tags : α → Tags}

/-- A call on something that carries tags: it sets one, or it leaves the tags alone. -/
inductive TagCall (tags : α → Tags)
  | tag (key value : String)
  | other (change : α → α) (keeps : ∀ a, tags (change a) = tags a)

namespace TagCall

/-- What a call makes of its subject. -/
def apply (setTag : α → String → String → α) (a : α) : TagCall tags → α
  | tag key value => setTag a key value
  | other change _ => change a

/-- The tag that a call sets. -/
def tag? : TagCall tags → Option (String × String)
  | tag key value => some (key, value)
  | other _ _ => none

/-- Each call that sets a tag counts, and no other. -/
theorem tags_foldl_apply (setTag : α → String → String → α)
    (hset : ∀ a key value, tags (setTag a key value) = (tags a).insert key value) (a : α)
    (calls : List (TagCall tags)) :
    tags (calls.foldl (apply setTag) a) = (tags a).insertAll (calls.filterMap tag?) := by
  induction calls generalizing a with
  | nil => rfl
  | cons call rest ih =>
    rw [List.foldl_cons, ih]
    cases call with
    | tag key value =>
      simp only [apply, hset]
      rfl
    | other change keeps =>
      simp only [apply, keeps]
      rfl

end TagCall

/-- A draft after some calls on an empty one. -/
def Draft.afterCalls (calls : List (TagCall Draft.tags)) : Draft :=
  calls.foldl (TagCall.apply Draft.tag) { tags := .empty }

namespace Span

/-- A span after some calls. -/
def afterCalls (span : Span) (calls : List (TagCall Span.tags)) : Span :=
  calls.foldl (TagCall.apply Span.tag) span

/-- The span was built from a draft and changed, and these are the calls that set tags on the one
and the other, in their order. -/
def MadeBy (span : Span) (calls : List (String × String)) : Prop :=
  ∃ before after built, (Draft.afterCalls before).build = .ok built
    ∧ span = built.afterCalls after
    ∧ calls = before.filterMap TagCall.tag? ++ after.filterMap TagCall.tag?

/-- The span holds what its calls leave. -/
theorem MadeBy.tags_eq {span : Span} {calls : List (String × String)} (h : span.MadeBy calls) :
    span.tags = Tags.empty.insertAll calls := by
  obtain ⟨before, after, built, hbuild, rfl, rfl⟩ := h
  have hbuilt : built.tags = Tags.empty.insertAll (before.filterMap TagCall.tag?) := by
    rw [(Draft.build_eq_ok_iff.1 hbuild).2]
    exact TagCall.tags_foldl_apply Draft.tag (fun _ _ _ => rfl) _ before
  rw [Tags.insertAll_append, ← hbuilt]
  exact TagCall.tags_foldl_apply Span.tag (fun _ _ _ => rfl) built after

/-- The span without its tags. -/
def withoutTags (span : Span) : Span := { span with tags := .empty }

/-- Two spans that differ in nothing but tags that are the same do not differ. -/
theorem eq_of_withoutTags {a b : Span} (h : a.withoutTags = b.withoutTags)
    (htags : a.tags = b.tags) : a = b := by
  cases a
  cases b
  cases htags
  cases h
  rfl

/-- A span is read from what is written of it. -/
theorem decodeList?_encode (span : Span) (tagger : ErrorTagger) :
    decodeList? ((Encoder.proto3 tagger).encode span) = some [span.decoded tagger] := by
  have hread := decodeList?_eq [span] tagger
  rw [message_eq, List.flatMap_singleton] at hread
  exact hread

/-- The tag for a failure is there if the tagger finds a value and no call has set its key. -/
theorem MadeBy.tag?_eq {span : Span} {calls : List (String × String)} (h : span.MadeBy calls)
    (tagger : ErrorTagger) :
    tagger.tag? span =
      if tagger.key ∈ calls.map Prod.fst then none else span.error.bind tagger.value := by
  have hcontains : span.tags.contains tagger.key = true ↔ tagger.key ∈ calls.map Prod.fst := by
    rw [Tags.contains_eq, h.tags_eq, Tags.get?_insertAll, ← Option.ne_none_iff_isSome, ne_eq,
      lastValue?_eq_none_iff, not_not]
  rw [ErrorTagger.tag?]
  exact if_congr hcontains rfl rfl

/-- Of a span, one entry is written for each key that was ever set, in rising order of the keys'
UTF-8 bytes and with the value that was set last. One more follows for the failure exactly if there
is one, the tagger finds a value for it and no call has set the tagger's key, so no key stands
twice. Calls that agree in the last value of every key make the same bytes of a span. -/
theorem tags_on_wire {span : Span} {calls : List (String × String)} (h : span.MadeBy calls)
    (tagger : ErrorTagger) :
    decodeList? ((Encoder.proto3 tagger).encode span) = some [span.decoded tagger]
      ∧ (span.decoded tagger).tags = span.tags.entries
          ++ (if tagger.key ∈ calls.map Prod.fst then []
            else ((span.error.bind tagger.value).map fun value => (tagger.key, value)).toList)
      ∧ (span.tags.entries.Pairwise fun a b => utf8 a.1 < utf8 b.1)
      ∧ (∀ key value, (key, value) ∈ span.tags.entries ↔ lastValue? calls key = some value)
      ∧ ((span.decoded tagger).tags.map Prod.fst).Nodup
      ∧ ∀ (other : Span) (others : List (String × String)), other.MadeBy others →
          (∀ key, lastValue? others key = lastValue? calls key) →
          other.withoutTags = span.withoutTags →
          (Encoder.proto3 tagger).encode other = (Encoder.proto3 tagger).encode span := by
  have hmem : ∀ key value, (key, value) ∈ span.tags.entries ↔
      lastValue? calls key = some value := by
    intro key value
    rw [Tags.mem_entries_iff, h.tags_eq, Tags.get?_insertAll]
  have htags : (span.decoded tagger).tags = span.tags.entries
      ++ (if tagger.key ∈ calls.map Prod.fst then []
        else ((span.error.bind tagger.value).map fun value => (tagger.key, value)).toList) := by
    rw [decoded, h.tag?_eq]
    split <;> rfl
  refine ⟨span.decodeList?_encode tagger, htags, span.tags.sorted, hmem, ?_, ?_⟩
  · -- the key for the failure was never set, so it is none of the others
    rw [htags, List.map_append]
    split
    · simpa using span.tags.nodup_keys
    · next hkey =>
      cases span.error.bind tagger.value with
      | none => simpa using span.tags.nodup_keys
      | some value =>
        refine List.nodup_append.2 ⟨span.tags.nodup_keys, List.nodup_singleton _, ?_⟩
        rintro key hkeys other hother rfl
        obtain rfl : key = tagger.key := by simpa using hother
        obtain ⟨⟨k, v⟩, hentry, hk⟩ := List.mem_map.1 hkeys
        obtain rfl : k = tagger.key := hk
        have hvalue := (hmem tagger.key v).1 hentry
        rw [lastValue?_eq_none_iff.2 hkey] at hvalue
        cases hvalue
  · intro other others hmade hvalues hrest
    have hsame : other.tags = span.tags := by
      rw [hmade.tags_eq, h.tags_eq]
      exact Tags.insertAll_eq hvalues
    rw [eq_of_withoutTags hrest hsame]

/-- A key set on the draft and again on the span, an empty key and an empty value, with other
changes between. -/
theorem tags_on_wire_set_again :
    ∃ span : Span, span.MadeBy [("b", "1"), ("", "x"), ("b", "2"), ("é", "")]
      ∧ (span.decoded .standard).tags =
          [("", "x"), ("b", "2"), ("é", ""), ("error", "Timeout")]
      ∧ ∀ other : Span, other.MadeBy [("é", ""), ("b", "2"), ("", "x")] →
          other.withoutTags = span.withoutTags →
          (Encoder.proto3 .standard).encode other = (Encoder.proto3 .standard).encode span := by
  let before : List (TagCall Draft.tags) := [
    .other (fun draft => { draft with traceId := some "a", id := some "1" }) fun _ => rfl,
    .tag "b" "1",
    .other (fun draft => { draft with error := some ⟨"Timeout", none⟩ }) fun _ => rfl,
    .tag "" "x"]
  let after : List (TagCall Span.tags) := [
    .tag "b" "2", .other (fun span => span.annotate 5 "late") fun _ => rfl, .tag "é" ""]
  let built := (Draft.afterCalls before).filled
  have hbuilt : (Draft.afterCalls before).build = .ok built :=
    Draft.build_eq_ok_iff.2 ⟨by decide +kernel, rfl⟩
  have hmade : (built.afterCalls after).MadeBy [("b", "1"), ("", "x"), ("b", "2"), ("é", "")] :=
    ⟨before, after, built, hbuilt, rfl, rfl⟩
  obtain ⟨-, htags, -, -, -, hsame⟩ := tags_on_wire hmade .standard
  refine ⟨_, hmade, ?_, fun other hother => hsame other _ hother fun key => ?_⟩
  · rw [htags]
    decide +kernel
  · simp only [lastValue?, List.reverse_cons, List.reverse_nil, List.nil_append, List.cons_append,
      List.find?_cons]
    grind

end Span

end SpanCourier
