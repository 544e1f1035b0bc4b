import SpanCourier.Encoder

set_option autoImplicit false

/-! # Sizes are exact

What the first pass measures is the length of what the second pass writes: for a number, for every
shape of field, for the parts of a span, and so for a span and for a list of spans. Each length that
is written before a content is therefore the number of bytes of that content.
-/

namespace SpanCourier

/-! ## Numbers -/

namespace Varint

theorem size_of_lt {n : Nat} (h : n < 128) : size n = 1 := by
  unfold size
  split
  · rfl
  · next hn =>
    have hlog : n.log2 < 7 := (Nat.log2_lt hn).2 h
    omega

/-- Seven bits less are one byte less. -/
theorem size_of_ge {n : Nat} (h : 128 ≤ n) : size n = size (n / 128) + 1 := by
  have hn : n ≠ 0 := by omega
  have hq : n / 128 ≠ 0 := by omega
  -- a number has seven binary digits more than its quotient by `2 ^ 7`
  have hlog : n.log2 = (n / 128).log2 + 7 := by
    rw [Nat.log2_eq_iff hn]
    have hlow : 2 ^ (n / 128).log2 ≤ n / 128 := Nat.log2_self_le hq
    have hhigh : n / 128 < 2 ^ ((n / 128).log2 + 1) := Nat.lt_log2_self
    have hpow : 2 ^ ((n / 128).log2 + 7) = 2 ^ (n / 128).log2 * 128 := Nat.pow_add ..
    have hpow' : 2 ^ ((n / 128).log2 + 7 + 1) = 2 ^ ((n / 128).log2 + 1) * 128 := by
      rw [Nat.add_right_comm]
      exact Nat.pow_add ..
    constructor
    · rw [hpow]
      omega
    · rw [hpow']
      omega
  rw [size, size, if_neg hn, if_neg hq, hlog]
  omega

/-- The size of a number is the number of its bytes. -/
theorem length_write (n : Nat) : (write n).length = size n := by
  induction n using Nat.strongRecOn with
  | ind n ih =>
    by_cases h : n < 128
    · rw [write_of_lt h, size_of_lt h]
      rfl
    · have hge : 128 ≤ n := by omega
      rw [write_of_ge hge, size_of_ge hge, List.length_cons, ih (n / 128) (by omega)]

end Varint

/-! ## Fields -/

namespace Field

theorem length_varint (number value : Nat) :
    (varint number value).length = varintSize value := by
  unfold varint varintSize
  split
  · rfl
  · rw [List.length_cons, Varint.length_write, Nat.add_comm]

theorem length_head_append (number : Nat) (content : List UInt8) :
    (head number content.length ++ content).length = entrySize content.length := by
  unfold head entrySize
  rw [List.length_append, List.length_cons, Varint.length_write]
  omega

theorem length_delimited (number : Nat) (bytes : List UInt8) :
    (delimited number bytes).length = delimitedSize bytes.length := by
  unfold delimited delimitedSize
  by_cases h : bytes = []
  · simp [h]
  · have hlen : bytes.length ≠ 0 := by simpa using h
    rw [if_neg h, if_neg hlen, length_head_append]

/-- Entries one after the other take as many bytes as they take one by one. -/
theorem length_flatMap_entries {α : Type} {write : α → List UInt8} {size : α → Nat}
    (h : ∀ x, (write x).length = entrySize (size x)) (xs : List α) :
    (xs.flatMap write).length = entriesSize (xs.map size) := by
  induction xs with
  | nil => rfl
  | cons x rest ih =>
    rw [List.flatMap_cons, List.length_append, h, ih]
    rfl

end Field

/-! ## Parts of a span -/

namespace Endpoint

theorem length_writeAddress (address : Option Address) :
    (writeAddress address).length =
      (address.map fun a => Field.delimitedSize a.bytes.length).getD 0 := by
  cases address with
  | none => rfl
  | some address => exact Field.length_delimited _ _

/-- The measure of an endpoint is the length of its content. -/
theorem length_content (endpoint : Endpoint) :
    (endpoint.content endpoint.address?).length = endpoint.measure.length := by
  have hname : (utf8 (endpoint.serviceName.getD "")).length =
      (endpoint.serviceName.map String.utf8ByteSize).getD 0 := by
    cases endpoint.serviceName with
    | none => rfl
    | some name => exact utf8_length name
  simp only [content, measure, List.length_append, Field.length_delimited, hname,
    length_writeAddress, Field.length_varint]

/-- The field of an endpoint has the length of its content before it. -/
theorem write_eq (endpoint : Endpoint) (number : Nat) :
    endpoint.measure.write number endpoint =
      Field.delimited number (endpoint.content endpoint.address?) := by
  unfold MeasuredEndpoint.write Field.delimited
  rw [← length_content]
  by_cases h : endpoint.content endpoint.address? = []
  · rw [if_pos h, if_pos (by rw [h]; rfl)]
  · rw [if_neg h, if_neg (by simpa using h)]
    rfl

theorem length_write (endpoint : Endpoint) (number : Nat) :
    (endpoint.measure.write number endpoint).length = endpoint.measure.fieldSize := by
  rw [write_eq, Field.length_delimited, length_content]
  rfl

end Endpoint

namespace Annotation

/-- The measure of an event is the length of its content. -/
theorem length_content (a : Annotation) : a.content.length = a.contentSize := by
  rw [content, contentSize, List.length_append, Field.length_fixed64, Field.length_delimited,
    utf8_length]

theorem write_eq (a : Annotation) : a.write = Field.head 10 a.content.length ++ a.content := by
  rw [write, length_content]

theorem length_write (a : Annotation) : a.write.length = Field.entrySize a.contentSize := by
  rw [write_eq, Field.length_head_append, length_content]

end Annotation

namespace TagEntry

/-- The measure of a tag is the length of its content. -/
theorem length_content (key value : String) :
    (content key value).length = contentSize key value := by
  rw [content, contentSize, List.length_append, Field.length_delimited, Field.length_delimited,
    utf8_length, utf8_length]

theorem write_eq (key value : String) :
    write key value = Field.head 11 (content key value).length ++ content key value := by
  rw [write, length_content]

theorem length_write (key value : String) :
    (write key value).length = Field.entrySize (contentSize key value) := by
  rw [write_eq, Field.length_head_append, length_content]

end TagEntry

/-! ## Spans -/

namespace Span

/-- The measure of a span is the length of its content. -/
theorem length_content (span : Span) (tagger : ErrorTagger) :
    (span.content tagger (span.measure tagger)).length = (span.measure tagger).length := by
  have hparent : ((span.parentId.map fun id => Field.delimited 2 (idBytes id)).getD []).length =
      (span.parentId.map idFieldSize).getD 0 := by
    cases span.parentId with
    | none => rfl
    | some id => exact Field.length_delimited ..
  have hname : (utf8 (span.name.getD "")).length =
      (span.name.map String.utf8ByteSize).getD 0 := by
    cases span.name with
    | none => rfl
    | some name => exact utf8_length name
  have herror : (((tagger.tag? span).map fun v => TagEntry.write tagger.key v).getD []).length =
      ((tagger.tag? span).map fun v =>
        Field.entrySize (TagEntry.contentSize tagger.key v)).getD 0 := by
    cases tagger.tag? span with
    | none => rfl
    | some value => exact TagEntry.length_write ..
  have hannotations : (span.annotations.flatMap Annotation.write).length =
      Field.entriesSize (span.annotations.map Annotation.contentSize) :=
    Field.length_flatMap_entries Annotation.length_write _
  have htags : (span.tags.entries.flatMap fun tag => TagEntry.write tag.1 tag.2).length =
      Field.entriesSize (span.tags.entries.map fun tag => TagEntry.contentSize tag.1 tag.2) :=
    Field.length_flatMap_entries (fun _ => TagEntry.length_write ..) _
  simp only [content, measure, List.length_append, Field.length_delimited, hparent,
    Field.length_varint, hname, Field.length_fixed64, Endpoint.length_write, hannotations, htags,
    herror, Field.length_flag, idFieldSize]

theorem entry_eq (span : Span) (tagger : ErrorTagger) :
    span.entry tagger =
      Field.head 1 (span.content tagger (span.measure tagger)).length
        ++ span.content tagger (span.measure tagger) := by
  rw [length_content]
  rfl

theorem length_entry (span : Span) (tagger : ErrorTagger) :
    (span.entry tagger).length = span.entrySize tagger := by
  rw [entry_eq, Field.length_head_append, length_content]
  rfl

theorem length_message (spans : List Span) (tagger : ErrorTagger) :
    (message spans tagger).length =
      Encoding.proto3.listSize (spans.map fun span => span.entrySize tagger) := by
  rw [message_eq]
  induction spans with
  | nil => rfl
  | cons span rest ih =>
    rw [List.flatMap_cons, List.length_append, ih, length_entry, List.map_cons,
      Encoding.listSize_proto3_cons]

end Span

/-- The encoder announces the size of what it writes. Every length that stands before a span, an
endpoint, an event or a tag is the length of what follows it there. A list of spans is written as
the spans are one by one, and has the size that the announced sizes make as a message. -/
theorem Encoder.proto3_sizes_exact (tagger : ErrorTagger) :
    (Encoder.proto3 tagger).Exact
      ∧ (∀ span : Span, (Encoder.proto3 tagger).encode span =
          Field.head 1 (span.content tagger (span.measure tagger)).length
            ++ span.content tagger (span.measure tagger))
      ∧ (∀ (endpoint : Endpoint) (number : Nat), endpoint.measure.write number endpoint =
          Field.delimited number (endpoint.content endpoint.address?))
      ∧ (∀ a : Annotation, a.write = Field.head 10 a.content.length ++ a.content)
      ∧ (∀ key value : String, TagEntry.write key value =
          Field.head 11 (TagEntry.content key value).length ++ TagEntry.content key value)
      ∧ ∀ spans : List Span,
          Span.message spans tagger = spans.flatMap (Encoder.proto3 tagger).encode
          ∧ (Span.message spans tagger).length =
              Encoding.proto3.listSize (spans.map (Encoder.proto3 tagger).size) := by
  refine ⟨?_, ?_, ?_, Annotation.write_eq, TagEntry.write_eq, ?_⟩
  · intro span
    exact (span.length_entry tagger).symm
  · intro span
    exact span.entry_eq tagger
  · intro endpoint number
    exact endpoint.write_eq number
  · intro spans
    exact ⟨Span.message_eq spans tagger, Span.length_message spans tagger⟩

end SpanCourier
