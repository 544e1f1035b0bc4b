import SpanCourier.Proofs.Wire.Reading

set_option autoImplicit false

/-! # Reading undoes writing

A collector reads from a message what `Span.decoded` says, span by span (`Span.decodeList?_eq`). The
proof follows the layout: the parts of an endpoint, of an event and of a tag, the fields of a span,
and the entries of a list.
-/

namespace SpanCourier

/-! ## Endpoints -/

namespace Endpoint

/-- The parts of an endpoint as a collector reads them. -/
def parts (endpoint : Endpoint) : DecodedEndpoint where
  serviceName := endpoint.serviceName.getD ""
  ipv4 :=
    match endpoint.address? with
    | some (.v4 address) => address.octets
    | _ => []
  ipv6 :=
    match endpoint.address? with
    | some (.v6 address) => address.bytes
    | _ => []
  port := endpoint.port.toNat

theorem decoded_eq (endpoint : Endpoint) :
    endpoint.decoded = if endpoint.parts = {} then none else some endpoint.parts :=
  rfl

theorem absorbed_content (endpoint : Endpoint) :
    Absorbed DecodedEndpoint.absorb (endpoint.content endpoint.address?) {} endpoint.parts := by
  have name : Absorbed DecodedEndpoint.absorb
      (Field.delimited 1 (utf8 (endpoint.serviceName.getD ""))) {} _ :=
    .text 1 (fun e s => { e with serviceName := s }) _ (by decide) (fun _ => rfl) rfl
  have port (e : DecodedEndpoint) (he : e.port = 0) : Absorbed DecodedEndpoint.absorb
      (Field.varint 4 endpoint.port.toNat) e { e with port := endpoint.port.toNat } :=
    .varint 4 (fun (e : DecodedEndpoint) n => { e with port := n }) _ (by decide) (fun _ => rfl)
      (by rw [← he])
  unfold content parts
  cases endpoint.address? with
  | none => exact (name.append (.nil _)).append (port _ rfl)
  | some address =>
    cases address with
    | v4 address =>
      have ipv4 := name.append
        (.delimited 2 (fun e b => { e with ipv4 := b }) address.octets (by decide)
          (fun _ => rfl) rfl)
      exact ipv4.append (port _ rfl)
    | v6 address =>
      have ipv6 := name.append
        (.delimited 3 (fun e b => { e with ipv6 := b }) address.bytes (by decide)
          (fun _ => rfl) rfl)
      exact ipv6.append (port _ rfl)

/-- Nothing is to be read of an endpoint without a name, an address and a port. -/
theorem parts_eq_iff (endpoint : Endpoint) :
    endpoint.parts = {} ↔
      endpoint.serviceName.getD "" = "" ∧ endpoint.address? = none ∧ endpoint.port = 0 := by
  constructor
  · intro h
    refine ⟨congrArg DecodedEndpoint.serviceName h, ?_, ?_⟩
    · cases ha : endpoint.address? with
      | none => rfl
      | some address =>
        have hne := address.bytes_ne_nil
        cases address with
        | v4 address =>
          have hipv4 := congrArg DecodedEndpoint.ipv4 h
          simp only [parts, ha] at hipv4
          exact absurd hipv4 hne
        | v6 address =>
          have hipv6 := congrArg DecodedEndpoint.ipv6 h
          simp only [parts, ha] at hipv6
          exact absurd hipv6 hne
    · have hport : endpoint.port.toNat = 0 := congrArg DecodedEndpoint.port h
      exact UInt16.toNat_inj.1 hport
  · rintro ⟨hname, haddress, hport⟩
    rw [parts, hname, haddress, hport]
    rfl

/-- Nothing is written of an endpoint if and only if nothing is to be read of it. -/
theorem content_eq_nil_iff (endpoint : Endpoint) :
    endpoint.content endpoint.address? = [] ↔ endpoint.parts = {} := by
  constructor
  · intro h
    have hread := endpoint.absorbed_content.readMessage?_eq
    rw [h, readMessage?_nil] at hread
    exact (Option.some.inj hread).symm
  · intro h
    obtain ⟨hname, haddress, hport⟩ := endpoint.parts_eq_iff.1 h
    rw [content, hname, haddress, hport]
    rfl

/-- The field of an endpoint is taken in, also if it is left out. -/
theorem absorbed_write {α : Type} {absorb : α → Nat × Field.Content → Option α} {a : α}
    (number : Nat) (put : α → Option DecodedEndpoint → α) (endpoint : Endpoint)
    (hn : number < 16)
    (hput : ∀ b, absorb a (number, .bytes b) =
      (readMessage? {} DecodedEndpoint.absorb b).map fun e => put a (some e))
    (hnone : put a none = a) :
    Absorbed absorb (endpoint.measure.write number endpoint) a (put a endpoint.decoded) := by
  rw [write_eq, decoded_eq, Field.delimited]
  by_cases h : endpoint.content endpoint.address? = []
  · rw [if_pos h, if_pos (endpoint.content_eq_nil_iff.1 h), hnone]
    exact .nil a
  · rw [if_neg h, if_neg (mt endpoint.content_eq_nil_iff.2 h)]
    refine .entry hn ?_
    rw [hput, endpoint.absorbed_content.readMessage?_eq, Option.map_some]

end Endpoint

/-! ## Events and tags -/

theorem Annotation.absorbed_content (a : Annotation) :
    Absorbed absorbAnnotation a.content (0, "") (a.timestamp.toNat, a.value) := by
  have timestamp : Absorbed absorbAnnotation (Field.fixed64 1 a.timestamp) (0, "") _ :=
    .fixed64 1 (fun e n => (n, e.2)) _ (by decide) (fun _ => rfl) rfl
  exact timestamp.append (.text 2 (fun e s => (e.1, s)) _ (by decide) (fun _ => rfl) rfl)

theorem TagEntry.absorbed_content (key value : String) :
    Absorbed absorbTag (content key value) ("", "") (key, value) := by
  have hkey : Absorbed absorbTag (Field.delimited 1 (utf8 key)) ("", "") _ :=
    .text 1 (fun e s => (s, e.2)) _ (by decide) (fun _ => rfl) rfl
  exact hkey.append (.text 2 (fun e s => (e.1, s)) _ (by decide) (fun _ => rfl) rfl)

theorem DecodedSpan.absorbed_annotations (s : DecodedSpan) (annotations : List Annotation) :
    Absorbed absorb (annotations.flatMap Annotation.write) s
      { s with
        annotations :=
          s.annotations ++ annotations.map fun a => (a.timestamp.toNat, a.value) } := by
  refine .flatMap (fun vs => { s with annotations := vs }) _ ?_ annotations s.annotations
  intro vs a
  rw [a.write_eq]
  refine .entry (by decide) ?_
  simp only [absorb, a.absorbed_content.readMessage?_eq, Option.map_some]

theorem DecodedSpan.absorbed_tags (s : DecodedSpan) (tags : List (String × String)) :
    Absorbed absorb (tags.flatMap fun tag => TagEntry.write tag.1 tag.2) s
      { s with tags := s.tags ++ tags } := by
  have h : Absorbed absorb (tags.flatMap fun tag => TagEntry.write tag.1 tag.2) s
      { s with tags := s.tags ++ tags.map fun tag => tag } := by
    refine .flatMap (fun vs => { s with tags := vs }) _ ?_ tags s.tags
    intro vs tag
    rw [TagEntry.write_eq]
    refine .entry (by decide) ?_
    simp only [absorb, (TagEntry.absorbed_content tag.1 tag.2).readMessage?_eq, Option.map_some]
  rw [List.map_id'] at h
  exact h

/-! ## Spans -/

namespace Span

/-- The fields of a span, one after the other, are read as what is to be read of it. -/
theorem absorbed_content (span : Span) (tagger : ErrorTagger) :
    Absorbed DecodedSpan.absorb (span.content tagger (span.measure tagger)) {}
      (span.decoded tagger) := by
  -- each step reads one more field into the record that the fields before it have left
  have traceId : Absorbed DecodedSpan.absorb (Field.delimited 1 (idBytes span.traceId)) {} _ :=
    .delimited 1 (fun s b => { s with traceId := b }) _ (by decide) (fun _ => rfl) rfl
  -- a parent that is absent is written as one without bytes
  have hparent : (span.parentId.map fun id => Field.delimited 2 (idBytes id)).getD [] =
      Field.delimited 2 ((span.parentId.map idBytes).getD []) := by
    cases span.parentId with
    | none => rfl
    | some id => rfl
  have parentId := traceId.append
    (.delimited 2 (fun s b => { s with parentId := b }) ((span.parentId.map idBytes).getD [])
      (by decide) (fun _ => rfl) rfl)
  have id := parentId.append
    (.delimited 3 (fun s b => { s with id := b }) (idBytes span.id) (by decide)
      (fun _ => rfl) rfl)
  have kind := id.append
    (.varint 4 (fun s n => { s with kind := n }) span.kindNumber (by decide) (fun _ => rfl) rfl)
  have name := kind.append
    (.text 5 (fun s t => { s with name := t }) (span.name.getD "") (by decide)
      (fun _ => rfl) rfl)
  have timestamp := name.append
    (.fixed64 6 (fun s n => { s with timestamp := n }) span.start (by decide) (fun _ => rfl) rfl)
  have duration := timestamp.append
    (.varint 7 (fun s n => { s with duration := n }) span.wireDuration (by decide)
      (fun _ => rfl) rfl)
  have localEndpoint := duration.append
    (span.localEndpoint.absorbed_write 8 (fun s e => { s with localEndpoint := e }) (by decide)
      (fun _ => rfl) rfl)
  have remoteEndpoint := localEndpoint.append
    (span.remoteEndpoint.absorbed_write 9 (fun s e => { s with remoteEndpoint := e }) (by decide)
      (fun _ => rfl) rfl)
  have annotations := remoteEndpoint.append
    (DecodedSpan.absorbed_annotations _ span.annotations)
  have tags := annotations.append (DecodedSpan.absorbed_tags _ span.tags.entries)
  -- the tag for the failure is one more entry behind the others
  have herror : ((tagger.tag? span).map fun v => TagEntry.write tagger.key v).getD [] =
      ((tagger.tag? span).map fun v => (tagger.key, v)).toList.flatMap
        fun tag => TagEntry.write tag.1 tag.2 := by
    cases tagger.tag? span with
    | none => rfl
    | some value => simp
  have errorTag := tags.append
    (DecodedSpan.absorbed_tags _ ((tagger.tag? span).map fun v => (tagger.key, v)).toList)
  have debug := errorTag.append
    (.flag 12 (fun s b => { s with debug := b }) span.debug (by decide) rfl rfl)
  have shared := debug.append
    (.flag 13 (fun s b => { s with shared := b }) span.shared (by decide) rfl rfl)
  unfold content measure
  dsimp only
  rw [hparent, herror]
  exact shared

/-- Every span of a message is read, and in order. -/
theorem decodeList?_eq (spans : List Span) (tagger : ErrorTagger) :
    decodeList? (message spans tagger) = some (spans.map fun span => span.decoded tagger) := by
  rw [message_eq]
  refine Absorbed.readMessage?_eq ?_
  refine .flatMap (fun decoded => decoded) _ ?_ spans []
  intro decoded span
  rw [entry_eq]
  refine .entry (by decide) ?_
  simp only [(span.absorbed_content tagger).readMessage?_eq, Option.map_some]

end Span

end SpanCourier
