import Mathlib.Data.List.Forall2
import SpanCourier.Proofs.Address.Dotted
import SpanCourier.Proofs.Address.Grammar
import SpanCourier.Proofs.Text.Hex
import SpanCourier.Proofs.Wire.RoundTrip

set_option autoImplicit false

/-! # What is kept of spans on the wire

`Span.Kept` says what is kept of a span in terms of the span alone, however it is written: of an
identifier the number that its digits denote, the number of its kind, a duration, of an address the
bytes that its text spells, the tags and one more for a failure. One such thing is kept of every
span, and it is what the fields that are written of it hold (`Span.kept_iff`). So a collector reads
from a message what is kept of its spans, and nothing else (`Span.decodeList?_message`).
-/

namespace SpanCourier

/-! ## Identifiers -/

/-- An even row of 2 to 32 hexadecimal digits, in either letter case. -/
def WireId (id : String) : Prop :=
  id.toList.length % 2 = 0 ∧ 2 ≤ id.toList.length ∧ id.toList.length ≤ 32
    ∧ ∀ c ∈ id.toList, c.toLower ∈ hexDigits

/-- Of an identifier the number is kept that it denotes, in half as many bytes as it has digits.
Nothing is kept of any other text. -/
inductive KeptId (id : String) : List UInt8 → Prop
  | bytes {bytes : List UInt8} (digits : WireId id)
      (half : 2 * bytes.length = id.toList.length)
      (number : byteNumber bytes = hexNumber id.toList) : KeptId id bytes
  | nothing (other : ¬ WireId id) : KeptId id []

theorem keptId_idBytes (id : String) : KeptId id (idBytes id) := by
  have hsome : (bytesOfHex? id.toList).isSome = true ↔
      id.toList.length % 2 = 0 ∧ ∀ c ∈ id.toList, c.toLower ∈ hexDigits := by
    simp only [bytesOfHex?_isSome_iff, isHex_iff]
  by_cases h : WireId id
  · obtain ⟨heven, htwo, hle, hhex⟩ := h
    obtain ⟨bytes, hb⟩ := Option.isSome_iff_exists.1 (hsome.2 ⟨heven, hhex⟩)
    rw [idBytes, if_pos hle, hb, Option.getD_some]
    have hlength := length_of_bytesOfHex? hb
    exact .bytes ⟨heven, htwo, hle, hhex⟩ hlength.symm (byteNumber_of_bytesOfHex? hb)
  · have hnil : idBytes id = [] := by
      rw [idBytes]
      split
      · next hle =>
        cases hb : bytesOfHex? id.toList with
        | none => rfl
        | some bytes =>
          -- the row is too short, so it has no digits at all
          obtain ⟨heven, hhex⟩ := hsome.1 (by rw [hb]; rfl)
          have hshort : ¬ 2 ≤ id.toList.length := fun htwo => h ⟨heven, htwo, hle, hhex⟩
          have hlength := length_of_bytesOfHex? hb
          rw [Option.getD_some, List.eq_nil_iff_length_eq_zero]
          omega
      · rfl
    rw [hnil]
    exact .nothing h

theorem KeptId.unique {id : String} {a b : List UInt8} (ha : KeptId id a) (hb : KeptId id b) :
    a = b := by
  cases ha with
  | bytes digits half number =>
    cases hb with
    | bytes _ half' number' => exact eq_of_byteNumber_eq (by omega) (number.trans number'.symm)
    | nothing other => exact absurd digits other
  | nothing other =>
    cases hb with
    | bytes digits => exact absurd digits other
    | nothing => rfl

theorem keptId_iff {id : String} {bytes : List UInt8} : KeptId id bytes ↔ bytes = idBytes id := by
  constructor
  · intro h
    exact h.unique (keptId_idBytes id)
  · rintro rfl
    exact keptId_idBytes id

/-! ## Kinds -/

/-- Of a kind its number is kept, and zero if there is none. -/
inductive KeptKind : Option Kind → Nat → Prop
  | absent : KeptKind none 0
  | client : KeptKind (some .client) 1
  | server : KeptKind (some .server) 2
  | producer : KeptKind (some .producer) 3
  | consumer : KeptKind (some .consumer) 4

theorem Span.keptKind_iff {span : Span} {n : Nat} :
    KeptKind span.kind n ↔ n = span.kindNumber := by
  rw [kindNumber]
  generalize span.kind = kind
  constructor
  · intro h
    cases h <;> rfl
  · rintro rfl
    cases kind with
    | none => exact .absent
    | some kind =>
      cases kind with
      | client => exact .client
      | server => exact .server
      | producer => exact .producer
      | consumer => exact .consumer

/-! ## Endpoints -/

/-- Of an address that its text spells the bytes are kept, in the field for addresses of its kind.
Nothing is kept of any other text. -/
inductive KeptAddress : Option String → List UInt8 → List UInt8 → Prop
  | v4 {text : String} {octets : List UInt8} (spelled : Address.SpellsV4 text.toList octets) :
      KeptAddress (some text) octets []
  | v6 {text : String} {groups : List UInt16} {bytes : List UInt8} (noDot : '.' ∉ text.toList)
      (spelled : IPv6.Spells text.toList groups) (order : IPv6.BigEndian groups bytes) :
      KeptAddress (some text) [] bytes
  | other {text : String} (no4 : ∀ octets, ¬ Address.SpellsV4 text.toList octets)
      (no6 : ¬ ('.' ∉ text.toList ∧ ∃ groups, IPv6.Spells text.toList groups)) :
      KeptAddress (some text) [] []
  | absent : KeptAddress none [] []

/-- Of an endpoint the name of the service, the address and the port are kept. The endpoint is
absent exactly if all three are empty. -/
inductive Endpoint.Kept (endpoint : Endpoint) : Option DecodedEndpoint → Prop
  | absent (noName : endpoint.serviceName.getD "" = "") (noAddress : KeptAddress endpoint.ip [] [])
      (noPort : endpoint.port = 0) : Kept endpoint none
  | present {e : DecodedEndpoint} (name : e.serviceName = endpoint.serviceName.getD "")
      (address : KeptAddress endpoint.ip e.ipv4 e.ipv6) (port : e.port = endpoint.port.toNat)
      (any : e.serviceName ≠ "" ∨ e.ipv4 ≠ [] ∨ e.ipv6 ≠ [] ∨ e.port ≠ 0) :
      Kept endpoint (some e)

theorem DecodedEndpoint.eq_empty_iff {e : DecodedEndpoint} :
    e = {} ↔ e.serviceName = "" ∧ e.ipv4 = [] ∧ e.ipv6 = [] ∧ e.port = 0 := by
  obtain ⟨serviceName, ipv4, ipv6, port⟩ := e
  simp

namespace Endpoint

theorem keptAddress_parts (endpoint : Endpoint) :
    KeptAddress endpoint.ip endpoint.parts.ipv4 endpoint.parts.ipv6 := by
  rw [parts, address?]
  cases endpoint.ip with
  | none => exact .absent
  | some text =>
    rw [Option.bind_some]
    cases hread : Address.ofChars? text.toList with
    | none =>
      obtain ⟨no4, no6⟩ := Address.ofChars?_eq_none_iff.1 hread
      rw [IPv6.ofChars?_isSome_iff] at no6
      exact .other no4 no6
    | some address =>
      cases address with
      | v4 address => exact .v4 (Address.ofChars?_eq_v4_iff.1 hread)
      | v6 address =>
        obtain ⟨hdot, h6⟩ := Address.ofChars?_eq_v6_iff.1 hread
        exact .v6 hdot (IPv6.ofChars?_eq_some_iff.1 h6) (IPv6.bytes_eq_iff.1 rfl)

theorem parts_of_keptAddress {endpoint : Endpoint} {ipv4 ipv6 : List UInt8}
    (h : KeptAddress endpoint.ip ipv4 ipv6) :
    ipv4 = endpoint.parts.ipv4 ∧ ipv6 = endpoint.parts.ipv6 := by
  rw [parts, address?]
  generalize endpoint.ip = ip at h
  cases h with
  | @v4 text _ spelled =>
    have hread : Address.ofChars? text.toList = some (.v4 ⟨ipv4, spelled.length_eq⟩) :=
      Address.ofChars?_eq_v4_iff.2 spelled
    rw [Option.bind_some, hread]
    exact ⟨rfl, rfl⟩
  | @v6 text groups _ noDot spelled order =>
    have hread : Address.ofChars? text.toList = some (.v6 ⟨groups, spelled.length_eq⟩) :=
      Address.ofChars?_eq_v6_iff.2 ⟨noDot, IPv6.ofChars?_eq_some_iff.2 spelled⟩
    rw [Option.bind_some, hread]
    exact ⟨rfl, (IPv6.bytes_eq_iff.2 order).symm⟩
  | @other text no4 no6 =>
    have hread : Address.ofChars? text.toList = none := by
      rw [Address.ofChars?_eq_none_iff, IPv6.ofChars?_isSome_iff]
      exact ⟨no4, no6⟩
    rw [Option.bind_some, hread]
    exact ⟨rfl, rfl⟩
  | absent => exact ⟨rfl, rfl⟩

theorem kept_iff {endpoint : Endpoint} {read : Option DecodedEndpoint} :
    endpoint.Kept read ↔ read = endpoint.decoded := by
  rw [decoded_eq]
  constructor
  · intro h
    cases h with
    | absent noName noAddress noPort =>
      have hempty : endpoint.parts = {} := by
        obtain ⟨h4, h6⟩ := parts_of_keptAddress noAddress
        rw [DecodedEndpoint.eq_empty_iff, ← h4, ← h6]
        exact ⟨noName, rfl, rfl, congrArg UInt16.toNat noPort⟩
      rw [if_pos hempty]
    | @present e name address port any =>
      obtain rfl : e = endpoint.parts := by
        obtain ⟨serviceName, ipv4, ipv6, number⟩ := e
        obtain ⟨rfl, rfl⟩ := parts_of_keptAddress address
        obtain rfl := name
        obtain rfl := port
        rfl
      have hne : endpoint.parts ≠ {} := by
        rw [Ne, DecodedEndpoint.eq_empty_iff]
        simpa only [not_and_or] using any
      rw [if_neg hne]
  · rintro rfl
    by_cases hempty : endpoint.parts = {}
    · rw [if_pos hempty]
      obtain ⟨hname, -, hport⟩ := endpoint.parts_eq_iff.1 hempty
      have haddress := endpoint.keptAddress_parts
      rw [hempty] at haddress
      exact .absent hname haddress hport
    · rw [if_neg hempty]
      refine .present rfl endpoint.keptAddress_parts rfl ?_
      rw [DecodedEndpoint.eq_empty_iff] at hempty
      simpa only [not_and_or] using hempty

end Endpoint

/-! ## Tags -/

/-- Of a failure one more tag is kept, under the tagger's key and with the value that the tagger
finds, unless it finds none or the key is set. -/
inductive KeptFailure (tagger : ErrorTagger) (span : Span) : List (String × String) → Prop
  | tag {error : RecordedError} {value : String} (failed : span.error = some error)
      (found : tagger.value error = some value)
      (free : ∀ entry ∈ span.tags.entries, entry.1 ≠ tagger.key) :
      KeptFailure tagger span [(tagger.key, value)]
  | nothing
      (other : ∀ error value, span.error = some error → tagger.value error = some value →
        ∃ entry ∈ span.tags.entries, entry.1 = tagger.key) :
      KeptFailure tagger span []

theorem ErrorTagger.keptFailure_iff {tagger : ErrorTagger} {span : Span}
    {added : List (String × String)} :
    KeptFailure tagger span added ↔
      added = ((tagger.tag? span).map fun v => (tagger.key, v)).toList := by
  have hcontains : span.tags.contains tagger.key = true ↔
      ∃ entry ∈ span.tags.entries, entry.1 = tagger.key := by
    simp only [Tags.contains, List.any_eq_true, decide_eq_true_eq]
  rw [tag?]
  constructor
  · intro h
    cases h with
    | tag failed found free =>
      have hfree : ¬ span.tags.contains tagger.key = true := by
        rw [hcontains]
        rintro ⟨entry, hentry, hkey⟩
        exact free entry hentry hkey
      rw [if_neg hfree, failed, Option.bind_some, found]
      rfl
    | nothing other =>
      split
      · rfl
      · next hfree =>
        cases hvalue : span.error.bind tagger.value with
        | none => rfl
        | some value =>
          obtain ⟨error, hfailed, hfound⟩ := Option.bind_eq_some_iff.1 hvalue
          exact absurd (hcontains.2 (other error value hfailed hfound)) hfree
  · rintro rfl
    split
    · next hset => exact .nothing fun _ _ _ _ => hcontains.1 hset
    · next hfree =>
      cases hvalue : span.error.bind tagger.value with
      | none =>
        refine .nothing fun error value hfailed hfound => ?_
        rw [hfailed, Option.bind_some, hfound] at hvalue
        cases hvalue
      | some value =>
        obtain ⟨error, hfailed, hfound⟩ := Option.bind_eq_some_iff.1 hvalue
        refine .tag hfailed hfound fun entry hentry hkey => hfree ?_
        exact hcontains.2 ⟨entry, hentry, hkey⟩

/-! ## Spans -/

namespace Span

/-- What is kept of a span. A duration is kept only if both timestamps are set, and is never less
than a microsecond. Events are kept in their order, empty ones too. -/
structure Kept (tagger : ErrorTagger) (span : Span) (d : DecodedSpan) : Prop where
  traceId : KeptId span.traceId d.traceId
  parentId : ∀ id, span.parentId = some id → KeptId id d.parentId
  noParent : span.parentId = none → d.parentId = []
  id : KeptId span.id d.id
  kind : KeptKind span.kind d.kind
  name : d.name = span.name.getD ""
  timestamp : d.timestamp = span.start.toNat
  duration : d.duration =
    if span.start = 0 ∨ span.finish = 0 then 0
    else max 1 (span.finish.toNat - span.start.toNat)
  localEndpoint : span.localEndpoint.Kept d.localEndpoint
  remoteEndpoint : span.remoteEndpoint.Kept d.remoteEndpoint
  annotations : d.annotations = span.annotations.map fun a => (a.timestamp.toNat, a.value)
  tags : ∃ added, KeptFailure tagger span added ∧ d.tags = span.tags.entries ++ added
  debug : d.debug = span.debug
  shared : d.shared = span.shared

theorem wireDuration_eq (span : Span) :
    span.wireDuration =
      if span.start = 0 ∨ span.finish = 0 then 0
      else max 1 (span.finish.toNat - span.start.toNat) := by
  unfold wireDuration duration?
  split
  · rfl
  · rfl

/-- What is kept of a span is what the fields hold that are written of it. -/
theorem kept_iff {tagger : ErrorTagger} {span : Span} {d : DecodedSpan} :
    span.Kept tagger d ↔ d = span.decoded tagger := by
  constructor
  · intro h
    have hparent : d.parentId = (span.parentId.map idBytes).getD [] := by
      cases hp : span.parentId with
      | none => exact h.noParent hp
      | some id => exact keptId_iff.1 (h.parentId id hp)
    have htags : d.tags = (span.decoded tagger).tags := by
      obtain ⟨added, hadded, htags⟩ := h.tags
      rw [htags, ErrorTagger.keptFailure_iff.1 hadded]
      rfl
    have hduration := h.duration.trans span.wireDuration_eq.symm
    calc d
        = ⟨d.traceId, d.parentId, d.id, d.kind, d.name, d.timestamp, d.duration, d.localEndpoint,
            d.remoteEndpoint, d.annotations, d.tags, d.debug, d.shared⟩ := rfl
      _ = span.decoded tagger := by
        rw [keptId_iff.1 h.traceId, hparent, keptId_iff.1 h.id, keptKind_iff.1 h.kind, h.name,
          h.timestamp, hduration, Endpoint.kept_iff.1 h.localEndpoint,
          Endpoint.kept_iff.1 h.remoteEndpoint, h.annotations, htags, h.debug, h.shared]
        rfl
  · rintro rfl
    refine {
      traceId := keptId_iff.2 rfl
      parentId := fun id hp => ?_
      noParent := fun hp => ?_
      id := keptId_iff.2 rfl
      kind := keptKind_iff.2 rfl
      name := rfl
      timestamp := rfl
      duration := span.wireDuration_eq
      localEndpoint := Endpoint.kept_iff.2 rfl
      remoteEndpoint := Endpoint.kept_iff.2 rfl
      annotations := rfl
      tags := ⟨_, ErrorTagger.keptFailure_iff.2 rfl, rfl⟩
      debug := rfl
      shared := rfl }
    · rw [decoded, hp]
      exact keptId_iff.2 rfl
    · rw [decoded, hp]
      rfl

theorem forall₂_kept_iff {tagger : ErrorTagger} {spans : List Span} {read : List DecodedSpan} :
    List.Forall₂ (Kept tagger) spans read ↔
      read = spans.map fun span => span.decoded tagger := by
  constructor
  · intro h
    induction h with
    | nil => rfl
    | cons head _ ih => rw [List.map_cons, kept_iff.1 head, ih]
  · rintro rfl
    exact List.forall₂_map_right_iff.2 (List.forall₂_same.2 fun span _ => kept_iff.2 rfl)

/-- Reading undoes writing: every message can be read, and what is read is what is kept of its
spans, one after the other, and nothing else. So lists of which different things are kept are
different messages. -/
theorem decodeList?_message (tagger : ErrorTagger) (spans : List Span) :
    (∃ read, decodeList? (message spans tagger) = some read)
      ∧ (∀ read, decodeList? (message spans tagger) = some read ↔
          List.Forall₂ (Kept tagger) spans read)
      ∧ ∀ others read read', List.Forall₂ (Kept tagger) spans read →
          List.Forall₂ (Kept tagger) others read' → read ≠ read' →
          message spans tagger ≠ message others tagger := by
  have hread : ∀ spans read, decodeList? (message spans tagger) = some read ↔
      List.Forall₂ (Kept tagger) spans read := by
    intro spans read
    rw [decodeList?_eq, forall₂_kept_iff, Option.some.injEq, eq_comm]
  refine ⟨⟨_, decodeList?_eq spans tagger⟩, hread spans, ?_⟩
  intro others read read' hkept hkept' hne heq
  have hspans := (hread spans read).2 hkept
  rw [heq, (hread others read').2 hkept'] at hspans
  exact hne (Option.some.inj hspans).symm

end Span

end SpanCourier
