import SpanCourier.Wire.Field

set_option autoImplicit false

/-! # Reading the fields of a message

`Field.readAll?` takes a message apart into its fields, each with its number and its content, in
the order in which they stand. It needs nothing but the bytes: which fields a message may have is
not its business.
-/

namespace SpanCourier.Field

/-- The content of a field. -/
inductive Content
  | number (value : Nat)
  | word (value : Nat)
  | bytes (value : List UInt8)
deriving DecidableEq, Repr

/-- Splits off so many bytes, if there are that many. -/
def take? (n : Nat) (bytes : List UInt8) : Option (List UInt8 × List UInt8) :=
  if n ≤ bytes.length then some (bytes.take n, bytes.drop n) else none

/-- The number that bytes denote, the lowest byte first. -/
def ofLittleEndian : List UInt8 → Nat
  | [] => 0
  | b :: rest => b.toNat + 256 * ofLittleEndian rest

/-- Reads the content of a field of this wire type. -/
def readContent? (type : Nat) (bytes : List UInt8) : Option (Content × List UInt8) :=
  if type = WireType.varint.code then
    (Varint.read? bytes).map fun (n, rest) => (.number n, rest)
  else if type = WireType.fixed64.code then
    (take? 8 bytes).map fun (word, rest) => (.word (ofLittleEndian word), rest)
  else if type = WireType.delimited.code then do
    let (length, rest) ← Varint.read? bytes
    let (content, rest) ← take? length rest
    return (.bytes content, rest)
  else none

/-- Reads one field off the front: its number and its content. -/
def readOne? (bytes : List UInt8) : Option ((Nat × Content) × List UInt8) := do
  let (key, rest) ← Varint.read? bytes
  let (content, rest) ← readContent? (key % 8) rest
  return ((key / 8, content), rest)

theorem length_of_read? {bytes rest : List UInt8} {n : Nat}
    (h : Varint.read? bytes = some (n, rest)) : rest.length < bytes.length := by
  fun_induction Varint.read? bytes generalizing n rest with
  | case1 => simp at h
  | case2 b r _ =>
    obtain ⟨-, rfl⟩ := Prod.mk.inj (Option.some.inj h)
    exact Nat.lt_succ_self _
  | case3 b r _ ih =>
    obtain ⟨⟨m, t⟩, ht, h⟩ := Option.map_eq_some_iff.1 h
    obtain ⟨-, rfl⟩ := Prod.mk.inj h
    exact Nat.lt_succ_of_lt (ih ht)

theorem length_of_take? {bytes front rest : List UInt8} {n : Nat}
    (h : take? n bytes = some (front, rest)) : rest.length ≤ bytes.length := by
  rw [take?] at h
  split at h
  · obtain ⟨-, rfl⟩ := Prod.mk.inj (Option.some.inj h)
    simp
  · simp at h

theorem length_of_readContent? {type : Nat} {bytes rest : List UInt8} {content : Content}
    (h : readContent? type bytes = some (content, rest)) : rest.length ≤ bytes.length := by
  rw [readContent?] at h
  split at h
  · obtain ⟨⟨n, t⟩, ht, h⟩ := Option.map_eq_some_iff.1 h
    obtain ⟨-, rfl⟩ := Prod.mk.inj h
    exact Nat.le_of_lt (length_of_read? ht)
  · split at h
    · obtain ⟨⟨w, t⟩, ht, h⟩ := Option.map_eq_some_iff.1 h
      obtain ⟨-, rfl⟩ := Prod.mk.inj h
      exact length_of_take? ht
    · split at h
      · simp only [Option.bind_eq_bind, Option.bind_eq_some_iff] at h
        obtain ⟨⟨n, t⟩, ht, ⟨c, u⟩, hu, h⟩ := h
        obtain ⟨-, rfl⟩ := Prod.mk.inj (Option.some.inj h)
        exact Nat.le_trans (length_of_take? hu) (Nat.le_of_lt (length_of_read? ht))
      · simp at h

theorem length_of_readOne? {bytes rest : List UInt8} {field : Nat × Content}
    (h : readOne? bytes = some (field, rest)) : rest.length < bytes.length := by
  simp only [readOne?, Option.bind_eq_bind, Option.bind_eq_some_iff] at h
  obtain ⟨⟨key, t⟩, ht, ⟨content, u⟩, hu, h⟩ := h
  obtain ⟨-, rfl⟩ := Prod.mk.inj (Option.some.inj h)
  exact Nat.lt_of_le_of_lt (length_of_readContent? hu) (length_of_read? ht)

/-- Reads all fields of a message. -/
def readAll? (bytes : List UInt8) : Option (List (Nat × Content)) :=
  if bytes = [] then some []
  else
    match _h : readOne? bytes with
    | none => none
    | some (field, rest) => (readAll? rest).map (field :: ·)
termination_by bytes.length
decreasing_by exact length_of_readOne? _h

@[simp] theorem readAll?_nil : readAll? [] = some [] := by simp [readAll?]

/-- A field in front of other fields is read first. -/
theorem readAll?_of_readOne? {bytes rest : List UInt8} {field : Nat × Content}
    (h : readOne? bytes = some (field, rest)) :
    readAll? bytes = (readAll? rest).map (field :: ·) := by
  have hne : bytes ≠ [] := by
    rintro rfl
    simp [readOne?, Varint.read?] at h
  rw [readAll?, if_neg hne]
  split
  · next h' => rw [h] at h'; simp at h'
  · next h' =>
    rw [h] at h'
    obtain ⟨rfl, rfl⟩ := Prod.mk.inj (Option.some.inj h')
    rfl

end SpanCourier.Field
