set_option autoImplicit false

/-! # Encodings and the frame of a message

A message is a list of encoded spans, and each encoding frames that list in its own way: JSON puts
brackets around it and a comma between each two, Thrift puts a header before it, Proto3 adds
nothing. `listSize` adds spans one at a time with `combinedSize`. Sizes are natural numbers, and
sums are exact; where a sum has to be a 64-bit number, that is said.
-/

namespace SpanCourier

/-- The wire form of spans and of messages. -/
inductive Encoding
  | json
  | thrift
  | proto3
deriving DecidableEq, Repr, Inhabited

namespace Encoding

/-- The written name of an encoding. -/
def name : Encoding → String
  | json => "JSON"
  | thrift => "THRIFT"
  | proto3 => "PROTO3"

/-- The name of an encoding inside a sentence. -/
def label : Encoding → String
  | json => "Json"
  | thrift => "Thrift"
  | proto3 => "Proto3"

/-- Every encoding. -/
def all : List Encoding := [json, thrift, proto3]

/-- The encoding with a written name. -/
def ofName? (s : String) : Option Encoding := all.find? fun encoding => encoding.name = s

/-- The size of a message without spans. -/
def emptySize : Encoding → Nat
  | json => 2
  | thrift => 5
  | proto3 => 0

theorem emptySize_le (encoding : Encoding) : encoding.emptySize ≤ 5 := by
  cases encoding <;> decide

/-- The size of a message with one span of this size. -/
def singleSize (encoding : Encoding) (size : Nat) : Nat := encoding.emptySize + size

/-- The size of what separates a span from those before it. -/
def separatorSize : Encoding → Nat → Nat
  | json, count => if 0 < count then 1 else 0
  | _, _ => 0

/-- The size of a message of size `current` with `count` spans after one more of size `next`. -/
def combinedSize (encoding : Encoding) (current count next : Nat) : Nat :=
  current + next + encoding.separatorSize count

/-- Adds spans of these sizes to a message of size `current` with `count` spans. -/
def extendedSize (encoding : Encoding) : Nat → Nat → List Nat → Nat
  | current, _, [] => current
  | current, count, size :: rest =>
    encoding.extendedSize (encoding.combinedSize current count size) (count + 1) rest

/-- The size of a message whose spans have these sizes. -/
def listSize (encoding : Encoding) (sizes : List Nat) : Nat :=
  encoding.extendedSize encoding.emptySize 0 sizes

/-- The size of a message of these encoded spans. -/
def messageSize (encoding : Encoding) (spans : List (List UInt8)) : Nat :=
  encoding.listSize (spans.map List.length)

@[simp] theorem listSize_nil (encoding : Encoding) : encoding.listSize [] = encoding.emptySize :=
  rfl

theorem extendedSize_append (encoding : Encoding) (current count : Nat) (sizes more : List Nat) :
    encoding.extendedSize current count (sizes ++ more) =
      encoding.extendedSize (encoding.extendedSize current count sizes)
        (count + sizes.length) more := by
  induction sizes generalizing current count with
  | nil => rfl
  | cons size rest ih => simp [extendedSize, ih, Nat.add_assoc, Nat.add_comm 1]

/-- One more span at the end adds its own size and what separates it. -/
theorem listSize_concat (encoding : Encoding) (sizes : List Nat) (size : Nat) :
    encoding.listSize (sizes ++ [size]) =
      encoding.combinedSize (encoding.listSize sizes) sizes.length size := by
  rw [listSize, extendedSize_append, Nat.zero_add]
  rfl

theorem listSize_singleton (encoding : Encoding) (size : Nat) :
    encoding.listSize [size] = encoding.singleSize size := by
  cases encoding <;> rfl

theorem extendedSize_proto3 (current count : Nat) (sizes : List Nat) :
    proto3.extendedSize current count sizes = current + proto3.listSize sizes := by
  induction sizes generalizing current count with
  | nil => rfl
  | cons size rest ih =>
    rw [listSize, extendedSize, extendedSize, ih, ih]
    simp [combinedSize, separatorSize, emptySize, Nat.add_assoc]

/-- Nothing frames or separates spans in Proto3. -/
theorem listSize_proto3_cons (size : Nat) (sizes : List Nat) :
    proto3.listSize (size :: sizes) = size + proto3.listSize sizes := by
  rw [listSize, extendedSize, extendedSize_proto3]
  simp [combinedSize, separatorSize, emptySize]

end Encoding

end SpanCourier
