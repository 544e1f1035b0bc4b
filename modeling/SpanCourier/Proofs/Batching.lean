import SpanCourier.Proofs.Drain

set_option autoImplicit false

/-! # What a batch holds

The size that a batch keeps is that of the message which its items would form, and it is within the
limit unless the batch is empty (`Batch.Sound`). A drain into a batch keeps this. All that such a
drain makes of the batch is said by `Batch.Gains`: what the batch holds afterwards, why it may be
full, and since when its deadline runs.
-/

namespace SpanCourier

/-! ## Sizes of longer messages -/

namespace Encoding

theorem separatorSize_mono (encoding : Encoding) {count count' : Nat} (h : count ≤ count') :
    encoding.separatorSize count ≤ encoding.separatorSize count' := by
  cases encoding with
  | json =>
    show (if 0 < count then 1 else 0) ≤ (if 0 < count' then 1 else 0)
    split
    · next hc => exact Nat.le_of_eq (if_pos (Nat.lt_of_lt_of_le hc h)).symm
    · exact Nat.zero_le _
  | thrift => exact Nat.le_refl 0
  | proto3 => exact Nat.le_refl 0

/-- The same spans make a larger message of a larger one. -/
theorem extendedSize_mono (encoding : Encoding) {current current' count count' : Nat}
    (h : current ≤ current') (hc : count ≤ count') (sizes : List Nat) :
    encoding.extendedSize current count sizes ≤ encoding.extendedSize current' count' sizes := by
  induction sizes generalizing current current' count count' with
  | nil => exact h
  | cons size rest ih =>
    have hsep := encoding.separatorSize_mono hc
    refine ih ?_ (Nat.succ_le_succ hc)
    unfold combinedSize
    omega

theorem le_extendedSize (encoding : Encoding) (current count : Nat) (sizes : List Nat) :
    current ≤ encoding.extendedSize current count sizes := by
  induction sizes generalizing current count with
  | nil => exact Nat.le_refl _
  | cons size rest ih =>
    calc current ≤ encoding.combinedSize current count size := by
          unfold combinedSize
          omega
      _ ≤ encoding.extendedSize current count (size :: rest) := ih _ _

/-- The front part of a message is no larger than the message. -/
theorem listSize_le_append (encoding : Encoding) (front rest : List Nat) :
    encoding.listSize front ≤ encoding.listSize (front ++ rest) := by
  unfold listSize
  rw [extendedSize_append]
  exact encoding.le_extendedSize _ _ _

/-- What is left of a message without its front part is no larger than the message. -/
theorem listSize_le_append_left (encoding : Encoding) (front rest : List Nat) :
    encoding.listSize rest ≤ encoding.listSize (front ++ rest) := by
  unfold listSize
  rw [extendedSize_append]
  exact encoding.extendedSize_mono (encoding.le_extendedSize _ _ _) (Nat.zero_le _) _

end Encoding

namespace Batch

variable {α : Type}

/-! ## Size and limit -/

/-- The size is that of the message of the items, and within the limit unless there are none. -/
structure Sound (b : Batch α) : Prop where
  size_eq : b.size = b.encoding.listSize b.sizes
  size_le : b.slots ≠ [] → b.size ≤ b.maxBytes

theorem Sound.new (encoding : Encoding) (maxBytes : Nat) (timeout : Duration) :
    (Batch.new encoding maxBytes timeout : Batch α).Sound :=
  ⟨rfl, fun h => absurd rfl h⟩

theorem Sound.leave {b : Batch α} (h : b.Sound) {taken left : List (Slot α)}
    (hslots : b.slots = taken ++ left) (full : Bool) : (b.leave full left).Sound := by
  refine ⟨rfl, fun hne => ?_⟩
  have hfits : b.size ≤ b.maxBytes := by
    refine h.size_le ?_
    rw [hslots]
    exact List.append_ne_nil_of_right_ne_nil _ hne
  calc b.encoding.listSize (left.map Slot.size)
      ≤ b.encoding.listSize (taken.map Slot.size ++ left.map Slot.size) :=
        b.encoding.listSize_le_append_left _ _
    _ = b.size := by rw [h.size_eq, sizes, hslots, List.map_append]
    _ ≤ b.maxBytes := hfits

/-- What one more item would make of the size. -/
theorem Sound.sizeWith_eq {b : Batch α} (h : b.Sound) (size : Nat) :
    b.sizeWith size = b.encoding.listSize (b.sizes ++ [size]) := by
  rw [Encoding.listSize_concat, ← h.size_eq, sizes, List.length_map]
  rfl

/-! ## Offers -/

/-- The batch with one more item. -/
def add (now : Instant) (b : Batch α) (slot : Slot α) : Batch α :=
  { b with
    slots := b.slots ++ [slot]
    size := b.sizeWith slot.size
    full := b.full || b.sizeWith slot.size = b.maxBytes
    deadline := if b.isEmpty then some (now + b.timeout) else b.deadline }

theorem add_slots_ne_nil (now : Instant) (b : Batch α) (slot : Slot α) :
    (b.add now slot).slots ≠ [] :=
  List.concat_ne_nil _ _

/-- An item is refused if the message would be too large with it. Otherwise it is taken, unless the
clock cannot name the deadline that it would set. -/
theorem offer_cases (now : Instant) (b : Batch α) (slot : Slot α) :
    (b.maxBytes < b.sizeWith slot.size
        ∧ offer now b slot.item slot.size = (.refused, { b with full := true }))
      ∨ (b.sizeWith slot.size ≤ b.maxBytes ∧ b.outlasts now = true
        ∧ offer now b slot.item slot.size = (.crashed, b))
      ∨ (b.sizeWith slot.size ≤ b.maxBytes ∧ b.outlasts now = false
        ∧ offer now b slot.item slot.size = (.taken, b.add now slot)) := by
  unfold offer
  dsimp only
  by_cases hover : b.maxBytes < b.sizeWith slot.size
  · exact .inl ⟨hover, by rw [if_pos hover]⟩
  · rw [if_neg hover]
    have hfits : b.sizeWith slot.size ≤ b.maxBytes := Nat.le_of_not_lt hover
    cases hlast : b.outlasts now with
    | true => exact .inr (.inl ⟨hfits, rfl, rfl⟩)
    | false => exact .inr (.inr ⟨hfits, rfl, rfl⟩)

theorem sizeWith_of_refused {now : Instant} {b b' : Batch α} {slot : Slot α}
    (h : offer now b slot.item slot.size = (.refused, b')) :
    b.maxBytes < b.sizeWith slot.size ∧ b' = { b with full := true } := by
  rcases offer_cases now b slot with ⟨hover, ho⟩ | ⟨-, -, ho⟩ | ⟨-, -, ho⟩
  · rw [ho] at h
    cases h
    exact ⟨hover, rfl⟩
  · rw [ho] at h
    cases h
  · rw [ho] at h
    cases h

theorem outlasts_of_crashed {now : Instant} {b b' : Batch α} {slot : Slot α}
    (h : offer now b slot.item slot.size = (.crashed, b')) :
    b.sizeWith slot.size ≤ b.maxBytes ∧ b.outlasts now = true ∧ b' = b := by
  rcases offer_cases now b slot with ⟨-, ho⟩ | ⟨hfits, hlast, ho⟩ | ⟨-, -, ho⟩
  · rw [ho] at h
    cases h
  · rw [ho] at h
    cases h
    exact ⟨hfits, hlast, rfl⟩
  · rw [ho] at h
    cases h

theorem sizeWith_of_taken {now : Instant} {b b' : Batch α} {slot : Slot α}
    (h : offer now b slot.item slot.size = (.taken, b')) :
    b.sizeWith slot.size ≤ b.maxBytes ∧ b.outlasts now = false ∧ b' = b.add now slot := by
  rcases offer_cases now b slot with ⟨-, ho⟩ | ⟨-, -, ho⟩ | ⟨hfits, hlast, ho⟩
  · rw [ho] at h
    cases h
  · rw [ho] at h
    cases h
  · rw [ho] at h
    cases h
    exact ⟨hfits, hlast, rfl⟩

/-! ## Drains into a batch -/

/-- What a drain has made of a batch that took some items and left others behind. It is full for
an old reason, because it refused an item, or because it fits exactly. -/
structure Gains (now : Instant) (b b' : Batch α) (taken left : List (Slot α)) : Prop where
  slots_eq : b'.slots = b.slots ++ taken
  encoding_eq : b'.encoding = b.encoding
  maxBytes_eq : b'.maxBytes = b.maxBytes
  timeout_eq : b'.timeout = b.timeout
  size_eq : b'.size = b.encoding.extendedSize b.size b.count (taken.map Slot.size)
  size_le : taken ≠ [] → b'.size ≤ b.maxBytes
  deadline_of_first : b.slots = [] → taken ≠ [] → b'.deadline = some (now + b.timeout)
  deadline_of_more : b.slots ≠ [] ∨ taken = [] → b'.deadline = b.deadline
  refused : left ≠ [] →
    ∃ slot rest, left = slot :: rest ∧ b.maxBytes < b'.sizeWith slot.size
  full : b'.full = true → b.full = true ∨ left ≠ [] ∨ taken ≠ [] ∧ b'.size = b.maxBytes

namespace Gains

variable {now : Instant} {b b' : Batch α} {taken left : List (Slot α)}

/-- A batch that took nothing, and refused nothing. -/
theorem refl (now : Instant) (b : Batch α) : Gains now b b [] [] where
  slots_eq := (List.append_nil _).symm
  encoding_eq := rfl
  maxBytes_eq := rfl
  timeout_eq := rfl
  size_eq := rfl
  size_le := fun h => absurd rfl h
  deadline_of_first := fun _ h => absurd rfl h
  deadline_of_more := fun _ => rfl
  refused := fun h => absurd rfl h
  full := .inl

/-- A batch that refused the first item. -/
theorem of_refused {slot : Slot α} {rest : List (Slot α)}
    (hover : b.maxBytes < b.sizeWith slot.size) :
    Gains now b { b with full := true } [] (slot :: rest) where
  slots_eq := (List.append_nil _).symm
  encoding_eq := rfl
  maxBytes_eq := rfl
  timeout_eq := rfl
  size_eq := rfl
  size_le := fun h => absurd rfl h
  deadline_of_first := fun _ h => absurd rfl h
  deadline_of_more := fun _ => rfl
  refused := fun _ => ⟨slot, rest, rfl, hover⟩
  full := fun _ => .inr (.inl (List.cons_ne_nil _ _))

theorem size_ge (h : Gains now b b' taken left) : b.size ≤ b'.size := by
  rw [h.size_eq]
  exact b.encoding.le_extendedSize _ _ _

/-- A batch that took one item before the rest. -/
theorem cons {slot : Slot α} (hfits : b.sizeWith slot.size ≤ b.maxBytes)
    (h : Gains now (b.add now slot) b' taken left) : Gains now b b' (slot :: taken) left := by
  have hne : (b.add now slot).slots ≠ [] := add_slots_ne_nil now b slot
  have hdeadline : b'.deadline = (b.add now slot).deadline := h.deadline_of_more (.inl hne)
  have hle : b'.size ≤ b.maxBytes := by
    by_cases ht : taken = []
    · have hsize := h.size_eq
      rw [ht] at hsize
      rw [hsize]
      exact hfits
    · exact h.size_le ht
  constructor
  · rw [h.slots_eq]
    exact List.append_assoc _ _ _
  · exact h.encoding_eq
  · exact h.maxBytes_eq
  · exact h.timeout_eq
  · have hcount : (b.add now slot).count = b.count + 1 := List.length_append
    rw [h.size_eq, hcount]
    rfl
  · exact fun _ => hle
  · intro hempty _
    rw [hdeadline]
    exact if_pos (List.isEmpty_iff.2 hempty)
  · intro hmore
    have hb : b.slots ≠ [] := hmore.resolve_right (List.cons_ne_nil _ _)
    rw [hdeadline]
    exact if_neg (mt List.isEmpty_iff.1 hb)
  · exact h.refused
  · intro hf
    rcases h.full hf with hadd | hleft | ⟨-, hsize⟩
    · rcases Bool.or_eq_true_iff.1 hadd with hold | hexact
      · exact .inl hold
      · -- a batch that fits exactly can only grow by items of no size
        have hge : b.sizeWith slot.size ≤ b'.size := h.size_ge
        have heq : b.sizeWith slot.size = b.maxBytes := of_decide_eq_true hexact
        exact .inr (.inr ⟨List.cons_ne_nil _ _, Nat.le_antisymm hle (heq ▸ hge)⟩)
    · exact .inr (.inl hleft)
    · exact .inr (.inr ⟨List.cons_ne_nil _ _, hsize⟩)

/-- What is drained into keeps its size and its limit in order. -/
theorem sound (h : Gains now b b' taken left) (hb : b.Sound) : b'.Sound := by
  have hsizes : b'.sizes = b.sizes ++ taken.map Slot.size := by
    rw [sizes, h.slots_eq, List.map_append]
    rfl
  constructor
  · have hcount : b.count = b.sizes.length := (List.length_map Slot.size).symm
    rw [h.size_eq, h.encoding_eq, hsizes, hcount, hb.size_eq]
    unfold Encoding.listSize
    rw [Encoding.extendedSize_append, Nat.zero_add]
  · intro hne
    rw [h.maxBytes_eq]
    by_cases ht : taken = []
    · rw [h.slots_eq, ht, List.append_nil] at hne
      have hsize : b'.size = b.size := by
        rw [h.size_eq, ht]
        rfl
      rw [hsize]
      exact hb.size_le hne
    · exact h.size_le ht

end Gains

/-- A drain into a batch makes of it what `Gains` says. -/
theorem gains_of_drains {now : Instant} {b b' : Batch α} {slots taken left : List (Slot α)}
    (h : (offer now).Drains b slots taken left b' false) : Gains now b b' taken left := by
  generalize hc : false = crashed at h
  induction h with
  | done b => exact .refl now b
  | taken ho _ ih =>
    obtain ⟨hfits, -, rfl⟩ := sizeWith_of_taken ho
    exact (ih hc).cons hfits
  | refused ho =>
    obtain ⟨hover, rfl⟩ := sizeWith_of_refused ho
    exact .of_refused hover
  | crashed => cases hc

/-- A batch that is drained into holds what it held and, behind that, what it took. -/
theorem slots_of_drains {now : Instant} {b b' : Batch α} {slots taken left : List (Slot α)}
    (h : (offer now).Drains b slots taken left b' false) : b'.slots = b.slots ++ taken :=
  (gains_of_drains h).slots_eq

/-- A drain into a batch crashes only over the first item, which would have fitted. The batch was
empty, and stays so. -/
theorem outlasts_of_drains {now : Instant} {b b' : Batch α} {slots taken left : List (Slot α)}
    (h : (offer now).Drains b slots taken left b' true) :
    (b.slots = [] ∧ Instant.last < now + b.timeout) ∧ taken = [] ∧ b' = b
      ∧ ∃ slot, slots = slot :: left ∧ b.sizeWith slot.size ≤ b.maxBytes := by
  generalize hc : true = crashed at h
  induction h with
  | done => cases hc
  | @taken b _ _ slot _ _ _ _ ho _ ih =>
    -- what took an item is not empty any more
    obtain ⟨-, -, rfl⟩ := sizeWith_of_taken ho
    exact absurd (ih hc).1.1 (add_slots_ne_nil now b slot)
  | refused => cases hc
  | @crashed b _ slot _ ho =>
    obtain ⟨hfits, hlast, rfl⟩ := outlasts_of_crashed ho
    exact ⟨outlasts_eq_true.1 hlast, rfl, rfl, slot, rfl, hfits⟩

/-- A drain into a batch does not crash if the clock can name the deadline. -/
theorem not_crashed_of_drains {now : Instant} {b b' : Batch α} {slots taken left : List (Slot α)}
    {crashed : Bool} (hb : b.outlasts now = false)
    (h : (offer now).Drains b slots taken left b' crashed) : crashed = false := by
  cases crashed with
  | false => rfl
  | true =>
    obtain ⟨hlast, -⟩ := outlasts_of_drains h
    rw [outlasts_eq_true.2 hlast] at hb
    cases hb

/-! ## Items that do not fit -/

/-- The first of these items makes the message of the batch too large. -/
def Refuses (b : Batch α) (slots : List (Slot α)) : Prop :=
  ∃ slot rest, slots = slot :: rest ∧ b.maxBytes < b.sizeWith slot.size

theorem Refuses.append {b : Batch α} {slots : List (Slot α)} (h : b.Refuses slots)
    (more : List (Slot α)) : b.Refuses (slots ++ more) := by
  obtain ⟨slot, rest, rfl, hover⟩ := h
  exact ⟨slot, rest ++ more, rfl, hover⟩

/-- What a drain leaves behind does not fit. -/
theorem Gains.refuses {now : Instant} {b b' : Batch α} {taken left : List (Slot α)}
    (h : Gains now b b' taken left) (hne : left ≠ []) : b'.Refuses left := by
  obtain ⟨slot, rest, hleft, hover⟩ := h.refused hne
  rw [← h.maxBytes_eq] at hover
  exact ⟨slot, rest, hleft, hover⟩

/-- A drain that leaves anything behind leaves the batch full. -/
theorem full_of_left {now : Instant} {b b' : Batch α} {slots taken left : List (Slot α)}
    (h : (offer now).Drains b slots taken left b' false) (hne : left ≠ []) : b'.full = true := by
  generalize hc : false = crashed at h
  induction h with
  | done => exact absurd rfl hne
  | taken _ _ ih => exact ih hne hc
  | refused ho =>
    obtain ⟨-, rfl⟩ := sizeWith_of_refused ho
    rfl
  | crashed => cases hc

/-- If the first item does not fit, nothing is taken. -/
theorem Refuses.taken_eq_nil {now : Instant} {b b' : Batch α} {slots taken left : List (Slot α)}
    {crashed : Bool} (hr : b.Refuses slots)
    (h : (offer now).Drains b slots taken left b' crashed) : taken = [] := by
  obtain ⟨slot, rest, rfl, hover⟩ := hr
  cases h with
  | taken ho _ => exact absurd (sizeWith_of_taken ho).1 (Nat.not_le_of_lt hover)
  | refused => rfl
  | crashed => rfl

/-! ## Batches that are due -/

/-- A batch is due because it is full, because its time is up, or because it was left over. -/
theorem isReady_iff {b : Batch α} {now : Instant} :
    b.isReady now = true ↔
      b.full = true ∨ (∃ deadline, b.deadline = some deadline ∧ deadline ≤ now)
        ∨ b.deadline = none ∧ b.slots ≠ [] := by
  rw [isReady, Bool.or_eq_true]
  cases hd : b.deadline with
  | none => simp [isEmpty]
  | some deadline => simp

theorem remaining_of_deadline {b : Batch α} {deadline : Instant} (h : b.deadline = some deadline)
    (now : Instant) : b.remaining now = deadline - now := by
  rw [remaining, h]

theorem remaining_of_empty {b : Batch α} (h : b.deadline = none) (hs : b.slots = [])
    (now : Instant) : b.remaining now = b.timeout := by
  rw [remaining, h]
  exact if_pos (List.isEmpty_iff.2 hs)

/-- What was left over has no time left. -/
theorem remaining_of_left_over {b : Batch α} (h : b.deadline = none) (hs : b.slots ≠ [])
    (now : Instant) : b.remaining now = 0 := by
  rw [remaining, h]
  exact if_neg (mt List.isEmpty_iff.1 hs)

/-- A batch that holds anything and has no time left is due. -/
theorem isReady_of_remaining {b : Batch α} {now : Instant} (hs : b.slots ≠ [])
    (h : b.remaining now = 0) : b.isReady now = true := by
  cases hd : b.deadline with
  | some deadline =>
    rw [remaining_of_deadline hd] at h
    exact isReady_iff.2 (.inr (.inl ⟨deadline, hd, Nat.le_of_sub_eq_zero h⟩))
  | none => exact isReady_iff.2 (.inr (.inr ⟨hd, hs⟩))

/-- A batch that has time left, and is not full, is not due. -/
theorem isReady_eq_false {b : Batch α} {now : Instant} (hf : b.full = false)
    (h : b.remaining now ≠ 0) : b.isReady now = false := by
  cases hr : b.isReady now with
  | false => rfl
  | true =>
    rcases isReady_iff.1 hr with hfull | ⟨deadline, hd, hle⟩ | ⟨hd, hs⟩
    · rw [hf] at hfull
      cases hfull
    · rw [remaining_of_deadline hd] at h
      exact absurd (Nat.sub_eq_zero_of_le hle) h
    · exact absurd (remaining_of_left_over hd hs now) h

end Batch

end SpanCourier
