import SpanCourier.Partition
import SpanCourier.Proofs.Drain
import SpanCourier.Reporter.Step

set_option autoImplicit false

/-! # What a message is packed from

A batch is packed by draining it into a `Packing`. The message that comes out is the longest front
part of the batch all of whose non-empty front parts the transport carries, whatever its size
function is like (`Packing.splits`). The parcel that follows that part, if there is one, is taken
as well and lost; the rest stays in the batch.
-/

namespace SpanCourier

/-! ## Longest front parts that fit -/

theorem extendFit_fits {α : Type} (fits : List α → Bool) (part xs : List α) :
    extendFit fits part xs = part ∨ fits (extendFit fits part xs) = true := by
  induction xs generalizing part with
  | nil => exact .inl rfl
  | cons x rest ih =>
    rw [extendFit]
    split
    · next hx =>
      rcases ih (part ++ [x]) with h | h
      · rw [h]
        exact .inr hx
      · exact .inr h
    · exact .inl rfl

/-- The longest fitting part fits, unless it is empty. -/
theorem longestFit_fits {α : Type} {fits : List α → Bool} {xs : List α}
    (h : longestFit fits xs ≠ []) : fits (longestFit fits xs) = true :=
  (extendFit_fits fits [] xs).resolve_left h

/-- All non-empty front parts of a list fit. -/
def FrontsFit {α : Type} (fits : List α → Bool) (xs : List α) : Prop :=
  ∀ front rest, xs = front ++ rest → front ≠ [] → fits front = true

/-- Items are added one by one as long as every part on the way fits. -/
theorem extendFit_append_of_fits {α : Type} {fits : List α → Bool} {part front : List α}
    (h : ∀ init more, front = init ++ more → init ≠ [] → fits (part ++ init) = true)
    (rest : List α) : extendFit fits part (front ++ rest) = extendFit fits (part ++ front) rest := by
  induction front generalizing part with
  | nil => rw [List.append_nil, List.nil_append]
  | cons x front ih =>
    have hx : fits (part ++ [x]) = true := h [x] front rfl (List.cons_ne_nil _ _)
    rw [List.cons_append, extendFit, if_pos hx, List.append_cons part x front]
    refine ih fun init more hsplit _ => ?_
    rw [List.append_assoc]
    exact h (x :: init) more (by rw [hsplit]; rfl) (List.cons_ne_nil _ _)

/-- A list all of whose front parts fit comes off before the rest is looked at. -/
theorem longestFit_append_of_fits {α : Type} {fits : List α → Bool} {front : List α}
    (h : FrontsFit fits front) (rest : List α) :
    longestFit fits (front ++ rest) = extendFit fits front rest :=
  extendFit_append_of_fits (fun init more hsplit hne => h init more hsplit hne) rest

theorem longestFit_eq_self {α : Type} {fits : List α → Bool} {xs : List α}
    (h : FrontsFit fits xs) : longestFit fits xs = xs := by
  have hall := longestFit_append_of_fits h []
  rw [List.append_nil] at hall
  exact hall

/-! ## Packing -/

/-- A message is small enough for the transport and for the limit of the reporter. -/
def Reporter.carries (r : Reporter) (message : List Parcel) : Bool :=
  decide (r.transport.messageSize (message.map Parcel.bytes) ≤ r.messageMaxBytes)

theorem Reporter.carries_iff {r : Reporter} {message : List Parcel} :
    r.carries message = true ↔
      r.transport.messageSize (message.map Parcel.bytes) ≤ r.messageMaxBytes := by
  simp [carries]

namespace Packing

variable {r : Reporter} {p p' : Packing} {parcel : Parcel} {size : Nat}

theorem offer_of_overflow (h : p.overflow.isSome = true) :
    offer r p parcel size = (.refused, p) := by
  rw [offer, if_pos h]

theorem offer_of_carries (h : p.overflow = none) (hc : r.carries (p.message ++ [parcel]) = true) :
    offer r p parcel size = (.taken, { p with message := p.message ++ [parcel] }) := by
  have hle := Reporter.carries_iff.1 hc
  simp only [offer, h, Option.isSome_none, Bool.false_eq_true, if_false]
  rw [if_neg (by omega)]

theorem offer_of_not_carries (h : p.overflow = none)
    (hc : ¬ r.carries (p.message ++ [parcel]) = true) :
    offer r p parcel size = (.taken, { p with overflow := some parcel }) := by
  have hlt := mt Reporter.carries_iff.2 hc
  simp only [offer, h, Option.isSome_none, Bool.false_eq_true, if_false]
  rw [if_pos (by omega)]

/-- A parcel is refused only once another was too much. -/
theorem overflow_of_refused (h : offer r p parcel size = (.refused, p')) : p.overflow ≠ none := by
  intro ho
  by_cases hc : r.carries (p.message ++ [parcel]) = true
  · rw [offer_of_carries ho hc] at h
    cases h
  · rw [offer_of_not_carries ho hc] at h
    cases h

variable {slots taken left : List (Slot Parcel)} {crashed : Bool}

/-- Once a parcel was too much, every later one is refused. -/
theorem eq_of_drains_of_overflow (h : (offer r).Drains p slots taken left p' crashed)
    (ho : p.overflow.isSome = true) : taken = [] ∧ p' = p := by
  cases h with
  | done => exact ⟨rfl, rfl⟩
  | taken h => rw [offer_of_overflow ho] at h; cases h
  | refused h => rw [offer_of_overflow ho] at h; cases h; exact ⟨rfl, rfl⟩
  | crashed h => rw [offer_of_overflow ho] at h; cases h

/-- A message in the making grows as long as the transport carries it. What is taken ends up in
the message, but for the parcel that was too much. -/
theorem drains_offer (h : (offer r).Drains p slots taken left p' crashed)
    (ho : p.overflow = none) :
    p'.message = extendFit r.carries p.message (slots.map Slot.item)
      ∧ p.message ++ taken.map Slot.item = p'.message ++ p'.overflow.toList := by
  induction h with
  | done => simp [extendFit, ho]
  | @taken p p₁ p₂ slot rest taken left crashed h hrest ih =>
    rw [List.map_cons, extendFit]
    by_cases hc : r.carries (p.message ++ [slot.item]) = true
    · rw [offer_of_carries ho hc] at h
      cases h
      obtain ⟨hm, ht⟩ := ih ho
      rw [if_pos hc]
      refine ⟨hm, ?_⟩
      rw [← ht, List.map_cons, List.append_assoc, List.singleton_append]
    · rw [offer_of_not_carries ho hc] at h
      cases h
      obtain ⟨rfl, rfl⟩ := eq_of_drains_of_overflow hrest rfl
      rw [if_neg hc]
      exact ⟨rfl, by simp⟩
  | refused h => exact absurd ho (overflow_of_refused h)
  | crashed h => exact absurd (by rw [h]) (offer_steady r _ _ _)

/-- Only a parcel that was too much makes later ones stay behind. -/
theorem left_eq_nil_of_drains (h : (offer r).Drains p slots taken left p' crashed)
    (ho : p.overflow = none) (ho' : p'.overflow = none) : left = [] := by
  induction h with
  | done => rfl
  | @taken p p₁ p₂ slot rest taken left crashed h hrest ih =>
    by_cases hc : r.carries (p.message ++ [slot.item]) = true
    · rw [offer_of_carries ho hc] at h
      cases h
      exact ih ho ho'
    · rw [offer_of_not_carries ho hc] at h
      cases h
      obtain ⟨-, rfl⟩ := eq_of_drains_of_overflow hrest rfl
      cases ho'
  | refused h => exact absurd ho (overflow_of_refused h)
  | crashed h => exact absurd (by rw [h]) (offer_steady r _ _ _)

/-- The first parcel is always taken. -/
theorem taken_ne_nil_of_drains (h : (offer r).Drains p slots taken left p' crashed)
    (ho : p.overflow = none) (hs : slots ≠ []) : taken ≠ [] := by
  cases h with
  | done => exact absurd rfl hs
  | taken => exact List.cons_ne_nil _ _
  | refused h => exact absurd ho (overflow_of_refused h)
  | crashed h => exact absurd (by rw [h]) (offer_steady r _ _ _)

/-- How packing splits a batch: the message is the longest front part that the transport carries,
then comes at most one parcel that is lost, and only behind such a parcel anything stays. -/
structure Splits (r : Reporter) (batch : Batch Parcel) (taken left : List (Slot Parcel))
    (overflow : Option Parcel) : Prop where
  slots_eq : batch.slots = taken ++ left
  taken_ne : taken ≠ []
  taken_eq : taken.map Slot.item =
    longestFit r.carries (batch.slots.map Slot.item) ++ overflow.toList
  left_eq : overflow = none → left = []
  drain_eq : ∃ count, batch.drain (offer r) {} =
    (batch.leave false left,
      ⟨⟨longestFit r.carries (batch.slots.map Slot.item), overflow⟩, count, false⟩)

/-- Packing a batch that holds anything splits it, and it is not full any more. -/
theorem splits (r : Reporter) {batch : Batch Parcel} (h : batch.slots ≠ []) :
    ∃ taken left overflow, Splits r batch taken left overflow := by
  obtain ⟨taken, left, ⟨message, overflow⟩, hd, he⟩ :=
    Batch.drain_eq (offer r) (offer_steady r) batch {}
  obtain ⟨hm, ht⟩ := drains_offer hd rfl
  obtain rfl : message = longestFit r.carries (batch.slots.map Slot.item) := hm
  have hne : taken ≠ [] := taken_ne_nil_of_drains hd rfl h
  have hfull : (batch.full && taken.isEmpty) = false := by
    rw [List.isEmpty_eq_false_iff.2 hne, Bool.and_false]
  rw [hfull] at he
  exact ⟨taken, left, overflow, hd.append_eq.symm, hne, ht, left_eq_nil_of_drains hd rfl,
    taken.length, he⟩

/-- Packing a batch takes all of it into the message: nothing is too much, and nothing stays. -/
structure Whole (r : Reporter) (batch : Batch Parcel) : Prop where
  message_eq : (batch.drain (offer r) {}).2.consumer.message = batch.slots.map Slot.item
  overflow_eq : (batch.drain (offer r) {}).2.consumer.overflow = none
  left_eq : (batch.drain (offer r) {}).1.slots = []

/-- If the transport carries the whole batch, then neither is anything too much nor does anything
stay. -/
theorem Splits.eq_nil {batch : Batch Parcel} {overflow : Option Parcel}
    (h : Splits r batch taken left overflow)
    (hall : longestFit r.carries (batch.slots.map Slot.item) = batch.slots.map Slot.item) :
    overflow = none ∧ left = [] := by
  have htaken := congrArg List.length h.taken_eq
  have hslots := congrArg List.length h.slots_eq
  rw [hall] at htaken
  simp only [List.length_append, List.length_map] at htaken hslots
  have hoverflow : overflow.toList.length = 0 := by omega
  refine ⟨?_, List.eq_nil_of_length_eq_zero (by omega)⟩
  cases overflow with
  | none => rfl
  | some parcel => cases hoverflow

theorem whole_of_carries {batch : Batch Parcel} (hne : batch.slots ≠ [])
    (hall : longestFit r.carries (batch.slots.map Slot.item) = batch.slots.map Slot.item) :
    Whole r batch := by
  obtain ⟨taken, left, overflow, hsplit⟩ := splits r hne
  obtain ⟨rfl, rfl⟩ := hsplit.eq_nil hall
  obtain ⟨count, he⟩ := hsplit.drain_eq
  rw [hall] at he
  exact ⟨by rw [he], by rw [he], by rw [he]; rfl⟩

end Packing

end SpanCourier
