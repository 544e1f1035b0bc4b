import SpanCourier.Proofs.Batching
import SpanCourier.Proofs.Queue.Fifo

set_option autoImplicit false

/-! # A batch in use

A batch is offered items, drained into consumers of any kind and cleared, in any order, while time
goes on. `Batch.Usage` is a batch in use, with everything that it accepted and everything that has
left it so far.

Whatever is done, the batch holds what it accepted without what has left, in the order of the
offers; its size is that of the message which these items would form, however it was reached; and a
batch that holds anything is within its limit (`Batch.Usage.Kept`). What each use does to the items,
and what it answers, is said by `Batch.Usage.Lawful`. Sizes are added up in 64 bits, so all this is
about offers whose sums have room there (`Batch.Usage.InWord`).
-/

namespace SpanCourier

namespace Batch

variable {α : Type}

/-! ## Using a batch -/

/-- What is done with a batch. -/
inductive Use (α : Type) : Type 1
  | offer (item : α) (size : Nat)
  | drain (into : Receiver α)
  | clear
  | pass (time : Duration)

/-- What a use answers. An item that is refused is handed back, and one that the batch crashed over
is not; a drain says how many items left, and hands the receiver back as it is then. -/
inductive Answer (α : Type) : Type 1
  | accepted
  | refused (item : α)
  | crashed
  | drained (count : Nat) (into : Receiver α)
  | cleared (count : Nat)
  | nothing

/-- A batch in use: the items that it accepted and those that have left it, oldest first. -/
structure Usage (α : Type) where
  now : Instant := 0
  batch : Batch α
  accepted : List (Slot α) := []
  departed : List (Slot α) := []

namespace Usage

/-- A batch that nobody has used yet. -/
def start (encoding : Encoding) (maxBytes : Nat) (timeout : Duration) : Usage α :=
  { batch := .new encoding maxBytes timeout }

/-- What a use does, and what it answers. -/
def step (u : Usage α) : Use α → Usage α × Answer α
  | .offer item size =>
    match Batch.offer u.now u.batch item size with
    | (.taken, batch) =>
      ({ u with batch, accepted := u.accepted ++ [⟨item, size⟩] }, .accepted)
    | (.refused, batch) => ({ u with batch }, .refused item)
    | (.crashed, batch) => ({ u with batch }, .crashed)
  | .drain into =>
    let (batch, drained) := u.batch.drain into.offer into.state
    ({ u with batch, departed := u.departed ++ u.batch.slots.take drained.count },
      .drained drained.count { into with state := drained.consumer })
  | .clear =>
    let (batch, count) := u.batch.clear
    ({ u with batch, departed := u.departed ++ u.batch.slots }, .cleared count)
  | .pass time => ({ u with now := u.now + time }, .nothing)

/-- The batch after a row of uses. -/
def run (u : Usage α) (uses : List (Use α)) : Usage α :=
  uses.foldl (fun u use => (u.step use).1) u

theorem run_append (u : Usage α) (uses later : List (Use α)) :
    u.run (uses ++ later) = (u.run uses).run later :=
  List.foldl_append

theorem run_concat (u : Usage α) (uses : List (Use α)) (use : Use α) :
    u.run (uses ++ [use]) = ((u.run uses).step use).1 :=
  u.run_append uses [use]

/-- An offer that is refused only marks the batch as full; one that crashes changes nothing; and one
that is accepted adds the item. -/
theorem step_offer (u : Usage α) (slot : Slot α) :
    (u.batch.maxBytes < u.batch.sizeWith slot.size
        ∧ u.step (.offer slot.item slot.size) =
          ({ u with batch := { u.batch with full := true } }, .refused slot.item))
      ∨ (u.batch.sizeWith slot.size ≤ u.batch.maxBytes ∧ u.batch.outlasts u.now = true
        ∧ u.step (.offer slot.item slot.size) = (u, .crashed))
      ∨ (u.batch.sizeWith slot.size ≤ u.batch.maxBytes ∧ u.batch.outlasts u.now = false
        ∧ u.step (.offer slot.item slot.size) =
          ({ u with batch := u.batch.add u.now slot, accepted := u.accepted ++ [slot] },
            .accepted)) := by
  rcases offer_cases u.now u.batch slot with ⟨hover, ho⟩ | ⟨hfits, hlast, ho⟩ | ⟨hfits, hlast, ho⟩
  · exact .inl ⟨hover, by simp only [step, ho]⟩
  · exact .inr (.inl ⟨hfits, hlast, by simp only [step, ho]⟩)
  · exact .inr (.inr ⟨hfits, hlast, by simp only [step, ho]⟩)

/-- A drain takes the items from the front that the receiver accepts. -/
theorem step_drain (u : Usage α) (into : Receiver α) :
    ∃ taken left state,
      into.offer.Drains into.state u.batch.slots taken left state false
        ∧ taken ++ left = u.batch.slots
        ∧ u.step (.drain into) =
          ({ u with
            batch := u.batch.leave (u.batch.full && taken.isEmpty) left
            departed := u.departed ++ taken }, .drained taken.length { into with state }) := by
  obtain ⟨taken, left, state, hd, he⟩ :=
    Batch.drain_eq into.offer into.steady u.batch into.state
  have hslots : taken ++ left = u.batch.slots := hd.append_eq
  have htaken : u.batch.slots.take taken.length = taken := by
    rw [← hslots]
    exact List.take_left
  exact ⟨taken, left, state, hd, hslots, by simp only [step, he, htaken]⟩

/-! ## The laws of a batch -/

/-- The size of the message of the batch, counted anew, with one more item at the end. -/
def sizeWith (u : Usage α) (size : Nat) : Nat :=
  u.batch.encoding.listSize (u.batch.sizes ++ [size])

/-- What each use does. An offer is accepted exactly if the message fits with the item; the item
stands last then, and a batch that was empty gets its deadline. Only if the clock cannot name this
deadline the offer crashes instead, and changes nothing. An offer that is refused hands the item
back and marks the batch as full. A drain hands the receiver the items from the front, until one is
refused or none is left, and takes off those that were accepted. -/
def Lawful (u : Usage α) : Use α → Prop
  | .offer item size =>
    if u.sizeWith size ≤ u.batch.maxBytes then
      if u.batch.slots = [] ∧ Instant.last < u.now + u.batch.timeout then
        u.step (.offer item size) = (u, .crashed)
      else u.step (.offer item size) =
        ({ u with
          batch := { u.batch with
            slots := u.batch.slots ++ [⟨item, size⟩]
            size := u.sizeWith size
            full := u.batch.full || u.sizeWith size = u.batch.maxBytes
            deadline :=
              if u.batch.slots = [] then some (u.now + u.batch.timeout) else u.batch.deadline }
          accepted := u.accepted ++ [⟨item, size⟩] }, .accepted)
    else
      u.step (.offer item size) = ({ u with batch := { u.batch with full := true } }, .refused item)
  | .drain into =>
    ∃ taken left state,
      into.offer.Drains into.state u.batch.slots taken left state false
      ∧ u.step (.drain into) =
        ({ u with
          batch := { u.batch with
            slots := left
            size := u.batch.encoding.listSize (left.map Slot.size)
            full := u.batch.full && taken.isEmpty
            deadline := none }
          departed := u.departed ++ taken }, .drained taken.length { into with state })
  | .clear =>
    u.step .clear =
      ({ u with
        batch := .new u.batch.encoding u.batch.maxBytes u.batch.timeout
        departed := u.departed ++ u.batch.slots }, .cleared u.batch.slots.length)
  | .pass time => u.step (.pass time) = ({ u with now := u.now + time }, .nothing)

/-! ## What every use keeps -/

/-- What is held is what was accepted without what has left; size and limit are in order; an empty
batch has no deadline; and the clock can name the deadline that there is. -/
structure Kept (encoding : Encoding) (maxBytes : Nat) (timeout : Duration) (u : Usage α) :
    Prop where
  encoding_eq : u.batch.encoding = encoding
  maxBytes_eq : u.batch.maxBytes = maxBytes
  timeout_eq : u.batch.timeout = timeout
  accepted_eq : u.accepted = u.departed ++ u.batch.slots
  sound : u.batch.Sound
  deadline_eq : u.batch.slots = [] → u.batch.deadline = none
  deadline_le : ∀ deadline, u.batch.deadline = some deadline → deadline ≤ Instant.last

variable {encoding : Encoding} {maxBytes : Nat} {timeout : Duration} {u : Usage α}

theorem Kept.start (encoding : Encoding) (maxBytes : Nat) (timeout : Duration) :
    (Usage.start encoding maxBytes timeout : Usage α).Kept encoding maxBytes timeout :=
  ⟨rfl, rfl, rfl, rfl, .new _ _ _, fun _ => rfl, fun _ hsome => by cases hsome⟩

/-- What the batch makes of its size with one more item is the size counted anew. -/
theorem Kept.sizeWith_eq (h : u.Kept encoding maxBytes timeout) (size : Nat) :
    u.batch.sizeWith size = u.sizeWith size :=
  h.sound.sizeWith_eq size

theorem lawful_offer (h : u.Kept encoding maxBytes timeout) (item : α) (size : Nat) :
    u.Lawful (.offer item size)
      ∧ (u.step (.offer item size)).1.Kept encoding maxBytes timeout := by
  have hsize : u.batch.sizeWith size = u.sizeWith size := h.sizeWith_eq size
  rcases u.step_offer ⟨item, size⟩ with
    ⟨hover, hstep⟩ | ⟨hfits, hlast, hstep⟩ | ⟨hfits, hlast, hstep⟩
  · have hover' : ¬ u.sizeWith size ≤ u.batch.maxBytes := by
      rw [← hsize]
      exact Nat.not_le_of_lt hover
    constructor
    · rw [Lawful, if_neg hover']
      exact hstep
    · rw [hstep]
      exact ⟨h.encoding_eq, h.maxBytes_eq, h.timeout_eq, h.accepted_eq,
        ⟨h.sound.size_eq, h.sound.size_le⟩, h.deadline_eq, h.deadline_le⟩
  · rw [hsize] at hfits
    constructor
    · rw [Lawful, if_pos hfits, if_pos (outlasts_eq_true.1 hlast)]
      exact hstep
    · rw [hstep]
      exact h
  · have hfits' : u.sizeWith size ≤ u.batch.maxBytes := by
      rw [← hsize]
      exact hfits
    have hnamed : ¬ (u.batch.slots = [] ∧ Instant.last < u.now + u.batch.timeout) := by
      rw [← outlasts_eq_true, hlast]
      exact Bool.false_ne_true
    have hne : u.batch.slots ++ [⟨item, size⟩] ≠ [] := List.concat_ne_nil _ _
    constructor
    · rw [Lawful, if_pos hfits', if_neg hnamed, hstep, add, hsize]
      simp only [isEmpty, List.isEmpty_iff]
    · rw [hstep]
      refine ⟨h.encoding_eq, h.maxBytes_eq, h.timeout_eq, ?_, ⟨?_, fun _ => hfits⟩,
        fun hnil => absurd hnil hne, fun deadline hdeadline => ?_⟩
      · show u.accepted ++ _ = u.departed ++ (u.batch.slots ++ _)
        rw [h.accepted_eq, List.append_assoc]
      · show u.batch.sizeWith size = u.batch.encoding.listSize ((u.batch.slots ++ _).map Slot.size)
        rw [hsize, List.map_append]
        rfl
      · -- a deadline that is set now has a name, and any other stays as it was
        rw [add] at hdeadline
        dsimp only at hdeadline
        split at hdeadline
        · next hempty =>
          cases hdeadline
          exact Nat.le_of_not_lt fun hlt => hnamed ⟨List.isEmpty_iff.1 hempty, hlt⟩
        · exact h.deadline_le deadline hdeadline

theorem lawful_drain (h : u.Kept encoding maxBytes timeout) (into : Receiver α) :
    u.Lawful (.drain into) ∧ (u.step (.drain into)).1.Kept encoding maxBytes timeout := by
  obtain ⟨taken, left, state, hd, hslots, hstep⟩ := u.step_drain into
  constructor
  · exact ⟨taken, left, state, hd, hstep⟩
  · rw [hstep]
    refine ⟨h.encoding_eq, h.maxBytes_eq, h.timeout_eq, ?_, h.sound.leave hslots.symm _,
      fun _ => rfl, fun _ hsome => by cases hsome⟩
    calc u.accepted = u.departed ++ u.batch.slots := h.accepted_eq
      _ = u.departed ++ taken ++ left := by rw [← hslots, List.append_assoc]

theorem lawful_clear (h : u.Kept encoding maxBytes timeout) :
    u.Lawful .clear ∧ (u.step .clear).1.Kept encoding maxBytes timeout := by
  constructor
  · rfl
  · refine ⟨h.encoding_eq, h.maxBytes_eq, h.timeout_eq, ?_, ⟨rfl, fun hne => absurd rfl hne⟩,
      fun _ => rfl, fun _ hsome => by cases hsome⟩
    show u.accepted = u.departed ++ u.batch.slots ++ []
    rw [List.append_nil]
    exact h.accepted_eq

/-- Every use obeys its law and keeps the batch in order. -/
theorem lawful_step (h : u.Kept encoding maxBytes timeout) (use : Use α) :
    u.Lawful use ∧ (u.step use).1.Kept encoding maxBytes timeout := by
  cases use with
  | offer item size => exact lawful_offer h item size
  | drain into => exact lawful_drain h into
  | clear => exact lawful_clear h
  | pass time =>
    exact ⟨rfl, h.encoding_eq, h.maxBytes_eq, h.timeout_eq, h.accepted_eq, h.sound, h.deadline_eq,
      h.deadline_le⟩

theorem Kept.run (h : u.Kept encoding maxBytes timeout) (uses : List (Use α)) :
    (u.run uses).Kept encoding maxBytes timeout := by
  induction uses generalizing u with
  | nil => exact h
  | cons use rest ih => exact ih (lawful_step h use).2

/-! ## Sums in 64 bits -/

/-- Accepts one item. -/
def single : Receiver Nat where
  State := Bool
  offer hasRoom _ _ := (if hasRoom then .taken else .refused, false)
  steady hasRoom _ _ := by
    cases hasRoom with
    | true => simp
    | false => simp
  state := true

end Usage

end Batch

end SpanCourier
