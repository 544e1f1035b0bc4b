import SpanCourier.Proofs.Drain
import SpanCourier.Queue.Intake

set_option autoImplicit false

/-! # The intake is a bounded FIFO

An intake is offered items, drained, cleared and woken, in any order. Its drains go into consumers
of any kind, each in a state of its own, and one drain at a time may wait at the intake while other
things are done with it. `Usage` is an intake in use, with everything that was admitted to it and
everything that has left it so far.

Whatever is done, what is stored is what was admitted without what has left, in the order of the
offers; both limits hold, and the running total is the sum of the stored sizes. What each use does
to the items, and what it answers, is said by `Usage.Lawful`.
-/

namespace SpanCourier

/-- A consumer that never crashes, in one of its states. -/
structure Receiver (α : Type) : Type 1 where
  State : Type
  offer : Consumer State α
  steady : offer.Steady
  state : State

namespace Intake

variable {α : Type}

/-! ## Using an intake -/

/-- What is done with an intake. A drain may have to wait, and then `goOn` lets it look whether it
may go on. -/
inductive Use (α : Type) : Type 1
  | offer (item : α) (size : Nat)
  | tryDrain (into : Receiver α)
  | drain (timeout : Duration) (into : Receiver α)
  | goOn
  | clear
  | wake
  | pass (time : Duration)

/-- What a use answers. A drain that is over says how many items it took, and hands the receiver
back as it is then. -/
inductive Answer (α : Type) : Type 1
  | offered (admitted : Bool)
  | drained (count : Nat) (into : Receiver α)
  | waits
  | cleared (count : Nat)
  | nothing

/-- An intake in use: the drain that waits at it, and until when; the items that were admitted to it
and those that have left it, oldest first. -/
structure Usage (α : Type) : Type 1 where
  now : Instant := 0
  intake : Intake α
  waiting : Option (Instant × Receiver α) := none
  admitted : List (Slot α) := []
  departed : List (Slot α) := []

namespace Usage

/-- An intake that nobody has used yet. -/
def start (maxCount : Nat) (maxBytes : Option UInt64) : Usage α :=
  { intake := { queue := Queue.new maxCount (maxBytes.map UInt64.toNat) } }

/-- The stored items. -/
def slots (u : Usage α) : List (Slot α) := u.intake.queue.slots

/-- The running total of the stored sizes. -/
def bytes (u : Usage α) : Nat := u.intake.queue.bytes

/-- A drain into a receiver is over: as many items as it counts have left at the front. -/
def finishDrain (u : Usage α) (into : Receiver α) (intake : Intake α)
    (drained : Drained into.State) : Usage α × Answer α :=
  ({ u with intake, departed := u.departed ++ u.slots.take drained.count },
    .drained drained.count { into with state := drained.consumer })

/-- What a use does, and what it answers. -/
def step (u : Usage α) : Use α → Usage α × Answer α
  | .offer item size =>
    match u.intake.offer? item size with
    | some intake =>
      ({ u with intake, admitted := u.admitted ++ [⟨item, size⟩] }, .offered true)
    | none => (u, .offered false)
  | .tryDrain into =>
    let (intake, drained) := u.intake.tryDrain into.offer into.state
    u.finishDrain into intake drained
  | .drain timeout into =>
    match u.intake.beginDrain into.offer u.now timeout into.state with
    | .over intake drained => u.finishDrain into intake drained
    | .waits intake deadline =>
      -- there is room for one drain that waits
      if u.waiting.isSome then (u, .nothing)
      else ({ u with intake, waiting := some (deadline, into) }, .waits)
  | .goOn =>
    match u.waiting with
    | none => (u, .nothing)
    | some (deadline, into) =>
      match u.intake.resumeDrain? into.offer u.now deadline into.state with
      | some (intake, drained) => { u with waiting := none }.finishDrain into intake drained
      | none => (u, .waits)
  | .clear =>
    let (intake, count) := u.intake.clear
    ({ u with intake, departed := u.departed ++ u.slots }, .cleared count)
  | .wake => ({ u with intake := u.intake.wake }, .nothing)
  | .pass time => ({ u with now := u.now + time }, .nothing)

/-- The intake after a row of uses. -/
def run (u : Usage α) (uses : List (Use α)) : Usage α :=
  uses.foldl (fun u use => (u.step use).1) u

/-! ## The laws of a bounded FIFO -/

/-- Between the two nothing was admitted and nothing has left. -/
structure SameItems (u u' : Usage α) : Prop where
  slots_eq : u'.slots = u.slots
  bytes_eq : u'.bytes = u.bytes
  admitted_eq : u'.admitted = u.admitted
  departed_eq : u'.departed = u.departed

/-- A drain that is over has handed the receiver the stored items from the front, until one was
refused or none was left. Those that it took have left, the refused one is the first of those that
stay, and the total has gone down by just what was taken. -/
def DrainsInto (u : Usage α) (into : Receiver α) (result : Usage α × Answer α) : Prop :=
  ∃ taken left state,
    into.offer.Drains into.state u.slots taken left state false
    ∧ result.2 = .drained taken.length { into with state }
    ∧ result.1.slots = left
    ∧ result.1.bytes + Slot.total taken = u.bytes
    ∧ result.1.admitted = u.admitted
    ∧ result.1.departed = u.departed ++ taken

/-- What a use does to a FIFO of so many items, whose sizes come to so much at most. -/
def Lawful (maxCount limit : Nat) (u : Usage α) : Use α → Prop
  | .offer item size =>
    if u.slots.length + 1 ≤ maxCount ∧ u.bytes + size ≤ limit then
      (u.step (.offer item size)).2 = .offered true
        ∧ (u.step (.offer item size)).1.slots = u.slots ++ [⟨item, size⟩]
        ∧ (u.step (.offer item size)).1.bytes = u.bytes + size
        ∧ (u.step (.offer item size)).1.admitted = u.admitted ++ [⟨item, size⟩]
        ∧ (u.step (.offer item size)).1.departed = u.departed
    else u.step (.offer item size) = (u, .offered false)
  | .tryDrain into => u.DrainsInto into (u.step (.tryDrain into))
  | .drain timeout into =>
    u.DrainsInto into (u.step (.drain timeout into))
      ∨ (u.slots = [] ∧ timeout ≠ 0 ∧ u.SameItems (u.step (.drain timeout into)).1
        ∧ ((u.step (.drain timeout into)).2 = .waits
          ∨ u.waiting.isSome ∧ (u.step (.drain timeout into)).2 = .nothing))
  | .goOn =>
    match u.waiting with
    | none => u.step .goOn = (u, .nothing)
    | some (deadline, into) =>
      u.DrainsInto into (u.step .goOn)
        ∨ (u.slots = [] ∧ u.now < deadline ∧ u.step .goOn = (u, .waits))
  | .clear =>
    (u.step .clear).2 = .cleared u.slots.length
      ∧ (u.step .clear).1.slots = [] ∧ (u.step .clear).1.bytes = 0
      ∧ (u.step .clear).1.admitted = u.admitted
      ∧ (u.step .clear).1.departed = u.departed ++ u.slots
  | .wake => u.SameItems (u.step .wake).1 ∧ (u.step .wake).2 = .nothing
  | .pass time => u.SameItems (u.step (.pass time)).1 ∧ (u.step (.pass time)).2 = .nothing

/-! ## What every use keeps -/

/-- What is stored is what was admitted without what has left; the limits hold; the total is the sum
of the sizes; and where a drain waits, it has been notified or there is nothing to drain. -/
structure Sound (maxCount limit : Nat) (u : Usage α) : Prop where
  maxCount_eq : u.intake.queue.maxCount = maxCount
  maxBytes_eq : u.intake.queue.maxBytes = limit
  admitted_eq : u.admitted = u.departed ++ u.slots
  count_le : u.slots.length ≤ maxCount
  bytes_eq : u.bytes = Slot.total u.slots
  bytes_le : u.bytes ≤ limit
  awaited : u.waiting.isSome →
    u.intake.signal.waiter = .notified ∨ u.intake.signal.waiter = .waiting ∧ u.slots = []

namespace Sound

variable {maxCount limit : Nat} {u : Usage α}

theorem start (maxCount : Nat) (maxBytes : Option UInt64) :
    Sound maxCount ((maxBytes.map UInt64.toNat).getD wordMax)
      (Usage.start maxCount maxBytes : Usage α) where
  maxCount_eq := rfl
  maxBytes_eq := rfl
  admitted_eq := rfl
  count_le := Nat.zero_le _
  bytes_eq := rfl
  bytes_le := Nat.zero_le _
  awaited := fun h => absurd h Bool.false_ne_true

/-- A change of the signal that leaves the waiter in peace. -/
theorem of_sameItems (h : u.Sound maxCount limit) {u' : Usage α} (hs : u.SameItems u')
    (hc : u'.intake.queue.maxCount = u.intake.queue.maxCount)
    (hb : u'.intake.queue.maxBytes = u.intake.queue.maxBytes)
    (ha : u'.waiting.isSome → u'.intake.signal.waiter = .notified
      ∨ u'.intake.signal.waiter = .waiting ∧ u'.slots = []) : u'.Sound maxCount limit where
  maxCount_eq := hc.trans h.maxCount_eq
  maxBytes_eq := hb.trans h.maxBytes_eq
  admitted_eq := by rw [hs.admitted_eq, hs.departed_eq, hs.slots_eq, h.admitted_eq]
  count_le := by rw [hs.slots_eq]; exact h.count_le
  bytes_eq := by rw [hs.bytes_eq, hs.slots_eq, h.bytes_eq]
  bytes_le := by rw [hs.bytes_eq]; exact h.bytes_le
  awaited := ha

/-- A drain that waits is known to the signal. -/
theorem present (h : u.Sound maxCount limit) (hw : u.waiting.isSome) :
    u.intake.signal.waiter ≠ .absent := by
  rcases h.awaited hw with hn | ⟨ha, -⟩
  · rw [hn]
    simp
  · rw [ha]
    simp

end Sound

/-! ## Offers -/

/-- An offer is admitted exactly if both limits still hold with it. -/
theorem offer?_cases {maxCount limit : Nat} {u : Usage α} (h : u.Sound maxCount limit)
    (hl : limit ≤ wordMax) (item : α) (size : Nat) :
    (u.slots.length + 1 ≤ maxCount ∧ u.bytes + size ≤ limit
        ∧ u.intake.offer? item size = some
          { queue := { u.intake.queue with
              slots := u.slots ++ [⟨item, size⟩], bytes := u.bytes + size }
            signal := u.intake.signal.notify })
      ∨ (¬ (u.slots.length + 1 ≤ maxCount ∧ u.bytes + size ≤ limit)
        ∧ u.intake.offer? item size = none) := by
  have hc := h.maxCount_eq
  have hb := h.maxBytes_eq
  by_cases hroom : u.slots.length + 1 ≤ maxCount ∧ u.bytes + size ≤ limit
  · obtain ⟨hcount, hbytes⟩ := hroom
    refine .inl ⟨hcount, hbytes, ?_⟩
    have hcond : u.intake.queue.count < u.intake.queue.maxCount
        ∧ u.intake.queue.bytes + size ≤ wordMax
        ∧ u.intake.queue.bytes + size ≤ u.intake.queue.maxBytes := by
      refine ⟨?_, ?_, ?_⟩
      · rw [hc]
        exact hcount
      · exact Nat.le_trans hbytes hl
      · rw [hb]
        exact hbytes
    rw [offer?, Queue.offer?, if_pos hcond]
    rfl
  · refine .inr ⟨hroom, ?_⟩
    have hcond : ¬ (u.intake.queue.count < u.intake.queue.maxCount
        ∧ u.intake.queue.bytes + size ≤ wordMax
        ∧ u.intake.queue.bytes + size ≤ u.intake.queue.maxBytes) := by
      rintro ⟨hcount, -, hbytes⟩
      rw [hc] at hcount
      rw [hb] at hbytes
      exact hroom ⟨hcount, hbytes⟩
    rw [offer?, Queue.offer?, if_neg hcond]
    rfl

/-! ## Drains -/

/-- A drain that does not wait, or waits no more, takes what there is. It obeys the law, and it
keeps the intake sound if it leaves the waiter in peace. -/
theorem finishDrain_tryDrain {maxCount limit : Nat} {u : Usage α} (h : u.Sound maxCount limit)
    (into : Receiver α) (signal : Signal)
    (hw : u.waiting.isSome → signal.waiter = u.intake.signal.waiter) :
    let result := { u.intake with signal }.tryDrain into.offer into.state
    u.DrainsInto into (u.finishDrain into result.1 result.2)
      ∧ (u.finishDrain into result.1 result.2).1.Sound maxCount limit := by
  obtain ⟨taken, left, state, hd, he⟩ :=
    Queue.drain_steady into.steady u.intake.queue into.state
  have hslots : taken ++ left = u.slots := hd.append_eq
  have htotal : u.bytes = Slot.total taken + Slot.total left := by
    rw [h.bytes_eq, ← hslots, Slot.total_append]
  have htaken : u.slots.take taken.length = taken := by
    rw [← hslots]
    exact List.take_left
  simp only [tryDrain, he, finishDrain, htaken]
  constructor
  · refine ⟨taken, left, state, hd, rfl, rfl, ?_, rfl, rfl⟩
    show u.bytes - Slot.total taken + Slot.total taken = u.bytes
    omega
  · have hlength : taken.length + left.length = u.slots.length := by
      rw [← hslots, List.length_append]
    have hcount := h.count_le
    have hbytes := h.bytes_le
    constructor
    · exact h.maxCount_eq
    · exact h.maxBytes_eq
    · calc u.admitted = u.departed ++ u.slots := h.admitted_eq
        _ = u.departed ++ taken ++ left := by rw [← hslots, List.append_assoc]
    · show left.length ≤ maxCount
      omega
    · show u.bytes - Slot.total taken = Slot.total left
      omega
    · show u.bytes - Slot.total taken ≤ limit
      omega
    · intro hwaits
      rcases h.awaited hwaits with hn | ⟨ha, hempty⟩
      · exact .inl ((hw hwaits).trans hn)
      · -- where nothing was stored, nothing is left
        rw [hempty, List.append_eq_nil_iff] at hslots
        exact .inr ⟨(hw hwaits).trans ha, hslots.2⟩

/-- A drain that takes nothing from an empty queue, as it is when its time is up. -/
theorem finishDrain_nothing {u : Usage α} (hempty : u.slots = []) (into : Receiver α)
    (signal : Signal) :
    u.finishDrain into { u.intake with signal } ⟨into.state, 0, false⟩ =
      u.finishDrain into ({ u.intake with signal }.tryDrain into.offer into.state).1
        ({ u.intake with signal }.tryDrain into.offer into.state).2 := by
  have hslots : u.intake.queue.slots = [] := hempty
  simp only [tryDrain, Queue.drain_nil into.offer u.intake.queue into.state hslots]

/-! ## Uses -/

section Uses

variable {maxCount limit : Nat} {u : Usage α}

theorem lawful_offer (h : u.Sound maxCount limit) (hl : limit ≤ wordMax) (item : α) (size : Nat) :
    u.Lawful maxCount limit (.offer item size)
      ∧ (u.step (.offer item size)).1.Sound maxCount limit := by
  rcases offer?_cases h hl item size with ⟨hcount, hbytes, ho⟩ | ⟨hroom, ho⟩
  · have hstep : u.step (.offer item size) =
        ({ u with
          intake :=
            { queue := { u.intake.queue with
                slots := u.slots ++ [⟨item, size⟩], bytes := u.bytes + size }
              signal := u.intake.signal.notify }
          admitted := u.admitted ++ [⟨item, size⟩] }, .offered true) := by
      rw [step, ho]
    constructor
    · rw [Lawful, if_pos ⟨hcount, hbytes⟩, hstep]
      exact ⟨rfl, rfl, rfl, rfl, rfl⟩
    · rw [hstep]
      constructor
      · exact h.maxCount_eq
      · exact h.maxBytes_eq
      · show u.admitted ++ [_] = u.departed ++ (u.slots ++ [_])
        rw [h.admitted_eq, List.append_assoc]
      · show (u.slots ++ [_]).length ≤ maxCount
        rw [List.length_append]
        exact hcount
      · show u.bytes + size = Slot.total (u.slots ++ [_])
        rw [Slot.total_append, h.bytes_eq]
        rfl
      · exact hbytes
      · -- the drain that waited is notified
        intro hwaits
        exact .inl (Signal.waiter_notify (h.present hwaits))
  · have hstep : u.step (.offer item size) = (u, .offered false) := by
      rw [step, ho]
    constructor
    · rw [Lawful, if_neg hroom]
      exact hstep
    · rw [hstep]
      exact h

/-- A drain has to wait: there is nothing to drain, it has time, and no permit is stored. -/
def MustWait (u : Usage α) (timeout : Duration) : Prop :=
  u.intake.queue.isEmpty ∧ timeout ≠ 0 ∧ u.intake.signal.permit = false

/-- A drain that need not wait takes the permit and drains what there is. -/
theorem step_drain_over {u : Usage α} {timeout : Duration} (h : ¬ u.MustWait timeout)
    (into : Receiver α) :
    u.step (.drain timeout into) =
      u.finishDrain into
        ({ u.intake with signal := u.intake.signal.takePermit }.tryDrain into.offer into.state).1
        ({ u.intake with signal := u.intake.signal.takePermit }.tryDrain
          into.offer into.state).2 := by
  unfold MustWait at h
  simp only [step, beginDrain, if_neg h, drainNow]

/-- A drain that has to wait does, unless another one waits already. -/
theorem step_drain_waits {u : Usage α} {timeout : Duration} (h : u.MustWait timeout)
    (into : Receiver α) :
    u.step (.drain timeout into) =
      if u.waiting.isSome then (u, .nothing)
      else
        ({ u with
          intake := { u.intake with signal := u.intake.signal.await }
          waiting := some (u.now + timeout, into) }, .waits) := by
  unfold MustWait at h
  simp only [step, beginDrain, if_pos h]

theorem lawful_drain (h : u.Sound maxCount limit) (timeout : Duration) (into : Receiver α) :
    u.Lawful maxCount limit (.drain timeout into)
      ∧ (u.step (.drain timeout into)).1.Sound maxCount limit := by
  by_cases hw : u.MustWait timeout
  · have hempty : u.slots = [] := List.isEmpty_iff.1 hw.1
    have hstep := step_drain_waits hw into
    cases hwaiting : u.waiting.isSome with
    | true =>
      rw [hwaiting, if_pos rfl] at hstep
      constructor
      · refine .inr ⟨hempty, hw.2.1, ?_, ?_⟩
        · rw [hstep]
          exact ⟨rfl, rfl, rfl, rfl⟩
        · rw [hstep]
          exact .inr ⟨hwaiting, rfl⟩
      · rw [hstep]
        exact h
    | false =>
      rw [hwaiting, if_neg Bool.false_ne_true] at hstep
      have hsame : u.SameItems (u.step (.drain timeout into)).1 := by
        rw [hstep]
        exact ⟨rfl, rfl, rfl, rfl⟩
      constructor
      · refine .inr ⟨hempty, hw.2.1, hsame, .inl ?_⟩
        rw [hstep]
      · refine h.of_sameItems hsame ?_ ?_ ?_
        · rw [hstep]
        · rw [hstep]
        · rw [hstep]
          exact fun _ => .inr ⟨rfl, hempty⟩
  · have hfinish := finishDrain_tryDrain h into u.intake.signal.takePermit (fun _ => rfl)
    rw [Lawful, step_drain_over hw into]
    exact ⟨.inl hfinish.1, hfinish.2⟩

/-- A drain that waits goes on when it has been notified, and drains what there is; or when its time
is up, and takes nothing. -/
theorem step_goOn {u : Usage α} {deadline : Instant} {into : Receiver α}
    (h : u.waiting = some (deadline, into)) :
    (u.intake.signal.waiter = .notified
        ∧ u.step .goOn =
          finishDrain { u with waiting := none } into
            ({ u.intake with signal := u.intake.signal.leave }.tryDrain into.offer into.state).1
            ({ u.intake with signal := u.intake.signal.leave }.tryDrain into.offer into.state).2)
      ∨ (u.intake.signal.waiter ≠ .notified ∧ deadline ≤ u.now
        ∧ u.step .goOn =
          finishDrain { u with waiting := none } into
            { u.intake with signal := u.intake.signal.leave } ⟨into.state, 0, false⟩)
      ∨ (u.intake.signal.waiter ≠ .notified ∧ u.now < deadline
        ∧ u.step .goOn = (u, .waits)) := by
  by_cases hn : u.intake.signal.waiter = .notified
  · exact .inl ⟨hn, by simp only [step, h, resumeDrain?, if_pos hn]⟩
  · by_cases hd : deadline ≤ u.now
    · exact .inr (.inl ⟨hn, hd, by simp only [step, h, resumeDrain?, if_neg hn, if_pos hd]⟩)
    · exact .inr (.inr ⟨hn, Nat.lt_of_not_le hd,
        by simp only [step, h, resumeDrain?, if_neg hn, if_neg hd]⟩)

theorem lawful_goOn (h : u.Sound maxCount limit) :
    u.Lawful maxCount limit .goOn ∧ (u.step .goOn).1.Sound maxCount limit := by
  cases hwaiting : u.waiting with
  | none =>
    have hstep : u.step .goOn = (u, .nothing) := by
      simp only [step, hwaiting]
    rw [Lawful, hwaiting, hstep]
    exact ⟨rfl, h⟩
  | some wait =>
    obtain ⟨deadline, into⟩ := wait
    -- whoever waits no more leaves an intake at which nobody waits
    have h₁ : Sound maxCount limit { u with waiting := none } :=
      h.of_sameItems ⟨rfl, rfl, rfl, rfl⟩ rfl rfl (fun hw => absurd hw Bool.false_ne_true)
    have hfinish := finishDrain_tryDrain h₁ into u.intake.signal.leave
      (fun hw => absurd hw Bool.false_ne_true)
    have hempty : u.intake.signal.waiter ≠ .notified → u.slots = [] := by
      intro hn
      rcases h.awaited (by rw [hwaiting]; rfl) with hnotified | ⟨-, hempty⟩
      · exact absurd hnotified hn
      · exact hempty
    rcases step_goOn hwaiting with ⟨-, hstep⟩ | ⟨hn, -, hstep⟩ | ⟨hn, hlt, hstep⟩
    · rw [Lawful, hwaiting, hstep]
      exact ⟨.inl hfinish.1, hfinish.2⟩
    · have hnothing := finishDrain_nothing (u := { u with waiting := none }) (hempty hn) into
        u.intake.signal.leave
      rw [Lawful, hwaiting, hstep, hnothing]
      exact ⟨.inl hfinish.1, hfinish.2⟩
    · rw [Lawful, hwaiting, hstep]
      exact ⟨.inr ⟨hempty hn, hlt, rfl⟩, h⟩

theorem lawful_clear (h : u.Sound maxCount limit) :
    u.Lawful maxCount limit .clear ∧ (u.step .clear).1.Sound maxCount limit := by
  constructor
  · exact ⟨rfl, rfl, rfl, rfl, rfl⟩
  · constructor
    · exact h.maxCount_eq
    · exact h.maxBytes_eq
    · show u.admitted = u.departed ++ u.slots ++ []
      rw [List.append_nil]
      exact h.admitted_eq
    · exact Nat.zero_le _
    · rfl
    · exact Nat.zero_le _
    · intro hwaits
      rcases h.awaited hwaits with hn | ⟨ha, -⟩
      · exact .inl hn
      · exact .inr ⟨ha, rfl⟩

theorem lawful_wake (h : u.Sound maxCount limit) :
    u.Lawful maxCount limit .wake ∧ (u.step .wake).1.Sound maxCount limit := by
  have hsame : u.SameItems (u.step .wake).1 := ⟨rfl, rfl, rfl, rfl⟩
  refine ⟨⟨hsame, rfl⟩, h.of_sameItems hsame rfl rfl ?_⟩
  intro hwaits
  exact .inl (Signal.waiter_notify (h.present hwaits))

/-- Every use obeys its law and keeps the intake sound. -/
theorem lawful_step (h : u.Sound maxCount limit) (hl : limit ≤ wordMax) (use : Use α) :
    u.Lawful maxCount limit use ∧ (u.step use).1.Sound maxCount limit := by
  cases use with
  | offer item size => exact lawful_offer h hl item size
  | tryDrain into => exact finishDrain_tryDrain h into u.intake.signal (fun _ => rfl)
  | drain timeout into => exact lawful_drain h timeout into
  | goOn => exact lawful_goOn h
  | clear => exact lawful_clear h
  | wake => exact lawful_wake h
  | pass time =>
    have hsame : u.SameItems (u.step (.pass time)).1 := ⟨rfl, rfl, rfl, rfl⟩
    exact ⟨⟨hsame, rfl⟩, h.of_sameItems hsame rfl rfl h.awaited⟩

theorem Sound.run (h : u.Sound maxCount limit) (hl : limit ≤ wordMax) (uses : List (Use α)) :
    (u.run uses).Sound maxCount limit := by
  induction uses generalizing u with
  | nil => exact h
  | cons use rest ih => exact ih (lawful_step h hl use).2

end Uses

/-- The byte limit of a queue is a 64-bit number, whether or not one is set. -/
theorem limit_le (maxBytes : Option UInt64) :
    (maxBytes.map UInt64.toNat).getD wordMax ≤ wordMax := by
  cases maxBytes with
  | none => exact Nat.le_refl _
  | some bytes => exact Nat.le_sub_one_of_lt bytes.toNat_lt

/-- However an intake is used, what is stored is what was admitted without what has left, in the
order of the offers; there are no more items than allowed; the running total is the sum of their
sizes, within its limit and within 64 bits; and every further use obeys the law of a FIFO. -/
theorem bounded_fifo (maxCount : Nat) (maxBytes : Option UInt64) (uses : List (Use α)) :
    let limit := (maxBytes.map UInt64.toNat).getD wordMax
    let u := (start maxCount maxBytes : Usage α).run uses
    u.admitted = u.departed ++ u.slots
      ∧ u.intake.queue.count = u.slots.length ∧ u.slots.length ≤ maxCount
      ∧ u.bytes = Slot.total u.slots ∧ u.bytes ≤ limit ∧ limit ≤ wordMax
      ∧ ∀ use, u.Lawful maxCount limit use := by
  intro limit u
  have hl : limit ≤ wordMax := limit_le maxBytes
  have h : u.Sound maxCount limit := (Sound.start maxCount maxBytes).run hl uses
  exact ⟨h.admitted_eq, rfl, h.count_le, h.bytes_eq, h.bytes_le, hl,
    fun use => (lawful_step h hl use).1⟩

end Usage

end Intake

end SpanCourier
