import SpanCourier.Proofs.Reporter.WorkerBatch

set_option autoImplicit false

/-! # When the worker waits, and when it packs

A worker that waits at the queue misses neither a span nor its deadline: it waits only while there
is nothing to take, and no longer than the oldest span in its batch may. And it packs no message too
early: the message has the size of the limit or cannot take the next span, the oldest span has
waited for the timeout, or the batch begins with what an earlier message could not carry. Both are
read off `Dock.Tended`, which holds after every run.
-/

namespace SpanCourier

namespace State

variable {r : Reporter}

/-! ## Waiting -/

/-- Only a turn makes the worker wait, and the wait begins at the time of that turn. -/
theorem parked_step {s : State} (hs : s.Reachable r) {e : Event} {batch : Batch Parcel}
    {since deadline : Instant} (h : (s.step r e).worker = .parked batch since deadline) :
    s.worker = .parked batch since deadline
      ∨ e = .workerTurn ∧ s.now = since ∧ ∃ fresh, s.worker = .ready fresh batch := by
  refine keeps_step (P := fun d => d.worker = .parked batch since deadline →
    s.worker = .parked batch since deadline
      ∨ e = .workerTurn ∧ s.now = since ∧ ∃ fresh, s.worker = .ready fresh batch)
    ?_ hs .inl e ?_ h
  · -- a worker that comes, ends, or is done with a send does not wait
    intro d d' hd hp hw
    cases hd with
    | pass now goes => exact hp hw
    | hire => cases hw
    | refuse => exact hp hw
    | enqueue span isOpen fits => exact hp hw
    | flush batch left isOpen drains => exact hp hw
    | shut => exact hp hw
    | clear isClosed => exact hp hw
    | sent batch message sending => cases hw
    | leave => cases hw
  · intro he hw
    rcases dock_workerTurn r s with hsame | ⟨fresh, own, hready, -, -, -, hturn⟩ |
      ⟨start, taken, left, s₁, batch₁, last, s₂, batch₂, message, -, -, hturn⟩ |
      ⟨own, slot, left, signal, -, -, hturn⟩
    · rw [hsame] at hw
      exact .inl hw
    · rw [hturn] at hw
      cases hw
      exact .inr ⟨he, rfl, fresh, hready⟩
    · rw [hturn] at hw
      exact absurd hw (Worker.onward_ne_parked _ _ _ _ _ _)
    · rw [hturn] at hw
      cases hw

/-- A worker that waits has begun to do so in some turn before. -/
theorem parked_run {events : List Event} {batch : Batch Parcel} {since deadline : Instant}
    (h : ((initial r).run r events).worker = .parked batch since deadline) :
    ∃ earlier later, events = earlier ++ .workerTurn :: later
      ∧ ((initial r).run r earlier).now = since
      ∧ ∃ fresh, ((initial r).run r earlier).worker = .ready fresh batch := by
  refine run_induction (P := fun events s => s.worker = .parked batch since deadline →
    ∃ earlier later, events = earlier ++ .workerTurn :: later
      ∧ ((initial r).run r earlier).now = since
      ∧ ∃ fresh, ((initial r).run r earlier).worker = .ready fresh batch) ?_ ?_ events h
  · intro hw
    cases hw
  · intro events e ih hw
    rcases parked_step ⟨events, rfl⟩ hw with hold | ⟨rfl, hnow, hready⟩
    · obtain ⟨earlier, later, rfl, hbegun⟩ := ih hold
      exact ⟨earlier, later ++ [e], by simp, hbegun⟩
    · exact ⟨events, [], rfl, hnow, hready⟩

/-- The wait of a worker ends once it is notified or its time is up, not before. -/
theorem fill_ends_iff {s : State} {batch : Batch Parcel} {since deadline : Instant}
    (hw : s.worker = .parked batch since deadline) :
    ((∃ s' batch' last, s.fill r = .over s' batch' last)
        ∨ ∃ s' batch', s.fill r = .crashed s' batch') ↔
      s.intake.signal.waiter = .notified ∨ deadline ≤ s.now := by
  rcases resume_cases r hw with
    ⟨hn, taken, left, batch', -, he⟩ | ⟨-, hd, he⟩ | ⟨hn, hd, he⟩ | ⟨hn, slot, left, -, he⟩
  · exact ⟨fun _ => .inl hn, fun _ => .inl ⟨_, _, _, he⟩⟩
  · exact ⟨fun _ => .inr hd, fun _ => .inl ⟨_, _, _, he⟩⟩
  · constructor
    · rintro (⟨s', batch', last, hends⟩ | ⟨s', batch', hends⟩)
      · rw [he] at hends
        cases hends
      · rw [he] at hends
        cases hends
    · rintro (hn' | hd')
      · exact absurd hn' hn
      · exact absurd hd' (Nat.not_le_of_lt hd)
  · exact ⟨fun _ => .inl hn, fun _ => .inr ⟨_, _, he⟩⟩

/-- The deadline of a wait: the oldest span in the batch has its timeout from when it went on board,
and without a span it is counted from the begin of the wait. -/
theorem deadline_of_waits {known : List (Slot Parcel) → Prop} {d : Dock} {batch : Batch Parcel}
    {since deadline : Instant} (ht : d.Tends r known batch) (hw : d.Waits batch since deadline) :
    (batch.slots ≠ [] → d.RunsSince r batch deadline)
      ∧ (batch.slots = [] → deadline = since + r.messageTimeout) := by
  have hearly := hw.early
  rw [hw.deadline_eq]
  cases hd : batch.deadline with
  | some due =>
    -- the wait lasts for just the time that was left until the batch is due
    have hruns : d.RunsSince r batch due := ht.since due hd
    rw [Batch.remaining_of_deadline hd] at hearly ⊢
    have hlate : since ≤ due := Nat.le_of_lt (Nat.lt_of_sub_ne_zero hearly)
    have hdue : since + (due - since) = due := Nat.add_sub_of_le hlate
    rw [hdue]
    refine ⟨fun _ => hruns, fun hempty => ?_⟩
    obtain ⟨slot, rest, -, hslots, -⟩ := hruns
    rw [hempty] at hslots
    cases hslots
  | none =>
    -- what was left over is due at once, so there would have been no wait
    have hempty : batch.slots = [] := by
      apply Classical.byContradiction
      intro hne
      exact hearly (Batch.remaining_of_left_over hd hne since)
    refine ⟨fun hne => absurd hempty hne, fun _ => ?_⟩
    rw [Batch.remaining_of_empty hd hempty, ht.made.timeout_eq]

/-- A worker that waits at the queue has been notified, or nothing is queued.
Its batch was not due when it began to wait. The wait ends, unless a notification ends it before,
when the oldest span in the batch has been there for the timeout, or, with an empty batch, when it
has lasted for the timeout. The worker then gets past the queue, and it crashes there only if the
clock cannot name the deadline of a span that goes on board now. -/
theorem wait_ends_in_time (events : List Event) {batch : Batch Parcel} {since deadline : Instant}
    (hw : ((initial r).run r events).worker = .parked batch since deadline) :
    let s := (initial r).run r events
    (s.intake.signal.waiter = .notified
        ∨ s.intake.signal.waiter = .waiting ∧ s.intake.queue.slots = [])
      ∧ (∃ earlier later, events = earlier ++ .workerTurn :: later
        ∧ ((initial r).run r earlier).now = since
        ∧ (∃ fresh, ((initial r).run r earlier).worker = .ready fresh batch)
        ∧ batch.isReady since = false)
      ∧ batch.full = false
      ∧ (batch.slots ≠ [] → batch.deadline ≠ none)
      ∧ (∀ slot rest, batch.slots = slot :: rest →
        ∃ time, s.journal.boardedAt? slot.item.serial = some time
          ∧ deadline = time + r.messageTimeout)
      ∧ (batch.slots = [] → deadline = since + r.messageTimeout)
      ∧ (((∃ s' batch' last, s.fill r = .over s' batch' last)
          ∨ ∃ s' batch', s.fill r = .crashed s' batch') ↔
        s.intake.signal.waiter = .notified ∨ deadline ≤ s.now)
      ∧ ∀ s' batch', s.fill r = .crashed s' batch' →
        Instant.last < s.now + r.messageTimeout := by
  intro s
  have htended := tended_run r events
  have htends := htended.own batch (by rw [show s.dock.worker = _ from hw]; rfl)
  have hwaits := htended.waiting batch since deadline hw
  obtain ⟨hruns, hempty⟩ := deadline_of_waits htends hwaits
  have hready : batch.isReady since = false :=
    Batch.isReady_eq_false hwaits.not_full hwaits.early
  refine ⟨hwaits.awake, ?_, hwaits.not_full, ?_, ?_, hempty, fill_ends_iff hw, ?_⟩
  · obtain ⟨earlier, later, hevents, hnow, hbegun⟩ := parked_run hw
    exact ⟨earlier, later, hevents, hnow, hbegun, hready⟩
  · intro hne hnone
    exact hwaits.early (Batch.remaining_of_left_over hnone hne since)
  · intro slot rest hslots
    obtain ⟨slot', rest', time, hslots', hlookup, htime⟩ :=
      hruns (by rw [hslots]; exact List.cons_ne_nil _ _)
    rw [hslots] at hslots'
    cases hslots'
    exact ⟨time, hlookup, htime⟩
  · intro s' batch' hcrash
    have hs : s.Reachable r := ⟨events, rfl⟩
    exact Nat.lt_of_not_le (hs.not_timely_of_crashed hcrash)

end State

/-- A reporter whose spans are one byte long, and whose messages have at most three bytes and ten
nanoseconds to grow. Its transport counts one byte more for every span. -/
def Reporter.patient : Reporter where
  encoder := { encoding := .proto3, size := fun _ => 1, encode := fun _ => [0] }
  transport := .padded .proto3 3 1 none
  messageMaxBytes := 3
  messageTimeout := 10
  closeTimeout := 5
  queuedMaxSpans := 4
  queuedMaxBytes := none

namespace State

/-- A span that went on board at the start, and a wait that began later. -/
theorem patient_waits :
    let span : Span := default
    let s := (initial .patient).run .patient [.report span, .workerTurn, .pass 4, .workerTurn]
    ∃ batch, s.worker = .parked batch 4 10 ∧ batch.slots.length = 1
      ∧ s.intake.queue.slots = [] ∧ batch.full = false
      ∧ ((∃ s' batch' last, s.fill .patient = .over s' batch' last) ↔
        s.intake.signal.waiter = .notified ∨ 10 ≤ s.now) := by
  intro span s
  obtain ⟨hqueue, -, hfull, -, -, -, hends, hcrash⟩ := wait_ends_in_time (r := .patient)
    [.report span, .workerTurn, .pass 4, .workerTurn] rfl
  have hsteady : ¬∃ s' batch', s.fill .patient = .crashed s' batch' := by
    rintro ⟨s', batch', hc⟩
    exact absurd (hcrash s' batch' hc) (by decide +kernel)
  rw [or_iff_left hsteady] at hends
  refine ⟨_, rfl, rfl, ?_, hfull, hends⟩
  rcases hqueue with hn | ⟨-, hq⟩
  · cases hn
  · exact hq

/-! ## Packing -/

variable {r : Reporter}

/-- What a turn of the worker packs while the reporter is open is a message of exactly the limit, or
one that cannot take the span at the head of the queue; or its oldest span has been in the batch for
the timeout; or it begins with what an earlier message could not carry. -/
theorem packs_for_a_reason (events : List Event) {s' : State} {batch : Batch Parcel}
    (hopen : ((initial r).run r events).closed = false)
    (h : ((initial r).run r events).packing? r = some (s', batch)) :
    (r.encoder.encoding.listSize batch.sizes = r.messageMaxBytes
        ∨ ∃ slot rest, s'.intake.queue.slots = slot :: rest
          ∧ r.messageMaxBytes < r.encoder.encoding.listSize (batch.sizes ++ [slot.size]))
      ∨ (∃ slot rest time, batch.slots = slot :: rest
        ∧ s'.journal.boardedAt? slot.item.serial = some time ∧ time + r.messageTimeout ≤ s'.now)
      ∨ ∃ start, ((initial r).run r events).worker.batch? = some start
        ∧ start.slots ≠ [] ∧ LeftBehind r events start.slots
        ∧ ∃ taken, batch.slots = start.slots ++ taken := by
  obtain ⟨last, hfill, hpacks⟩ := packing?_eq_some.1 h
  obtain ⟨start, taken, left, hl⟩ := loads_of_fill hfill
  have hs : ((initial r).run r events).Reachable r := ⟨events, rfl⟩
  have hloaded := (tended_run r events).loads hs.inOrder hl
  obtain ⟨signal, hdock⟩ := hl.dock_eq
  have hclosed : s'.closed = false := by
    rw [show s'.closed = s'.dock.closed from rfl, hdock]
    exact hopen
  rw [packs, hclosed, Bool.or_false, Bool.and_eq_true] at hpacks
  rcases Batch.isReady_iff.1 hpacks.1 with hfull | ⟨deadline, hd, hdue⟩ | ⟨hnone, hne⟩
  · left
    rcases hloaded.full hfull hclosed with hrefuses | ⟨-, hsize⟩
    · exact .inr (hloaded.made.refuses_iff.1 hrefuses)
    · rw [hloaded.made.size_eq, hloaded.made.maxBytes_eq] at hsize
      exact .inl hsize
  · obtain ⟨slot, rest, time, hslots, hlookup, htime⟩ := hloaded.since deadline hd
    rw [htime] at hdue
    exact .inr (.inl ⟨slot, rest, time, hslots, hlookup, hdue⟩)
  · obtain ⟨hstart, hleft⟩ := hloaded.leftover hnone hne
    exact .inr (.inr ⟨start, hl.batch_eq, hstart, hleft, taken, hl.slots_eq.1⟩)

/-- Three spans are too much for one message, so the third is left over and packed at once. -/
theorem patient_packs :
    let span : Span := default
    let events : List Event :=
      [.report span, .report span, .report span, .workerTurn, .sendEnds .worker .sent]
    ∃ start, ((initial .patient).run .patient events).worker.batch? = some start
      ∧ start.slots.map (fun slot => slot.item.serial) = [2]
      ∧ LeftBehind .patient events start.slots := by
  intro span events
  have hpacking : (((initial .patient).run .patient events).packing? .patient).map
      (fun p => (p.2.sizes, p.1.intake.queue.slots, p.1.now)) = some ([1], [], 0) := by
    decide +kernel
  obtain ⟨⟨s', batch⟩, hp, hfacts⟩ := Option.map_eq_some_iff.1 hpacking
  obtain ⟨hsizes, hqueue, hnow⟩ : batch.sizes = [1] ∧ s'.intake.queue.slots = [] ∧ s'.now = 0 := by
    simpa using hfacts
  have hserials : ((initial .patient).run .patient events).worker.batch?.map
      (fun batch => batch.slots.map fun slot => slot.item.serial) = some [2] := by decide +kernel
  have hopen : ((initial .patient).run .patient events).closed = false := by decide +kernel
  rcases packs_for_a_reason events hopen hp with
    hsize | ⟨slot, rest, time, -, -, hdue⟩ | ⟨start, hstart, -, hleft, -⟩
  · rw [hsizes, hqueue] at hsize
    rcases hsize with hexact | ⟨slot, rest, hslots, -⟩
    · exact absurd hexact (by decide)
    · cases hslots
  · rw [hnow] at hdue
    have htimeout : Reporter.patient.messageTimeout ≤ 0 := Nat.le_trans (Nat.le_add_left _ _) hdue
    exact absurd htimeout (by decide)
  · rw [hstart] at hserials
    exact ⟨start, hstart, Option.some.inj hserials, hleft⟩

end State

end SpanCourier
