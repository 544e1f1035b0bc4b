import SpanCourier.Proofs.Batching
import SpanCourier.Proofs.Packing

set_option autoImplicit false

/-! # What each operation of a reporter does

The steps of a reporter are put together from a few operations. Here stands one lemma for each of
them that says all it does to the state, with the conditions under which it does it, so that an
invariant never has to look into an operation again. Where an operation ends a wait or packs a
batch, the lemma names the spans that moved and the place that they left.
-/

namespace SpanCourier

/-- The batch of a worker that is at the queue: about to begin a cycle, or waiting in one. -/
def Worker.batch? : Worker → Option (Batch Parcel)
  | .ready _ batch => some batch
  | .parked batch _ _ => some batch
  | _ => none

theorem Worker.held_of_batch? {w : Worker} {batch : Batch Parcel} (h : w.batch? = some batch) :
    w.held = batch.slots := by
  cases w with
  | absent => cases h
  | ready fresh b =>
    cases h
    rfl
  | parked b since deadline =>
    cases h
    rfl
  | sending b message last => cases h
  | gone => cases h

theorem Worker.alive_of_batch? {w : Worker} {batch : Batch Parcel} (h : w.batch? = some batch) :
    w.alive = true := by
  cases w with
  | absent => cases h
  | ready fresh b => rfl
  | parked b since deadline => rfl
  | sending b message last => cases h
  | gone => cases h

namespace State

/-! ## Counting what is lost -/

/-- Losing spans counts them and writes them down; losing none changes nothing. -/
theorem lose_eq (s : State) (serials : List Nat) :
    s.lose serials =
      { s with
        metrics := s.metrics.record (.spansDropped serials.length)
        journal := { s.journal with lost := s.journal.lost ++ serials } } := by
  rw [lose]
  split
  · next h =>
    subst h
    simp [Metrics.record]
  · rfl

/-! ## Reporting -/

/-- The first report starts the worker if the reporter still holds the latch. -/
theorem startWorker_cases (r : Reporter) (s : State) :
    (s.started = true ∧ s.startWorker r = s)
      ∨ (s.started = false ∧ s.latch ≠ some .reporter
        ∧ s.startWorker r = { s with started := true })
      ∨ (s.started = false ∧ s.latch = some .reporter
        ∧ s.startWorker r =
          { s with
            started := true
            latch := some .worker
            worker := .ready true
              (.new r.encoder.encoding r.messageMaxBytes r.messageTimeout) }) := by
  cases hs : s.started with
  | true => exact .inl ⟨rfl, by simp [startWorker, hs]⟩
  | false =>
    by_cases hl : s.latch = some .reporter
    · exact .inr (.inr ⟨rfl, hl, by simp [startWorker, hs, hl]⟩)
    · exact .inr (.inl ⟨rfl, hl, by simp [startWorker, hs, hl]⟩)

/-- Starting the worker touches nothing but the worker, the latch and the mark of the start. -/
theorem startWorker_frame (r : Reporter) (s : State) :
    ∃ started latch worker, s.startWorker r = { s with started, latch, worker } := by
  rcases startWorker_cases r s with ⟨-, h⟩ | ⟨-, -, h⟩ | ⟨-, -, h⟩
  · exact ⟨s.started, s.latch, s.worker, h⟩
  · exact ⟨true, s.latch, s.worker, h⟩
  · exact ⟨true, _, _, h⟩

/-- The state after a report has been counted and written down. -/
def counted (r : Reporter) (s : State) (span : Span) : State :=
  { s with
    metrics := (s.metrics.record (.spans 1)).record (.spanBytes (r.encoder.size span))
    journal := { s.journal with reported := s.journal.reported ++ [span] } }

/-- A reported span is lost if it is rejected or the queue has no room for it, and is queued
otherwise. -/
theorem report_cases (r : Reporter) (s : State) (span : Span) :
    ((s.rejects r span = true
          ∨ s.intake.offer? ⟨s.journal.reported.length, r.encoder.encode span⟩
              (r.encoder.size span) = none)
        ∧ s.report r span =
          ((s.startWorker r).counted r span).lose [s.journal.reported.length])
      ∨ (s.rejects r span = false
        ∧ ∃ intake,
          s.intake.offer? ⟨s.journal.reported.length, r.encoder.encode span⟩
              (r.encoder.size span) = some intake
          ∧ s.report r span = { (s.startWorker r).counted r span with intake }) := by
  obtain ⟨started, latch, worker, hs⟩ := startWorker_frame r s
  have hrej : ((s.startWorker r).counted r span).rejects r span = s.rejects r span := by
    rw [hs]
    rfl
  have hser : (s.startWorker r).journal.reported.length = s.journal.reported.length := by
    rw [hs]
  have hint : ((s.startWorker r).counted r span).intake = s.intake := by
    rw [hs]
    rfl
  have hr : s.report r span =
      if ((s.startWorker r).counted r span).rejects r span then
        ((s.startWorker r).counted r span).lose [(s.startWorker r).journal.reported.length]
      else
        (((s.startWorker r).counted r span).intake.offer?
            ⟨(s.startWorker r).journal.reported.length, r.encoder.encode span⟩
            (r.encoder.size span)).elim
          (((s.startWorker r).counted r span).lose [(s.startWorker r).journal.reported.length])
          (fun intake => { (s.startWorker r).counted r span with intake }) := by
    simp only [report, counted, measure]
    generalize Intake.offer? _ _ _ = offered
    cases offered with
    | none => rfl
    | some intake => rfl
  rw [hrej, hser, hint] at hr
  cases hj : s.rejects r span with
  | true =>
    rw [hj, if_pos rfl] at hr
    exact .inl ⟨.inl rfl, hr⟩
  | false =>
    rw [hj, if_neg Bool.false_ne_true] at hr
    cases ho : s.intake.offer? ⟨s.journal.reported.length, r.encoder.encode span⟩
        (r.encoder.size span) with
    | none =>
      rw [ho] at hr
      exact .inl ⟨.inr rfl, hr⟩
    | some intake =>
      rw [ho] at hr
      exact .inr ⟨rfl, intake, rfl, hr⟩

/-! ## Packing -/

/-- The state after a batch of this size has been packed. -/
def packed (r : Reporter) (s : State) (size : Nat) (overflow : Option Parcel) : State :=
  let s := (s.gauge.measure .message).measure (.messageBytes size)
  match overflow with
  | none => s
  | some parcel => (s.lose [parcel.serial]).note (.overflowed r.messageMaxBytes)

/-- Packing loses the parcel that was too much, if there was one, and moves nothing else. -/
theorem packed_eq (r : Reporter) (s : State) (size : Nat) (overflow : Option Parcel) :
    ∃ metrics notices,
      s.packed r size overflow =
        { s with
          metrics, notices
          journal :=
            { s.journal with lost := s.journal.lost ++ overflow.toList.map Parcel.serial } }
      ∧ metrics.spans = s.metrics.spans
      ∧ metrics.spansDropped =
          s.metrics.spansDropped + UInt64.ofNat overflow.toList.length := by
  cases overflow with
  | none =>
    refine ⟨(s.packed r size none).metrics, s.notices, ?_, ?_, ?_⟩
    · simp [packed, gauge, measure]
    · simp [packed, gauge, measure, Metrics.record]
    · simp [packed, gauge, measure, Metrics.record]
  | some parcel =>
    refine ⟨(s.packed r size (some parcel)).metrics, (s.packed r size (some parcel)).notices,
      ?_, ?_, ?_⟩
    · simp [packed, lose_eq, note, gauge, measure]
    · simp [packed, lose_eq, note, gauge, measure, Metrics.record]
    · simp [packed, lose_eq, note, gauge, measure, Metrics.record]

/-- Reading the gauges does not change what is due. -/
theorem packs_gauge (s : State) (batch : Batch Parcel) : s.gauge.packs batch = s.packs batch := by
  unfold packs gauge measure
  rfl

theorem dispatch_of_not_packs {r : Reporter} {s : State} {batch : Batch Parcel}
    (h : s.packs batch = false) : s.dispatch r batch = (s.gauge, batch, []) := by
  rw [← packs_gauge] at h
  simp [dispatch, h]

/-- An empty batch is never packed. -/
theorem not_packs_of_empty {s : State} {batch : Batch Parcel} (h : batch.slots = []) :
    s.packs batch = false := by
  rw [packs, Batch.isEmpty, h, List.isEmpty_nil, Bool.not_true, Bool.and_false]

theorem slots_ne_nil_of_packs {s : State} {batch : Batch Parcel} (h : s.packs batch = true) :
    batch.slots ≠ [] := by
  intro hnil
  rw [not_packs_of_empty hnil] at h
  cases h

/-- A closed reporter packs whatever there is. -/
theorem slots_eq_nil_of_not_packs {s : State} {batch : Batch Parcel} (h : s.packs batch = false)
    (hc : s.closed = true) : batch.slots = [] := by
  rw [packs, hc, Bool.or_true, Bool.true_and, Bool.not_eq_false'] at h
  exact List.isEmpty_iff.1 h

/-- A batch that is packed is split; what it keeps is not full, and has no deadline. -/
theorem dispatch_splits (r : Reporter) {s : State} {batch : Batch Parcel}
    (h : s.packs batch = true) :
    ∃ taken left overflow,
      Packing.Splits r batch taken left overflow
      ∧ s.dispatch r batch =
        (s.packed r batch.size overflow, batch.leave false left,
          longestFit r.carries (batch.slots.map Slot.item)) := by
  obtain ⟨taken, left, overflow, hsplit⟩ := Packing.splits r (slots_ne_nil_of_packs h)
  obtain ⟨count, he⟩ := hsplit.drain_eq
  rw [← packs_gauge] at h
  refine ⟨taken, left, overflow, hsplit, ?_⟩
  cases overflow with
  | none => simp [dispatch, h, he, packed]
  | some parcel => simp [dispatch, h, he, packed]

/-- A batch that is packed falls into the message, the parcel that was too much for it, and what
stays in the batch. -/
theorem dispatch_of_packs (r : Reporter) {s : State} {batch : Batch Parcel}
    (h : s.packs batch = true) :
    ∃ full left overflow,
      s.dispatch r batch =
        (s.packed r batch.size overflow, batch.leave full left,
          longestFit r.carries (batch.slots.map Slot.item))
      ∧ batch.slots.map Slot.item =
          longestFit r.carries (batch.slots.map Slot.item) ++ overflow.toList
            ++ left.map Slot.item := by
  obtain ⟨taken, left, overflow, hsplit, he⟩ := dispatch_splits r h
  refine ⟨false, left, overflow, he, ?_⟩
  rw [← hsplit.taken_eq, ← List.map_append, hsplit.slots_eq]

/-- Packing a batch counts, writes notices and may lose a parcel; all else of the state stays. -/
theorem dispatch_frame {r : Reporter} {s s' : State} {batch batch' : Batch Parcel}
    {message : List Parcel} (h : s.dispatch r batch = (s', batch', message)) :
    ∃ metrics notices lost,
      s' = { s with metrics, notices, journal := { s.journal with lost } } := by
  cases hp : s.packs batch with
  | false =>
    rw [dispatch_of_not_packs hp] at h
    cases h
    exact ⟨_, s.notices, s.journal.lost, rfl⟩
  | true =>
    obtain ⟨full, left, overflow, he, -⟩ := dispatch_of_packs r hp
    obtain ⟨metrics, notices, hs, -, -⟩ := packed_eq r s batch.size overflow
    rw [he] at h
    cases h
    exact ⟨metrics, notices, _, hs⟩

/-! ## The drain of a cycle -/

/-- The state after a drain took these parcels into the batch of the worker. -/
def drained (s : State) (taken left : List (Slot Parcel)) (signal : Signal) : State :=
  { s with intake :=
      { queue := { s.intake.queue with
          slots := left, bytes := s.intake.queue.bytes - Slot.total taken }
        signal } }.board taken

/-- The batch of the worker crashes over the head of the queue: it is empty, and has room for the
parcel, but the clock cannot name the deadline that this would set. -/
structure Spills (s : State) (batch : Batch Parcel) (slot : Slot Parcel)
    (left : List (Slot Parcel)) : Prop where
  slots_eq : batch.slots = []
  lt_deadline : Instant.last < s.now + batch.timeout
  queue_eq : s.intake.queue.slots = slot :: left
  fits : batch.sizeWith slot.size ≤ batch.maxBytes

theorem Spills.left_sublist {s : State} {batch : Batch Parcel} {slot : Slot Parcel}
    {left : List (Slot Parcel)} (h : s.Spills batch slot left) :
    left.Sublist s.intake.queue.slots := by
  rw [h.queue_eq]
  exact List.sublist_cons_self slot left

/-- The state after a drain in which the batch of the worker crashed over a parcel. -/
def spilled (s : State) (slot : Slot Parcel) (left : List (Slot Parcel)) (signal : Signal) :
    State :=
  { s with intake := { queue := { s.intake.queue with slots := left }, signal } }.spill [slot]

/-- The drain of a cycle takes parcels from the front of the queue, or it crashes over its head. -/
theorem filled_cases (s : State) (batch : Batch Parcel) (last : Bool) (signal : Signal)
    {queue : Queue Parcel} {result : Drained (Batch Parcel)}
    (h : s.intake.queue.drain (Batch.offer s.now) batch = (queue, result)) :
    (∃ taken left batch',
        (Batch.offer s.now).Drains batch s.intake.queue.slots taken left batch' false
        ∧ s.filled batch last (⟨queue, signal⟩, result) =
          .over (s.drained taken left signal) batch' last)
      ∨ ∃ slot left,
        s.Spills batch slot left
        ∧ s.filled batch last (⟨queue, signal⟩, result) =
          .crashed (s.spilled slot left signal) batch := by
  obtain ⟨taken, left, batch', crashed, hd, he⟩ :=
    Queue.drain_eq (Batch.offer s.now) s.intake.queue batch
  rw [he] at h
  cases h
  cases crashed with
  | false =>
    have htaken : batch'.slots.drop batch.count = taken := by
      rw [Batch.slots_of_drains hd]
      exact List.drop_left
    refine .inl ⟨taken, left, batch', hd, ?_⟩
    rw [filled, if_neg Bool.false_ne_true, htaken]
    rfl
  | true =>
    -- nothing was taken before the crash, so nothing has gone on board
    obtain ⟨⟨hempty, hlate⟩, rfl, rfl, slot, hq, hfits⟩ := Batch.outlasts_of_drains hd
    refine .inr ⟨slot, left, ⟨hempty, hlate, hq, hfits⟩, ?_⟩
    rw [filled, if_pos rfl, hq, Batch.count, hempty]
    simp [board, spilled, Slot.total]

/-- How a cycle begins: the worker parks at an empty queue of an open reporter, if it has time
left and no permit is stored; otherwise it drains the queue, and takes the permit. -/
theorem beginCycle_cases (s : State) (batch : Batch Parcel) :
    (s.closed = false ∧ s.intake.queue.slots = [] ∧ batch.remaining s.now ≠ 0
        ∧ s.intake.signal.permit = false
        ∧ s.beginCycle batch =
          .waits { s with
            intake := { s.intake with signal := s.intake.signal.await }
            worker := .parked batch s.now (s.now + batch.remaining s.now) })
      ∨ ((s.closed = true ∨ s.intake.queue.slots ≠ [] ∨ batch.remaining s.now = 0
            ∨ s.intake.signal.permit = true)
        ∧ ∃ taken left batch',
          (Batch.offer s.now).Drains batch s.intake.queue.slots taken left batch' false
          ∧ s.beginCycle batch =
            .over (s.drained taken left s.intake.signal.takePermit) batch' s.closed)
      ∨ ∃ slot left,
        s.Spills batch slot left
        ∧ s.beginCycle batch = .crashed (s.spilled slot left s.intake.signal.takePermit) batch := by
  by_cases hw : s.intake.queue.isEmpty = true ∧ (if s.closed then 0 else batch.remaining s.now) ≠ 0
      ∧ s.intake.signal.permit = false
  · obtain ⟨he, ht, hp⟩ := hw
    have hopen : s.closed = false := by
      cases hcl : s.closed with
      | false => rfl
      | true => simp [hcl] at ht
    rw [hopen, if_neg Bool.false_ne_true] at ht
    refine .inl ⟨hopen, by simpa [Queue.isEmpty] using he, ht, hp, ?_⟩
    simp [beginCycle, Intake.beginDrain, hopen, he, ht, hp]
  · obtain ⟨⟨queue, result⟩, he⟩ :
        ∃ drained, s.intake.queue.drain (Batch.offer s.now) batch = drained := ⟨_, rfl⟩
    have hcycle : s.beginCycle batch =
        s.filled batch s.closed (⟨queue, s.intake.signal.takePermit⟩, result) := by
      rw [beginCycle, Intake.beginDrain, if_neg hw]
      simp only [Intake.drainNow, Intake.tryDrain, he]
    rw [hcycle]
    rcases s.filled_cases batch s.closed s.intake.signal.takePermit he with
      hover | hcrash
    · refine .inr (.inl ⟨?_, hover⟩)
      apply Classical.byContradiction
      intro hn
      simp only [not_or, ne_eq, Classical.not_not, Bool.not_eq_true] at hn
      obtain ⟨hcl, hq, ht, hp⟩ := hn
      exact hw ⟨by simp [Queue.isEmpty, hq], by simpa [hcl] using ht, hp⟩
    · exact .inr (.inr hcrash)

/-- How a wait goes on: notified, the worker drains the queue; out of time, it takes nothing; and
otherwise it waits on. -/
theorem resume_cases (r : Reporter) {s : State} {batch : Batch Parcel} {since deadline : Instant}
    (hw : s.worker = .parked batch since deadline) :
    (s.intake.signal.waiter = .notified
        ∧ ∃ taken left batch',
          (Batch.offer s.now).Drains batch s.intake.queue.slots taken left batch' false
          ∧ s.fill r = .over (s.drained taken left s.intake.signal.leave) batch' false)
      ∨ (s.intake.signal.waiter ≠ .notified ∧ deadline ≤ s.now
        ∧ s.fill r = .over (s.drained [] s.intake.queue.slots s.intake.signal.leave) batch false)
      ∨ (s.intake.signal.waiter ≠ .notified ∧ s.now < deadline ∧ s.fill r = .waits s)
      ∨ (s.intake.signal.waiter = .notified
        ∧ ∃ slot left,
          s.Spills batch slot left
          ∧ s.fill r = .crashed (s.spilled slot left s.intake.signal.leave) batch) := by
  rw [fill, hw]
  dsimp only
  by_cases hn : s.intake.signal.waiter = .notified
  · obtain ⟨⟨queue, result⟩, he⟩ :
        ∃ drained, s.intake.queue.drain (Batch.offer s.now) batch = drained := ⟨_, rfl⟩
    simp only [Intake.resumeDrain?, hn, if_true, Intake.tryDrain, he]
    rcases s.filled_cases batch false s.intake.signal.leave he with hover | hcrash
    · exact .inl ⟨trivial, hover⟩
    · exact .inr (.inr (.inr ⟨trivial, hcrash⟩))
  · by_cases hd : deadline ≤ s.now
    · refine .inr (.inl ⟨hn, hd, ?_⟩)
      simp only [Intake.resumeDrain?, if_neg hn, if_pos hd, filled]
      simp [drained, Batch.count, Slot.total]
    · refine .inr (.inr (.inl ⟨hn, Nat.lt_of_not_le hd, ?_⟩))
      simp only [Intake.resumeDrain?, if_neg hn, if_neg hd]

/-- A fresh worker writes a notice before it goes to the queue. -/
theorem fill_ready (r : Reporter) {s : State} {fresh : Bool} {batch : Batch Parcel}
    (hw : s.worker = .ready fresh batch) :
    ∃ notices, s.fill r = { s with notices }.beginCycle batch := by
  have hf : s.fill r =
      (if fresh then s.note (.workerStarted r.transport.name) else s).beginCycle batch := by
    rw [fill, hw]
  rw [hf]
  cases fresh with
  | true => exact ⟨_, rfl⟩
  | false => exact ⟨s.notices, rfl⟩

/-- A drain of the worker that is over has gone into its batch; or its wait ran out of time, and
nothing was taken. -/
theorem fill_drains {r : Reporter} {s s' : State} {batch' : Batch Parcel} {last : Bool}
    (h : s.fill r = .over s' batch' last) :
    ∃ batch taken left signal notices,
      s.worker.batch? = some batch
      ∧ ((Batch.offer s.now).Drains batch s.intake.queue.slots taken left batch' false
        ∨ ∃ since deadline,
          s.worker = .parked batch since deadline ∧ s.intake.signal.waiter ≠ .notified
          ∧ deadline ≤ s.now ∧ taken = [] ∧ left = s.intake.queue.slots ∧ batch' = batch)
      ∧ s' = { s with notices }.drained taken left signal
      ∧ (last = true → s.closed = true) := by
  obtain ⟨worker, hw⟩ : ∃ worker, s.worker = worker := ⟨_, rfl⟩
  cases worker with
  | absent => rw [fill, hw] at h; cases h
  | ready fresh batch =>
    obtain ⟨notices, hf⟩ := fill_ready r hw
    rw [hf] at h
    rcases beginCycle_cases { s with notices } batch with
      ⟨-, -, -, -, he⟩ | ⟨-, taken, left, b, hd, he⟩ | ⟨_, _, -, he⟩
    · rw [he] at h
      cases h
    · rw [he] at h
      cases h
      exact ⟨batch, taken, left, _, notices, by rw [hw]; rfl, .inl hd, rfl, fun hl => hl⟩
    · rw [he] at h
      cases h
  | parked batch since deadline =>
    rcases resume_cases r hw with
      ⟨-, taken, left, b, hd, he⟩ | ⟨hn, hdue, he⟩ | ⟨-, -, he⟩ | ⟨-, _, _, -, he⟩
    · rw [he] at h
      cases h
      exact ⟨batch, taken, left, _, s.notices, by rw [hw]; rfl, .inl hd, rfl,
        fun hl => absurd hl Bool.false_ne_true⟩
    · rw [he] at h
      cases h
      exact ⟨batch', [], s.intake.queue.slots, _, s.notices, by rw [hw]; rfl,
        .inr ⟨since, deadline, hw, hn, hdue, rfl, rfl, rfl⟩, rfl,
        fun hl => absurd hl Bool.false_ne_true⟩
    · rw [he] at h
      cases h
    · rw [he] at h
      cases h
  | sending batch message last => rw [fill, hw] at h; cases h
  | gone => rw [fill, hw] at h; cases h

/-- A drain of the worker that is over has moved parcels from the front of the queue to the end of
its batch, and nothing else. -/
theorem fill_over {r : Reporter} {s s' : State} {batch' : Batch Parcel} {last : Bool}
    (h : s.fill r = .over s' batch' last) :
    ∃ batch taken left signal notices,
      s.worker.batch? = some batch ∧ s.intake.queue.slots = taken ++ left
      ∧ batch'.slots = batch.slots ++ taken
      ∧ s' = { s with notices }.drained taken left signal
      ∧ (last = true → s.closed = true) := by
  obtain ⟨batch, taken, left, signal, notices, hb, hd, hs, hl⟩ := fill_drains h
  refine ⟨batch, taken, left, signal, notices, hb, ?_, ?_, hs, hl⟩
  · rcases hd with hd | ⟨since, deadline, -, -, -, rfl, rfl, -⟩
    · exact hd.append_eq.symm
    · rfl
  · rcases hd with hd | ⟨since, deadline, -, -, -, rfl, -, rfl⟩
    · exact Batch.slots_of_drains hd
    · exact (List.append_nil _).symm

/-- A turn of the worker that does not get past the queue leaves all as it was, or parks the
worker at the empty queue of an open reporter, for the time that its batch has left. -/
theorem fill_waits {r : Reporter} {s s' : State} (h : s.fill r = .waits s') :
    s' = s
      ∨ ∃ fresh batch notices,
        s.worker = .ready fresh batch ∧ s.closed = false ∧ s.intake.queue.slots = []
        ∧ batch.remaining s.now ≠ 0
        ∧ s' = { s with
            notices
            intake := { s.intake with signal := s.intake.signal.await }
            worker := .parked batch s.now (s.now + batch.remaining s.now) } := by
  obtain ⟨worker, hw⟩ : ∃ worker, s.worker = worker := ⟨_, rfl⟩
  cases worker with
  | absent => rw [fill, hw] at h; cases h; exact .inl rfl
  | ready fresh batch =>
    obtain ⟨notices, hf⟩ := fill_ready r hw
    rw [hf] at h
    rcases beginCycle_cases { s with notices } batch with
      ⟨hc, hq, ht, -, he⟩ | ⟨-, _, _, _, _, he⟩ | ⟨_, _, -, he⟩
    · rw [he] at h
      cases h
      exact .inr ⟨fresh, batch, notices, hw, hc, hq, ht, rfl⟩
    · rw [he] at h
      cases h
    · rw [he] at h
      cases h
  | parked batch since deadline =>
    rcases resume_cases r hw with
      ⟨-, _, _, _, _, he⟩ | ⟨-, -, he⟩ | ⟨-, -, he⟩ | ⟨-, _, _, -, he⟩
    · rw [he] at h
      cases h
    · rw [he] at h
      cases h
    · rw [he] at h
      cases h
      exact .inl rfl
    · rw [he] at h
      cases h
  | sending batch message last => rw [fill, hw] at h; cases h; exact .inl rfl
  | gone => rw [fill, hw] at h; cases h; exact .inl rfl

/-- A turn of the worker crashes at the queue only over its head, with a batch that is empty. -/
theorem fill_crashes {r : Reporter} {s s' : State} {batch : Batch Parcel}
    (h : s.fill r = .crashed s' batch) :
    ∃ slot left signal notices,
      s.worker.batch? = some batch ∧ s.Spills batch slot left
      ∧ s' = { s with notices }.spilled slot left signal := by
  obtain ⟨worker, hw⟩ : ∃ worker, s.worker = worker := ⟨_, rfl⟩
  cases worker with
  | absent => rw [fill, hw] at h; cases h
  | ready fresh own =>
    obtain ⟨notices, hf⟩ := fill_ready r hw
    rw [hf] at h
    rcases beginCycle_cases { s with notices } own with
      ⟨-, -, -, -, he⟩ | ⟨-, _, _, _, _, he⟩ | ⟨slot, left, hspill, he⟩
    · rw [he] at h
      cases h
    · rw [he] at h
      cases h
    · rw [he] at h
      cases h
      exact ⟨slot, left, _, notices, by rw [hw]; rfl,
        ⟨hspill.slots_eq, hspill.lt_deadline, hspill.queue_eq, hspill.fits⟩, rfl⟩
  | parked own since deadline =>
    rcases resume_cases r hw with
      ⟨-, _, _, _, _, he⟩ | ⟨-, -, he⟩ | ⟨-, -, he⟩ | ⟨-, slot, left, hspill, he⟩
    · rw [he] at h
      cases h
    · rw [he] at h
      cases h
    · rw [he] at h
      cases h
    · rw [he] at h
      cases h
      exact ⟨slot, left, _, s.notices, by rw [hw]; rfl, hspill, rfl⟩
  | sending own message last => rw [fill, hw] at h; cases h
  | gone => rw [fill, hw] at h; cases h

/-! ## The worker -/

/-- What the worker does with a batch: it ends its cycle, or it has a message with the
transport. -/
theorem sendBatch_cases (r : Reporter) (s : State) (batch : Batch Parcel) (last : Bool) :
    ∃ s' batch' message,
      s.dispatch r batch = (s', batch', message)
      ∧ ((message = [] ∧ s.sendBatch r batch last = s'.endCycle batch' last)
        ∨ (message ≠ []
          ∧ s.sendBatch r batch last =
            { s'.handOver .worker message with worker := .sending batch' message last })) := by
  obtain ⟨⟨s', batch', message⟩, hd⟩ : ∃ result, s.dispatch r batch = result := ⟨_, rfl⟩
  refine ⟨s', batch', message, hd, ?_⟩
  rw [sendBatch, hd]
  dsimp only
  split
  · next hm => exact .inl ⟨hm, rfl⟩
  · next hm => exact .inr ⟨hm, rfl⟩

/-- A worker that ends with an empty batch loses nothing. -/
theorem endWorker_of_empty (s : State) {batch : Batch Parcel} (h : batch.slots = [])
    (crashed : Bool) :
    s.endWorker batch crashed =
      { s with
        worker := .gone
        latch := if s.latch = some .worker then none else s.latch
        notices := s.notices ++
          [if crashed then .workerCrashed 0 else .workerStopped 0] } := by
  simp [endWorker, lose, note, Batch.count, h]

/-- What a turn of the worker does: nothing; or it parks; or it moves parcels from the front of the
queue to the end of its batch, and goes on with that; or its batch crashes over the head of the
queue, and it ends. -/
theorem workerTurn_cases (r : Reporter) (s : State) :
    s.workerTurn r = s
      ∨ (∃ fresh batch notices,
        s.worker = .ready fresh batch ∧ s.closed = false ∧ s.intake.queue.slots = []
        ∧ s.workerTurn r = { s with
            notices
            intake := { s.intake with signal := s.intake.signal.await }
            worker := .parked batch s.now (s.now + batch.remaining s.now) })
      ∨ (∃ batch batch' taken left signal notices last,
        s.worker.batch? = some batch ∧ s.intake.queue.slots = taken ++ left
        ∧ batch'.slots = batch.slots ++ taken
        ∧ (last = true → s.closed = true)
        ∧ s.workerTurn r =
          ({ s with notices }.drained taken left signal).sendBatch r batch' last)
      ∨ ∃ batch slot left signal notices,
        s.worker.batch? = some batch ∧ s.Spills batch slot left
        ∧ s.workerTurn r = { s with
            notices
            intake := { queue := { s.intake.queue with slots := left }, signal }
            worker := .gone
            latch := if s.latch = some .worker then none else s.latch
            journal := { s.journal with spilled := s.journal.spilled ++ [slot.item] } } := by
  rw [workerTurn]
  split
  · next s' hf =>
    rcases fill_waits hf with rfl | ⟨fresh, batch, notices, hw, hc, hq, -, rfl⟩
    · exact .inl rfl
    · exact .inr (.inl ⟨fresh, batch, notices, hw, hc, hq, rfl⟩)
  · next s' batch' last hf =>
    obtain ⟨batch, taken, left, signal, notices, hb, hq, hslots, rfl, hl⟩ := fill_over hf
    exact .inr (.inr (.inl
      ⟨batch, batch', taken, left, signal, notices, last, hb, hq, hslots, hl, rfl⟩))
  · next s' batch hf =>
    obtain ⟨slot, left, signal, notices, hb, hspill, rfl⟩ := fill_crashes hf
    refine .inr (.inr (.inr
      ⟨batch, slot, left, signal, notices ++ [.workerCrashed 0], hb, hspill, ?_⟩))
    rw [endWorker_of_empty _ hspill.slots_eq]
    rfl

/-- What a worker that has a message with the transport does when the send ends: it ends its cycle,
or it ends itself. -/
theorem workerSendEnds_of_sending (r : Reporter) {s : State} {batch : Batch Parcel}
    {message : List Parcel} {last : Bool} (hw : s.worker = .sending batch message last)
    (outcome : Outcome) :
    (outcome ≠ .crashed
        ∧ s.workerSendEnds r outcome = (s.endSend r .worker message outcome).endCycle batch last)
      ∨ ∃ notices crashed,
        s.workerSendEnds r outcome =
          { s.endSend r .worker message outcome with notices }.endWorker batch crashed := by
  rw [workerSendEnds, hw]
  cases outcome with
  | sent => exact .inl ⟨by simp, rfl⟩
  | crashed => exact .inr ⟨_, true, rfl⟩
  | failed error =>
    dsimp only
    split
    · exact .inr ⟨_, false, rfl⟩
    · exact .inl ⟨by simp, rfl⟩

/-- What the worker does when a send ends, if it has one. -/
theorem workerSendEnds_cases (r : Reporter) (s : State) (outcome : Outcome) :
    s.workerSendEnds r outcome = s
      ∨ ∃ batch message last,
        s.worker = .sending batch message last
        ∧ ((outcome ≠ .crashed
            ∧ s.workerSendEnds r outcome =
              (s.endSend r .worker message outcome).endCycle batch last)
          ∨ ∃ notices crashed,
            s.workerSendEnds r outcome =
              { s.endSend r .worker message outcome with notices }.endWorker batch crashed) := by
  obtain ⟨worker, hw⟩ : ∃ worker, s.worker = worker := ⟨_, rfl⟩
  cases worker with
  | sending batch message last =>
    exact .inr ⟨batch, message, last, hw, workerSendEnds_of_sending r hw outcome⟩
  | absent => exact .inl (by rw [workerSendEnds, hw])
  | ready fresh batch => exact .inl (by rw [workerSendEnds, hw])
  | parked batch since deadline => exact .inl (by rw [workerSendEnds, hw])
  | gone => exact .inl (by rw [workerSendEnds, hw])

/-! ## Ends -/

/-- A failed send loses its spans. -/
theorem endSend_failed (r : Reporter) (s : State) (sender : Sender) (message : List Parcel)
    (error : TransportError) :
    s.endSend r sender message (.failed error) =
      { s with
        metrics := (s.metrics.record (.messageDropped error.kind)).record
          (.spansDropped message.length)
        notices := s.notices ++
          [.sendFailed (!s.warned) message.length r.transport.name error]
        warned := true
        journal := { s.journal with
          endings := s.journal.endings ++ [⟨sender, message, .failed error⟩]
          lost := s.journal.lost ++ message.map Parcel.serial } } := by
  simp only [endSend, lose_eq, note, measure, List.length_map]

/-- A send that succeeds is written down. -/
theorem endSend_sent (r : Reporter) (s : State) (sender : Sender) (message : List Parcel) :
    s.endSend r sender message .sent =
      { s with journal := { s.journal with
          endings := s.journal.endings ++ [⟨sender, message, .sent⟩] } } :=
  rfl

/-- The end of a send counts, writes notices and may lose spans; all else of the state stays. -/
theorem endSend_frame (r : Reporter) (s : State) (sender : Sender) (message : List Parcel)
    (outcome : Outcome) :
    ∃ metrics notices warned endings lost,
      s.endSend r sender message outcome =
        { s with metrics, notices, warned, journal := { s.journal with endings, lost } } := by
  cases outcome with
  | sent => exact ⟨s.metrics, s.notices, s.warned, _, s.journal.lost, rfl⟩
  | failed error =>
    rw [endSend_failed]
    exact ⟨_, _, true, _, _, rfl⟩
  | crashed => exact ⟨s.metrics, s.notices, s.warned, _, s.journal.lost, rfl⟩

/-- The worker ends and lets go of the latch; what it held is lost. -/
theorem endWorker_eq (s : State) (batch : Batch Parcel) (crashed : Bool) :
    s.endWorker batch crashed =
      { s with
        worker := .gone
        latch := if s.latch = some .worker then none else s.latch
        notices := s.notices ++
          [if crashed then .workerCrashed batch.count else .workerStopped batch.count]
        metrics := s.metrics.record (.spansDropped batch.slots.length)
        journal := { s.journal with
          lost := s.journal.lost ++ batch.slots.map fun slot => slot.item.serial } } := by
  simp only [endWorker, lose_eq, note, List.length_map]

/-- The end of a cycle hands nothing over and leaves the queue alone; of the batch it keeps all or
nothing. -/
theorem endCycle_frame (s : State) (batch : Batch Parcel) (last : Bool) :
    ∃ worker latch metrics notices lost,
      s.endCycle batch last =
        { s with worker, latch, metrics, notices, journal := { s.journal with lost } }
      ∧ worker.held.Sublist batch.slots := by
  cases last with
  | true =>
    rw [endCycle, if_pos rfl, endWorker_eq]
    exact ⟨.gone, _, _, _, _, rfl, List.nil_sublist _⟩
  | false =>
    exact ⟨.ready false batch, s.latch, s.metrics, s.notices, s.journal.lost, rfl,
      List.Sublist.refl _⟩

/-- A turn of the worker has nothing to do with the calls, nor with whether the reporter is closed.
-/
theorem workerTurn_frame (r : Reporter) (s : State) :
    ∃ intake worker latch metrics notices journal,
      s.workerTurn r = { s with intake, worker, latch, metrics, notices, journal } := by
  rcases workerTurn_cases r s with hs | ⟨fresh, batch, notices, -, -, -, hs⟩ |
    ⟨batch, batch', taken, left, signal, notices, last, -, -, -, -, hs⟩ |
    ⟨batch, slot, left, signal, notices, -, -, hs⟩
  · exact ⟨s.intake, s.worker, s.latch, s.metrics, s.notices, s.journal, hs⟩
  · exact ⟨_, _, s.latch, s.metrics, notices, s.journal, hs⟩
  · obtain ⟨s', batch₁, message, hd, hsend⟩ :=
      sendBatch_cases r ({ s with notices }.drained taken left signal) batch' last
    obtain ⟨metrics, notices', lost, rfl⟩ := dispatch_frame hd
    rcases hsend with ⟨-, hsend⟩ | ⟨-, hsend⟩
    · obtain ⟨worker, latch, metrics', notices₁, lost', hcycle, -⟩ := endCycle_frame
        { ({ s with notices }.drained taken left signal) with
          metrics
          notices := notices'
          journal := { ({ s with notices }.drained taken left signal).journal with lost } }
        batch₁ last
      rw [hs, hsend, hcycle]
      exact ⟨_, worker, latch, metrics', notices₁, _, rfl⟩
    · rw [hs, hsend]
      exact ⟨_, _, s.latch, metrics, notices', _, rfl⟩
  · exact ⟨_, .gone, _, s.metrics, notices, _, hs⟩

/-- Nor has the end of a send of the worker, which hands nothing over and leaves the queue alone. -/
theorem workerSendEnds_frame (r : Reporter) (s : State) (outcome : Outcome) :
    ∃ worker latch metrics notices warned endings lost,
      s.workerSendEnds r outcome =
        { s with
          worker, latch, metrics, notices, warned
          journal := { s.journal with endings, lost } } := by
  rcases workerSendEnds_cases r s outcome with hs | ⟨batch, message, last, -, hs⟩
  · exact ⟨s.worker, s.latch, s.metrics, s.notices, s.warned, s.journal.endings,
      s.journal.lost, hs⟩
  · obtain ⟨metrics, notices, warned, endings, lost, he⟩ :=
      endSend_frame r s .worker message outcome
    rw [he] at hs
    rcases hs with ⟨-, hs⟩ | ⟨notices', crashed, hs⟩
    · obtain ⟨worker, latch, metrics', notices', lost', hcycle, -⟩ := endCycle_frame
        { s with metrics, notices, warned, journal := { s.journal with endings, lost } } batch last
      rw [hs, hcycle]
      exact ⟨worker, latch, metrics', notices', warned, endings, lost', rfl⟩
    · rw [hs, endWorker_eq]
      exact ⟨.gone, _, _, _, warned, endings, _, rfl⟩

/-- A flush returns; what its batch still held is lost. -/
theorem endFlush_eq (s : State) (id : Nat) (batch : Batch Parcel) (error : Option ReporterError) :
    s.endFlush id batch error =
      { s with
        returns := s.returns ++ [⟨id, s.now, .flushed error⟩]
        metrics := s.metrics.record (.spansDropped batch.slots.length)
        journal := { s.journal with
          lost := s.journal.lost ++ batch.slots.map fun slot => slot.item.serial } } := by
  simp only [endFlush, lose_eq, finish, List.length_map]

/-- A close returns; what was queued is lost, and the queue is empty. -/
theorem endClose_eq (s : State) (id : Nat) :
    s.endClose id =
      { s with
        intake := s.intake.clear.1
        returns := s.returns ++ [⟨id, s.now, .closed⟩]
        notices :=
          if s.intake.queue.slots = [] then s.notices
          else s.notices ++ [.droppedAtClose s.intake.queue.slots.length]
        metrics := ((s.metrics.record (.spansDropped s.intake.queue.slots.length)).record
          (.queuedSpans 0)).record (.queuedBytes 0)
        journal := { s.journal with
          lost := s.journal.lost ++ s.intake.queue.slots.map fun slot => slot.item.serial } } := by
  by_cases h : s.intake.queue.slots = []
  · simp only [endClose, lose_eq, h, List.map_nil, if_true, gauge, measure, finish]
    rfl
  · have hs : (s.intake.queue.slots.map fun slot => slot.item.serial) ≠ [] := by
      simpa using h
    simp only [endClose, lose_eq, if_neg h, if_neg hs, gauge, measure, finish, note,
      List.length_map]
    rfl

/-! ## Flushing -/

/-- The drain of a flush: into a batch of its own, which does not wait for anything. -/
def flushDrain (r : Reporter) (s : State) : Intake Parcel × Drained (Batch Parcel) :=
  s.intake.drainNow (Batch.offer s.now) (Batch.new r.encoder.encoding r.messageMaxBytes 0)

/-- A flush of an open reporter drains the queue, packs what it has, and then it returns, or it has
a message with the transport. -/
theorem flush_of_open (r : Reporter) {s : State} (id : Nat) (h : s.closed = false) :
    ∃ s' batch' message,
      State.dispatch r { s with intake := (s.flushDrain r).1 } (s.flushDrain r).2.consumer
        = (s', batch', message)
      ∧ ((message = [] ∧ s.flush r id = s'.endFlush id batch' none)
        ∨ (message ≠ []
          ∧ s.flush r id =
            { s'.handOver (.call id) message with
              flushes := s'.flushes ++ [⟨id, batch', message⟩] })) := by
  obtain ⟨⟨intake, drained⟩, hdrain⟩ : ∃ result, s.flushDrain r = result := ⟨_, rfl⟩
  obtain ⟨⟨s', batch', message⟩, hp⟩ :
      ∃ result, State.dispatch r { s with intake } drained.consumer = result := ⟨_, rfl⟩
  rw [hdrain]
  refine ⟨s', batch', message, hp, ?_⟩
  have hflush : s.flush r id =
      if message = [] then s'.endFlush id batch' none
      else
        { s'.handOver (.call id) message with
          flushes := s'.flushes ++ [⟨id, batch', message⟩] } := by
    unfold flushDrain at hdrain
    rw [flush, if_neg (by rw [h]; exact Bool.false_ne_true)]
    simp only [hdrain, hp]
    rfl
  by_cases hm : message = []
  · exact .inl ⟨hm, by rw [hflush, if_pos hm]⟩
  · exact .inr ⟨hm, by rw [hflush, if_neg hm]⟩

/-- The drain of a flush takes parcels from the front of the queue, and the permit. -/
theorem flushDrain_eq (r : Reporter) (s : State) :
    ∃ batch left,
      (Batch.offer s.now).Drains (Batch.new r.encoder.encoding r.messageMaxBytes 0)
        s.intake.queue.slots batch.slots left batch false
      ∧ (s.flushDrain r).1 =
        { queue := { s.intake.queue with
            slots := left, bytes := s.intake.queue.bytes - Slot.total batch.slots }
          signal := s.intake.signal.takePermit }
      ∧ (s.flushDrain r).2.consumer = batch := by
  obtain ⟨taken, left, batch, crashed, hd, he⟩ :=
    Queue.drain_eq (Batch.offer s.now) s.intake.queue
      (Batch.new r.encoder.encoding r.messageMaxBytes 0)
  -- the deadline of a flush is the present, which the clock can name
  obtain rfl := Batch.not_crashed_of_drains (Batch.outlasts_of_le s.now_le) hd
  obtain rfl : batch.slots = taken := Batch.slots_of_drains hd
  refine ⟨batch, left, hd, ?_, ?_⟩
  · simp only [flushDrain, Intake.drainNow, Intake.tryDrain, he]
  · simp only [flushDrain, Intake.drainNow, Intake.tryDrain, he]

/-- What a flush does: on an open reporter it drains the queue into a batch of its own, from the
front, and then it returns, or it has a message with the transport. -/
theorem flush_cases (r : Reporter) (s : State) (id : Nat) :
    (s.closed = true ∧ s.flush r id = s.finish id (.flushed (some .closed)))
      ∨ (s.closed = false
        ∧ ∃ batch left signal s' batch' message,
          s.intake.queue.slots = batch.slots ++ left
          ∧ State.dispatch r { s with intake :=
              { queue := { s.intake.queue with
                  slots := left, bytes := s.intake.queue.bytes - Slot.total batch.slots }
                signal } } batch = (s', batch', message)
          ∧ ((message = [] ∧ s.flush r id = s'.endFlush id batch' none)
            ∨ (message ≠ []
              ∧ s.flush r id =
                { s'.handOver (.call id) message with
                  flushes := s'.flushes ++ [⟨id, batch', message⟩] }))) := by
  by_cases hc : s.closed = true
  · exact .inl ⟨hc, by rw [flush, if_pos hc]⟩
  · rw [Bool.not_eq_true] at hc
    obtain ⟨s', batch', message, hp, hs⟩ := flush_of_open r id hc
    obtain ⟨batch, left, hd, hintake, hbatch⟩ := flushDrain_eq r s
    rw [hintake, hbatch] at hp
    exact .inr ⟨hc, batch, left, _, s', batch', message, hd.append_eq.symm, hp, hs⟩

/-- What the end of its send means for a flush: only a closed transport is an error. -/
def flushError : Outcome → Option ReporterError
  | .failed error => if error.isClosed then some .transportClosed else none
  | _ => none

/-- The end of the send of a flush that is under way: it is taken off the list, and it returns. -/
theorem flushSendEnds_of_find (r : Reporter) {s : State} {id : Nat} {f : Flush}
    (h : (s.flushes.find? fun f => f.id = id) = some f) (outcome : Outcome) :
    ∃ before after s',
      s.flushes = before ++ f :: after ∧ f.id = id ∧ (∀ g ∈ before, g.id ≠ id)
      ∧ s' = State.endSend r { s with flushes := before ++ after } (.call id) f.message outcome
      ∧ s.flushSendEnds r id outcome =
        if outcome = .crashed then s'.finish id .crashed
        else s'.endFlush id f.batch (flushError outcome) := by
  obtain ⟨hid, before, after, hflushes, hbefore⟩ := List.find?_eq_some_iff_append.1 h
  have hother : ∀ g ∈ before, g.id ≠ id := fun g hg => by simpa using hbefore g hg
  have herase : (s.flushes.eraseP fun f => f.id = id) = before ++ after := by
    rw [hflushes, List.eraseP_append_right _ (fun g hg => by simpa using hother g hg),
      List.eraseP_cons_of_pos (p := fun g : Flush => decide (g.id = id)) hid]
  refine ⟨before, after, _, hflushes, by simpa using hid, hother, rfl, ?_⟩
  rw [flushSendEnds, h, ← herase]
  cases outcome with
  | sent => rfl
  | crashed => rfl
  | failed error => rfl

/-- What a flush does when its send ends: it is no longer under way, and it returns. -/
theorem flushSendEnds_cases (r : Reporter) (s : State) (id : Nat) (outcome : Outcome) :
    s.flushSendEnds r id outcome = s
      ∨ ∃ f before after s',
        s.flushes = before ++ f :: after ∧ f.id = id
        ∧ s' = State.endSend r { s with flushes := before ++ after } (.call id) f.message outcome
        ∧ ((outcome = .crashed ∧ s.flushSendEnds r id outcome = s'.finish id .crashed)
          ∨ (outcome ≠ .crashed
            ∧ ∃ error, s.flushSendEnds r id outcome = s'.endFlush id f.batch error)) := by
  cases hf : s.flushes.find? fun f => f.id = id with
  | none => exact .inl (by rw [flushSendEnds, hf])
  | some f =>
    obtain ⟨before, after, s', hflushes, hid, -, hs, he⟩ := flushSendEnds_of_find r hf outcome
    refine .inr ⟨f, before, after, s', hflushes, hid, hs, ?_⟩
    by_cases ho : outcome = .crashed
    · exact .inl ⟨ho, by rw [he, if_pos ho]⟩
    · exact .inr ⟨ho, flushError outcome, by rw [he, if_neg ho]⟩

/-- A flush has nothing to do with the worker, the latch and the calls to close. -/
theorem flush_frame (r : Reporter) (s : State) (id : Nat) :
    ∃ intake flushes metrics notices returns journal,
      s.flush r id = { s with intake, flushes, metrics, notices, returns, journal } := by
  rcases flush_cases r s id with
    ⟨-, hs⟩ | ⟨-, batch, left, signal, s', batch', message, -, hd, hs⟩
  · exact ⟨s.intake, s.flushes, s.metrics, s.notices, _, s.journal, hs⟩
  · obtain ⟨metrics, notices, lost, rfl⟩ := dispatch_frame hd
    rcases hs with ⟨-, hs⟩ | ⟨-, hs⟩
    · rw [hs, endFlush_eq]
      exact ⟨_, s.flushes, _, notices, _, _, rfl⟩
    · exact ⟨_, _, metrics, notices, s.returns, _, hs⟩

/-- Nor has the end of its send, which leaves the queue and the other sends alone. -/
theorem flushSendEnds_frame (r : Reporter) (s : State) (id : Nat) (outcome : Outcome) :
    ∃ flushes metrics notices warned returns endings lost,
      s.flushSendEnds r id outcome =
        { s with
          flushes, metrics, notices, warned, returns
          journal := { s.journal with endings, lost } } := by
  rcases flushSendEnds_cases r s id outcome with hs | ⟨f, before, after, s', -, -, rfl, hs⟩
  · exact ⟨s.flushes, s.metrics, s.notices, s.warned, s.returns, s.journal.endings,
      s.journal.lost, hs⟩
  · obtain ⟨metrics, notices, warned, endings, lost, he⟩ :=
      endSend_frame r { s with flushes := before ++ after } (.call id) f.message outcome
    rw [he] at hs
    rcases hs with ⟨-, hs⟩ | ⟨-, error, hs⟩
    · exact ⟨_, metrics, notices, warned, _, endings, lost, hs⟩
    · rw [hs, endFlush_eq]
      exact ⟨_, _, notices, warned, _, endings, _, rfl⟩

/-! ## Closing -/

/-- The state of a reporter that has just been shut: it is closed and its drainer is woken. -/
def shut (s : State) : State :=
  { s.releaseLatch with closed := true, started := true, intake := s.intake.wake }

theorem awaitLatch?_some {r : Reporter} {s s' : State} {id : Nat} {deadline : Instant}
    (h : s.awaitLatch? r id deadline = some s') :
    (s.latch = none ∨ deadline ≤ s.now) ∧ ∃ notices, s' = { s with notices }.endClose id := by
  rw [awaitLatch?] at h
  split at h
  · next hl =>
    cases h
    exact ⟨.inl hl, s.notices, rfl⟩
  · split at h
    · next hd =>
      cases h
      exact ⟨.inr hd, _, rfl⟩
    · cases h

/-- The close of an open reporter shuts it and looks at the latch; if it cannot return it waits. -/
theorem close_of_open (r : Reporter) {s : State} (id : Nat) (h : s.closed = false) :
    s.close r id =
      (s.shut.awaitLatch? r id (s.now + r.closeTimeout)).getD
        { s.shut with closings := s.closings ++ [⟨id, s.now + r.closeTimeout⟩] } := by
  rw [close, if_neg (by simp [h])]
  dsimp only
  split
  · next s' he =>
    have hreturns : s.shut.awaitLatch? r id (s.now + r.closeTimeout) = some s' := he
    rw [hreturns, Option.getD_some]
  · next he =>
    have hwaits : s.shut.awaitLatch? r id (s.now + r.closeTimeout) = none := he
    rw [hwaits, Option.getD_none]
    rfl

/-- The first close shuts the reporter and returns if the latch is open or its time is up already;
otherwise it waits. Every later close returns at once. -/
theorem close_cases (r : Reporter) (s : State) (id : Nat) :
    (s.closed = true ∧ s.close r id = s.finish id .closed)
      ∨ (s.closed = false
        ∧ ∃ notices, s.close r id = { s.shut with notices }.endClose id)
      ∨ (s.closed = false
        ∧ s.close r id =
          { s.shut with closings := s.closings ++ [⟨id, s.now + r.closeTimeout⟩] }) := by
  cases hc : s.closed with
  | true => exact .inl ⟨rfl, by rw [close, if_pos hc]⟩
  | false =>
    rw [close_of_open r id hc]
    cases he : s.shut.awaitLatch? r id (s.now + r.closeTimeout) with
    | some s' =>
      obtain ⟨-, notices, rfl⟩ := awaitLatch?_some he
      exact .inr (.inl ⟨rfl, notices, rfl⟩)
    | none => exact .inr (.inr ⟨rfl, rfl⟩)

/-- A close that waits returns once the latch is open or its time is up. -/
theorem closeTurn_cases (r : Reporter) (s : State) (id : Nat) :
    s.closeTurn r id = s
      ∨ ∃ c notices,
        c ∈ s.closings ∧ c.id = id ∧ (s.latch = none ∨ c.deadline ≤ s.now)
        ∧ s.closeTurn r id =
          { { s with notices }.endClose id with
            closings := s.closings.eraseP fun c => c.id = id } := by
  rw [closeTurn]
  split
  · exact .inl rfl
  · next c hf =>
    split
    · next s' he =>
      obtain ⟨hl, notices, rfl⟩ := awaitLatch?_some he
      have hid : c.id = id := by simpa using List.find?_some hf
      refine .inr ⟨c, notices, List.mem_of_find?_eq_some hf, hid, hl, ?_⟩
      rw [endClose_eq]
    · exact .inl rfl

end State

end SpanCourier
