import SpanCourier.Proofs.Reporter.Closing

set_option autoImplicit false

/-! # What happens where the worker meets the queue

Much of what there is to say about the worker hangs on few parts of the state: the clock, the queue
and its signal, and the worker with its batch. They make up the dock of a state. `Dock.Happens` says
all that can happen to a dock without a turn of the worker, and `State.dock_workerTurn` what a turn
does to it. So an invariant of the dock is kept by every event if it is kept by the one and by the
other (`State.Reachable.dock_induction`).

The first such invariant is `Dock.InOrder`: spans reach the batch of the worker in the order of
reports, and those in the queue come after them.
-/

namespace SpanCourier

/-- Where the worker meets the queue: the queue and its signal, the worker, what it has taken into
its batch so far and what this has crashed over, and the number of reports. -/
structure Dock where
  now : Instant
  closed : Bool
  slots : List (Slot Parcel)
  signal : Signal
  worker : Worker
  boarded : List (Nat × Instant)
  spilled : List Parcel
  reported : Nat

/-- The dock of a state. -/
def State.dock (s : State) : Dock where
  now := s.now
  closed := s.closed
  slots := s.intake.queue.slots
  signal := s.intake.signal
  worker := s.worker
  boarded := s.journal.boarded
  spilled := s.journal.spilled
  reported := s.journal.reported.length

/-- The batch of a worker that is alive. -/
def Worker.own? : Worker → Option (Batch Parcel)
  | .ready _ batch => some batch
  | .parked batch _ _ => some batch
  | .sending batch _ _ => some batch
  | _ => none

/-- Where the worker stands after a turn that packed its batch: it has a message with the transport,
or its cycle is over. -/
def Worker.onward (batch : Batch Parcel) (message : List Parcel) (last : Bool) : Worker :=
  if message = [] then if last then .gone else .ready false batch
  else .sending batch message last

/-- What it says of parcels that go on board now. -/
def boarding (slots : List (Slot Parcel)) (now : Instant) : List (Nat × Instant) :=
  slots.map fun slot => (slot.item.serial, now)

theorem Worker.own?_of_batch? {w : Worker} {batch : Batch Parcel} (h : w.batch? = some batch) :
    w.own? = some batch := by
  cases w with
  | absent => cases h
  | ready fresh b => exact h
  | parked b since deadline => exact h
  | sending b message last => cases h
  | gone => cases h

theorem Worker.eq_of_own?_onward {batch batch' : Batch Parcel} {message : List Parcel} {last : Bool}
    (h : (onward batch message last).own? = some batch') : batch' = batch := by
  unfold onward at h
  split at h
  · split at h
    · cases h
    · cases h
      rfl
  · cases h
    rfl

/-- Such a turn ends with a message at the transport only if there is one. -/
theorem Worker.eq_of_onward_sending {batch batch' : Batch Parcel} {message message' : List Parcel}
    {last last' : Bool} (h : onward batch message last = .sending batch' message' last') :
    batch' = batch ∧ message ≠ [] := by
  unfold onward at h
  split at h
  · split at h
    · cases h
    · cases h
  · next hm =>
    cases h
    exact ⟨rfl, hm⟩

/-- After such a turn the worker does not wait. -/
theorem Worker.onward_ne_parked (batch : Batch Parcel) (message : List Parcel) (last : Bool)
    (batch' : Batch Parcel) (since deadline : Instant) :
    onward batch message last ≠ .parked batch' since deadline := by
  unfold onward
  split
  · split
    · exact nofun
    · exact nofun
  · exact nofun

/-! ## Without a turn of the worker -/

/-- What can happen to a dock while the worker is not at its turn. -/
inductive Dock.Happens (r : Reporter) (d : Dock) : Dock → Prop
  | pass (now : Instant) (goes : d.now ≤ now) : d.Happens r { d with now }
  | hire :
      d.Happens r { d with
        worker := .ready true (.new r.encoder.encoding r.messageMaxBytes r.messageTimeout) }
  | refuse : d.Happens r { d with reported := d.reported + 1 }
  | enqueue (span : Span) (isOpen : d.closed = false)
      (fits : r.transport.singleSize (r.encoder.size span) ≤ r.messageMaxBytes) :
      d.Happens r { d with
        reported := d.reported + 1
        slots := d.slots ++ [⟨⟨d.reported, r.encoder.encode span⟩, r.encoder.size span⟩]
        signal := d.signal.notify }
  | flush (batch : Batch Parcel) (left : List (Slot Parcel)) (isOpen : d.closed = false)
      (drains : (Batch.offer d.now).Drains (Batch.new r.encoder.encoding r.messageMaxBytes 0)
        d.slots batch.slots left batch false) :
      d.Happens r { d with slots := left, signal := d.signal.takePermit }
  | shut : d.Happens r { d with closed := true, signal := d.signal.notify }
  | clear (isClosed : d.closed = true) : d.Happens r { d with slots := [] }
  | sent (batch : Batch Parcel) (message : List Parcel)
      (sending : d.worker = .sending batch message false) :
      d.Happens r { d with worker := .ready false batch }
  | leave : d.Happens r { d with worker := .gone }

namespace State

variable {r : Reporter} {s : State}

theorem dock_lose (s : State) (serials : List Nat) : (s.lose serials).dock = s.dock := by
  rw [lose_eq]
  rfl

theorem dock_endWorker (s : State) (batch : Batch Parcel) (crashed : Bool) :
    (s.endWorker batch crashed).dock = { s.dock with worker := .gone } := by
  rw [endWorker_eq]
  rfl

theorem dock_endCycle (s : State) (batch : Batch Parcel) (last : Bool) :
    (s.endCycle batch last).dock =
      { s.dock with worker := if last then .gone else .ready false batch } := by
  cases last with
  | true => exact dock_endWorker s batch false
  | false => rfl

theorem dock_dispatch {s' : State} {batch batch' : Batch Parcel} {message : List Parcel}
    (h : s.dispatch r batch = (s', batch', message)) : s'.dock = s.dock := by
  obtain ⟨metrics, notices, lost, rfl⟩ := dispatch_frame h
  rfl

theorem dock_endSend (r : Reporter) (s : State) (sender : Sender) (message : List Parcel)
    (outcome : Outcome) : (s.endSend r sender message outcome).dock = s.dock := by
  obtain ⟨metrics, notices, warned, endings, lost, hs⟩ := endSend_frame r s sender message outcome
  rw [hs]
  rfl

theorem dock_endClose (s : State) (id : Nat) :
    (s.endClose id).dock = { s.dock with slots := [] } := by
  rw [endClose_eq]
  rfl

/-! ## What events keep -/

section Keeping

variable {P : Dock → Prop}

theorem keeps_report (happens : ∀ d d', d.Happens r d' → P d → P d') (h : P s.dock)
    (span : Span) : P (s.report r span).dock := by
  have h₁ : P (s.startWorker r).dock := by
    rcases startWorker_cases r s with ⟨-, hs⟩ | ⟨-, -, hs⟩ | ⟨-, -, hs⟩
    · rw [hs]
      exact h
    · rw [hs]
      exact h
    · rw [hs]
      exact happens _ _ .hire h
  obtain ⟨started, latch, worker, hs⟩ := startWorker_frame r s
  rw [hs] at h₁
  rcases report_cases r s span with ⟨-, hr⟩ | ⟨hj, intake, ho, hr⟩
  · have hdock : (s.report r span).dock =
        { s.dock with worker, reported := s.journal.reported.length + 1 } := by
      rw [hr, dock_lose, hs]
      simp only [dock, counted, List.length_append, List.length_singleton]
    rw [hdock]
    exact happens _ _ .refuse h₁
  · obtain ⟨hslots, hsignal⟩ := Intake.offer?_eq_some ho
    obtain ⟨hopen, hfits⟩ := Bool.or_eq_false_iff.1 hj
    have hle := Nat.le_of_not_lt (of_decide_eq_false hfits)
    have hdock : (s.report r span).dock =
        { s.dock with
          worker
          reported := s.journal.reported.length + 1
          slots := s.intake.queue.slots ++
            [⟨⟨s.journal.reported.length, r.encoder.encode span⟩, r.encoder.size span⟩]
          signal := s.intake.signal.notify } := by
      rw [hr, hs, ← hslots, ← hsignal]
      simp only [dock, counted, List.length_append, List.length_singleton]
    rw [hdock]
    exact happens _ _ (.enqueue span hopen hle) h₁

theorem keeps_flush (happens : ∀ d d', d.Happens r d' → P d → P d') (h : P s.dock) (id : Nat) :
    P (s.flush r id).dock := by
  cases hc : s.closed with
  | true =>
    rw [flush, if_pos hc]
    exact h
  | false =>
    obtain ⟨s', batch', message, hp, hs⟩ := flush_of_open r id hc
    obtain ⟨batch, left, hd, hintake, -⟩ := flushDrain_eq r s
    have hdock : s'.dock =
        { s.dock with slots := left, signal := s.intake.signal.takePermit } := by
      rw [dock_dispatch hp, hintake]
      rfl
    have hflush : (s.flush r id).dock = s'.dock := by
      rcases hs with ⟨-, hs⟩ | ⟨-, hs⟩
      · rw [hs, endFlush_eq]
        rfl
      · rw [hs]
        rfl
    rw [hflush, hdock]
    exact happens _ _ (.flush batch left hc hd) h

theorem keeps_flushSendEnds (h : P s.dock) (id : Nat) (outcome : Outcome) :
    P (s.flushSendEnds r id outcome).dock := by
  rcases flushSendEnds_cases r s id outcome with hs | ⟨f, before, after, s', -, -, rfl, hs⟩
  · rw [hs]
    exact h
  · have hsend := dock_endSend r { s with flushes := before ++ after } (.call id) f.message outcome
    have hdock : (s.flushSendEnds r id outcome).dock = s.dock := by
      rcases hs with ⟨-, hs⟩ | ⟨-, error, hs⟩
      · rw [hs]
        exact hsend
      · rw [hs, endFlush_eq]
        exact hsend
    rw [hdock]
    exact h

theorem keeps_workerSendEnds (happens : ∀ d d', d.Happens r d' → P d → P d') (h : P s.dock)
    (outcome : Outcome) : P (s.workerSendEnds r outcome).dock := by
  rcases workerSendEnds_cases r s outcome with hs | ⟨batch, message, last, hw, hs⟩
  · rw [hs]
    exact h
  · have hsend := dock_endSend r s .worker message outcome
    rcases hs with ⟨-, hs⟩ | ⟨notices, crashed, hs⟩
    · rw [hs, dock_endCycle, hsend]
      cases last with
      | true => exact happens _ _ .leave h
      | false => exact happens _ _ (.sent batch message hw) h
    · have hdock : (s.workerSendEnds r outcome).dock = { s.dock with worker := .gone } := by
        rw [hs, dock_endWorker, ← hsend]
        rfl
      rw [hdock]
      exact happens _ _ .leave h

theorem keeps_shut (happens : ∀ d d', d.Happens r d' → P d → P d') (h : P s.dock) :
    P s.shut.dock :=
  happens _ _ .shut h

theorem keeps_close (happens : ∀ d d', d.Happens r d' → P d → P d') (h : P s.dock) (id : Nat) :
    P (s.close r id).dock := by
  rcases close_cases r s id with ⟨-, hs⟩ | ⟨-, notices, hs⟩ | ⟨-, hs⟩
  · rw [hs]
    exact h
  · rw [hs, dock_endClose]
    exact happens _ _ (.clear rfl) (keeps_shut happens h)
  · rw [hs]
    exact keeps_shut happens h

theorem keeps_closeTurn (happens : ∀ d d', d.Happens r d' → P d → P d') (h : P s.dock)
    (hc : s.closings ≠ [] → s.closed = true) (id : Nat) : P (s.closeTurn r id).dock := by
  rcases closeTurn_cases r s id with hs | ⟨c, notices, hmem, -, -, hs⟩
  · rw [hs]
    exact h
  · have hdock : (s.closeTurn r id).dock = { s.dock with slots := [] } := by
      rw [hs]
      exact dock_endClose { s with notices } id
    rw [hdock]
    exact happens _ _ (.clear (hc (List.ne_nil_of_mem hmem))) h

theorem keeps_drop (happens : ∀ d d', d.Happens r d' → P d → P d') (h : P s.dock) :
    P s.drop.dock := by
  rw [drop]
  split
  · exact h
  · exact happens _ _ .shut h

/-- What is kept by all that happens at the dock, and by a turn of the worker, is kept by every
event. -/
theorem keeps_step (happens : ∀ d d', d.Happens r d' → P d → P d')
    (hs : s.Reachable r) (h : P s.dock) (e : Event)
    (turn : e = .workerTurn → P (s.workerTurn r).dock) : P (s.step r e).dock := by
  cases e with
  | report span => exact keeps_report happens h span
  | flush id => exact keeps_flush happens h id
  | close id => exact keeps_close happens h id
  | drop => exact keeps_drop happens h
  | workerTurn => exact turn rfl
  | closeTurn id => exact keeps_closeTurn happens h hs.closed_of_closing id
  | sendEnds sender outcome =>
    cases sender with
    | worker => exact keeps_workerSendEnds happens h outcome
    | call id => exact keeps_flushSendEnds h id outcome
  | pass time => exact happens _ _ (.pass _ (Instant.le_later s.now_le time)) h

end Keeping

/-- What a dock has at the start, and keeps through all that happens and through the turns of the
worker, it has in every reachable state. -/
theorem Reachable.dock_induction {P : Dock → Prop} (start : P (initial r).dock)
    (happens : ∀ d d', d.Happens r d' → P d → P d')
    (turn : ∀ s : State, s.Reachable r → P s.dock → P (s.workerTurn r).dock)
    (h : s.Reachable r) : P s.dock := by
  have hboth : s.Reachable r ∧ P s.dock := by
    refine h.induction (P := fun s => s.Reachable r ∧ P s.dock)
      ⟨reachable_initial r, start⟩ ?_
    rintro s e ⟨hs, hp⟩
    exact ⟨hs.step e, keeps_step happens hs hp e fun _ => turn s hs hp⟩
  exact hboth.2

/-! ## A turn of the worker -/

/-- The drain of a turn is over: the batch that the worker had has become `batch'`, with the items
`taken` from the queue. The drain has gone into the batch; or its wait ran out of time. -/
structure Loads (r : Reporter) (s : State) (batch : Batch Parcel) (taken left : List (Slot Parcel))
    (s' : State) (batch' : Batch Parcel) (last : Bool) : Prop where
  batch_eq : s.worker.batch? = some batch
  fill_eq : s.fill r = .over s' batch' last
  drains : (Batch.offer s.now).Drains batch s.intake.queue.slots taken left batch' false
    ∨ ∃ since deadline,
      s.worker = .parked batch since deadline ∧ s.intake.signal.waiter ≠ .notified
      ∧ deadline ≤ s.now ∧ taken = [] ∧ left = s.intake.queue.slots ∧ batch' = batch
  dock_eq : ∃ signal, s'.dock =
    { s.dock with slots := left, signal, boarded := s.journal.boarded ++ boarding taken s.now }
  closed_of_last : last = true → s.closed = true

/-- Either way what was taken has left the front of the queue and joined the end of the batch. -/
theorem Loads.slots_eq {batch batch' : Batch Parcel} {taken left : List (Slot Parcel)} {s' : State}
    {last : Bool} (h : s.Loads r batch taken left s' batch' last) :
    batch'.slots = batch.slots ++ taken ∧ s.intake.queue.slots = taken ++ left := by
  rcases h.drains with hd | ⟨since, deadline, -, -, -, rfl, rfl, rfl⟩
  · exact ⟨Batch.slots_of_drains hd, hd.append_eq.symm⟩
  · exact ⟨(List.append_nil _).symm, rfl⟩

theorem loads_of_fill {s' : State} {batch' : Batch Parcel} {last : Bool}
    (h : s.fill r = .over s' batch' last) :
    ∃ batch taken left, s.Loads r batch taken left s' batch' last := by
  obtain ⟨batch, taken, left, signal, notices, hb, hd, hs, hl⟩ := fill_drains h
  refine ⟨batch, taken, left, hb, h, hd, ⟨signal, ?_⟩, hl⟩
  rw [hs]
  rfl

/-- What a turn of the worker does to the dock: nothing; or the worker parks; or it loads its batch
and packs it, and then its cycle ends or it has a message with the transport; or its batch crashes,
the head of the queue is gone, and so is the worker. -/
theorem dock_workerTurn (r : Reporter) (s : State) :
    (s.workerTurn r).dock = s.dock
      ∨ (∃ fresh batch,
        s.worker = .ready fresh batch ∧ s.closed = false ∧ s.intake.queue.slots = []
        ∧ batch.remaining s.now ≠ 0
        ∧ (s.workerTurn r).dock =
          { s.dock with
            signal := s.intake.signal.await
            worker := .parked batch s.now (s.now + batch.remaining s.now) })
      ∨ (∃ batch taken left s₁ batch₁ last s₂ batch₂ message,
        s.Loads r batch taken left s₁ batch₁ last
        ∧ s₁.dispatch r batch₁ = (s₂, batch₂, message)
        ∧ (s.workerTurn r).dock =
          { s₁.dock with worker := .onward batch₂ message last })
      ∨ ∃ batch slot left signal,
        s.worker.batch? = some batch ∧ s.Spills batch slot left
        ∧ (s.workerTurn r).dock =
          { s.dock with
            slots := left
            signal
            worker := .gone
            spilled := s.journal.spilled ++ [slot.item] } := by
  rw [workerTurn]
  split
  · next s' hf =>
    rcases fill_waits hf with rfl | ⟨fresh, batch, notices, hw, hc, hq, ht, rfl⟩
    · exact .inl rfl
    · exact .inr (.inl ⟨fresh, batch, hw, hc, hq, ht, rfl⟩)
  · next s₁ batch₁ last hf =>
    obtain ⟨batch, taken, left, hload⟩ := loads_of_fill hf
    obtain ⟨s₂, batch₂, message, hp, hs⟩ := sendBatch_cases r s₁ batch₁ last
    refine .inr (.inr (.inl
      ⟨batch, taken, left, s₁, batch₁, last, s₂, batch₂, message, hload, hp, ?_⟩))
    rcases hs with ⟨hm, hs⟩ | ⟨hm, hs⟩
    · rw [hs, dock_endCycle, dock_dispatch hp, Worker.onward, if_pos hm]
    · rw [Worker.onward, if_neg hm, ← dock_dispatch hp, hs]
      rfl
  · next s₁ batch hf =>
    obtain ⟨slot, left, signal, notices, hb, hspill, rfl⟩ := fill_crashes hf
    refine .inr (.inr (.inr ⟨batch, slot, left, signal, hb, hspill, ?_⟩))
    rw [dock_endWorker]
    rfl

end State

/-! ## The order of reports -/

/-- The places, in the order of reports, of what went on board and then of what is queued. -/
def Dock.serials (d : Dock) : List Nat :=
  d.boarded.map Prod.fst ++ d.slots.map fun slot => slot.item.serial

/-- What went on board and what is queued stands in the order of reports, each once. -/
structure Dock.InOrder (d : Dock) : Prop where
  rising : d.serials.Pairwise (· < ·)
  reported : ∀ serial ∈ d.serials, serial < d.reported

namespace Dock.InOrder

variable {r : Reporter} {d d' : Dock}

/-- Some of the places may be gone. -/
theorem of_sublist (h : d.InOrder) (hs : d'.serials.Sublist d.serials)
    (hr : d.reported ≤ d'.reported) : d'.InOrder :=
  ⟨h.rising.sublist hs, fun serial hmem =>
    Nat.lt_of_lt_of_le (h.reported serial (hs.subset hmem)) hr⟩

theorem initial (r : Reporter) : (State.initial r).dock.InOrder :=
  ⟨List.Pairwise.nil, fun _ hmem => absurd hmem List.not_mem_nil⟩

/-- A dock whose queue has become a part of what it was. -/
theorem of_slots (h : d.InOrder) (hb : d'.boarded = d.boarded) (hs : d'.slots.Sublist d.slots)
    (hr : d.reported ≤ d'.reported) : d'.InOrder := by
  refine h.of_sublist ?_ hr
  rw [serials, hb]
  exact (List.Sublist.refl _).append (hs.map _)

/-- A dock whose queue has got the next report: its place is above all others. -/
theorem of_append (h : d.InOrder) (slot : Slot Parcel) (hb : d'.boarded = d.boarded)
    (hs : d'.slots = d.slots ++ [slot]) (hslot : slot.item.serial = d.reported)
    (hr : d'.reported = d.reported + 1) : d'.InOrder := by
  have hserials : d'.serials = d.serials ++ [d.reported] := by
    rw [serials, hb, hs, List.map_append, ← List.append_assoc, ← hslot]
    rfl
  constructor
  · rw [hserials, List.pairwise_append]
    refine ⟨h.rising, List.pairwise_singleton _ _, ?_⟩
    intro serial hmem last hlast
    rw [List.mem_singleton] at hlast
    rw [hlast]
    exact h.reported serial hmem
  · rw [hserials, hr]
    intro serial hmem
    rcases List.mem_append.1 hmem with hmem | hmem
    · exact Nat.lt_succ_of_lt (h.reported serial hmem)
    · rw [List.mem_singleton] at hmem
      rw [hmem]
      exact Nat.lt_succ_self _

theorem happens (hd : d.Happens r d') (h : d.InOrder) : d'.InOrder := by
  cases hd with
  | pass now goes => exact h.of_slots rfl (List.Sublist.refl _) (Nat.le_refl _)
  | hire => exact h.of_slots rfl (List.Sublist.refl _) (Nat.le_refl _)
  | refuse => exact h.of_slots rfl (List.Sublist.refl _) (Nat.le_succ _)
  | enqueue span isOpen fits =>
    exact h.of_append ⟨⟨d.reported, r.encoder.encode span⟩, r.encoder.size span⟩ rfl rfl rfl rfl
  | flush batch left isOpen drains =>
    refine h.of_slots rfl ?_ (Nat.le_refl _)
    rw [← drains.append_eq]
    exact List.sublist_append_right _ _
  | shut => exact h.of_slots rfl (List.Sublist.refl _) (Nat.le_refl _)
  | clear isClosed => exact h.of_slots rfl (List.nil_sublist _) (Nat.le_refl _)
  | sent batch message sending => exact h.of_slots rfl (List.Sublist.refl _) (Nat.le_refl _)
  | leave => exact h.of_slots rfl (List.Sublist.refl _) (Nat.le_refl _)

/-- What is loaded leaves the front of the queue and goes on board last. -/
theorem loads {s s' : State} {batch batch' : Batch Parcel} {taken left : List (Slot Parcel)}
    {last : Bool} (hl : s.Loads r batch taken left s' batch' last) (h : s.dock.InOrder) :
    s'.dock.InOrder := by
  obtain ⟨signal, hdock⟩ := hl.dock_eq
  obtain ⟨-, hq⟩ := hl.slots_eq
  have hserials : s'.dock.serials = s.dock.serials := by
    have hslots : s.dock.slots = taken ++ left := hq
    rw [hdock, serials, serials, hslots]
    simp only [boarding, List.map_append, List.map_map, List.append_assoc]
    rfl
  have hreported : s'.dock.reported = s.dock.reported := by rw [hdock]
  exact h.of_sublist (hserials ▸ List.Sublist.refl _) (Nat.le_of_eq hreported.symm)

theorem workerTurn {s : State} (h : s.dock.InOrder) : (s.workerTurn r).dock.InOrder := by
  rcases State.dock_workerTurn r s with hs | ⟨fresh, batch, -, -, -, -, hs⟩ |
    ⟨batch, taken, left, s₁, batch₁, last, s₂, batch₂, message, hl, -, hs⟩ |
    ⟨batch, slot, left, signal, -, hspill, hs⟩
  · rw [hs]
    exact h
  · rw [hs]
    exact h.of_slots rfl (List.Sublist.refl _) (Nat.le_refl _)
  · rw [hs]
    exact (h.loads hl).of_slots rfl (List.Sublist.refl _) (Nat.le_refl _)
  · rw [hs]
    exact h.of_slots rfl hspill.left_sublist (Nat.le_refl _)

/-- What is queued has not gone on board yet. -/
theorem lookup_eq_none (h : d.InOrder) {slot : Slot Parcel} (hmem : slot ∈ d.slots) :
    d.boarded.lookup slot.item.serial = none := by
  rw [List.lookup_eq_none_iff]
  intro entry hentry
  have hlt : entry.1 < slot.item.serial :=
    (List.pairwise_append.1 h.rising).2.2 entry.1 (List.mem_map_of_mem hentry)
      slot.item.serial (List.mem_map_of_mem hmem)
  rw [bne_iff_ne]
  omega

end Dock.InOrder

/-- In every reachable state what went on board and what is queued stands in the order of
reports. -/
theorem State.Reachable.inOrder {r : Reporter} {s : State} (h : s.Reachable r) :
    s.dock.InOrder :=
  h.dock_induction (P := Dock.InOrder) (.initial r) (fun _ _ hd hp => hp.happens hd)
    (fun _ _ hp => hp.workerTurn)

end SpanCourier
