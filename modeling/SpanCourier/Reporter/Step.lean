import SpanCourier.Reporter.State

set_option autoImplicit false

/-! # The steps of a reporter

A run of a reporter is a row of events: calls, turns of the worker, ends of sends, and time that
passes, as far as the clock goes. `step` says what an event does. Between two events of the worker
lies a point where it waits, so other events may come between them in any order. An event that
cannot happen changes nothing.

A cycle of the worker begins with a drain of the queue into its batch, which may have to wait
(`fill`). Once that is over, the batch is packed into a message if it is due (`dispatch`). A flush
goes through the same stages with a batch of its own and waits for nothing. Nor does its batch wait,
so the deadline of a flush is the present, and only the batch of the worker can crash.
-/

namespace SpanCourier

/-! ## Packing a message -/

/-- A message in the making: the parcels that fit, and the one that did not, which ends it. -/
structure Packing where
  message : List Parcel := []
  overflow : Option Parcel := none
deriving DecidableEq

namespace Packing

/-- Takes a parcel into the message if the transport finds the message small enough with it. The
first parcel that is too much is taken and lost; every later one is refused. -/
def offer (r : Reporter) : Consumer Packing Parcel := fun p parcel _ =>
  if p.overflow.isSome then (.refused, p)
  else
    let message := p.message ++ [parcel]
    if r.messageMaxBytes < r.transport.messageSize (message.map Parcel.bytes) then
      (.taken, { p with overflow := some parcel })
    else (.taken, { p with message })

theorem offer_steady (r : Reporter) : (offer r).Steady := by
  intro p parcel size
  unfold offer
  dsimp only
  split <;> try split
  all_goals simp

end Packing

namespace State

/-- A batch is packed once it is due, or once the reporter is closed, if it holds anything. -/
def packs (s : State) (batch : Batch Parcel) : Bool :=
  (batch.isReady s.now || s.closed) && !batch.isEmpty

/-- Packs a batch into a message if it is time: the state, what the batch still holds, and the
message, which is empty if there is nothing to send. -/
def dispatch (r : Reporter) (s : State) (batch : Batch Parcel) :
    State × Batch Parcel × List Parcel :=
  let s := s.gauge
  if !s.packs batch then (s, batch, [])
  else
    -- counted by what the batch holds, before it is known how much of that the transport takes
    let s := (s.measure .message).measure (.messageBytes batch.size)
    let (batch, drained) := batch.drain (Packing.offer r) {}
    let packing := drained.consumer
    match packing.overflow with
    | none => (s, batch, packing.message)
    | some parcel =>
      ((s.lose [parcel.serial]).note (.overflowed r.messageMaxBytes), batch, packing.message)

/-- Hands a message to the transport. -/
def handOver (s : State) (sender : Sender) (message : List Parcel) : State :=
  { s with
    journal := { s.journal with
      handovers := s.journal.handovers ++ [⟨sender, message, s.now⟩] } }

/-- Takes note of how a send ended: a failure loses its spans. -/
def endSend (r : Reporter) (s : State) (sender : Sender) (message : List Parcel)
    (outcome : Outcome) : State :=
  let s := { s with
    journal := { s.journal with endings := s.journal.endings ++ [⟨sender, message, outcome⟩] } }
  match outcome with
  | .failed error =>
    let s := (s.measure (.messageDropped error.kind)).lose (message.map Parcel.serial)
    { s.note (.sendFailed (!s.warned) message.length r.transport.name error) with warned := true }
  | _ => s

/-! ## Reporting -/

/-- The first report starts the worker, unless there is to be none. -/
def startWorker (r : Reporter) (s : State) : State :=
  if s.started then s
  else
    let s := { s with started := true }
    -- whoever closed first has let go of the latch, and no worker comes any more
    if s.latch = some .reporter then
      { s with
        latch := some .worker
        worker := .ready true (.new r.encoder.encoding r.messageMaxBytes r.messageTimeout) }
    else s

/-- A span that a closed reporter, or a message on its own, cannot carry. -/
def rejects (r : Reporter) (s : State) (span : Span) : Bool :=
  s.closed || r.messageMaxBytes < r.transport.singleSize (r.encoder.size span)

/-- A span is reported: it is counted, and then queued or dropped. -/
def report (r : Reporter) (s : State) (span : Span) : State :=
  let s := s.startWorker r
  let serial := s.journal.reported.length
  let size := r.encoder.size span
  let s := (s.measure (.spans 1)).measure (.spanBytes size)
  let s := { s with journal := { s.journal with reported := s.journal.reported ++ [span] } }
  if s.rejects r span then s.lose [serial]
  else
    match s.intake.offer? ⟨serial, r.encoder.encode span⟩ size with
    | some intake => { s with intake }
    | none => s.lose [serial]

/-! ## The worker -/

/-- The worker ends: what its batch holds is dropped, and the latch opens. -/
def endWorker (s : State) (batch : Batch Parcel) (crashed : Bool) : State :=
  let s := s.lose (batch.slots.map fun slot => slot.item.serial)
  let s := s.note (if crashed then .workerCrashed batch.count else .workerStopped batch.count)
  { s with
    worker := .gone
    latch := if s.latch = some .worker then none else s.latch }

/-- A cycle of the worker is over. -/
def endCycle (s : State) (batch : Batch Parcel) (last : Bool) : State :=
  if last then s.endWorker batch false else { s with worker := .ready false batch }

/-- How far a turn of the worker gets at the queue: it waits there; or the drain of its cycle is
over and it has a batch, and `last` says that no cycle follows; or its batch has crashed. -/
inductive Fill
  | waits (s : State)
  | over (s : State) (batch : Batch Parcel) (last : Bool)
  | crashed (s : State) (batch : Batch Parcel)

/-- The drain of a cycle is over: `batch` has become what the drain made of it. A crash loses the
parcel that was offered last: the queue no longer has it, and the batch has not got it. -/
def filled (s : State) (batch : Batch Parcel) (last : Bool)
    (result : Intake Parcel × Drained (Batch Parcel)) : Fill :=
  let (intake, drained) := result
  let queued := s.intake.queue.slots
  let s := { s with intake }.board (drained.consumer.slots.drop batch.count)
  if drained.crashed then .crashed (s.spill ((queued.drop drained.count).take 1)) drained.consumer
  else .over s drained.consumer last

/-- A cycle of the worker begins. Once the reporter is closed it waits for nothing, and it is the
last. -/
def beginCycle (s : State) (batch : Batch Parcel) : Fill :=
  let timeout := if s.closed then 0 else batch.remaining s.now
  match s.intake.beginDrain (Batch.offer s.now) s.now timeout batch with
  | .over intake drained => s.filled batch s.closed (intake, drained)
  | .waits intake deadline => .waits { s with intake, worker := .parked batch s.now deadline }

/-- The worker goes to the queue, or goes on there if it may. -/
def fill (r : Reporter) (s : State) : Fill :=
  match s.worker with
  | .ready fresh batch =>
    let s := if fresh then s.note (.workerStarted r.transport.name) else s
    s.beginCycle batch
  | .parked batch _ deadline =>
    match s.intake.resumeDrain? (Batch.offer s.now) s.now deadline batch with
    | some result => s.filled batch false result
    | none => .waits s
  | _ => .waits s

/-- The worker sends its batch if it is due. -/
def sendBatch (r : Reporter) (s : State) (batch : Batch Parcel) (last : Bool) : State :=
  let (s, batch, message) := s.dispatch r batch
  if message = [] then s.endCycle batch last
  else { s.handOver .worker message with worker := .sending batch message last }

/-- The worker goes on as far as it can without waiting: through one cycle at most. A crash of its
batch ends it. -/
def workerTurn (r : Reporter) (s : State) : State :=
  match s.fill r with
  | .waits s => s
  | .over s batch last => s.sendBatch r batch last
  | .crashed s batch => s.endWorker batch true

/-- A send of the worker ends. A closed transport stops the worker, and a crash ends it. -/
def workerSendEnds (r : Reporter) (s : State) (outcome : Outcome) : State :=
  match s.worker with
  | .sending batch message last =>
    let s := s.endSend r .worker message outcome
    match outcome with
    | .sent => s.endCycle batch last
    | .crashed => s.endWorker batch true
    | .failed error =>
      if error.isClosed then
        let notice := if last then Notice.lastFlushFailed else Notice.workerStopping
        (s.note (notice .transportClosed)).endWorker batch false
      else s.endCycle batch last
  | _ => s

/-! ## Flushing -/

/-- A flush returns: what its batch still holds is dropped. -/
def endFlush (s : State) (id : Nat) (batch : Batch Parcel) (error : Option ReporterError) :
    State :=
  (s.lose (batch.slots.map fun slot => slot.item.serial)).finish id (.flushed error)

/-- A flush is called: it drains what is queued and sends one message. -/
def flush (r : Reporter) (s : State) (id : Nat) : State :=
  if s.closed then s.finish id (.flushed (some .closed))
  else
    let batch := Batch.new r.encoder.encoding r.messageMaxBytes 0
    let (intake, drained) := s.intake.drainNow (Batch.offer s.now) batch
    let (s, batch, message) := { s with intake }.dispatch r drained.consumer
    if message = [] then s.endFlush id batch none
    else
      let s := s.handOver (.call id) message
      { s with flushes := s.flushes ++ [⟨id, batch, message⟩] }

/-- The send of a flush ends. Only a closed transport is an error of the flush. -/
def flushSendEnds (r : Reporter) (s : State) (id : Nat) (outcome : Outcome) : State :=
  match s.flushes.find? fun f => f.id = id with
  | none => s
  | some f =>
    let s := { s with flushes := s.flushes.eraseP fun f => f.id = id }
    let s := s.endSend r (.call id) f.message outcome
    match outcome with
    | .sent => s.endFlush id f.batch none
    | .crashed => s.finish id .crashed
    | .failed error =>
      s.endFlush id f.batch (if error.isClosed then some .transportClosed else none)

/-! ## Closing -/

/-- A close returns: what is still queued is dropped. -/
def endClose (s : State) (id : Nat) : State :=
  let serials := s.intake.queue.slots.map fun slot => slot.item.serial
  let s := { s with intake := s.intake.clear.1 }
  let s := s.lose serials
  let s := if serials = [] then s else s.note (.droppedAtClose serials.length)
  s.gauge.finish id .closed

/-- A close looks at the latch: it returns if the latch is open or its time is up. -/
def awaitLatch? (r : Reporter) (s : State) (id : Nat) (deadline : Instant) : Option State :=
  if s.latch = none then some (s.endClose id)
  else if deadline ≤ s.now then some ((s.note (.closeTimedOut r.closeTimeout)).endClose id)
  else none

/-- A close is called: it shuts the reporter, wakes the worker and waits for its end. A second
close returns at once. -/
def close (r : Reporter) (s : State) (id : Nat) : State :=
  if s.closed then s.finish id .closed
  else
    -- a report that comes now finds the worker started and starts none
    let s := { s.releaseLatch with closed := true, started := true, intake := s.intake.wake }
    let deadline := s.now + r.closeTimeout
    match s.awaitLatch? r id deadline with
    | some s => s
    | none => { s with closings := s.closings ++ [⟨id, deadline⟩] }

/-- A close that waits looks again. -/
def closeTurn (r : Reporter) (s : State) (id : Nat) : State :=
  match s.closings.find? fun c => c.id = id with
  | none => s
  | some c =>
    match s.awaitLatch? r id c.deadline with
    | some s => { s with closings := s.closings.eraseP fun c => c.id = id }
    | none => s

/-- The reporter is dropped: it is closed, and nobody waits for the worker. -/
def drop (s : State) : State :=
  let s := s.releaseLatch
  if s.closed then s else { s with closed := true, intake := s.intake.wake }

end State

/-! ## Runs -/

/-- Something that happens to a reporter. -/
inductive Event
  | report (span : Span)
  | flush (id : Nat)
  | close (id : Nat)
  | drop
  | workerTurn
  | closeTurn (id : Nat)
  | sendEnds (sender : Sender) (outcome : Outcome)
  | pass (time : Duration)
deriving DecidableEq

/-- What an event does. -/
def State.step (r : Reporter) (s : State) : Event → State
  | .report span => s.report r span
  | .flush id => s.flush r id
  | .close id => s.close r id
  | .drop => s.drop
  | .workerTurn => s.workerTurn r
  | .closeTurn id => s.closeTurn r id
  | .sendEnds .worker outcome => s.workerSendEnds r outcome
  | .sendEnds (.call id) outcome => s.flushSendEnds r id outcome
  | .pass time => { s with now := s.now.later time, now_le := s.now.later_le time }

/-- The state after a row of events. -/
def State.run (r : Reporter) (s : State) (events : List Event) : State :=
  events.foldl (fun s e => s.step r e) s

theorem State.run_append (r : Reporter) (s : State) (events later : List Event) :
    s.run r (events ++ later) = (s.run r events).run r later :=
  List.foldl_append

/-- A state that some run leads to. -/
def State.Reachable (r : Reporter) (s : State) : Prop :=
  ∃ events, (State.initial r).run r events = s

theorem State.reachable_initial (r : Reporter) : (State.initial r).Reachable r := ⟨[], rfl⟩

/-- What holds at the start, and is kept by one more event, holds of every run and the events that
led there. -/
theorem State.run_induction {r : Reporter} {P : List Event → State → Prop}
    (start : P [] (State.initial r))
    (keeps : ∀ events e, P events ((State.initial r).run r events) →
      P (events ++ [e]) (((State.initial r).run r events).step r e)) (events : List Event) :
    P events ((State.initial r).run r events) := by
  have hrun : ∀ later earlier : List Event, P earlier ((State.initial r).run r earlier) →
      P (earlier ++ later) ((State.initial r).run r (earlier ++ later)) := by
    intro later
    induction later with
    | nil =>
      intro earlier h
      rw [List.append_nil]
      exact h
    | cons e rest ih =>
      intro earlier h
      have hnext : (State.initial r).run r (earlier ++ [e]) =
          ((State.initial r).run r earlier).step r e := by
        simp [State.run, List.foldl_append]
      have hstep : P (earlier ++ [e]) ((State.initial r).run r (earlier ++ [e])) := by
        rw [hnext]
        exact keeps earlier e h
      rw [List.append_cons]
      exact ih (earlier ++ [e]) hstep
  exact hrun events [] start

/-- What holds at the start and is kept by every event holds in every reachable state. -/
theorem State.Reachable.induction {r : Reporter} {P : State → Prop}
    (start : P (State.initial r)) (keeps : ∀ s e, P s → P (s.step r e)) {s : State}
    (h : s.Reachable r) : P s := by
  obtain ⟨events, rfl⟩ := h
  have : ∀ (events : List Event) (s : State), P s → P (s.run r events) := by
    intro events
    induction events with
    | nil => exact fun _ hs => hs
    | cons e rest ih => exact fun s hs => ih _ (keeps s e hs)
  exact this events _ start

theorem State.Reachable.step {r : Reporter} {s : State} (h : s.Reachable r) (e : Event) :
    (s.step r e).Reachable r := by
  obtain ⟨events, rfl⟩ := h
  exact ⟨events ++ [e], by simp [State.run, List.foldl_append]⟩

theorem State.Reachable.run {r : Reporter} {s : State} (h : s.Reachable r) (later : List Event) :
    (s.run r later).Reachable r := by
  obtain ⟨events, rfl⟩ := h
  exact ⟨events ++ later, run_append _ _ _ _⟩

end SpanCourier
