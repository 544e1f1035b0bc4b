import SpanCourier.Simulation.World
import SpanCourier.Span.Draft

set_option autoImplicit false

/-! # Scripted sessions

A session puts requests to a reporter on a virtual clock. A request may come with others that
are put while it is under way, each some time after it. Requests that wait (sleeping, flushing,
closing) let time pass until all of them have been answered, and then whatever can still go on at
that time; requests that do not wait leave the worker where it is.
-/

namespace SpanCourier

/-- A request of a script. -/
inductive Request
  | report (spans : List (Except DraftError Span))
  | flush
  | close
  | drop
  | sleep (time : Duration)
  | closeTransport
  | failNext (error : TransportError)
  | clearMetrics

/-- The request may let time pass. -/
def Request.waits : Request → Bool
  | flush => true
  | close => true
  | sleep _ => true
  | _ => false

/-- The answer to a request. -/
inductive Answer
  | done
  | refused (error : DraftError)
  | returned (result : CallResult)

/-- A request that has been answered. -/
structure Answered where
  id : Nat
  time : Instant
  answer : Answer

/-- What is planned for a time: to put a request, or to answer one that slept. -/
inductive Plan
  | put (id : Nat) (request : Request)
  | wake (id : Nat)

/-- A reporter under a script. Requests are numbered in the order of the script. -/
structure Session where
  world : World
  meter : Meter := .counting
  dropped : Bool := false
  nextId : Nat := 0
  agenda : List (Instant × Plan) := []
  answers : List Answered := []

/-- What is seen of a session after a request. -/
structure View where
  answered : Answered
  others : List Answered
  now : Instant
  metrics : Metrics
  notices : List Notice
  queued : Option (Nat × Nat)
  closed : Option Bool
  arrived : Option (List (List Bytes))

namespace Session

/-- A session with a reporter just built. -/
def initial (reporter : Reporter) (farSide : FarSide) (meter : Meter) : Session :=
  { world := .initial reporter farSide, meter }

/-- The time on the clock. -/
def now (s : Session) : Instant := s.world.state.now

/-- Notes an answer. -/
def reply (s : Session) (id : Nat) (answer : Answer) : Session :=
  { s with answers := s.answers ++ [⟨id, s.now, answer⟩] }

/-- Something happens to the reporter. -/
def fire (s : Session) (event : Event) : Session := { s with world := s.world.fire event }

/-- Reports spans one after the other. One that could not be built is passed over, and its error
is the answer. -/
def report (s : Session) (id : Nat) (spans : List (Except DraftError Span)) : Session :=
  let step := fun (acc : Session × Answer) (span : Except DraftError Span) =>
    match span with
    | .ok span => (acc.1.fire (.report span), acc.2)
    | .error error => (acc.1, Answer.refused error)
  let (s, answer) := spans.foldl step (s, .done)
  s.reply id answer

/-- Puts a request. There is nobody to put one to once the reporter has been dropped. -/
def put (s : Session) (id : Nat) (request : Request) : Session :=
  match request with
  | .sleep time => { s with agenda := s.agenda ++ [(s.now + time, .wake id)] }
  | .closeTransport =>
    { s with world := { s.world with farSide := s.world.farSide.close } }.reply id .done
  | .failNext error =>
    { s with world := { s.world with farSide := s.world.farSide.failNext error } }.reply id .done
  | .clearMetrics =>
    { s with world := { s.world with state := { s.world.state with metrics := .zero } } }.reply
      id .done
  | .report spans => if s.dropped then s.reply id .done else s.report id spans
  | .flush => if s.dropped then s.reply id .done else s.fire (.flush id)
  | .close => if s.dropped then s.reply id .done else s.fire (.close id)
  | .drop => { s.fire .drop with dropped := true }.reply id .done

/-- Does what was planned. -/
def carryOut (s : Session) : Plan → Session
  | .put id request => s.put id request
  | .wake id => s.reply id .done

/-- One thing that can go on at the present time. Plans come first. -/
def turn? (s : Session) : Option Session :=
  match s.agenda.find? fun planned => planned.1 ≤ s.now with
  | some planned =>
    let agenda := s.agenda.eraseP fun planned => planned.1 ≤ s.now
    some ({ s with agenda }.carryOut planned.2)
  | none => s.world.turn?.map fun world => { s with world }

/-- Lets things go on at the present time, for so many turns at most. -/
def settleFor : Nat → Session → Session
  | 0, s => s
  | fuel + 1, s =>
    match s.turn? with
    | some s => settleFor fuel s
    | none => s

/-- A rough count of the turns that a plan can cause. -/
def weight : Plan → Nat
  | .put _ (.report spans) => 8 * (spans.length + 1)
  | _ => 8

/-- Lets everything go on that can at the present time. -/
def settle (s : Session) : Session :=
  let ahead := s.agenda.foldr (fun planned turns => weight planned.2 + turns) 0
  settleFor (s.world.turns + ahead) s

/-- The next time at which something is due. -/
def nextTime? (s : Session) : Option Instant :=
  (s.agenda.map Prod.fst ++ s.world.timers).min?

/-- The answer to a request, if there is one. -/
def answer? (s : Session) (id : Nat) : Option Answered :=
  match s.answers.find? fun a => a.id = id with
  | some a => some a
  | none =>
    (s.world.state.returns.find? fun r => r.id = id).map fun r =>
      ⟨id, r.time, .returned r.result⟩

/-- Lets time pass until the requests are answered, for so many moves of the clock at most. -/
def runFor (ids : List Nat) : Nat → Session → Session
  | 0, s => s.settle
  | fuel + 1, s =>
    let s := s.settle
    if ids.all fun id => (s.answer? id).isSome then s
    else
      match s.nextTime? with
      | some time => runFor ids fuel { s with world := s.world.moveTo time }
      | none => s

/-- The longest time that a request can take. -/
def longest (s : Session) : Request → Duration
  | .flush => s.world.farSide.delay
  | .close => s.world.reporter.closeTimeout
  | .sleep time => time
  | _ => 0

/-- The longest time that a request and those put with it can take. -/
def horizon (s : Session) (request : Request) (others : List (Duration × Request)) : Duration :=
  (s.longest request :: others.map fun (delay, other) => delay + s.longest other).foldl max 0

/-- Puts a request, and others while it is under way. -/
def request (s : Session) (request : Request) (others : List (Duration × Request)) :
    Session × View :=
  let id := s.nextId
  let planned := others.mapIdx fun i (delay, other) =>
    (s.now + delay, Plan.put (id + 1 + i) other)
  let ids := List.range' id (1 + others.length)
  let before := s.world
  let fuel := s.horizon request others + 1
  let s := { s with nextId := id + 1 + others.length, agenda := s.agenda ++ planned }
  let s := s.put id request
  -- a request that does not wait leaves the clock and the worker where they are
  let s := if request.waits || !others.isEmpty then runFor ids fuel s else s
  let answered := fun id => (s.answer? id).getD ⟨id, s.now, .done⟩
  let state := s.world.state
  let arrived := s.world.farSide.recorder?.map fun r =>
    r.messages.drop ((before.farSide.recorder?.map fun r => r.messages.length).getD 0)
  (s, {
    answered := answered id
    others := (List.range' (id + 1) others.length).map answered
    now := s.now
    metrics := match s.meter with
      | .counting => state.metrics
      | .silent => .zero
    notices := state.notices.drop before.state.notices.length
    queued :=
      if s.dropped then none else some (state.intake.queue.count, state.intake.queue.bytes)
    closed := if s.dropped then none else some state.closed
    arrived })

end Session

end SpanCourier
