import SpanCourier.Batch
import SpanCourier.Queue.Intake

set_option autoImplicit false

/-! # A queue and a batch on a virtual clock

A bench holds an intake and a batch of numbered items. Its actions offer items, drain into the
batch or into a taker with limits of its own, and let time pass. A drain that waits can be
disturbed by pokes at the intake, each some time after the drain began.
-/

namespace SpanCourier

/-- A consumer with limits: on how many items it holds, on the sum of their sizes, and on which
items it takes. -/
structure Taker where
  limit : Option Nat := none
  budget : Option Nat := none
  refuse : List Nat := []
  taken : List (Slot Nat) := []
deriving DecidableEq

namespace Taker

/-- The item is within all limits. -/
def admits (t : Taker) (item size : Nat) : Bool :=
  t.limit.all (t.taken.length < ·)
    && t.budget.all (fun budget => size ≤ budget - Slot.total t.taken)
    && !t.refuse.contains item

/-- Takes an item within the limits. -/
def offer : Consumer Taker Nat := fun t item size =>
  if t.admits item size then (.taken, { t with taken := t.taken ++ [⟨item, size⟩] })
  else (.refused, t)

end Taker

/-- What a drain goes into. -/
inductive Target
  | batch (batch : Batch Nat)
  | taker (taker : Taker)
deriving DecidableEq

namespace Target

/-- Offers an item at a time. -/
def offer (now : Instant) : Consumer Target Nat
  | .batch b, item, size =>
    let (reply, b) := Batch.offer now b item size
    (reply, .batch b)
  | .taker t, item, size =>
    let (reply, t) := Taker.offer t item size
    (reply, .taker t)

/-- What a taker has taken. -/
def taken? : Target → Option (List (Slot Nat))
  | .batch _ => none
  | .taker t => some t.taken

end Target

/-- Something done to the intake. -/
inductive Poke
  | offer (item size : Nat)
  | clear
  | wake
deriving DecidableEq, Repr

/-- What comes of a poke. -/
inductive PokeResult
  | offered (admitted : Bool)
  | cleared (count : Nat)
  | woken
deriving DecidableEq, Repr

/-- Does a poke. -/
def Poke.apply (i : Intake Nat) : Poke → Intake Nat × PokeResult
  | .offer item size =>
    match i.offer? item size with
    | some i => (i, .offered true)
    | none => (i, .offered false)
  | .clear =>
    let (i, count) := i.clear
    (i, .cleared count)
  | .wake => (i.wake, .woken)

/-- A poke at a time, with its place in the script. -/
structure TimedPoke where
  index : Nat
  time : Instant
  poke : Poke
deriving DecidableEq, Repr

/-- A drain that is over, and the pokes that came before its end and those yet to come. -/
structure DrainRun where
  time : Instant
  intake : Intake Nat
  drained : Drained Target
  results : List (Nat × PokeResult)
  rest : List TimedPoke

namespace DrainRun

/-- A drain that waits until a deadline, with the pokes to come, earliest first. Pokes at the
same time all come before the drain goes on. -/
def wait (deadline : Instant) (target : Target) (now : Instant) (i : Intake Nat)
    (results : List (Nat × PokeResult)) (pokes : List TimedPoke) : DrainRun :=
  let goOn := fun (time : Instant) => i.resumeDrain? (Target.offer time) time deadline target
  let timeUp := fun (_ : Unit) =>
    let (intake, drained) := (goOn deadline).getD (i, ⟨target, 0, false⟩)
    DrainRun.mk deadline intake drained results pokes
  match pokes with
  | [] =>
    match goOn now with
    | some (intake, drained) => { time := now, intake, drained, results, rest := [] }
    | none => timeUp ()
  | p :: rest =>
    if now < p.time then
      -- all pokes of this time are done: the drain goes on if one of them woke it
      match goOn now with
      | some (intake, drained) => { time := now, intake, drained, results, rest := p :: rest }
      | none =>
        if deadline < p.time then timeUp ()
        else
          let (i, result) := p.poke.apply i
          wait deadline target p.time i (results ++ [(p.index, result)]) rest
    else
      let (i, result) := p.poke.apply i
      wait deadline target now i (results ++ [(p.index, result)]) rest

/-- The pokes that come after the end of the drain: the time of the last one, the intake and all
results. -/
def conclude (run : DrainRun) : Instant × Intake Nat × List (Nat × PokeResult) :=
  run.rest.foldl (fun (time, i, results) p =>
      let (i, result) := p.poke.apply i
      (max time p.time, i, results ++ [(p.index, result)]))
    (run.time, run.intake, run.results)

end DrainRun

/-- An action at the bench. -/
inductive Action
  | poke (poke : Poke)
  | tryDrain (into : Option Taker)
  | drain (timeout : Duration) (into : Option Taker) (during : List (Duration × Poke))
  | sleep (time : Duration)
  | batchOffer (item size : Nat)
  | batchDrain (into : Taker)
  | batchClear
deriving DecidableEq

/-- What comes of an action. -/
inductive ActionResult
  | poked (result : PokeResult)
  | drained (count : Nat) (taken : Option (List (Slot Nat)))
  | waited (count : Nat) (taken : Option (List (Slot Nat))) (time : Duration)
      (during : List PokeResult)
  | slept
  | offered (reply : Reply) (item : Nat)
  | batchDrained (taken : List (Slot Nat))
  | cleared (count : Nat)
deriving DecidableEq

/-- An intake and a batch of numbered items on a clock. -/
structure Bench where
  now : Instant := 0
  intake : Intake Nat
  batch : Batch Nat
deriving DecidableEq

namespace Bench

/-- An empty queue and an empty batch. -/
def initial (maxCount : Nat) (maxBytes : Option Nat) (encoding : Encoding)
    (messageMaxBytes : Nat) (timeout : Duration) : Bench where
  intake := { queue := Queue.new maxCount maxBytes }
  batch := .new encoding messageMaxBytes timeout

/-- What a drain goes into: the batch, if no taker is named. -/
def target (b : Bench) : Option Taker → Target
  | none => .batch b.batch
  | some taker => .taker taker

/-- Keeps the batch that a drain went into. -/
def keep (b : Bench) : Target → Bench
  | .batch batch => { b with batch }
  | .taker _ => b

/-- A drain that may wait, with pokes while it does. -/
def drain (b : Bench) (timeout : Duration) (into : Option Taker)
    (during : List (Duration × Poke)) : Bench × ActionResult :=
  let pokes := (during.mapIdx fun index (delay, poke) =>
    TimedPoke.mk index (b.now + delay) poke).mergeSort fun p q => p.time ≤ q.time
  let target := b.target into
  let run : DrainRun := match b.intake.beginDrain (Target.offer b.now) b.now timeout target with
    | .over intake drained => { time := b.now, intake, drained, results := [], rest := pokes }
    | .waits intake deadline => DrainRun.wait deadline target b.now intake [] pokes
  let (time, intake, results) := run.conclude
  let results := (results.mergeSort fun p q => p.1 ≤ q.1).map Prod.snd
  let final := run.drained.consumer
  ({ b with now := time, intake }.keep final,
    .waited run.drained.count final.taken? (run.time - b.now) results)

/-- Does an action. -/
def step (b : Bench) : Action → Bench × ActionResult
  | .poke poke =>
    let (intake, result) := poke.apply b.intake
    ({ b with intake }, .poked result)
  | .tryDrain into =>
    let (intake, drained) := b.intake.tryDrain (Target.offer b.now) (b.target into)
    ({ b with intake }.keep drained.consumer, .drained drained.count drained.consumer.taken?)
  | .drain timeout into during => b.drain timeout into during
  | .sleep time => ({ b with now := b.now + time }, .slept)
  | .batchOffer item size =>
    let (reply, batch) := Batch.offer b.now b.batch item size
    ({ b with batch }, .offered reply item)
  | .batchDrain into =>
    let (batch, drained) := b.batch.drain Taker.offer into
    ({ b with batch }, .batchDrained drained.consumer.taken)
  | .batchClear =>
    let (batch, count) := b.batch.clear
    ({ b with batch }, .cleared count)

end Bench

end SpanCourier
