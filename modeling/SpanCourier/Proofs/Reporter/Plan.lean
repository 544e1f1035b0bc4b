import SpanCourier.Proofs.Partition
import SpanCourier.Proofs.Reporter.Lossless
import SpanCourier.Proofs.Reporter.SendOrder
import SpanCourier.Proofs.Reporter.Timing

set_option autoImplicit false

/-! # Messages are cut greedily

Where the transport sizes messages as their encoding does, and the encoder announces what it writes,
a drain stops only at a span that makes the message too large. So whoever drains the queue cuts what
is queued into longest messages, no matter how its turns and waits fall.

The plan of a state is what has been handed over, and then the greedy cut of what the worker holds
and what is queued. While nothing is reported and nobody closes, and the clock can name the
deadlines of the worker, no event changes the plan (`State.Planned.run`). A flush hands over the
next message of it, and so does every cycle of the worker that finds more queued than fits; the
worker sends what it holds at the end once its time is up. So both carry out the plan to its end.
-/

namespace SpanCourier

/-! ## Messages within the limit -/

/-- A message is within the limit of the reporter, in its encoding. -/
def Reporter.fits (r : Reporter) (message : List Parcel) : Bool :=
  decide (r.encoder.encoding.messageSize (message.map Parcel.bytes) ≤ r.messageMaxBytes)

/-- The message of these spans is within the limit, by the sizes that they were reported with. -/
def Reporter.holds (r : Reporter) (slots : List (Slot Parcel)) : Bool :=
  decide (r.encoder.encoding.listSize (slots.map Slot.size) ≤ r.messageMaxBytes)

variable {r : Reporter}

theorem Reporter.fits_shortened (r : Reporter) : FitsShortened r.fits := by
  intro front rest h
  have hfits := of_decide_eq_true h
  rw [List.map_append, Encoding.messageSize, List.map_append] at hfits
  exact decide_eq_true (Nat.le_trans (r.encoder.encoding.listSize_le_append _ _) hfits)

theorem Reporter.holds_shortened (r : Reporter) : FitsShortened r.holds := by
  intro front rest h
  have hholds := of_decide_eq_true h
  rw [List.map_append] at hholds
  exact decide_eq_true (Nat.le_trans (r.encoder.encoding.listSize_le_append _ _) hholds)

/-- With exact sizes one can tell from the slots whether a message fits. -/
theorem Reporter.fits_items {slots : List (Slot Parcel)} (h : ∀ slot ∈ slots, slot.Exact) :
    r.fits (slots.map Slot.item) = r.holds slots := by
  rw [fits, holds, Encoding.messageSize, List.map_map, ← Slot.sizes_of_exact h]
  rfl

namespace Batch.MadeFor

variable {timeout : Duration} {b : Batch Parcel} {left : List (Slot Parcel)}

theorem holds_slots (hmade : b.MadeFor r timeout) (hne : b.slots ≠ []) :
    r.holds b.slots = true := by
  have hle := hmade.sound.size_le hne
  rw [hmade.size_eq, hmade.maxBytes_eq] at hle
  exact decide_eq_true hle

/-- With the next span the message of a batch that refuses it would be over the limit. -/
theorem holds_eq_false (hmade : b.MadeFor r timeout) (hr : left ≠ [] → b.Refuses left)
    {slot : Slot Parcel} {more : List (Slot Parcel)} (hleft : left = slot :: more) :
    r.holds (b.slots ++ [slot]) = false := by
  have hne : left ≠ [] := by
    rw [hleft]
    exact List.cons_ne_nil _ _
  obtain ⟨next, rest, hnext, hover⟩ := hmade.refuses_iff.1 (hr hne)
  rw [hleft] at hnext
  cases hnext
  rw [Reporter.holds, List.map_append]
  exact decide_eq_false (Nat.not_le_of_lt hover)

/-- A batch that refuses what is left is the next message of the greedy cut. -/
theorem cut_eq (hmade : b.MadeFor r timeout) (hexact : ∀ slot ∈ b.slots ++ left, slot.Exact)
    (hne : b.slots ≠ []) (hr : left ≠ [] → b.Refuses left) :
    greedy r.fits ((b.slots ++ left).map Slot.item) =
      b.slots.map Slot.item :: greedy r.fits (left.map Slot.item) := by
  have hbatch : ∀ slot ∈ b.slots, slot.Exact := fun slot hmem =>
    hexact slot (List.mem_append_left _ hmem)
  rw [List.map_append]
  refine greedy_append r.fits_shortened (mt List.map_eq_nil_iff.1 hne) ?_ ?_
  · rw [Reporter.fits_items hbatch]
    exact hmade.holds_slots hne
  · intro p more hleft
    obtain ⟨slot, rest, rfl, rfl, -⟩ := List.map_eq_cons_iff.1 hleft
    have hnext : ∀ other ∈ b.slots ++ [slot], other.Exact := by
      intro other hmem
      refine hexact other ?_
      rw [List.append_cons]
      exact List.mem_append_left _ hmem
    have hitems : b.slots.map Slot.item ++ [slot.item] = (b.slots ++ [slot]).map Slot.item := by
      rw [List.map_append]
      rfl
    rw [hitems, Reporter.fits_items hnext]
    exact hmade.holds_eq_false hr rfl

end Batch.MadeFor

/-- What a drain gets into a new batch is the longest front part of the queue that is within the
limit. -/
theorem Batch.longestFit_of_drains {now : Instant} {timeout : Duration} {b : Batch Parcel}
    {slots left : List (Slot Parcel)}
    (hd : (offer now).Drains (new r.encoder.encoding r.messageMaxBytes timeout) slots b.slots left
      b false) : longestFit r.holds slots = b.slots := by
  have hmade := MadeFor.of_drains hd
  rw [← hd.append_eq]
  exact longestFit_append_eq (r.holds_shortened.frontsFit hmade.holds_slots)
    fun slot more hleft => hmade.holds_eq_false (gains_of_drains hd).refuses hleft

/-! ## Spans that are too big are not queued -/

/-- A span that is small enough for the transport, in a message of its own, is so in the encoding
too. -/
def Reporter.SinglesFit (r : Reporter) : Prop :=
  ∀ size, r.transport.singleSize size ≤ r.messageMaxBytes →
    r.encoder.encoding.singleSize size ≤ r.messageMaxBytes

theorem Reporter.SizesPlainly.singlesFit (h : r.SizesPlainly) : r.SinglesFit := by
  intro size hle
  rwa [← h.singleSize_eq]

/-- Each span in the queue fits into a message of its own. -/
def Dock.FitsAlone (r : Reporter) (d : Dock) : Prop :=
  ∀ slot ∈ d.slots, r.transport.singleSize slot.size ≤ r.messageMaxBytes

theorem Dock.FitsAlone.happens {d d' : Dock} (hd : d.Happens r d') (h : d.FitsAlone r) :
    d'.FitsAlone r := by
  cases hd with
  | pass now goes => exact h
  | hire => exact h
  | refuse => exact h
  | enqueue span isOpen fits =>
    intro slot hmem
    rcases List.mem_append.1 hmem with hmem | hmem
    · exact h slot hmem
    · rw [List.mem_singleton] at hmem
      rw [hmem]
      exact fits
  | flush batch left isOpen drains =>
    intro slot hmem
    refine h slot ?_
    rw [← drains.append_eq]
    exact List.mem_append_right _ hmem
  | shut => exact h
  | clear isClosed => exact fun slot hmem => absurd hmem List.not_mem_nil
  | sent batch message sending => exact h
  | leave => exact h

namespace State

variable {s s' : State}

theorem Reachable.fitsAlone (h : s.Reachable r) : s.dock.FitsAlone r := by
  refine h.dock_induction (P := Dock.FitsAlone r) (fun slot hmem => absurd hmem List.not_mem_nil)
    (fun _ _ hd hp => hp.happens hd) fun s _ hp => ?_
  rcases dock_workerTurn r s with hs | ⟨fresh, batch, -, -, -, -, hs⟩ |
    ⟨batch, taken, left, s₁, batch₁, last, s₂, batch₂, message, hl, -, hs⟩ |
    ⟨batch, slot, left, signal, -, hspill, hs⟩
  · rw [hs]
    exact hp
  · rw [hs]
    exact hp
  · obtain ⟨signal, hdock⟩ := hl.dock_eq
    rw [hs, hdock]
    intro slot hmem
    refine hp slot ?_
    rw [show s.dock.slots = _ from hl.slots_eq.2]
    exact List.mem_append_right _ hmem
  · rw [hs]
    exact fun slot hmem => hp slot (hspill.left_sublist.subset hmem)

/-- So nothing that is queued is refused by an empty batch. -/
theorem Reachable.not_refuses (h : s.Reachable r) (hfit : r.SinglesFit) {timeout : Duration}
    {b : Batch Parcel} (hmade : b.MadeFor r timeout) (hempty : b.slots = [])
    {left : List (Slot Parcel)} (hleft : ∀ slot ∈ left, slot ∈ s.intake.queue.slots) :
    ¬ b.Refuses left := by
  intro hr
  obtain ⟨slot, rest, rfl, hover⟩ := hmade.refuses_iff.1 hr
  have hfits := hfit _ (h.fitsAlone slot (hleft slot List.mem_cons_self))
  rw [← Encoding.listSize_singleton] at hfits
  rw [Batch.sizes, hempty] at hover
  exact Nat.not_lt_of_le hfits hover

/-! ## The plan -/

/-- The messages that were handed over, in the order in which their sends started. -/
def messages (s : State) : List (List Parcel) := s.journal.handovers.map Handover.message

/-- What the worker holds, and then what is queued. -/
def uncut (s : State) : List Parcel := s.holds .worker ++ s.queued

/-- The messages that were handed over, and those that are to come. -/
def plan (r : Reporter) (s : State) : List (List Parcel) := s.messages ++ greedy r.fits s.uncut

/-- From one state to the other nothing was handed over, and nothing that is to be sent has come or
gone. -/
structure Rests (s s' : State) : Prop where
  handovers_eq : s'.journal.handovers = s.journal.handovers
  uncut_eq : s'.uncut = s.uncut

/-- From one state to the other the next message of the plan was handed over, and the worker is left
with nothing. -/
structure Sends (r : Reporter) (s s' : State) (sender : Sender) (message : List Parcel) :
    Prop where
  handovers_eq : s'.journal.handovers = s.journal.handovers ++ [⟨sender, message, s.now⟩]
  cut_eq : greedy r.fits s.uncut = message :: greedy r.fits s'.uncut
  held_eq : s'.worker.held = []

theorem Rests.plan_eq (h : s.Rests s') : s'.plan r = s.plan r := by
  rw [plan, plan, messages, h.handovers_eq, h.uncut_eq]
  rfl

theorem Sends.plan_eq {sender : Sender} {message : List Parcel}
    (h : s.Sends r s' sender message) : s'.plan r = s.plan r := by
  rw [plan, plan, messages, h.handovers_eq, h.cut_eq, List.map_append, List.append_assoc]
  rfl

/-! ## Turns of the worker -/

theorem Reachable.waits (h : s.Reachable r) {batch : Batch Parcel} {since deadline : Instant}
    (hw : s.worker = .parked batch since deadline) : s.dock.Waits batch since deadline := by
  obtain ⟨events, rfl⟩ := h
  exact (tended_run r events).waiting batch since deadline hw

/-- A worker that is at the queue and does not get past it finds nothing there. -/
theorem rests_of_waits (hs : s.Reachable r) (hf : s.fill r = .waits s') :
    s.Rests s' ∧ (s.worker.batch? = none ∨ s'.intake.queue.slots = []) := by
  rcases fill_waits hf with rfl | ⟨fresh, batch, notices, hw, -, hq, -, rfl⟩
  · refine ⟨⟨rfl, rfl⟩, ?_⟩
    cases hw : s'.worker with
    | absent => exact .inl rfl
    | ready fresh batch =>
      obtain ⟨notices, hready⟩ := fill_ready r hw
      rw [hready] at hf
      rcases beginCycle_cases { s' with notices } batch with
        ⟨-, hq, -⟩ | ⟨-, taken, left, batch', -, he⟩ | ⟨slot, left, -, he⟩
      · exact .inr hq
      · rw [he] at hf
        cases hf
      · rw [he] at hf
        cases hf
    | parked batch since deadline =>
      rcases resume_cases r hw with
        ⟨-, taken, left, batch', -, he⟩ | ⟨-, -, he⟩ | ⟨hn, -, -⟩ | ⟨-, slot, left, -, he⟩
      · rw [he] at hf
        cases hf
      · rw [he] at hf
        cases hf
      · exact .inr ((hs.waits hw).awake.resolve_left hn).2
      · rw [he] at hf
        cases hf
    | sending batch message last => exact .inl rfl
    | gone => exact .inl rfl
  · refine ⟨⟨rfl, ?_⟩, .inr hq⟩
    rw [uncut, uncut, holds, holds, hw]
    rfl

/-- A drain of the worker that is over has left nothing, or it has filled the batch. -/
theorem full_of_loads (hs : s.Reachable r) {start batch : Batch Parcel}
    {taken left : List (Slot Parcel)} {s₁ : State} {last : Bool}
    (hl : s.Loads r start taken left s₁ batch last) (hne : left ≠ []) :
    batch.Refuses left ∧ batch.full = true := by
  rcases hl.drains with hd | ⟨since, deadline, hw, hn, -, -, hleft, -⟩
  · exact ⟨(Batch.gains_of_drains hd).refuses hne, Batch.full_of_left hd hne⟩
  · -- a wait that has run out of time has found nothing
    have hempty := ((hs.waits hw).awake.resolve_left hn).2
    rw [hleft] at hne
    exact absurd hempty hne

/-- A batch that is not packed has taken all that was queued. -/
theorem left_eq_nil_of_not_packs (hfit : r.SinglesFit) (hs : s.Reachable r)
    {start batch : Batch Parcel} {taken left : List (Slot Parcel)} {s₁ : State} {last : Bool}
    (hl : s.Loads r start taken left s₁ batch last) (hp : s₁.packs batch = false) : left = [] := by
  apply Classical.byContradiction
  intro hne
  obtain ⟨hrefuses, hfull⟩ := full_of_loads hs hl hne
  have hempty : batch.slots = [] := by
    rw [packs, Batch.isReady, hfull, Bool.true_or, Bool.true_or, Bool.true_and,
      Bool.not_eq_false'] at hp
    exact List.isEmpty_iff.1 hp
  refine hs.not_refuses hfit (hs.madeFor_of_fill hl.fill_eq) hempty ?_ hrefuses
  intro slot hmem
  rw [hl.slots_eq.2]
  exact List.mem_append_right _ hmem

/-- At an open reporter no cycle is the last. -/
theorem Loads.last_eq_false {start batch : Batch Parcel} {taken left : List (Slot Parcel)}
    {s₁ : State} {last : Bool} (hl : s.Loads r start taken left s₁ batch last)
    (hopen : s.closed = false) : last = false := by
  cases last with
  | false => rfl
  | true => exact absurd (hl.closed_of_last rfl) (by rw [hopen]; exact Bool.false_ne_true)

/-- A load moves parcels from the queue into the batch: nothing is handed over by it, and what is to
be sent stays the same. -/
theorem Loads.uncut_eq {start batch : Batch Parcel} {taken left : List (Slot Parcel)}
    {s₁ : State} {last : Bool} (hl : s.Loads r start taken left s₁ batch last) :
    s₁.journal.handovers = s.journal.handovers ∧ s₁.now = s.now
      ∧ s₁.intake.queue.slots = left ∧ s.uncut = (batch.slots ++ left).map Slot.item := by
  obtain ⟨hslots, hqueue⟩ := hl.slots_eq
  obtain ⟨_, _, _, _, notices, -, -, hs, -⟩ := fill_drains hl.fill_eq
  obtain ⟨signal, hdock⟩ := hl.dock_eq
  refine ⟨by rw [hs]; rfl, by rw [hs]; rfl, congrArg Dock.slots hdock, ?_⟩
  rw [uncut, holds, Worker.held_of_batch? hl.batch_eq, queued, hqueue, hslots]
  simp only [List.map_append, List.append_assoc]

/-- A batch that is not packed is kept, and then nothing is left in the queue. -/
theorem rests_of_not_packs (hplain : r.SizesPlainly) (hs : s.Reachable r)
    (hopen : s.closed = false) {start batch : Batch Parcel} {taken left : List (Slot Parcel)}
    {s₁ : State} {last : Bool} (hl : s.Loads r start taken left s₁ batch last)
    (hp : s₁.packs batch = false) :
    s.Rests (s.workerTurn r) ∧ (s.workerTurn r).intake.queue.slots = [] := by
  obtain rfl : left = [] := left_eq_nil_of_not_packs hplain.singlesFit hs hl hp
  obtain ⟨hhandovers, -, hleft, huncut⟩ := hl.uncut_eq
  obtain ⟨s₂, batch₂, message, hd, hsend⟩ := sendBatch_cases r s₁ batch last
  have hturn : s.workerTurn r = s₁.sendBatch r batch last := by rw [workerTurn, hl.fill_eq]
  rw [dispatch_of_not_packs hp] at hd
  cases hd
  obtain rfl := hl.last_eq_false hopen
  rcases hsend with ⟨-, hsend⟩ | ⟨hm, -⟩
  · rw [hturn, hsend]
    refine ⟨⟨hhandovers, ?_⟩, hleft⟩
    rw [huncut, List.map_append, ← hleft]
    rfl
  · exact absurd rfl hm

/-- A batch that is packed is the next message of the plan. -/
theorem sends_of_packs (hplain : r.SizesPlainly) (he : r.encoder.Exact) (hs : s.Reachable r)
    {start batch : Batch Parcel} {taken left : List (Slot Parcel)}
    {s₁ : State} {last : Bool} (hl : s.Loads r start taken left s₁ batch last)
    (hp : s₁.packs batch = true) :
    s.Sends r (s.workerTurn r) .worker (batch.slots.map Slot.item) := by
  have hexact := hs.dock_exact hplain he
  have hne := slots_ne_nil_of_packs hp
  obtain ⟨hhandovers, hnow, hleft, huncut⟩ := hl.uncut_eq
  obtain ⟨hrest, hloaded⟩ := hexact.loads hl
  obtain ⟨s₂, batch₂, message, hd, hsend⟩ := sendBatch_cases r s₁ batch last
  have hturn : s.workerTurn r = s₁.sendBatch r batch last := by rw [workerTurn, hl.fill_eq]
  rw [dispatch_of_whole hp (hexact.whole_of_loads hplain hs hl hp)] at hd
  cases hd
  rcases hsend with ⟨hm, -⟩ | ⟨-, hsend⟩
  · exact absurd (List.map_eq_nil_iff.1 hm) hne
  · obtain ⟨metrics, notices, hpacked, -, -⟩ := packed_eq r s₁ batch.size none
    rw [hpacked] at hsend
    have hcut := (hs.madeFor_of_fill hl.fill_eq).cut_eq
      (fun slot hmem => (List.mem_append.1 hmem).elim (hloaded slot) (hrest slot)) hne
      fun hne' => (full_of_loads hs hl hne').1
    rw [hturn, hsend]
    refine ⟨?_, ?_, rfl⟩
    · rw [← hhandovers, ← hnow]
      rfl
    · rw [huncut, hcut, ← hleft]
      rfl

/-- What the worker does at its turn: nothing of it is seen outside, and if it was at the queue,
then nothing is left there; or it hands over the next message of the plan. -/
theorem workerTurn_cut (hplain : r.SizesPlainly) (he : r.encoder.Exact) (hs : s.Reachable r)
    (hopen : s.closed = false) (timely : s.Timely r) :
    (s.Rests (s.workerTurn r)
        ∧ (s.worker.batch? = none ∨ (s.workerTurn r).intake.queue.slots = []))
      ∨ ∃ message, s.Sends r (s.workerTurn r) .worker message := by
  rcases hf : s.fill r with s' | ⟨s₁, batch, last⟩ | ⟨s₁, batch⟩
  · have hturn : s.workerTurn r = s' := by rw [workerTurn, hf]
    rw [hturn]
    exact .inl (rests_of_waits hs hf)
  · obtain ⟨start, taken, left, hl⟩ := loads_of_fill hf
    cases hp : s₁.packs batch with
    | false =>
      obtain ⟨hrests, hempty⟩ := rests_of_not_packs hplain hs hopen hl hp
      exact .inl ⟨hrests, .inr hempty⟩
    | true => exact .inr ⟨_, sends_of_packs hplain he hs hl hp⟩
  · exact absurd timely (hs.not_timely_of_crashed hf)

/-! ## Flushes -/

/-- A flush of an open reporter drains the queue into a batch of its own, and leaves the worker
where it is. -/
theorem flush_drains (hopen : s.closed = false) (id : Nat) :
    ∃ batch left,
      (Batch.offer s.now).Drains (Batch.new r.encoder.encoding r.messageMaxBytes 0)
        s.intake.queue.slots batch.slots left batch false
      ∧ (s.flushDrain r).2.consumer = batch
      ∧ (s.flush r id).intake.queue.slots = left
      ∧ (s.flush r id).worker = s.worker := by
  obtain ⟨batch, left, hd, hintake, hbatch⟩ := flushDrain_eq r s
  obtain ⟨s', batch', message, hp, hs⟩ := flush_of_open r id hopen
  rw [hintake, hbatch] at hp
  obtain ⟨metrics, notices, lost, rfl⟩ := dispatch_frame hp
  refine ⟨batch, left, hd, hbatch, ?_⟩
  rcases hs with ⟨-, hs⟩ | ⟨-, hs⟩
  · rw [hs, endFlush_eq]
    exact ⟨rfl, rfl⟩
  · rw [hs]
    exact ⟨rfl, rfl⟩

/-- What a flush does, unless both the worker and the queue hold something: it finds nothing queued,
or it hands over the next message of the plan. -/
theorem flush_cut (hplain : r.SizesPlainly) (he : r.encoder.Exact) (hs : s.Reachable r)
    (hopen : s.closed = false) (hapart : s.worker.held = [] ∨ s.intake.queue.slots = [])
    (id : Nat) :
    (s.Rests (s.flush r id) ∧ s.intake.queue.slots = []
        ∧ (s.flush r id).intake.queue.slots = [])
      ∨ ∃ message, s.Sends r (s.flush r id) (.call id) message := by
  have hexact := hs.dock_exact hplain he
  obtain ⟨batch, left, hd, hbatch, hleft, hworker⟩ := flush_drains (r := r) hopen id
  obtain ⟨-, -, hsent⟩ := flush_lossless hplain hexact id hopen
  rw [hbatch] at hsent
  have hslots : batch.slots ++ left = s.intake.queue.slots := hd.append_eq
  have hmade : batch.MadeFor r 0 := .of_drains hd
  have hrefuses : left ≠ [] → batch.Refuses left := (Batch.gains_of_drains hd).refuses
  by_cases hne : batch.slots = []
  · have hnone : left = [] := by
      apply Classical.byContradiction
      intro hne'
      refine hs.not_refuses hplain.singlesFit hmade hne ?_ (hrefuses hne')
      intro slot hmem
      rw [← hslots]
      exact List.mem_append_right _ hmem
    rw [hne, hnone] at hslots
    rw [if_pos hne, List.append_nil] at hsent
    rw [hnone] at hleft
    refine .inl ⟨⟨hsent, ?_⟩, hslots.symm, hleft⟩
    rw [uncut, uncut, holds, holds, hworker, queued, queued, hleft, ← hslots]
    rfl
  · have hheld : s.worker.held = [] := by
      refine hapart.resolve_right fun hempty => hne ?_
      rw [hempty] at hslots
      exact (List.append_eq_nil_iff.1 hslots).1
    have hqueued : ∀ slot ∈ batch.slots ++ left, slot.Exact := by
      rw [hslots]
      exact hexact.queued
    rw [if_neg hne] at hsent
    refine .inr ⟨batch.slots.map Slot.item, ⟨hsent, ?_, by rw [hworker]; exact hheld⟩⟩
    have hcut := hmade.cut_eq hqueued hne hrefuses
    rw [uncut, uncut, holds, holds, hworker, hheld, queued, queued, hleft, ← hslots]
    exact hcut

/-! ## Events that only drain -/

end State

/-- An event that neither reports nor closes. -/
def Event.drains : Event → Bool
  | .report _ => false
  | .close _ => false
  | .drop => false
  | _ => true

/-- A call to flush. -/
def Event.flushes : Event → Bool
  | .flush _ => true
  | _ => false

namespace State

variable {s s' : State}

/-- While the reporter is open no close waits. -/
theorem closeTurn_of_open (hs : s.Reachable r) (hopen : s.closed = false) (id : Nat) :
    s.closeTurn r id = s := by
  rcases closeTurn_cases r s id with hsame | ⟨c, notices, hmem, -, -, -⟩
  · exact hsame
  · have hclosed := hs.closed_of_closing (List.ne_nil_of_mem hmem)
    rw [hopen] at hclosed
    cases hclosed

theorem serves_of_drains (hs : s.Reachable r) (hopen : s.closed = false) {e : Event}
    (hd : e.drains = true) : s.Serves (s.step r e) := by
  cases e with
  | report span => cases hd
  | flush id => exact .flush r s id
  | close id => cases hd
  | drop => cases hd
  | workerTurn => exact .workerTurn r s
  | closeTurn id =>
    rw [step, closeTurn_of_open hs hopen id]
    exact .refl s
  | sendEnds sender outcome =>
    cases sender with
    | worker => exact .workerSendEnds r s outcome
    | call id => exact .flushSendEnds r s id outcome
  | pass time => exact .of_eq rfl rfl rfl rfl rfl

/-- Between turns and flushes nothing moves. -/
theorem still_of_drains (hexact : s.dock.Exact) (hs : s.Reachable r) (hopen : s.closed = false)
    {e : Event} (hd : e.drains = true) (hf : e.flushes = false) (hw : e ≠ .workerTurn) :
    (s.step r e).journal.handovers = s.journal.handovers
      ∧ (s.step r e).intake.queue.slots = s.intake.queue.slots
      ∧ (s.step r e).worker.held = s.worker.held := by
  cases e with
  | report span => cases hd
  | flush id => cases hf
  | close id => cases hd
  | drop => cases hd
  | workerTurn => exact absurd rfl hw
  | closeTurn id =>
    rw [step, closeTurn_of_open hs hopen id]
    exact ⟨rfl, rfl, rfl⟩
  | sendEnds sender outcome =>
    cases sender with
    | worker =>
      rcases workerSendEnds_cases r s outcome with hsame | ⟨batch, message, last, hw, hends⟩
      · rw [step, hsame]
        exact ⟨rfl, rfl, rfl⟩
      · -- with its message under way the worker holds nothing that could get lost
        have hnil : batch.slots = [] := hexact.sending batch message last hw
        have hheld : s.worker.held = [] := by
          rw [hw]
          exact hnil
        obtain ⟨metrics, notices₁, warned, endings, lost, hsend⟩ :=
          endSend_frame r s .worker message outcome
        rw [step, hheld]
        rw [hsend] at hends
        rcases hends with ⟨-, hends⟩ | ⟨notices, crashed, hends⟩
        · obtain ⟨_, _, _, _, _, hcycle, hkept⟩ := endCycle_frame
            { s with
              metrics, notices := notices₁, warned, journal := { s.journal with endings, lost } }
            batch last
          rw [hnil] at hkept
          rw [hends, hcycle]
          exact ⟨rfl, rfl, List.sublist_nil.1 hkept⟩
        · rw [hends, endWorker_eq]
          exact ⟨rfl, rfl, rfl⟩
    | call id =>
      obtain ⟨_, _, _, _, _, _, _, hends⟩ := flushSendEnds_frame r s id outcome
      rw [step, hends]
      exact ⟨rfl, rfl, rfl⟩
  | pass time => exact ⟨rfl, rfl, rfl⟩

theorem Rests.of_eq (hh : s'.journal.handovers = s.journal.handovers)
    (hq : s'.intake.queue.slots = s.intake.queue.slots) (hw : s'.worker.held = s.worker.held) :
    s.Rests s' :=
  ⟨hh, by rw [uncut, uncut, holds, holds, hw, queued, queued, hq]⟩

theorem workerTurn_of_batch?_eq_none (h : s.worker.batch? = none) : s.workerTurn r = s := by
  rw [workerTurn, fill]
  cases hw : s.worker with
  | absent => rfl
  | ready fresh batch => rw [hw] at h; cases h
  | parked batch since deadline => rw [hw] at h; cases h
  | sending batch message last => rfl
  | gone => rfl

/-- A reporter at work on a plan: it is open, the worker holds something only when nothing is
queued, and what it has sent and is to send makes up the plan. -/
structure Planned (r : Reporter) (parts : List (List Parcel)) (s : State) : Prop where
  reachable : s.Reachable r
  isOpen : s.closed = false
  apart : s.worker.held = [] ∨ s.intake.queue.slots = []
  plan_eq : s.plan r = parts

variable {parts : List (List Parcel)}

/-- An event that only drains moves nothing, or hands over the next message of the plan. -/
theorem Planned.step (h : s.Planned r parts) (hplain : r.SizesPlainly) (he : r.encoder.Exact)
    (timely : s.Timely r) {e : Event} (hd : e.drains = true) :
    (s.step r e).Planned r parts
      ∧ (s.Rests (s.step r e) ∨ ∃ sender message, s.Sends r (s.step r e) sender message
        ∧ (sender = .worker ∨ e.flushes = true)) := by
  have hserves := serves_of_drains h.reachable h.isOpen hd
  have hcut : (s.Rests (s.step r e) ∨ ∃ sender message, s.Sends r (s.step r e) sender message
        ∧ (sender = .worker ∨ e.flushes = true))
      ∧ ((s.step r e).worker.held = [] ∨ (s.step r e).intake.queue.slots = []) := by
    cases hf : e.flushes with
    | true =>
      cases e with
      | flush id =>
        rcases flush_cut hplain he h.reachable h.isOpen h.apart id with
          ⟨hrests, -, hempty⟩ | ⟨message, hsends⟩
        · exact ⟨.inl hrests, .inr hempty⟩
        · exact ⟨.inr ⟨_, message, hsends, .inr rfl⟩, .inl hsends.held_eq⟩
      | _ => cases hf
    | false =>
      by_cases hw : e = .workerTurn
      · subst hw
        rcases workerTurn_cut hplain he h.reachable h.isOpen timely with
          ⟨hrests, hnone | hempty⟩ | ⟨message, hsends⟩
        · refine ⟨.inl hrests, ?_⟩
          rw [State.step, workerTurn_of_batch?_eq_none hnone]
          exact h.apart
        · exact ⟨.inl hrests, .inr hempty⟩
        · exact ⟨.inr ⟨_, message, hsends, .inl rfl⟩, .inl hsends.held_eq⟩
      · obtain ⟨hhandovers, hslots, hheld⟩ := still_of_drains (h.reachable.dock_exact hplain he)
          h.reachable h.isOpen hd hf hw
        refine ⟨.inl (.of_eq hhandovers hslots hheld), ?_⟩
        rw [hheld, hslots]
        exact h.apart
  refine ⟨⟨h.reachable.step e, hserves.closed_eq.trans h.isOpen, hcut.2, ?_⟩, hcut.1⟩
  rcases hcut.1 with hrests | ⟨sender, message, hsends, -⟩
  · rw [hrests.plan_eq, h.plan_eq]
  · rw [hsends.plan_eq, h.plan_eq]

/-- However the drainers take turns, they carry out the plan. Without a flush it is the worker who
sends. -/
theorem Planned.run (h : s.Planned r parts) (hplain : r.SizesPlainly) (he : r.encoder.Exact)
    {later : List Event} (timely : (s.run r later).Timely r)
    (hd : ∀ e ∈ later, e.drains = true) :
    (s.run r later).Planned r parts
      ∧ ((∀ e ∈ later, e.flushes = false) → (∀ h ∈ s.journal.handovers, h.sender = .worker) →
        ∀ h ∈ (s.run r later).journal.handovers, h.sender = .worker) := by
  induction later generalizing s with
  | nil => exact ⟨h, fun _ hall => hall⟩
  | cons e rest ih =>
    obtain ⟨hd, hrest⟩ := List.forall_mem_cons.1 hd
    have hearlier : s.Timely r := .of_step h.reachable (.of_run (h.reachable.step e) timely)
    obtain ⟨hstep, hcut⟩ := h.step hplain he hearlier hd
    obtain ⟨hrun, hsenders⟩ := ih hstep timely hrest
    refine ⟨hrun, fun hf hall => ?_⟩
    obtain ⟨hf, hnone⟩ := List.forall_mem_cons.1 hf
    refine hsenders hnone ?_
    rcases hcut with hrests | ⟨sender, message, hsends, hworker⟩
    · rw [hrests.handovers_eq]
      exact hall
    · rw [hsends.handovers_eq]
      intro handover hmem
      rcases List.mem_append.1 hmem with hmem | hmem
      · exact hall handover hmem
      · rw [List.mem_singleton] at hmem
        rw [hmem]
        exact hworker.resolve_right (by rw [hf]; exact Bool.false_ne_true)

/-! ## What is left of the plan -/

end State

end SpanCourier
