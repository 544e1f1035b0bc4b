import SpanCourier.Proofs.Reporter.WorkerBatch

set_option autoImplicit false

/-! # Messages that carry all of a batch

Over a transport that sizes messages as their encoding does, and with an encoder that announces
what it writes, a batch and the transport agree on the size of a message. So every batch is packed
whole (`whole_of_madeFor`), nothing is ever left in a batch that was packed, and spans are lost only
where they are reported, where a send fails and where a close clears the queue
(`State.loses_step`). The sizes come with the spans from the queue (`Dock.Exact`).
-/

namespace SpanCourier

/-! ## Sizes that agree -/

/-- The transport sizes messages as the encoder frames them. -/
structure Reporter.SizesPlainly (r : Reporter) : Prop where
  messageSize_eq : r.transport.messageSize = r.encoder.encoding.messageSize
  singleSize_eq : r.transport.singleSize = r.encoder.encoding.singleSize

theorem Order.sizesPlainly {order : Order} {r : Reporter} (h : order.build = .ok r)
    (hu : order.transport.UsualSizing) : r.SizesPlainly := by
  obtain ⟨-, hencoding, -, rfl⟩ := eq_of_build h
  exact ⟨by rw [hencoding]; exact hu.1, by rw [hencoding]; exact hu.2⟩

/-- The size of a slot is that of the bytes in it. -/
def Slot.Exact (slot : Slot Parcel) : Prop := slot.size = slot.item.bytes.length

theorem Slot.sizes_of_exact {slots : List (Slot Parcel)} (h : ∀ slot ∈ slots, slot.Exact) :
    (slots.map Slot.item).map (fun parcel => parcel.bytes.length) = slots.map Slot.size := by
  rw [List.map_map]
  exact List.map_congr_left fun slot hmem => (h slot hmem).symm

variable {r : Reporter}

/-- The transport carries every front part of a batch that is in order, for its sizes are those of
a front part of the message of the batch. -/
theorem carries_front {timeout : Duration} {batch : Batch Parcel} (hplain : r.SizesPlainly)
    (hmade : batch.MadeFor r timeout) (hexact : ∀ slot ∈ batch.slots, slot.Exact)
    (hne : batch.slots ≠ []) {front rest : List Parcel}
    (hsplit : batch.slots.map Slot.item = front ++ rest) : r.carries front = true := by
  have hsizes : batch.sizes = front.map (fun parcel => parcel.bytes.length)
      ++ rest.map fun parcel => parcel.bytes.length := by
    rw [← List.map_append, ← hsplit, Slot.sizes_of_exact hexact]
    rfl
  have hfits : batch.size ≤ batch.maxBytes := hmade.sound.size_le hne
  rw [Reporter.carries_iff, hplain.messageSize_eq, Encoding.messageSize, List.map_map]
  calc r.encoder.encoding.listSize (front.map fun parcel => parcel.bytes.length)
      ≤ r.encoder.encoding.listSize batch.sizes := by
        rw [hsizes]
        exact r.encoder.encoding.listSize_le_append _ _
    _ = batch.size := hmade.size_eq.symm
    _ ≤ r.messageMaxBytes := by rw [← hmade.maxBytes_eq]; exact hfits

/-- A batch that is in order is packed whole. -/
theorem whole_of_madeFor {timeout : Duration} {batch : Batch Parcel} (hplain : r.SizesPlainly)
    (hmade : batch.MadeFor r timeout) (hexact : ∀ slot ∈ batch.slots, slot.Exact)
    (hne : batch.slots ≠ []) : Packing.Whole r batch :=
  Packing.whole_of_carries hne
    (longestFit_eq_self fun _ _ hsplit _ => carries_front hplain hmade hexact hne hsplit)

namespace State

variable {s : State}

theorem dispatch_of_whole {batch : Batch Parcel} (hp : s.packs batch = true)
    (hw : Packing.Whole r batch) :
    s.dispatch r batch =
      (s.packed r batch.size none, batch.leave false [], batch.slots.map Slot.item) := by
  obtain ⟨taken, left, overflow, hsplit, he⟩ := dispatch_splits r hp
  obtain ⟨count, hdrain⟩ := hsplit.drain_eq
  obtain ⟨hmessage, hoverflow, hleft⟩ := hw
  rw [hdrain] at hmessage hoverflow hleft
  obtain rfl : overflow = none := hoverflow
  obtain rfl : left = [] := hleft
  rw [he, show longestFit r.carries (batch.slots.map Slot.item) = _ from hmessage]

/-- A turn of the worker goes on with a batch that is in order. -/
theorem Reachable.madeFor_of_fill (h : s.Reachable r) {s' : State} {batch : Batch Parcel}
    {last : Bool} (hf : s.fill r = .over s' batch last) :
    batch.MadeFor r r.messageTimeout := by
  have hord := h.inOrder
  obtain ⟨events, rfl⟩ := h
  obtain ⟨start, taken, left, hl⟩ := loads_of_fill hf
  exact ((tended_run r events).loads hord hl).made

end State

/-! ## Sizes come with the spans -/

/-- What is queued, and what the worker holds, has the size of its bytes; and with a message of its
at the transport the worker holds nothing. -/
structure Dock.Exact (d : Dock) : Prop where
  queued : ∀ slot ∈ d.slots, slot.Exact
  own : ∀ batch, d.worker.own? = some batch → ∀ slot ∈ batch.slots, slot.Exact
  sending : ∀ batch message last, d.worker = .sending batch message last → batch.slots = []

namespace Dock.Exact

variable {d d' : Dock}

theorem initial (r : Reporter) : (State.initial r).dock.Exact := by
  constructor
  · intro slot hmem
    cases hmem
  · intro batch hown
    cases hown
  · intro batch message last hsending
    cases hsending

/-- The queue has become a part of what it was. -/
theorem of_slots (h : d.Exact) (hw : d'.worker = d.worker)
    (hs : ∀ slot ∈ d'.slots, slot ∈ d.slots) : d'.Exact := by
  constructor
  · exact fun slot hmem => h.queued slot (hs slot hmem)
  · rw [hw]
    exact h.own
  · rw [hw]
    exact h.sending

/-- The worker goes on with a batch, which is empty while a message is with the transport. -/
theorem of_worker {w : Worker} (h : d.Exact)
    (hown : ∀ batch, w.own? = some batch → ∀ slot ∈ batch.slots, slot.Exact)
    (hsending : ∀ batch message last, w = .sending batch message last → batch.slots = []) :
    { d with worker := w }.Exact :=
  ⟨h.queued, hown, hsending⟩

theorem happens (he : r.encoder.Exact) (hd : d.Happens r d') (h : d.Exact) : d'.Exact := by
  cases hd with
  | pass now goes => exact h.of_slots rfl fun _ hmem => hmem
  | hire =>
    refine h.of_worker ?_ fun _ _ _ hw => by cases hw
    intro batch hown slot hmem
    cases hown
    cases hmem
  | refuse => exact h.of_slots rfl fun _ hmem => hmem
  | enqueue span isOpen fits =>
    refine ⟨?_, h.own, h.sending⟩
    intro slot hmem
    rcases List.mem_append.1 hmem with hmem | hmem
    · exact h.queued slot hmem
    · rw [List.mem_singleton] at hmem
      rw [hmem]
      exact he span
  | flush batch left isOpen drains =>
    refine h.of_slots rfl fun slot hmem => ?_
    rw [← drains.append_eq]
    exact List.mem_append_right _ hmem
  | shut => exact h.of_slots rfl fun _ hmem => hmem
  | clear isClosed => exact h.of_slots rfl fun _ hmem => by cases hmem
  | sent batch message sending =>
    refine h.of_worker ?_ fun _ _ _ hw => by cases hw
    intro own hown
    cases hown
    exact h.own batch (by rw [sending]; rfl)
  | leave =>
    refine h.of_worker ?_ fun _ _ _ hw => by cases hw
    intro batch hown
    cases hown

variable {s s' : State} {start batch : Batch Parcel} {last : Bool}

/-- What is loaded brings its size along. -/
theorem loads {taken left : List (Slot Parcel)} (h : s.dock.Exact)
    (hl : s.Loads r start taken left s' batch last) :
    (∀ slot ∈ left, slot.Exact) ∧ ∀ slot ∈ batch.slots, slot.Exact := by
  obtain ⟨hbatch, hqueue⟩ := hl.slots_eq
  have hqueued : ∀ slot ∈ taken ++ left, slot.Exact := by
    rw [← hqueue]
    exact h.queued
  have hown := h.own start (Worker.own?_of_batch? hl.batch_eq)
  refine ⟨fun slot hmem => hqueued slot (List.mem_append_right _ hmem), ?_⟩
  rw [hbatch]
  intro slot hmem
  rcases List.mem_append.1 hmem with hmem | hmem
  · exact hown slot hmem
  · exact hqueued slot (List.mem_append_left _ hmem)

/-- What a turn packs is packed whole. -/
theorem whole_of_loads {taken left : List (Slot Parcel)} (h : s.dock.Exact)
    (hplain : r.SizesPlainly) (hs : s.Reachable r)
    (hl : s.Loads r start taken left s' batch last) (hp : s'.packs batch = true) :
    Packing.Whole r batch :=
  whole_of_madeFor hplain (hs.madeFor_of_fill hl.fill_eq) (h.loads hl).2
    (State.slots_ne_nil_of_packs hp)

/-- What a flush drains is packed whole. -/
theorem whole_of_drains {left : List (Slot Parcel)} (h : d.Exact) (hplain : r.SizesPlainly)
    (hd : (Batch.offer d.now).Drains (Batch.new r.encoder.encoding r.messageMaxBytes 0) d.slots
      batch.slots left batch false)
    (hne : batch.slots ≠ []) : Packing.Whole r batch := by
  have hmade : batch.MadeFor r 0 := .of_drains hd
  refine whole_of_madeFor hplain hmade ?_ hne
  intro slot hmem
  refine h.queued slot ?_
  rw [← hd.append_eq]
  exact List.mem_append_left _ hmem

theorem workerTurn (h : s.dock.Exact) (hplain : r.SizesPlainly) (hs : s.Reachable r) :
    (s.workerTurn r).dock.Exact := by
  rcases State.dock_workerTurn r s with hsame | ⟨fresh, own, hready, -, -, -, hturn⟩ |
    ⟨start, taken, left, s₁, batch, last, s₂, batch₂, message, hl, hd, hturn⟩ |
    ⟨own, slot, left, signal, -, hspill, hturn⟩
  · rw [hsame]
    exact h
  · rw [hturn]
    refine ⟨h.queued, ?_, fun _ _ _ hw => by cases hw⟩
    intro own' hown
    cases hown
    exact h.own own (by rw [show s.dock.worker = _ from hready]; rfl)
  · obtain ⟨hleft, hbatch⟩ := h.loads hl
    obtain ⟨signal, hdock⟩ := hl.dock_eq
    -- a batch that is packed is emptied, and without a message it is the batch that was loaded
    have hrest : batch₂.slots = [] ∨ batch₂ = batch ∧ message = [] := by
      cases hp : s₁.packs batch with
      | false =>
        rw [State.dispatch_of_not_packs hp] at hd
        cases hd
        exact .inr ⟨rfl, rfl⟩
      | true =>
        rw [State.dispatch_of_whole hp (h.whole_of_loads hplain hs hl hp)] at hd
        cases hd
        exact .inl rfl
    rw [hturn, hdock]
    refine ⟨hleft, ?_, ?_⟩
    · intro own hown slot hmem
      rw [Worker.eq_of_own?_onward hown] at hmem
      rcases hrest with hnil | ⟨rfl, -⟩
      · rw [hnil] at hmem
        cases hmem
      · exact hbatch slot hmem
    · intro own message' last' hw
      obtain ⟨rfl, hm⟩ := Worker.eq_of_onward_sending hw
      exact hrest.resolve_right fun hsame => hm hsame.2
  · rw [hturn]
    refine ⟨fun slot hmem => h.queued slot (hspill.left_sublist.subset hmem), ?_, ?_⟩
    · exact fun _ hown => by cases hown
    · exact fun _ _ _ hw => by cases hw

end Dock.Exact

/-! ## What is lost -/

/-- From one state to the other these spans were lost and counted, and no others; and no flush has
come that holds anything in its batch. -/
structure State.Sheds (s s' : State) (serials : List Nat) : Prop where
  lost_eq : s'.journal.lost = s.journal.lost ++ serials
  dropped_eq : s'.metrics.spansDropped = s.metrics.spansDropped + UInt64.ofNat serials.length
  flushes : ∀ f ∈ s'.flushes, f ∈ s.flushes ∨ f.batch.slots = []

/-- What an event may lose: a span that is reported to a closed reporter, is too big for a message
or finds the queue full; the message of a failed send; and what is queued when a close clears the
queue. -/
inductive State.Loses (r : Reporter) (s : State) : Event → List Nat → Prop
  | nothing (e : Event) : s.Loses r e []
  | closed (span : Span) (h : s.closed = true) :
    s.Loses r (.report span) [s.journal.reported.length]
  | tooBig (span : Span) (h : r.messageMaxBytes < r.transport.singleSize (r.encoder.size span)) :
    s.Loses r (.report span) [s.journal.reported.length]
  | noRoom (span : Span)
    (h : s.intake.offer? ⟨s.journal.reported.length, r.encoder.encode span⟩ (r.encoder.size span)
      = none) :
    s.Loses r (.report span) [s.journal.reported.length]
  | workerFails (batch : Batch Parcel) (message : List Parcel) (last : Bool)
    (error : TransportError) (h : s.worker = .sending batch message last) :
    s.Loses r (.sendEnds .worker (.failed error)) (message.map Parcel.serial)
  | flushFails (f : Flush) (error : TransportError) (h : f ∈ s.flushes) :
    s.Loses r (.sendEnds (.call f.id) (.failed error)) (f.message.map Parcel.serial)
  | close (id : Nat) :
    s.Loses r (.close id) (s.intake.queue.slots.map fun slot => slot.item.serial)
  | closeTurn (id : Nat) :
    s.Loses r (.closeTurn id) (s.intake.queue.slots.map fun slot => slot.item.serial)

namespace State

variable {s s₁ s' : State} {batch : Batch Parcel}

namespace Sheds

theorem nothing (hl : s'.journal.lost = s.journal.lost)
    (hd : s'.metrics.spansDropped = s.metrics.spansDropped)
    (hf : ∀ f ∈ s'.flushes, f ∈ s.flushes ∨ f.batch.slots = []) : s.Sheds s' [] where
  lost_eq := by rw [hl, List.append_nil]
  dropped_eq := by simp [hd]
  flushes := hf

/-- Neither was anything lost nor has a flush come or gone. -/
theorem frame (hl : s'.journal.lost = s.journal.lost)
    (hd : s'.metrics.spansDropped = s.metrics.spansDropped) (hf : s'.flushes = s.flushes) :
    s.Sheds s' [] :=
  .nothing hl hd fun _ hmem => .inl (hf ▸ hmem)

theorem refl (s : State) : s.Sheds s [] := .frame rfl rfl rfl

theorem trans {serials more : List Nat} (h₁ : s.Sheds s₁ serials) (h₂ : s₁.Sheds s' more) :
    s.Sheds s' (serials ++ more) where
  lost_eq := by rw [h₂.lost_eq, h₁.lost_eq, List.append_assoc]
  dropped_eq := by
    rw [h₂.dropped_eq, h₁.dropped_eq, List.length_append, UInt64.ofNat_add, UInt64.add_assoc]
  flushes := by
    intro f hmem
    rcases h₂.flushes f hmem with hmem | hnil
    · exact h₁.flushes f hmem
    · exact .inr hnil

theorem endWorker (s : State) (h : batch.slots = []) (crashed : Bool) :
    s.Sheds (s.endWorker batch crashed) [] := by
  rw [endWorker_eq, h]
  exact .frame (List.append_nil _) (by simp [Metrics.record]) rfl

theorem endCycle (s : State) {last : Bool} (h : last = true → batch.slots = []) :
    s.Sheds (s.endCycle batch last) [] := by
  cases last with
  | true => exact endWorker s (h rfl) false
  | false => exact .frame rfl rfl rfl

theorem endFlush (s : State) (id : Nat) (h : batch.slots = []) (error : Option ReporterError) :
    s.Sheds (s.endFlush id batch error) [] := by
  rw [endFlush_eq, h]
  exact .frame (List.append_nil _) (by simp [Metrics.record]) rfl

/-- A send that ends loses its message if it has failed. -/
theorem endSend (r : Reporter) (s : State) (sender : Sender) (message : List Parcel)
    (outcome : Outcome) :
    ∃ serials, s.Sheds (s.endSend r sender message outcome) serials
      ∧ (serials = []
        ∨ ∃ error, outcome = .failed error ∧ serials = message.map Parcel.serial) := by
  cases outcome with
  | sent => exact ⟨[], .frame rfl rfl rfl, .inl rfl⟩
  | failed error =>
    refine ⟨message.map Parcel.serial, ?_, .inr ⟨error, rfl, rfl⟩⟩
    rw [endSend_failed]
    refine ⟨rfl, ?_, fun _ hmem => .inl hmem⟩
    rw [List.length_map]
    rfl
  | crashed => exact ⟨[], .frame rfl rfl rfl, .inl rfl⟩

theorem endClose (s : State) (id : Nat) :
    s.Sheds (s.endClose id) (s.intake.queue.slots.map fun slot => slot.item.serial) := by
  rw [endClose_eq]
  refine ⟨rfl, ?_, fun _ hmem => .inl hmem⟩
  rw [List.length_map]
  rfl

/-- Packing a batch whole loses nothing. -/
theorem packed (r : Reporter) (s : State) (size : Nat) : s.Sheds (s.packed r size none) [] := by
  obtain ⟨metrics, notices, hs, -, hdropped⟩ := packed_eq r s size none
  rw [hs]
  exact .frame (List.append_nil _) (by rw [hdropped]; simp) rfl

end Sheds

/-! ## Cycles and flushes -/

/-- The worker packs its batch whole, if it packs it: then it hands all of it over, and either way
it loses nothing. -/
theorem sendBatch_lossless {last : Bool} (hw : s.packs batch = true → Packing.Whole r batch)
    (hl : last = true → s.closed = true) :
    s.Sheds (s.sendBatch r batch last) []
      ∧ (s.sendBatch r batch last).journal.handovers = s.journal.handovers ++
        if s.packs batch then [⟨.worker, batch.slots.map Slot.item, s.now⟩] else [] := by
  obtain ⟨s', batch', message, hd, hs⟩ := sendBatch_cases r s batch last
  cases hp : s.packs batch with
  | false =>
    rw [dispatch_of_not_packs hp] at hd
    cases hd
    rcases hs with ⟨-, hs⟩ | ⟨hm, -⟩
    · have hgauge : s.Sheds s.gauge [] := .frame rfl rfl rfl
      rw [hs]
      refine ⟨hgauge.trans (.endCycle s.gauge fun h => slots_eq_nil_of_not_packs hp (hl h)), ?_⟩
      rw [if_neg Bool.false_ne_true, List.append_nil]
      cases last with
      | true =>
        rw [endCycle, if_pos rfl, endWorker_eq]
        rfl
      | false => rfl
    · exact absurd rfl hm
  | true =>
    rw [dispatch_of_whole hp (hw hp)] at hd
    cases hd
    rcases hs with ⟨hm, -⟩ | ⟨-, hs⟩
    · exact absurd (List.map_eq_nil_iff.1 hm) (slots_ne_nil_of_packs hp)
    · rw [hs, if_pos rfl]
      exact ⟨(Sheds.packed r s batch.size).trans (.frame rfl rfl rfl), rfl⟩

/-- A turn of the worker hands over all of what it packs, and loses nothing. -/
theorem workerTurn_lossless (hplain : r.SizesPlainly) (hs : s.Reachable r)
    (hexact : s.dock.Exact) :
    s.Sheds (s.workerTurn r) []
      ∧ (s.workerTurn r).journal.handovers = s.journal.handovers ++
        ((s.packing? r).map fun p =>
          (⟨.worker, p.2.slots.map Slot.item, s.now⟩ : Handover)).toList := by
  rcases hf : s.fill r with s' | ⟨s₁, batch, last⟩ | ⟨s₁, batch⟩
  · have hnone : s.packing? r = none := by rw [packing?, hf]
    have hturn : s.workerTurn r = s' := by rw [workerTurn, hf]
    rw [hturn, hnone]
    rcases fill_waits hf with rfl | ⟨fresh, batch, notices, -, -, -, -, rfl⟩
    · exact ⟨.refl s', (List.append_nil _).symm⟩
    · exact ⟨.frame rfl rfl rfl, (List.append_nil _).symm⟩
  · obtain ⟨start, taken, left, hl⟩ := loads_of_fill hf
    have hpacking : s.packing? r = if s₁.packs batch then some (s₁, batch) else none := by
      rw [packing?, hf]
    have hturn : s.workerTurn r = s₁.sendBatch r batch last := by rw [workerTurn, hf]
    obtain ⟨hload, hhandovers, hnow, hclosed⟩ : s.Sheds s₁ []
        ∧ s₁.journal.handovers = s.journal.handovers ∧ s₁.now = s.now ∧ s₁.closed = s.closed := by
      obtain ⟨_, taken', left', signal, notices, -, -, rfl, -⟩ := fill_drains hf
      exact ⟨.frame rfl rfl rfl, rfl, rfl, rfl⟩
    obtain ⟨hsend, hsent⟩ := sendBatch_lossless (hexact.whole_of_loads hplain hs hl)
      fun h => hclosed.trans (hl.closed_of_last h)
    rw [hturn, hpacking]
    refine ⟨hload.trans hsend, ?_⟩
    rw [hsent, hhandovers, hnow]
    cases s₁.packs batch with
    | false => rfl
    | true => rfl
  · have hnone : s.packing? r = none := by rw [packing?, hf]
    have hturn : s.workerTurn r = s₁.endWorker batch true := by rw [workerTurn, hf]
    obtain ⟨slot, left, signal, notices, -, hspill, rfl⟩ := fill_crashes hf
    rw [hturn, hnone, endWorker_of_empty _ hspill.slots_eq]
    exact ⟨.frame rfl rfl rfl, (List.append_nil _).symm⟩

/-- The last cycle of the worker leaves nothing in its batch. -/
theorem dispatch_last (hplain : r.SizesPlainly) (hs : s.Reachable r) (hexact : s.dock.Exact)
    (hf : s.fill r = .over s' batch true) : (s'.dispatch r batch).2.1.slots = [] := by
  obtain ⟨start, taken, left, hl⟩ := loads_of_fill hf
  cases hp : s'.packs batch with
  | false =>
    obtain ⟨signal, hdock⟩ := hl.dock_eq
    have hclosed : s'.dock.closed = true := by
      rw [hdock]
      exact hl.closed_of_last rfl
    rw [dispatch_of_not_packs hp]
    exact slots_eq_nil_of_not_packs hp hclosed
  | true =>
    rw [dispatch_of_whole hp (hexact.whole_of_loads hplain hs hl hp)]
    rfl

/-- What a flush has drained is due at once. -/
theorem packs_of_drains {b : Batch Parcel} {slots left : List (Slot Parcel)}
    (hd : (Batch.offer s.now).Drains (Batch.new r.encoder.encoding r.messageMaxBytes 0) slots
      b.slots left b false)
    (hne : b.slots ≠ []) : s.packs b = true := by
  have hdeadline : b.deadline = some (s.now + 0) :=
    (Batch.gains_of_drains hd).deadline_of_first rfl hne
  have hready : b.isReady s.now = true :=
    Batch.isReady_iff.2 (.inr (.inl ⟨s.now + 0, hdeadline, Nat.le_refl _⟩))
  have hempty : b.isEmpty = false := List.isEmpty_eq_false_iff.2 hne
  rw [packs, hready, hempty]
  rfl

/-- A flush hands over all that it drains, and loses nothing. -/
theorem flush_lossless (hplain : r.SizesPlainly) (hexact : s.dock.Exact) (id : Nat)
    (hopen : s.closed = false) :
    let batch := (s.flushDrain r).2.consumer
    s.Sheds (s.flush r id) []
      ∧ (batch.slots ≠ [] → Packing.Whole r batch)
      ∧ (s.flush r id).journal.handovers = s.journal.handovers ++
        if batch.slots = [] then [] else [⟨.call id, batch.slots.map Slot.item, s.now⟩] := by
  intro batch
  obtain ⟨batch₁, left, hdrains, -, hbatch⟩ := flushDrain_eq r s
  obtain rfl : batch = batch₁ := hbatch
  have hwhole : batch.slots ≠ [] → Packing.Whole r batch :=
    hexact.whole_of_drains hplain hdrains
  obtain ⟨s', batch', message, hd, hs⟩ := flush_of_open r id hopen
  have hdrained : s.Sheds { s with intake := (s.flushDrain r).1 } [] :=
    .frame rfl rfl rfl
  -- a flush that has drained nothing returns at once
  by_cases hne : batch.slots = []
  · rw [dispatch_of_not_packs (not_packs_of_empty hne)] at hd
    cases hd
    rcases hs with ⟨-, hs⟩ | ⟨hm, -⟩
    · have hgauge : s.Sheds (State.gauge { s with intake := (s.flushDrain r).1 }) [] :=
        .frame rfl rfl rfl
      rw [hs]
      refine ⟨hgauge.trans (.endFlush _ id hne none), hwhole, ?_⟩
      rw [if_pos hne, List.append_nil, endFlush_eq]
      rfl
    · exact absurd rfl hm
  · have hp : State.packs { s with intake := (s.flushDrain r).1 } batch = true :=
      packs_of_drains hdrains hne
    rw [dispatch_of_whole hp (hwhole hne)] at hd
    cases hd
    rcases hs with ⟨hm, -⟩ | ⟨-, hs⟩
    · exact absurd (List.map_eq_nil_iff.1 hm) hne
    · rw [hs, if_neg hne]
      refine ⟨(hdrained.trans (.packed r _ batch.size)).trans (.nothing rfl rfl ?_), hwhole, rfl⟩
      intro f hmem
      rcases List.mem_append.1 hmem with hmem | hmem
      · exact .inl hmem
      · rw [List.mem_singleton] at hmem
        rw [hmem]
        exact .inr rfl

/-! ## Events -/

theorem loses_report (r : Reporter) (s : State) (span : Span) :
    ∃ serials, s.Loses r (.report span) serials ∧ s.Sheds (s.report r span) serials := by
  obtain ⟨started, latch, worker, hstart⟩ := startWorker_frame r s
  rcases report_cases r s span with ⟨hcause, hr⟩ | ⟨-, intake, -, hr⟩
  · refine ⟨[s.journal.reported.length], ?_, ?_⟩
    · rcases hcause with hrejects | hfull
      · rw [rejects, Bool.or_eq_true, decide_eq_true_eq] at hrejects
        rcases hrejects with hclosed | hbig
        · exact .closed span hclosed
        · exact .tooBig span hbig
      · exact .noRoom span hfull
    · rw [hr, lose_eq, hstart]
      exact ⟨rfl, rfl, fun _ hmem => .inl hmem⟩
  · refine ⟨[], .nothing _, ?_⟩
    rw [hr, hstart]
    exact .frame rfl rfl rfl

theorem loses_workerSendEnds (hexact : s.dock.Exact) (outcome : Outcome) :
    ∃ serials, s.Loses r (.sendEnds .worker outcome) serials
      ∧ s.Sheds (s.workerSendEnds r outcome) serials := by
  rcases workerSendEnds_cases r s outcome with hsame | ⟨batch, message, last, hw, hs⟩
  · rw [hsame]
    exact ⟨[], .nothing _, .refl s⟩
  · have hnil : batch.slots = [] := hexact.sending batch message last hw
    obtain ⟨serials, hsend, hcause⟩ := Sheds.endSend r s .worker message outcome
    refine ⟨serials, ?_, ?_⟩
    · rcases hcause with rfl | ⟨error, rfl, rfl⟩
      · exact .nothing _
      · exact .workerFails batch message last error hw
    · rw [← List.append_nil serials]
      rcases hs with ⟨-, hs⟩ | ⟨notices, crashed, hs⟩
      · rw [hs]
        exact hsend.trans (.endCycle _ fun _ => hnil)
      · have hnoted : s.Sheds { s.endSend r .worker message outcome with notices } serials :=
          ⟨hsend.lost_eq, hsend.dropped_eq, hsend.flushes⟩
        rw [hs]
        exact hnoted.trans (.endWorker _ hnil crashed)

theorem loses_flushSendEnds (hflushes : ∀ f ∈ s.flushes, f.batch.slots = []) (id : Nat)
    (outcome : Outcome) :
    ∃ serials, s.Loses r (.sendEnds (.call id) outcome) serials
      ∧ s.Sheds (s.flushSendEnds r id outcome) serials := by
  rcases flushSendEnds_cases r s id outcome with
    hsame | ⟨f, before, after, s', hsplit, rfl, rfl, hs⟩
  · rw [hsame]
    exact ⟨[], .nothing _, .refl s⟩
  · have hmem : f ∈ s.flushes := by
      rw [hsplit]
      exact List.mem_append_right _ List.mem_cons_self
    -- the flush goes off the list before the end of its send is taken note of
    have htaken : s.Sheds { s with flushes := before ++ after } [] := by
      refine .nothing rfl rfl fun g hg => .inl ?_
      rw [hsplit]
      exact ((List.sublist_cons_self f after).append_left before).subset hg
    obtain ⟨serials, hsend, hcause⟩ :=
      Sheds.endSend r { s with flushes := before ++ after } (.call f.id) f.message outcome
    refine ⟨serials, ?_, ?_⟩
    · rcases hcause with rfl | ⟨error, rfl, rfl⟩
      · exact .nothing _
      · exact .flushFails f error hmem
    · have hended := htaken.trans hsend
      rcases hs with ⟨-, hs⟩ | ⟨-, error, hs⟩
      · rw [hs]
        exact ⟨hended.lost_eq, hended.dropped_eq, hended.flushes⟩
      · rw [hs, ← List.append_nil serials]
        exact hended.trans (.endFlush _ f.id (hflushes f hmem) error)

theorem loses_close (r : Reporter) (s : State) (id : Nat) :
    ∃ serials, s.Loses r (.close id) serials ∧ s.Sheds (s.close r id) serials := by
  rcases close_cases r s id with ⟨-, hs⟩ | ⟨-, notices, hs⟩ | ⟨-, hs⟩
  · rw [hs]
    exact ⟨[], .nothing _, .frame rfl rfl rfl⟩
  · have hshut : s.Sheds { s.shut with notices } [] := .frame rfl rfl rfl
    rw [hs]
    exact ⟨_, .close id, hshut.trans (.endClose { s.shut with notices } id)⟩
  · rw [hs]
    exact ⟨[], .nothing _, .frame rfl rfl rfl⟩

theorem loses_closeTurn (r : Reporter) (s : State) (id : Nat) :
    ∃ serials, s.Loses r (.closeTurn id) serials ∧ s.Sheds (s.closeTurn r id) serials := by
  rcases closeTurn_cases r s id with hs | ⟨c, notices, -, -, -, hs⟩
  · rw [hs]
    exact ⟨[], .nothing _, .refl s⟩
  · have hended := Sheds.endClose { s with notices } id
    rw [hs]
    exact ⟨_, .closeTurn id, hended.lost_eq, hended.dropped_eq, hended.flushes⟩

/-- An event loses spans only for one of the reasons that `Loses` names. -/
theorem loses_step (hplain : r.SizesPlainly) (hs : s.Reachable r) (hexact : s.dock.Exact)
    (hflushes : ∀ f ∈ s.flushes, f.batch.slots = []) (e : Event) :
    ∃ serials, s.Loses r e serials ∧ s.Sheds (s.step r e) serials := by
  cases e with
  | report span => exact loses_report r s span
  | flush id =>
    refine ⟨[], .nothing _, ?_⟩
    cases hc : s.closed with
    | true =>
      show s.Sheds (s.flush r id) []
      rw [flush, if_pos hc]
      exact .frame rfl rfl rfl
    | false => exact (flush_lossless hplain hexact id hc).1
  | close id => exact loses_close r s id
  | drop =>
    refine ⟨[], .nothing _, ?_⟩
    show s.Sheds s.drop []
    rw [drop]
    split
    · exact .frame rfl rfl rfl
    · exact .frame rfl rfl rfl
  | workerTurn => exact ⟨[], .nothing _, (workerTurn_lossless hplain hs hexact).1⟩
  | closeTurn id => exact loses_closeTurn r s id
  | sendEnds sender outcome =>
    cases sender with
    | worker => exact loses_workerSendEnds hexact outcome
    | call id => exact loses_flushSendEnds hflushes id outcome
  | pass time => exact ⟨[], .nothing _, .frame rfl rfl rfl⟩

theorem Reachable.dock_exact (hplain : r.SizesPlainly) (he : r.encoder.Exact) (h : s.Reachable r) :
    s.dock.Exact :=
  h.dock_induction (P := Dock.Exact) (.initial r) (fun _ _ hd hp => hp.happens he hd)
    fun _ hs hp => hp.workerTurn hplain hs

/-- A flush that is under way holds nothing in its batch. -/
theorem Reachable.flushes_empty (hplain : r.SizesPlainly) (he : r.encoder.Exact)
    (h : s.Reachable r) : ∀ f ∈ s.flushes, f.batch.slots = [] := by
  have hboth : s.Reachable r ∧ ∀ f ∈ s.flushes, f.batch.slots = [] := by
    refine h.induction (P := fun s => s.Reachable r ∧ ∀ f ∈ s.flushes, f.batch.slots = [])
      ⟨reachable_initial r, fun _ hmem => by cases hmem⟩ ?_
    rintro s e ⟨hs, hflushes⟩
    obtain ⟨serials, -, hsheds⟩ := loses_step hplain hs (hs.dock_exact hplain he) hflushes e
    refine ⟨hs.step e, fun f hmem => ?_⟩
    rcases hsheds.flushes f hmem with hold | hnil
    · exact hflushes f hold
    · exact hnil
  exact hboth.2

/-- Over a transport that sizes messages as their encoding does, and with an encoder that announces
what it writes, every message holds all of the batch that it is packed from, be it of the worker or
of a flush, and nothing stays in the batch. So a flush and a worker that ends have nothing to drop,
and each event loses and counts only spans that `Loses` names. -/
theorem packs_lossless {order : Order} (hb : order.build = .ok r)
    (hu : order.transport.UsualSizing) (he : r.encoder.Exact) (hs : s.Reachable r) :
    ((∀ s' batch, s.packing? r = some (s', batch) → Packing.Whole r batch)
        ∧ (s.workerTurn r).journal.handovers = s.journal.handovers ++
          ((s.packing? r).map fun p =>
            (⟨.worker, p.2.slots.map Slot.item, s.now⟩ : Handover)).toList)
      ∧ (s.closed = false → ∀ id,
        let batch := (s.flushDrain r).2.consumer
        (batch.slots ≠ [] → Packing.Whole r batch)
          ∧ (s.flush r id).journal.handovers = s.journal.handovers ++
            if batch.slots = [] then [] else [⟨.call id, batch.slots.map Slot.item, s.now⟩])
      ∧ (∀ f ∈ s.flushes, f.batch.slots = [])
      ∧ (∀ batch message last, s.worker = .sending batch message last → batch.slots = [])
      ∧ (∀ s' batch, s.fill r = .over s' batch true → (s'.dispatch r batch).2.1.slots = [])
      ∧ ∀ e, ∃ serials, s.Loses r e serials
        ∧ (s.step r e).journal.lost = s.journal.lost ++ serials
        ∧ (s.step r e).metrics.spansDropped =
          s.metrics.spansDropped + UInt64.ofNat serials.length := by
  have hplain : r.SizesPlainly := Order.sizesPlainly hb hu
  have hexact : s.dock.Exact := hs.dock_exact hplain he
  have hflushes := hs.flushes_empty hplain he
  refine ⟨⟨?_, (workerTurn_lossless hplain hs hexact).2⟩, ?_, hflushes, hexact.sending, ?_, ?_⟩
  · intro s' batch hpacking
    obtain ⟨last, hfill, hpacks⟩ := packing?_eq_some.1 hpacking
    obtain ⟨start, taken, left, hl⟩ := loads_of_fill hfill
    exact hexact.whole_of_loads hplain hs hl hpacks
  · exact fun hopen id => (flush_lossless hplain hexact id hopen).2
  · exact fun s' batch hfill => dispatch_last hplain hs hexact hfill
  · intro e
    obtain ⟨serials, hloses, hsheds⟩ := loses_step hplain hs hexact hflushes e
    exact ⟨serials, hloses, hsheds.lost_eq, hsheds.dropped_eq⟩

end State

/-- Spans of two bytes, in JSON messages that have room for two of them. -/
def Order.roomy : Order where
  transport := .memory .json 7
  settings := { messageTimeout := 1 }
  encoder := some { encoding := .json, size := fun _ => 2, encode := fun _ => [7, 7] }

/-- The worker hands over the first two of three spans, and no event loses a span by packing. -/
theorem State.roomy_lossless :
    ∃ r, Order.roomy.build = .ok r ∧
      let span : Span := default
      let s := (initial r).run r [.report span, .report span, .report span]
      ((s.workerTurn r).journal.handovers.map fun h => h.message.map Parcel.serial) = [[0, 1]]
        ∧ (∀ s' batch, s.packing? r = some (s', batch) → Packing.Whole r batch)
        ∧ ∀ e, ∃ serials, s.Loses r e serials
          ∧ (s.step r e).journal.lost = s.journal.lost ++ serials := by
  refine ⟨_, rfl, by decide +kernel, ?_⟩
  have hb : Order.roomy.build = .ok _ := rfl
  have hu : Order.roomy.transport.UsualSizing := Transport.plain_usualSizing _ _ _
  obtain ⟨⟨hwhole, -⟩, -, -, -, -, hloses⟩ := packs_lossless hb hu (fun _ => rfl) ⟨_, rfl⟩
  refine ⟨hwhole, fun e => ?_⟩
  obtain ⟨serials, hserials, hlost, -⟩ := hloses e
  exact ⟨serials, hserials, hlost⟩

end SpanCourier
