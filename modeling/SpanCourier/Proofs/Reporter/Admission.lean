import SpanCourier.Proofs.Reporter.Plan

set_option autoImplicit false

/-! # Spans that are queued go out

Whether a span is queued is decided by what the transport says of a message of its own; whether a
drain takes it, by what the encoding says of a message that has it. Where the transport never finds
a span small enough that is too big in the encoding (`Reporter.SinglesFit`), whatever is queued fits
into an empty batch, and every flush takes at least one span out of the queue.

Where it does, such a span gets into the queue and never out of it: no batch takes it, and every
span behind it has to wait for it (`State.Reachable.stuck_run`).
-/

namespace SpanCourier

variable {r : Reporter}

/-- An empty batch refuses an item just if a message of its own is over the limit, and takes any
other whose deadline the clock can name. -/
theorem Batch.offer_new (encoding : Encoding) (maxBytes : Nat) (timeout : Duration) (now : Instant)
    (slot : Slot Parcel) :
    (Batch.offer now (Batch.new encoding maxBytes timeout) slot.item slot.size).1 =
      if maxBytes < encoding.singleSize slot.size then .refused
      else if now + timeout ≤ Instant.last then .taken else .crashed := by
  have hsize : (Batch.new encoding maxBytes timeout : Batch Parcel).sizeWith slot.size =
      encoding.singleSize slot.size := by
    rw [(Sound.new encoding maxBytes timeout).sizeWith_eq, ← Encoding.listSize_singleton]
    rfl
  rcases offer_cases now (Batch.new encoding maxBytes timeout) slot with
    ⟨hover, ho⟩ | ⟨hfits, hlast, ho⟩ | ⟨hfits, hlast, ho⟩
  · rw [hsize] at hover
    rw [ho]
    exact (if_pos hover).symm
  · rw [hsize] at hfits
    have hlate : Instant.last < now + timeout := (outlasts_eq_true.1 hlast).2
    rw [ho]
    exact ((if_neg (Nat.not_lt_of_le hfits)).trans (if_neg (Nat.not_le_of_lt hlate))).symm
  · rw [hsize] at hfits
    have hnamed : now + timeout ≤ Instant.last := by
      apply Nat.le_of_not_lt
      intro hlate
      rw [outlasts_eq_true.2 ⟨rfl, hlate⟩] at hlast
      cases hlast
    rw [ho]
    exact ((if_neg (Nat.not_lt_of_le hfits)).trans (if_pos hnamed)).symm

/-! ## A queue that is stuck -/

/-- The head of the queue is too big for any message in the encoding. -/
def Reporter.Chokes (r : Reporter) (slots : List (Slot Parcel)) : Prop :=
  ∃ slot rest, slots = slot :: rest ∧ r.messageMaxBytes < r.encoder.encoding.singleSize slot.size

/-- No batch of the reporter takes anything from behind such a head. -/
theorem Batch.MadeFor.refuses_of_chokes {timeout : Duration} {b : Batch Parcel}
    {slots : List (Slot Parcel)} (hmade : b.MadeFor r timeout) (h : r.Chokes slots) :
    b.Refuses slots := by
  obtain ⟨slot, rest, rfl, hover⟩ := h
  refine hmade.refuses_iff.2 ⟨slot, rest, rfl, Nat.lt_of_lt_of_le hover ?_⟩
  calc r.encoder.encoding.singleSize slot.size
      = r.encoder.encoding.listSize [slot.size] := (Encoding.listSize_singleton _ _).symm
    _ ≤ r.encoder.encoding.listSize (b.sizes ++ [slot.size]) :=
        r.encoder.encoding.listSize_le_append_left _ _

/-- While the reporter is open, these items stand at the front of the queue. -/
def Dock.FrontedBy (slots : List (Slot Parcel)) (d : Dock) : Prop :=
  d.closed = false → slots <+: d.slots

theorem Reporter.Chokes.append {slots more : List (Slot Parcel)} (h : r.Chokes slots) :
    r.Chokes (slots ++ more) := by
  obtain ⟨slot, rest, rfl, hover⟩ := h
  exact ⟨slot, rest ++ more, rfl, hover⟩

theorem Dock.FrontedBy.happens {slots : List (Slot Parcel)} (hchokes : r.Chokes slots) {d d' : Dock}
    (hd : d.Happens r d') (h : d.FrontedBy slots) : d'.FrontedBy slots := by
  cases hd with
  | pass now goes => exact h
  | hire => exact h
  | refuse => exact h
  | enqueue span isOpen fits => exact fun hopen => (h hopen).trans (List.prefix_append _ _)
  | flush batch left isOpen drains =>
    intro hopen
    obtain ⟨more, hmore⟩ := h hopen
    have hrefuses : Batch.Refuses (Batch.new r.encoder.encoding r.messageMaxBytes 0) d.slots := by
      rw [← hmore]
      exact (Batch.MadeFor.new r 0).refuses_of_chokes hchokes.append
    have hnone := hrefuses.taken_eq_nil drains
    have hleft := drains.append_eq
    rw [hnone, List.nil_append] at hleft
    rw [hleft]
    exact h hopen
  | shut => exact fun hopen => by cases hopen
  | clear isClosed => exact fun hopen => absurd (hopen.symm.trans isClosed) Bool.false_ne_true
  | sent batch message sending => exact h
  | leave => exact h

namespace State

variable {s s' : State}

theorem Reachable.fronted_step (h : s.Reachable r) {slots : List (Slot Parcel)}
    (hchokes : r.Chokes slots) (hfront : s.dock.FrontedBy slots) (e : Event) :
    (s.step r e).dock.FrontedBy slots := by
  refine keeps_step (P := Dock.FrontedBy slots) (fun _ _ hd hp => hp.happens hchokes hd) h hfront e
    fun _ => ?_
  rcases dock_workerTurn r s with hs | ⟨fresh, batch, -, -, -, -, hs⟩ |
    ⟨batch, taken, left, s₁, batch₁, last, s₂, batch₂, message, hl, -, hs⟩ |
    ⟨batch, slot, left, signal, hb, hspill, hs⟩
  · rw [hs]
    exact hfront
  · rw [hs]
    exact hfront
  · obtain ⟨signal, hdock⟩ := hl.dock_eq
    rw [hs, hdock]
    intro hopen
    obtain ⟨more, hmore⟩ := hfront hopen
    -- whatever batch the worker brings along, its drain takes nothing from behind the head
    have hqueue := hl.slots_eq.2
    have hnone : taken = [] := by
      rcases hl.drains with hd | ⟨_, _, -, -, -, hnone, -, -⟩
      · obtain ⟨events, rfl⟩ := h
        have hmade := ((tended_run r events).own batch (Worker.own?_of_batch? hl.batch_eq)).made
        have hrefuses : batch.Refuses ((initial r).run r events).intake.queue.slots := by
          rw [show ((initial r).run r events).intake.queue.slots = slots ++ more from hmore.symm]
          exact hmade.refuses_of_chokes hchokes.append
        exact hrefuses.taken_eq_nil hd
      · exact hnone
    rw [hnone, List.nil_append] at hqueue
    show slots <+: left
    rw [← hqueue]
    exact hfront hopen
  · rw [hs]
    intro hopen
    -- a head that is too big is refused before any deadline is looked at
    obtain ⟨more, hmore⟩ := hfront hopen
    obtain ⟨events, rfl⟩ := h
    have hmade := ((tended_run r events).own batch (Worker.own?_of_batch? hb)).made
    have hchokes' : r.Chokes ((initial r).run r events).intake.queue.slots := by
      rw [show ((initial r).run r events).intake.queue.slots = slots ++ more from hmore.symm]
      exact hchokes.append
    obtain ⟨head, rest, hqueue, hover⟩ := hmade.refuses_of_chokes hchokes'
    rw [hspill.queue_eq] at hqueue
    cases hqueue
    exact absurd hspill.fits (Nat.not_le_of_lt hover)

/-- As long as the reporter is open, a queue whose head is too big keeps all that is in it. -/
theorem Reachable.stuck_run (h : s.Reachable r) (hchokes : r.Chokes s.intake.queue.slots)
    (later : List Event) (hopen : (s.run r later).closed = false) :
    s.intake.queue.slots <+: (s.run r later).intake.queue.slots := by
  have hrun : ∀ (later : List Event) (t : State), t.Reachable r →
      t.dock.FrontedBy s.intake.queue.slots →
      (t.run r later).dock.FrontedBy s.intake.queue.slots := by
    intro later
    induction later with
    | nil => exact fun _ _ hfront => hfront
    | cons e rest ih =>
      exact fun t ht hfront => ih _ (ht.step e) (ht.fronted_step hchokes hfront e)
  exact hrun later s h (fun _ => List.prefix_refl _) hopen

/-! ## A queue that is drained -/

/-- Events that only drain leave an open reporter open, and add nothing to the queue. -/
theorem Reachable.drains_step (h : s.Reachable r) (hopen : s.closed = false) {e : Event}
    (hd : e.drains = true) :
    (s.step r e).closed = false ∧ ∃ taken, s.queued = taken ++ (s.step r e).queued := by
  obtain ⟨taken, hqueue⟩ := (serves_of_drains h hopen hd).queue_eq
  refine ⟨?_, taken.map Slot.item, ?_⟩
  · rw [(serves_of_drains h hopen hd).closed_eq]
    exact hopen
  · rw [queued, hqueue, List.map_append]
    rfl

/-- Nothing that only drains takes anything out of a queue whose head is too big. -/
theorem Reachable.stuck_of_drains (h : s.Reachable r) (hopen : s.closed = false)
    (hchokes : r.Chokes s.intake.queue.slots) {later : List Event}
    (hl : ∀ e ∈ later, e.drains = true) : (s.run r later).queued = s.queued := by
  have hrun : ∀ (later : List Event) (t : State), t.Reachable r → t.closed = false →
      (∀ e ∈ later, e.drains = true) →
      (t.run r later).closed = false ∧ (t.run r later).queued.length ≤ t.queued.length := by
    intro later
    induction later with
    | nil => exact fun _ _ hopen _ => ⟨hopen, Nat.le_refl _⟩
    | cons e rest ih =>
      intro t ht hopen hl
      obtain ⟨he, hrest⟩ := List.forall_mem_cons.1 hl
      obtain ⟨hstill, taken, hqueue⟩ := ht.drains_step hopen he
      obtain ⟨hlater, hle⟩ := ih _ (ht.step e) hstill hrest
      refine ⟨hlater, Nat.le_trans hle ?_⟩
      rw [hqueue, List.length_append]
      exact Nat.le_add_left _ _
  -- the front is kept and nothing has joined it, so the queue is what it was
  obtain ⟨hlater, hle⟩ := hrun later s h hopen hl
  have hkept := (h.stuck_run hchokes later hlater).map Slot.item
  exact (hkept.eq_of_length_le hle).symm

/-- A flush takes spans out of the queue, from its front, and at least one if there are any. -/
theorem Reachable.flush_takes (h : s.Reachable r) (hfit : r.SinglesFit) (hopen : s.closed = false)
    (id : Nat) :
    ∃ taken, s.queued = taken ++ (s.flush r id).queued ∧ (s.queued ≠ [] → taken ≠ []) := by
  obtain ⟨batch, left, hd, -, hleft, -⟩ := flush_drains (r := r) hopen id
  have hslots := hd.append_eq
  refine ⟨batch.slots.map Slot.item, ?_, fun hne hnone => ?_⟩
  · rw [queued, queued, hleft, ← hslots, List.map_append]
  · -- a drain that takes nothing was refused by the empty batch of the flush
    have hempty := List.map_eq_nil_iff.1 hnone
    have hgains := Batch.gains_of_drains hd
    rw [hempty, List.nil_append] at hslots
    have hsome : left ≠ [] := by
      rw [hslots]
      exact mt (congrArg (List.map Slot.item)) hne
    have hmade := (Batch.MadeFor.new r 0).gains hgains
    refine h.not_refuses hfit hmade hempty ?_ (hgains.refuses hsome)
    intro slot hmem
    rwa [← hslots]

/-- As many flushes as there are spans in the queue empty it, whatever else drains it between them.
-/
theorem Reachable.emptied_by_flushes (h : s.Reachable r) (hfit : r.SinglesFit)
    (hopen : s.closed = false) {later : List Event} (hl : ∀ e ∈ later, e.drains = true)
    (hn : s.queued.length ≤ later.countP Event.flushes) : (s.run r later).queued = [] := by
  induction later generalizing s with
  | nil => exact List.eq_nil_of_length_eq_zero (Nat.le_zero.1 hn)
  | cons e rest ih =>
    obtain ⟨he, hrest⟩ := List.forall_mem_cons.1 hl
    obtain ⟨hstill, taken, hqueue⟩ := h.drains_step hopen he
    refine ih (h.step e) hstill hrest ?_
    show (s.step r e).queued.length ≤ _
    have hlength := congrArg List.length hqueue
    rw [List.length_append] at hlength
    by_cases hf : e.flushes = true
    · rw [List.countP_cons_of_pos hf] at hn
      cases e with
      | flush id =>
        obtain ⟨took, htook, hsome⟩ := h.flush_takes hfit hopen id
        have hless := congrArg List.length htook
        rw [List.length_append] at hless
        by_cases hne : s.queued = []
        · rw [hne, List.length_nil] at hlength
          omega
        · have hpos := List.length_pos_iff.2 (hsome hne)
          show (s.flush r id).queued.length ≤ _
          omega
      | _ => cases hf
    · rw [List.countP_cons_of_neg hf] at hn
      omega

/-- Where no span that the transport admits is too big in the encoding, every span in the queue fits
into an empty batch, which takes it if the clock can name its deadline. So a flush of an open
reporter takes at least one span out of a queue that is not empty, and enough flushes empty it. -/
theorem queued_spans_go_out (hfit : r.SinglesFit) (hs : s.Reachable r) :
    (∀ slot ∈ s.intake.queue.slots, ∀ now timeout,
        (Batch.offer now (Batch.new r.encoder.encoding r.messageMaxBytes timeout)
          slot.item slot.size).1 = if now + timeout ≤ Instant.last then .taken else .crashed)
      ∧ (s.closed = false → ∀ id,
        ∃ taken, s.queued = taken ++ (s.flush r id).queued ∧ (s.queued ≠ [] → taken ≠ []))
      ∧ (s.closed = false → ∀ later : List Event, (∀ e ∈ later, e.drains = true) →
        s.queued.length ≤ later.countP Event.flushes → (s.run r later).queued = []) := by
  refine ⟨fun slot hmem now timeout => ?_, hs.flush_takes hfit, fun hopen later =>
    hs.emptied_by_flushes hfit hopen⟩
  rw [Batch.offer_new, if_neg (Nat.not_lt_of_le (hfit _ (hs.fitsAlone slot hmem)))]

/-- Two flushes for two spans that fit into one message each. -/
theorem patient_goes_out :
    let span : Span := default
    let s := (initial .patient).run .patient (List.replicate 4 (.report span))
    let later : List Event :=
      [.flush 1, .sendEnds (.call 1) .sent, .pass 1, .flush 2, .flush 3, .flush 4]
    s.queued.length = 4 ∧ (s.flush .patient 1).queued.length = 1
      ∧ (s.run .patient later).queued = [] := by
  intro span s later
  have hs : s.Reachable .patient := ⟨_, rfl⟩
  have hfit : Reporter.patient.SinglesFit := fun _ hle => hle
  obtain ⟨-, -, hempty⟩ := queued_spans_go_out hfit hs
  refine ⟨by decide +kernel, by decide +kernel, ?_⟩
  exact hempty (by decide +kernel) later (by decide +kernel) (by decide +kernel)

end State

/-- An order for a transport that finds no message of one span too big. -/
def Order.undersized : Order where
  transport := .padded .json Transport.usualMaxBytes 0 (some 0)
  settings := { messageMaxBytes := some 5, messageTimeout := 0 }
  encoder := some (.nameOnly .json)

/-- What is built from it. -/
def Reporter.undersized : Reporter where
  encoder := .nameOnly .json
  transport := .padded .json Transport.usualMaxBytes 0 (some 0)
  messageMaxBytes := 5
  messageTimeout := 0
  closeTimeout := Duration.second
  queuedMaxSpans := 10000
  queuedMaxBytes := some (4 * 1024 * 1024)

/-- A span of ten bytes gets into the queue, where no message has more than five. An empty batch
refuses it, and no number of flushes takes it, or the small span behind it, out of the queue. -/
theorem State.undersized_stalls :
    let big : Span := { (default : Span) with name := some "aaaaaaaaaa" }
    let small : Span := { (default : Span) with name := some "b" }
    let s := (initial .undersized).run .undersized [.report big, .report small]
    Order.undersized.build = .ok .undersized
      ∧ s.closed = false
      ∧ s.intake.queue.slots.map Slot.size = [10, 1]
      ∧ s.intake.queue.slots.map (fun slot =>
          (Batch.offer s.now (Batch.new .json 5 0) slot.item slot.size).1) = [.refused, .taken]
      ∧ ∀ calls : List Nat, (s.run .undersized (calls.map .flush)).queued = s.queued := by
  intro big small s
  have hopen : s.closed = false := by decide +kernel
  have hsizes : s.intake.queue.slots.map Slot.size = [10, 1] := by decide +kernel
  have hs : s.Reachable .undersized := ⟨_, rfl⟩
  refine ⟨rfl, hopen, hsizes, by decide +kernel, fun calls => ?_⟩
  obtain ⟨slot, rest, hqueue, hsize, -⟩ := List.map_eq_cons_iff.1 hsizes
  have hchokes : Reporter.undersized.Chokes s.intake.queue.slots :=
    ⟨slot, rest, hqueue, by rw [hsize]; decide⟩
  refine hs.stuck_of_drains hopen hchokes fun e hmem => ?_
  obtain ⟨id, -, rfl⟩ := List.mem_map.1 hmem
  rfl

end SpanCourier
