import SpanCourier.Proofs.Reporter.Dock

set_option autoImplicit false

/-! # The batch of the worker

What the worker holds goes through cycles: its batch grows by what is queued, is packed, and may
keep what a message could not carry. `Dock.Tends` says what is true of the batch between two turns:
if it is full, that is because the head of the queue fits into no message; a deadline runs since
its oldest span went on board; and what has no deadline was left behind by a packing.
`Dock.Waits` says what is true while the worker waits. Both are kept by all that can happen
(`Dock.Tended.happens`) and by a turn of the worker (`Dock.Tended.workerTurn`), hence by every run
(`State.tended_run`).

The batch crashes only over a deadline that the clock cannot name. As time goes on, none has crashed
as long as the clock can name the deadline that would be set now (`State.Reachable.spilled_eq_nil`).
-/

namespace SpanCourier

/-! ## Batches of a reporter -/

/-- A batch for the messages of this reporter, in good order. -/
structure Batch.MadeFor (r : Reporter) (timeout : Duration) (b : Batch Parcel) : Prop where
  encoding_eq : b.encoding = r.encoder.encoding
  maxBytes_eq : b.maxBytes = r.messageMaxBytes
  timeout_eq : b.timeout = timeout
  sound : b.Sound

namespace Batch.MadeFor

variable {r : Reporter} {timeout : Duration} {b b' : Batch Parcel}

theorem new (r : Reporter) (timeout : Duration) :
    (Batch.new r.encoder.encoding r.messageMaxBytes timeout).MadeFor r timeout :=
  ⟨rfl, rfl, rfl, .new _ _ _⟩

theorem gains {now : Instant} {taken left : List (Slot Parcel)} (h : b.MadeFor r timeout)
    (hg : Gains now b b' taken left) : b'.MadeFor r timeout :=
  ⟨hg.encoding_eq.trans h.encoding_eq, hg.maxBytes_eq.trans h.maxBytes_eq,
    hg.timeout_eq.trans h.timeout_eq, hg.sound h.sound⟩

/-- A new batch is still in good order after a drain. -/
theorem of_drains {now : Instant} {slots left : List (Slot Parcel)}
    (hd : (offer now).Drains (.new r.encoder.encoding r.messageMaxBytes timeout) slots b.slots left
      b false) : b.MadeFor r timeout :=
  (new r timeout).gains (gains_of_drains hd)

theorem leave {taken left : List (Slot Parcel)} (h : b.MadeFor r timeout)
    (hslots : b.slots = taken ++ left) (full : Bool) : (b.leave full left).MadeFor r timeout :=
  ⟨h.encoding_eq, h.maxBytes_eq, h.timeout_eq, h.sound.leave hslots full⟩

theorem size_eq (h : b.MadeFor r timeout) : b.size = r.encoder.encoding.listSize b.sizes := by
  rw [h.sound.size_eq, h.encoding_eq]

theorem refuses_iff (h : b.MadeFor r timeout) {slots : List (Slot Parcel)} :
    b.Refuses slots ↔
      ∃ slot rest, slots = slot :: rest
        ∧ r.messageMaxBytes < r.encoder.encoding.listSize (b.sizes ++ [slot.size]) := by
  simp only [Refuses, h.sound.sizeWith_eq, h.maxBytes_eq, h.encoding_eq]

end Batch.MadeFor

/-! ## Between two turns -/

/-- The deadline runs since the oldest item of the batch went on board. -/
def Dock.RunsSince (r : Reporter) (d : Dock) (batch : Batch Parcel) (deadline : Instant) : Prop :=
  ∃ slot rest time, batch.slots = slot :: rest
    ∧ d.boarded.lookup slot.item.serial = some time ∧ deadline = time + r.messageTimeout

/-- What the batch of the worker is like between two turns. What has no deadline is `known` to have
been left over. -/
structure Dock.Tends (r : Reporter) (known : List (Slot Parcel) → Prop) (d : Dock)
    (batch : Batch Parcel) : Prop where
  made : batch.MadeFor r r.messageTimeout
  stuck : batch.full = true → batch.slots = [] ∧ (d.closed = false → batch.Refuses d.slots)
  leftover : batch.deadline = none → batch.slots ≠ [] → known batch.slots
  since : ∀ deadline, batch.deadline = some deadline → d.RunsSince r batch deadline

/-- What is true of a worker that waits: it has been notified or there is nothing to be notified of;
and when it began to wait, its batch was not due. -/
structure Dock.Waits (d : Dock) (batch : Batch Parcel) (since deadline : Instant) : Prop where
  awake : d.signal.waiter = .notified ∨ d.signal.waiter = .waiting ∧ d.slots = []
  not_full : batch.full = false
  early : batch.remaining since ≠ 0
  deadline_eq : deadline = since + batch.remaining since
  since_le : since ≤ d.now

/-- The worker holds its batch as it should, and waits as it should. -/
structure Dock.Tended (r : Reporter) (known : List (Slot Parcel) → Prop) (d : Dock) : Prop where
  own : ∀ batch, d.worker.own? = some batch → d.Tends r known batch
  waiting : ∀ batch since deadline,
    d.worker = .parked batch since deadline → d.Waits batch since deadline

namespace Dock

variable {r : Reporter} {known known' : List (Slot Parcel) → Prop} {d d' : Dock}
  {batch : Batch Parcel}

theorem RunsSince.of_boarded {deadline : Instant} (h : d.RunsSince r batch deadline)
    (hb : d'.boarded = d.boarded) : d'.RunsSince r batch deadline := by
  obtain ⟨slot, rest, time, hslots, hlookup, htime⟩ := h
  exact ⟨slot, rest, time, hslots, by rw [hb]; exact hlookup, htime⟩

namespace Tends

theorem new (d : Dock) :
    d.Tends r known (.new r.encoder.encoding r.messageMaxBytes r.messageTimeout) where
  made := .new r r.messageTimeout
  stuck := fun h => absurd h Bool.false_ne_true
  leftover := fun _ h => absurd rfl h
  since := fun _ h => by cases h

theorem mono (h : d.Tends r known batch) (hk : ∀ slots, known slots → known' slots) :
    d.Tends r known' batch where
  made := h.made
  stuck := h.stuck
  leftover := fun hd hs => hk _ (h.leftover hd hs)
  since := h.since

/-- A dock at which nothing has gone on board, and which still holds what the batch cannot take. -/
theorem of_boarded (h : d.Tends r known batch) (hb : d'.boarded = d.boarded)
    (hr : d'.closed = false → d.closed = false
      ∧ (batch.slots = [] → batch.Refuses d.slots → batch.Refuses d'.slots)) :
    d'.Tends r known batch where
  made := h.made
  stuck := by
    intro hfull
    obtain ⟨hempty, hrefuses⟩ := h.stuck hfull
    refine ⟨hempty, fun hopen => ?_⟩
    obtain ⟨hopen', hstill⟩ := hr hopen
    exact hstill hempty (hrefuses hopen')
  leftover := h.leftover
  since := fun deadline hd => (h.since deadline hd).of_boarded hb

end Tends

namespace Tended

theorem initial (r : Reporter) : (State.initial r).dock.Tended r known := by
  constructor
  · intro batch hown
    cases hown
  · intro batch since deadline hparked
    cases hparked

theorem mono (h : d.Tended r known) (hk : ∀ slots, known slots → known' slots) :
    d.Tended r known' :=
  ⟨fun batch hown => (h.own batch hown).mono hk, h.waiting⟩

/-- Something happens to the queue, the signal or the clock. -/
theorem of_worker (h : d.Tended r known) (hw : d'.worker = d.worker)
    (hb : d'.boarded = d.boarded)
    (hr : d'.closed = false → d.closed = false
      ∧ ∀ batch : Batch Parcel, batch.MadeFor r r.messageTimeout → batch.slots = [] →
        batch.Refuses d.slots → batch.Refuses d'.slots)
    (ha : d.signal.waiter ≠ .absent →
      d'.signal.waiter = .notified
        ∨ d'.signal.waiter = d.signal.waiter ∧ (d.slots = [] → d'.slots = []))
    (hn : d.now ≤ d'.now) : d'.Tended r known := by
  constructor
  · intro batch hown
    rw [hw] at hown
    have htends := h.own batch hown
    exact htends.of_boarded hb fun hopen => ⟨(hr hopen).1, (hr hopen).2 batch htends.made⟩
  · intro batch since deadline hparked
    rw [hw] at hparked
    have hwaits := h.waiting batch since deadline hparked
    refine ⟨?_, hwaits.not_full, hwaits.early, hwaits.deadline_eq,
      Nat.le_trans hwaits.since_le hn⟩
    rcases hwaits.awake with hnotified | ⟨hwaiting, hslots⟩
    · rcases ha (by rw [hnotified]; simp) with hnew | ⟨hsame, -⟩
      · exact .inl hnew
      · exact .inl (hsame.trans hnotified)
    · rcases ha (by rw [hwaiting]; simp) with hnew | ⟨hsame, hstill⟩
      · exact .inl hnew
      · exact .inr ⟨hsame.trans hwaiting, hstill hslots⟩

/-- The worker goes on without waiting. -/
theorem of_tends {w : Worker} (hown : ∀ batch, w.own? = some batch → d.Tends r known batch)
    (hw : ∀ batch since deadline, w ≠ .parked batch since deadline) :
    { d with worker := w }.Tended r known := by
  constructor
  · intro batch h
    exact (hown batch h).of_boarded rfl fun hopen => ⟨hopen, fun _ hrefuses => hrefuses⟩
  · intro batch since deadline h
    exact absurd h (hw batch since deadline)

theorem happens (hd : d.Happens r d') (h : d.Tended r known) : d'.Tended r known := by
  cases hd with
  | pass now goes =>
    refine h.of_worker rfl rfl ?_ ?_ goes
    · exact fun hopen => ⟨hopen, fun _ _ _ hrefuses => hrefuses⟩
    · exact fun _ => .inr ⟨rfl, fun hslots => hslots⟩
  | hire =>
    -- a new worker begins with an empty batch, whatever the one before it had
    refine of_tends ?_ fun _ _ _ hp => by cases hp
    intro batch hown
    cases hown
    exact .new d
  | refuse =>
    refine h.of_worker rfl rfl ?_ ?_ (Nat.le_refl _)
    · exact fun hopen => ⟨hopen, fun _ _ _ hrefuses => hrefuses⟩
    · exact fun _ => .inr ⟨rfl, fun hslots => hslots⟩
  | enqueue span isOpen fits =>
    refine h.of_worker rfl rfl ?_ ?_ (Nat.le_refl _)
    · exact fun hopen => ⟨hopen, fun _ _ _ hrefuses => hrefuses.append _⟩
    · exact fun hwaiter => .inl (Signal.waiter_notify hwaiter)
  | flush batch left isOpen drains =>
    have hslots : batch.slots ++ left = d.slots := drains.append_eq
    refine h.of_worker rfl rfl ?_ ?_ (Nat.le_refl _)
    · -- what fits into no message does not fit into that of the flush
      intro hopen
      refine ⟨hopen, fun own hmade hempty hrefuses => ?_⟩
      have hsizes : own.sizes = [] := by rw [Batch.sizes, hempty]; rfl
      have hflush : (Batch.new r.encoder.encoding r.messageMaxBytes 0).Refuses d.slots := by
        rw [hmade.refuses_iff, hsizes] at hrefuses
        rw [(Batch.MadeFor.new r 0).refuses_iff]
        exact hrefuses
      have hnone : batch.slots = [] := hflush.taken_eq_nil drains
      rw [hnone, List.nil_append] at hslots
      show own.Refuses left
      rw [hslots]
      exact hrefuses
    · intro _
      refine .inr ⟨rfl, fun hempty => ?_⟩
      rw [hempty] at hslots
      exact (List.append_eq_nil_iff.1 hslots).2
  | shut =>
    -- from now on nothing is said of the head of the queue, which a close may clear
    refine h.of_worker rfl rfl ?_ ?_ (Nat.le_refl _)
    · exact fun hopen => absurd hopen.symm Bool.false_ne_true
    · exact fun hwaiter => .inl (Signal.waiter_notify hwaiter)
  | clear isClosed =>
    refine h.of_worker rfl rfl ?_ ?_ (Nat.le_refl _)
    · exact fun hopen => absurd (hopen.symm.trans isClosed) Bool.false_ne_true
    · exact fun _ => .inr ⟨rfl, fun _ => rfl⟩
  | sent batch message sending =>
    refine of_tends ?_ fun _ _ _ hp => by cases hp
    intro own hown
    cases hown
    exact h.own batch (by rw [sending]; rfl)
  | leave => exact of_tends (fun _ hown => by cases hown) fun _ _ _ hp => by cases hp

end Tended

end Dock

/-! ## A turn -/

/-- What the batch is like once the drain of a turn is over; it was `start` before. It is full only
if nothing more fits; and if it has no deadline, then it begins with what was left over. -/
structure Dock.Loaded (r : Reporter) (known : List (Slot Parcel) → Prop) (d : Dock)
    (start batch : Batch Parcel) : Prop where
  made : batch.MadeFor r r.messageTimeout
  full : batch.full = true → d.closed = false →
    batch.Refuses d.slots ∨ batch.slots ≠ [] ∧ batch.size = batch.maxBytes
  leftover : batch.deadline = none → batch.slots ≠ [] → start.slots ≠ [] ∧ known start.slots
  since : ∀ deadline, batch.deadline = some deadline → d.RunsSince r batch deadline

namespace Dock

variable {r : Reporter} {known : List (Slot Parcel) → Prop} {s s' : State} {d d' : Dock}
  {start batch : Batch Parcel} {taken left : List (Slot Parcel)} {last : Bool}

/-- More spans have gone on board, and the batch has grown at its end. -/
theorem RunsSince.grow {deadline : Instant} {more : List (Nat × Instant)}
    (h : d.RunsSince r start deadline) (hb : d'.boarded = d.boarded ++ more)
    (hs : batch.slots = start.slots ++ taken) : d'.RunsSince r batch deadline := by
  obtain ⟨slot, rest, time, hslots, hlookup, htime⟩ := h
  refine ⟨slot, rest ++ taken, time, ?_, ?_, htime⟩
  · rw [hs, hslots]
    rfl
  · rw [hb, List.lookup_append, hlookup]
    rfl

namespace Tends

/-- A batch that was full before still refuses the head of the queue. -/
theorem full_of_drains (h : d.Tends r known start)
    (hd : (Batch.offer d.now).Drains start d.slots taken left batch false)
    (hfull : batch.full = true) (hopen : d.closed = false) :
    batch.Refuses left ∨ batch.slots ≠ [] ∧ batch.size = batch.maxBytes := by
  have hg := Batch.gains_of_drains hd
  rcases hg.full hfull with hold | hleft | ⟨htaken, hsize⟩
  · have hrefuses : start.Refuses d.slots := (h.stuck hold).2 hopen
    obtain rfl : taken = [] := hrefuses.taken_eq_nil hd
    obtain ⟨slot, rest, hslots, -⟩ := hrefuses
    have hleft : left = d.slots := hd.append_eq
    refine .inl (hg.refuses ?_)
    rw [hleft, hslots]
    exact List.cons_ne_nil _ _
  · exact .inl (hg.refuses hleft)
  · refine .inr ⟨?_, hsize.trans hg.maxBytes_eq.symm⟩
    rw [hg.slots_eq]
    exact List.append_ne_nil_of_right_ne_nil _ htaken

/-- An empty batch gets a deadline with its first item, so one without a deadline was not empty. -/
theorem leftover_of_drains (h : d.Tends r known start)
    (hd : (Batch.offer d.now).Drains start d.slots taken left batch false)
    (hnone : batch.deadline = none) (hne : batch.slots ≠ []) :
    start.slots ≠ [] ∧ known start.slots := by
  have hg := Batch.gains_of_drains hd
  have hstart : start.slots ≠ [] := by
    intro hempty
    have htaken : taken ≠ [] := by
      intro htaken
      rw [hg.slots_eq, hempty, htaken] at hne
      exact hne rfl
    rw [hg.deadline_of_first hempty htaken] at hnone
    cases hnone
  rw [hg.deadline_of_more (.inl hstart)] at hnone
  exact ⟨hstart, h.leftover hnone hstart⟩

theorem since_of_drains (h : d.Tends r known start) (hord : d.InOrder)
    (hd : (Batch.offer d.now).Drains start d.slots taken left batch false)
    (hb : d'.boarded = d.boarded ++ boarding taken d.now) {deadline : Instant}
    (hdeadline : batch.deadline = some deadline) : d'.RunsSince r batch deadline := by
  have hg := Batch.gains_of_drains hd
  by_cases hmore : start.slots ≠ [] ∨ taken = []
  · rw [hg.deadline_of_more hmore] at hdeadline
    exact (h.since deadline hdeadline).grow hb hg.slots_eq
  · -- the batch was empty, so the first item that it took is its oldest
    simp only [not_or, ne_eq, Classical.not_not] at hmore
    obtain ⟨hempty, htaken⟩ := hmore
    rw [hg.deadline_of_first hempty htaken] at hdeadline
    cases hdeadline
    obtain ⟨slot, rest, rfl⟩ := List.exists_cons_of_ne_nil htaken
    refine ⟨slot, rest, d.now, ?_, ?_, ?_⟩
    · rw [hg.slots_eq, hempty, List.nil_append]
    · have hqueued : slot ∈ d.slots := by
        rw [← hd.append_eq]
        exact List.mem_cons_self
      rw [hb, List.lookup_append, hord.lookup_eq_none hqueued]
      simp [boarding]
    · rw [h.made.timeout_eq]

end Tends

/-- The drain of a turn keeps what is true of the batch, as far as it can. -/
theorem Tended.loads (h : s.dock.Tended r known) (hord : s.dock.InOrder)
    (hl : s.Loads r start taken left s' batch last) : s'.dock.Loaded r known start batch := by
  have htends : s.dock.Tends r known start := h.own start (Worker.own?_of_batch? hl.batch_eq)
  obtain ⟨signal, hdock⟩ := hl.dock_eq
  rw [hdock]
  rcases hl.drains with hd | ⟨since, deadline, hw, -, -, rfl, rfl, rfl⟩
  · exact ⟨htends.made.gains (Batch.gains_of_drains hd), htends.full_of_drains hd,
      htends.leftover_of_drains hd, fun _ => htends.since_of_drains hord hd rfl⟩
  · -- the wait ran out of time, so the batch is as it was
    have hwaits := h.waiting batch since deadline hw
    refine ⟨htends.made, ?_, fun hnone hne => ⟨hne, htends.leftover hnone hne⟩, ?_⟩
    · intro hfull
      rw [hwaits.not_full] at hfull
      cases hfull
    · intro deadline' hdeadline
      exact (htends.since deadline' hdeadline).grow rfl (List.append_nil _).symm

namespace Loaded

/-- A batch that is not packed is empty, or not due yet. -/
theorem tends_of_not_packs (h : s.dock.Loaded r known start batch)
    (hp : s.packs batch = false) : s.dock.Tends r known batch := by
  have hdue : batch.slots ≠ [] → batch.isReady s.now = false ∧ s.closed = false := by
    intro hne
    have hempty : batch.isEmpty = false := List.isEmpty_eq_false_iff.2 hne
    rw [State.packs, hempty, Bool.not_false, Bool.and_true] at hp
    exact Bool.or_eq_false_iff.1 hp
  have hready : batch.slots ≠ [] → ¬ batch.isReady s.now = true := by
    intro hne
    rw [(hdue hne).1]
    exact Bool.false_ne_true
  refine ⟨h.made, ?_, ?_, h.since⟩
  · intro hfull
    have hempty : batch.slots = [] := by
      apply Classical.byContradiction
      intro hne
      exact hready hne (Batch.isReady_iff.2 (.inl hfull))
    refine ⟨hempty, fun hopen => ?_⟩
    exact (h.full hfull hopen).resolve_right fun hne => hne.1 hempty
  · intro hnone hne
    exact absurd (Batch.isReady_iff.2 (.inr (.inr ⟨hnone, hne⟩))) (hready hne)

/-- A batch that is packed has been emptied, or a packing has left something behind. -/
theorem tends_of_packs (h : s.dock.Loaded r known start batch) {s₁ : State} {batch₁ : Batch Parcel}
    {message : List Parcel} (hd : s.dispatch r batch = (s₁, batch₁, message))
    (hp : s.packs batch = true)
    (hk : (batch.drain (Packing.offer r) {}).2.consumer.overflow ≠ none →
      known (batch.drain (Packing.offer r) {}).1.slots) : s.dock.Tends r known batch₁ := by
  obtain ⟨taken, left, overflow, hsplit, he⟩ := State.dispatch_splits r hp
  rw [he] at hd
  cases hd
  obtain ⟨count, hdrain⟩ := hsplit.drain_eq
  rw [hdrain] at hk
  refine ⟨h.made.leave hsplit.slots_eq false, ?_, ?_, ?_⟩
  · exact fun hfull => absurd hfull Bool.false_ne_true
  · exact fun _ hne => hk fun hover => hne (hsplit.left_eq hover)
  · intro deadline hdeadline
    cases hdeadline

end Loaded

end Dock

/-! ## What packings leave behind -/

namespace State

/-- What a turn of the worker packs, if it packs anything: its batch, and the state once it is past
the queue. -/
def packing? (r : Reporter) (s : State) : Option (State × Batch Parcel) :=
  match s.fill r with
  | .waits _ => none
  | .over s batch _ => if s.packs batch then some (s, batch) else none
  | .crashed _ _ => none

theorem packing?_eq_some {r : Reporter} {s s' : State} {batch : Batch Parcel} :
    s.packing? r = some (s', batch) ↔
      ∃ last, s.fill r = .over s' batch last ∧ s'.packs batch = true := by
  rw [packing?]
  rcases hf : s.fill r with s₁ | ⟨s₁, batch₁, last⟩ | ⟨s₁, batch₁⟩
  · simp
  · dsimp only
    by_cases hp : s₁.packs batch₁ = true
    · rw [if_pos hp, Option.some.injEq, Prod.mk.injEq]
      constructor
      · rintro ⟨rfl, rfl⟩
        exact ⟨last, rfl, hp⟩
      · rintro ⟨last', he, -⟩
        cases he
        exact ⟨rfl, rfl⟩
    · rw [if_neg hp]
      constructor
      · exact fun h => (Option.some_ne_none _ h.symm).elim
      · rintro ⟨last', he, hp'⟩
        cases he
        exact absurd hp' hp
  · simp

/-- A turn of the worker packs a message, and something is too much for it; this is left behind. -/
def LeavesBehind (r : Reporter) (s : State) (left : List (Slot Parcel)) : Prop :=
  ∃ s' batch, s.packing? r = some (s', batch)
    ∧ (batch.drain (Packing.offer r) {}).2.consumer.overflow ≠ none
    ∧ (batch.drain (Packing.offer r) {}).1.slots = left

/-- In the course of these events a turn of the worker has left this behind. -/
def LeftBehind (r : Reporter) (events : List Event) (left : List (Slot Parcel)) : Prop :=
  ∃ earlier later, events = earlier ++ .workerTurn :: later
    ∧ ((initial r).run r earlier).LeavesBehind r left

variable {r : Reporter} {known : List (Slot Parcel) → Prop} {s : State}

theorem LeftBehind.append {events : List Event} {left : List (Slot Parcel)}
    (h : LeftBehind r events left) (more : List Event) : LeftBehind r (events ++ more) left := by
  obtain ⟨earlier, later, rfl, hleaves⟩ := h
  exact ⟨earlier, later ++ more, by simp, hleaves⟩

theorem LeavesBehind.leftBehind {events : List Event} {left : List (Slot Parcel)}
    (h : ((initial r).run r events).LeavesBehind r left) :
    LeftBehind r (events ++ [.workerTurn]) left :=
  ⟨events, [], rfl, h⟩

end State

namespace Dock.Tended

open State

variable {r : Reporter} {known : List (Slot Parcel) → Prop} {s : State}

/-- A turn of the worker keeps all of it, if what it leaves behind is known. -/
theorem workerTurn (h : s.dock.Tended r known) (hord : s.dock.InOrder)
    (hk : ∀ left, s.LeavesBehind r left → known left) :
    (s.workerTurn r).dock.Tended r known := by
  rcases dock_workerTurn r s with hs | ⟨fresh, batch, hw, hopen, hempty, hearly, hs⟩ |
    ⟨start, taken, left, s₁, batch, last, s₂, batch₂, message, hl, hd, hs⟩ |
    ⟨batch, slot, left, signal, -, -, hs⟩
  · rw [hs]
    exact h
  · have hown : s.worker.own? = some batch := by rw [hw]; rfl
    have htends : s.dock.Tends r known batch := h.own batch hown
    rw [hs]
    constructor
    · intro own hown
      cases hown
      exact htends.of_boarded rfl fun hopen => ⟨hopen, fun _ hrefuses => hrefuses⟩
    · intro own since deadline hparked
      cases hparked
      -- a full batch would mean that something is queued, and the queue is empty
      have hfull : batch.full = false := by
        cases hf : batch.full with
        | false => rfl
        | true =>
          obtain ⟨slot, rest, hslots, -⟩ := (htends.stuck hf).2 hopen
          have hnone : s.dock.slots = [] := hempty
          rw [hnone] at hslots
          cases hslots
      exact ⟨.inr ⟨rfl, hempty⟩, hfull, hearly, rfl, Nat.le_refl _⟩
  · have hloaded : s₁.dock.Loaded r known start batch := h.loads hord hl
    have htends : s₁.dock.Tends r known batch₂ := by
      cases hp : s₁.packs batch with
      | false =>
        rw [dispatch_of_not_packs hp] at hd
        cases hd
        exact hloaded.tends_of_not_packs hp
      | true =>
        refine hloaded.tends_of_packs hd hp fun hover => ?_
        exact hk _ ⟨s₁, batch, packing?_eq_some.2 ⟨last, hl.fill_eq, hp⟩, hover, rfl⟩
    rw [hs]
    refine of_tends ?_ (Worker.onward_ne_parked batch₂ message last)
    intro own hown
    rw [Worker.eq_of_own?_onward hown]
    exact htends
  · rw [hs]
    constructor
    · intro own hown
      cases hown
    · intro own since deadline hparked
      cases hparked

end Dock.Tended

namespace State

variable {r : Reporter}

/-- The worker holds its batch as it should after every run, and knows what has been left over. -/
theorem tended_run (r : Reporter) (events : List Event) :
    ((initial r).run r events).dock.Tended r (LeftBehind r events) := by
  refine run_induction (P := fun events s => s.dock.Tended r (LeftBehind r events))
    (.initial r) ?_ events
  intro events e h
  have hs : ((initial r).run r events).Reachable r := ⟨events, rfl⟩
  have hknown := h.mono fun left hleft => hleft.append [e]
  refine keeps_step (fun _ _ hd hp => hp.happens hd) hs hknown e fun he => ?_
  subst he
  exact hknown.workerTurn hs.inOrder fun left hleaves => hleaves.leftBehind

/-! ## Deadlines that the clock can name -/

/-- The clock can name the deadline of a span that goes on board now. -/
def Timely (r : Reporter) (s : State) : Prop := s.now + r.messageTimeout ≤ Instant.last

variable {s s' : State} {batch : Batch Parcel}

theorem Reachable.now_le_step (hs : s.Reachable r) (e : Event) : s.now ≤ (s.step r e).now := by
  refine keeps_step (P := fun d => s.now ≤ d.now) ?_ hs (Nat.le_refl _) e fun _ => ?_
  · intro d d' hd h
    cases hd with
    | pass now goes => exact Nat.le_trans h goes
    | _ => exact h
  · obtain ⟨intake, worker, latch, metrics, notices, journal, hturn⟩ := workerTurn_frame r s
    rw [hturn]
    exact Nat.le_refl _

/-- Time goes on, so the clock could name all earlier deadlines. -/
theorem Timely.of_step (hs : s.Reachable r) {e : Event} (h : (s.step r e).Timely r) :
    s.Timely r :=
  Nat.le_trans (Nat.add_le_add_right (hs.now_le_step e) _) h

theorem Timely.of_run (hs : s.Reachable r) {later : List Event} (h : (s.run r later).Timely r) :
    s.Timely r := by
  induction later generalizing s with
  | nil => exact h
  | cons e rest ih => exact .of_step hs (ih (hs.step e) h)

/-- The batch of the worker crashes only over a deadline that the clock cannot name. -/
theorem Reachable.not_timely_of_spills (hs : s.Reachable r) {slot : Slot Parcel}
    {left : List (Slot Parcel)} (hb : s.worker.batch? = some batch)
    (hspill : s.Spills batch slot left) : ¬ s.Timely r := by
  obtain ⟨events, rfl⟩ := hs
  have hmade := ((tended_run r events).own batch (Worker.own?_of_batch? hb)).made
  exact Nat.not_le_of_lt (hmade.timeout_eq ▸ hspill.lt_deadline)

theorem Reachable.not_timely_of_crashed (hs : s.Reachable r)
    (hf : s.fill r = .crashed s' batch) : ¬ s.Timely r := by
  obtain ⟨slot, left, signal, notices, hb, hspill, -⟩ := fill_crashes hf
  exact hs.not_timely_of_spills hb hspill

end State

end SpanCourier
