import SpanCourier.Proofs.Reporter.Rounds

set_option autoImplicit false

/-! # The worker comes to rest

A cycle of the worker may end at once and the next one begin: a permit was stored, something was
left over, or packing had nothing to send. That it does not go on like this forever is seen from
what it has before it: every queued span counts twice, every span in its batch once, and so does a
stored permit (`State.work`). A span that goes on board gives up one of its two, a span that is
packed its last one, and a cycle that moves no span takes the permit (`State.Spends`). Where every
span that is queued fits into an empty batch, no cycle gets past the queue without one of these.
-/

namespace SpanCourier

variable {r : Reporter}

/-- The worker is at work: it is about to begin a cycle, or it has a message with the transport. -/
def Worker.busy : Worker → Bool
  | ready _ _ => true
  | sending _ _ _ => true
  | _ => false

/-- The worker waits at the queue, or it has ended. -/
inductive Worker.Resting : Worker → Prop
  | parked (batch : Batch Parcel) (since deadline : Instant) : (parked batch since deadline).Resting
  | gone : gone.Resting

/-- An event that neither reports nor flushes nor closes. -/
def Event.quiet (e : Event) : Bool := e.drains && !e.flushes

theorem Event.rounds_cons (outcome : Outcome) (rest : List Outcome) :
    rounds (outcome :: rest) = .workerTurn :: .sendEnds .worker outcome :: rounds rest := rfl

theorem Event.length_rounds (outcomes : List Outcome) :
    (rounds outcomes).length = 2 * outcomes.length := by
  induction outcomes with
  | nil => rfl
  | cons outcome rest ih =>
    rw [rounds_cons, List.length_cons, List.length_cons, ih, List.length_cons]
    omega

namespace State

variable {s s' : State}

/-! ## Cycles -/

/-- The event is a turn of the worker that gets past the queue, or crashes there. -/
def circles (r : Reporter) (s : State) : Event → Bool
  | .workerTurn =>
    match s.fill r with
    | .over _ _ _ => true
    | .crashed _ _ => true
    | .waits _ => false
  | _ => false

/-- How many cycles the worker goes through before it waits at the queue or ends. -/
def cycles (r : Reporter) (s : State) : List Event → Nat
  | [] => 0
  | e :: rest =>
    if s.worker.busy then (if s.circles r e then 1 else 0) + cycles r (s.step r e) rest else 0

/-! ## What the worker has before it -/

/-- What the worker has before it. -/
def work (s : State) : Nat :=
  2 * s.intake.queue.slots.length + s.worker.held.length + s.intake.signal.permit.toNat

/-- An empty batch of the worker has all its time left. -/
theorem Reachable.remaining_of_empty (h : s.Reachable r) {batch : Batch Parcel}
    (hb : s.worker.own? = some batch) (hempty : batch.slots = []) : batch.remaining s.now ≠ 0 := by
  have hbackground : r.background = true := by
    by_cases hback : r.background = true
    · exact hback
    · have habsent := (h.worker_absent (Bool.eq_false_iff.2 hback)).2
      rw [habsent] at hb
      cases hb
  obtain ⟨events, rfl⟩ := h
  have htends := (tended_run r events).own batch hb
  have hdeadline : batch.deadline = none := by
    cases hd : batch.deadline with
    | none => rfl
    | some deadline =>
      obtain ⟨slot, rest, -, hslots, -, -⟩ := htends.since deadline hd
      rw [hempty] at hslots
      cases hslots
  rw [Batch.remaining_of_empty hdeadline hempty, htends.made.timeout_eq]
  exact of_decide_eq_true hbackground

/-- Packing a batch that is due takes at least one span out of it; a batch that is not due is kept.
-/
theorem length_of_dispatch {batch batch' : Batch Parcel} {message : List Parcel}
    (h : s.dispatch r batch = (s', batch', message)) :
    if s.packs batch then batch'.slots.length < batch.slots.length
    else batch'.slots.length = batch.slots.length := by
  cases hp : s.packs batch with
  | false =>
    rw [dispatch_of_not_packs hp] at h
    cases h
    rfl
  | true =>
    obtain ⟨taken, left, overflow, hsplit, he⟩ := dispatch_splits r hp
    rw [he] at h
    cases h
    have hlength := congrArg List.length hsplit.slots_eq
    have htaken := List.length_pos_iff.2 hsplit.taken_ne
    rw [List.length_append] at hlength
    show left.length < batch.slots.length
    omega

/-- What a cycle that gets past the queue makes of what was to be done. -/
theorem work_sendBatch (r : Reporter) (s : State) (batch : Batch Parcel) :
    ∃ batch' : Batch Parcel,
      (s.sendBatch r batch false).worker.busy = true
      ∧ (s.sendBatch r batch false).work =
        2 * s.intake.queue.slots.length + batch'.slots.length + s.intake.signal.permit.toNat
      ∧ if s.packs batch then batch'.slots.length < batch.slots.length
        else batch'.slots.length = batch.slots.length := by
  obtain ⟨s', batch', message, hd, hsend⟩ := sendBatch_cases r s batch false
  have hlength := length_of_dispatch hd
  obtain ⟨metrics, notices, lost, rfl⟩ := dispatch_frame hd
  refine ⟨batch', ?_, ?_, hlength⟩
  · rcases hsend with ⟨-, hsend⟩ | ⟨-, hsend⟩
    · rw [hsend]
      rfl
    · rw [hsend]
      rfl
  · rcases hsend with ⟨-, hsend⟩ | ⟨-, hsend⟩
    · rw [hsend]
      rfl
    · rw [hsend]
      rfl

/-- A turn of a worker that is about to begin a cycle: it parks; or it crashes, with something
before it; or it has less before it than it had. -/
theorem Reachable.turn_of_ready (h : s.Reachable r) (hfit : r.SinglesFit) (hopen : s.closed = false)
    {fresh : Bool} {batch : Batch Parcel} (hw : s.worker = .ready fresh batch) :
    ((if s.circles r .workerTurn then 1 else 0) ≤ s.work ∧ (s.workerTurn r).worker.Resting)
      ∨ (s.circles r .workerTurn = true ∧ (s.workerTurn r).worker.busy = true
        ∧ (s.workerTurn r).work < s.work) := by
  obtain ⟨notices, hready⟩ := fill_ready r hw
  have hb : s.worker.batch? = some batch := by rw [hw]; rfl
  rcases beginCycle_cases { s with notices } batch with
    ⟨-, -, -, -, he⟩ | ⟨hcause, taken, left, batch₁, hd, he⟩ | ⟨slot, left, hspill, he⟩
  · have hfill := hready.trans he
    have hc : s.circles r .workerTurn = false := by rw [circles, hfill]
    refine .inl ⟨?_, by rw [workerTurn, hfill]; exact .parked _ _ _⟩
    rw [hc, if_neg Bool.false_ne_true]
    exact Nat.zero_le _
  · have hfill := (hready.trans he).trans (congrArg (Fill.over _ batch₁) hopen)
    refine .inr ⟨by rw [circles, hfill], ?_⟩
    have hl : s.Loads r batch taken left _ batch₁ false :=
      ⟨hb, hfill, .inl hd, ⟨s.intake.signal.takePermit, rfl⟩, fun hlast => by cases hlast⟩
    obtain ⟨hslots, hqueue⟩ := hl.slots_eq
    obtain ⟨batch', hbusy, hwork, hlength⟩ := work_sendBatch r
      (State.drained { s with notices } taken left s.intake.signal.takePermit) batch₁
    have hturn : s.workerTurn r =
        (State.drained { s with notices } taken left s.intake.signal.takePermit).sendBatch r
          batch₁ false := by
      rw [workerTurn, hfill]
    have hafter : (s.workerTurn r).work = 2 * left.length + batch'.slots.length := hturn ▸ hwork
    have hbefore : s.work = 2 * (taken.length + left.length) + batch.slots.length
        + s.intake.signal.permit.toNat := by
      rw [work, hqueue, List.length_append, Worker.held_of_batch? hb]
    -- a span that has gone on board counts once now and not twice
    have hgained := congrArg List.length hslots
    rw [List.length_append] at hgained
    rw [hturn]
    refine ⟨hbusy, ?_⟩
    rw [← hturn, hafter, hbefore]
    cases hp : State.packs
        (State.drained { s with notices } taken left s.intake.signal.takePermit) batch₁ with
    | true =>
      rw [if_pos hp] at hlength
      omega
    | false =>
      rw [hp, if_neg Bool.false_ne_true] at hlength
      obtain rfl := left_eq_nil_of_not_packs hfit h hl hp
      by_cases htaken : taken = []
      · -- nothing was queued and nothing is due, so the cycle has taken the permit
        have hsame : batch₁ = batch := (hl.of_empty (by simp [hqueue, htaken])).1
        have hpermit : s.intake.signal.permit = true := by
          rcases hcause with hclosed | hsome | hdue | hpermit
          · exact absurd (hopen.symm.trans hclosed) Bool.false_ne_true
          · exact absurd (by simp [hqueue, htaken]) hsome
          · exfalso
            by_cases hempty : batch.slots = []
            · exact h.remaining_of_empty (Worker.own?_of_batch? hb) hempty hdue
            · have hpacks := packs_of_remaining (s := State.drained { s with notices } taken []
                s.intake.signal.takePermit) hempty hdue
              rw [hsame, hpacks] at hp
              cases hp
          · exact hpermit
        rw [hpermit, Bool.toNat_true]
        omega
      · have hpos := List.length_pos_iff.2 htaken
        omega
  · have hfill := hready.trans he
    have hc : s.circles r .workerTurn = true := by rw [circles, hfill]
    have hqueued := congrArg List.length (show s.intake.queue.slots = _ from hspill.queue_eq)
    refine .inl ⟨?_, ?_⟩
    · rw [hc, if_pos rfl, work, hqueued, List.length_cons]
      omega
    · rw [workerTurn, hfill]
      dsimp only
      rw [endWorker_eq]
      exact .gone

/-! ## Quiet events -/

/-- Without a turn of the worker, or the end of a send of its, it stays where it is, and so does
what is queued. -/
theorem Reachable.still_of_quiet (h : s.Reachable r) (hopen : s.closed = false) {e : Event}
    (he : e.quiet = true) (hturn : e ≠ .workerTurn)
    (hends : ∀ outcome, e ≠ .sendEnds .worker outcome) :
    (s.step r e).worker = s.worker ∧ (s.step r e).intake = s.intake := by
  cases e with
  | report span => cases he
  | flush id => cases he
  | close id => cases he
  | drop => cases he
  | workerTurn => exact absurd rfl hturn
  | closeTurn id =>
    rw [State.step, closeTurn_of_open h hopen id]
    exact ⟨rfl, rfl⟩
  | sendEnds sender outcome =>
    cases sender with
    | worker => exact absurd rfl (hends outcome)
    | call id =>
      obtain ⟨_, _, _, _, _, _, _, hs⟩ := flushSendEnds_frame r s id outcome
      rw [State.step, hs]
      exact ⟨rfl, rfl⟩
  | pass time => exact ⟨rfl, rfl⟩

/-- When its send ends, the worker ends or goes on to the next cycle with what it holds. -/
theorem Reachable.sendEnds_of_sending (h : s.Reachable r) (hopen : s.closed = false)
    {batch : Batch Parcel} {message : List Parcel} {last : Bool}
    (hw : s.worker = .sending batch message last) (outcome : Outcome) :
    (s.workerSendEnds r outcome).worker = .gone
      ∨ ((s.workerSendEnds r outcome).worker = .ready false batch
        ∧ (s.workerSendEnds r outcome).intake = s.intake) := by
  have hlast : last = false := by
    cases last with
    | false => rfl
    | true => exact absurd (hopen.symm.trans (h.lastWhenClosed batch message hw)) Bool.false_ne_true
  obtain ⟨_, _, _, _, _, hsend⟩ := endSend_frame r s .worker message outcome
  by_cases hh : outcome.harmless = true
  · rw [workerSendEnds_of_harmless hw hh, hsend, hlast]
    exact .inr ⟨rfl, rfl⟩
  · left
    rw [workerSendEnds, hw]
    cases outcome with
    | sent => exact absurd rfl hh
    | crashed => rfl
    | failed error =>
      rw [Outcome.harmless, Bool.not_eq_true', Bool.not_eq_false] at hh
      dsimp only
      rw [if_pos hh]
      rfl

/-! ## What a quiet event does to a worker at work -/

/-- An open reporter whose worker is at work. -/
structure AtWork (r : Reporter) (s : State) : Prop where
  reachable : s.Reachable r
  isOpen : s.closed = false
  busy : s.worker.busy = true

/-- The turns and the ends of sends that the worker has before it, at most, and one more. -/
def stages (s : State) : Nat := 2 * s.work + if s.worker.batch? = none then 3 else 2

/-- From one state to the other a worker at work has used up some of what it had before it: some
work if it went through a cycle, and a stage if the event was a turn or the end of a send that it
was due to have. -/
structure Spends (r : Reporter) (s : State) (e : Event) (s' : State) : Prop where
  work_le : s'.work + (if s.circles r e then 1 else 0) ≤ s.work
  stages_le : s'.stages ≤ s.stages
  turn : e = .workerTurn → ∀ n, s.stages ≤ 2 * n + 2 → s'.stages ≤ 2 * n + 1
  ends : ∀ outcome, e = .sendEnds .worker outcome → ∀ n, s.stages ≤ 2 * n + 1 → s'.stages ≤ 2 * n

theorem two_le_stages (s : State) : 2 ≤ s.stages := by
  unfold stages
  split <;> omega

/-- An event that leaves the worker and the queue alone spends nothing, where it is not the one that
the worker is due to have. -/
theorem Spends.of_still {e : Event} (hw : s'.worker = s.worker) (hi : s'.intake = s.intake)
    (hc : s.circles r e = false)
    (hturn : e = .workerTurn → s.worker.batch? = none)
    (hends : ∀ outcome, e = .sendEnds .worker outcome → s.worker.batch? ≠ none) :
    s.Spends r e s' := by
  have hwork : s'.work = s.work := by rw [work, work, hw, hi]
  have hstages : s'.stages = s.stages := by rw [stages, stages, hwork, hw]
  refine ⟨by simp [hwork, hc], Nat.le_of_eq hstages, fun he n hn => ?_, fun outcome he n hn => ?_⟩
  · rw [hstages]
    rw [stages, if_pos (hturn he)] at hn ⊢
    omega
  · rw [hstages]
    rw [stages, if_neg (hends outcome he)] at hn ⊢
    omega

/-- The event brings a worker at work to rest, or takes off what it has before it. -/
def Advances (r : Reporter) (s : State) (e : Event) : Prop :=
  ((if s.circles r e then 1 else 0) ≤ s.work ∧ (s.step r e).worker.Resting)
    ∨ ((s.step r e).AtWork r ∧ s.Spends r e (s.step r e))

namespace AtWork

variable {e : Event}

/-- A quiet event does not close the reporter. -/
theorem of_busy (h : s.AtWork r) (he : e.quiet = true) (hbusy : (s.step r e).worker.busy = true) :
    (s.step r e).AtWork r := by
  refine ⟨h.reachable.step e, ?_, hbusy⟩
  rw [closed_step, h.isOpen]
  cases e <;> first | rfl | cases he

/-- An event that leaves the worker and the queue alone. -/
theorem advances_of_still (h : s.AtWork r) (he : e.quiet = true)
    (hstill : (s.step r e).worker = s.worker ∧ (s.step r e).intake = s.intake)
    (hc : s.circles r e = false) (hturn : e = .workerTurn → s.worker.batch? = none)
    (hends : ∀ outcome, e = .sendEnds .worker outcome → s.worker.batch? ≠ none) :
    s.Advances r e :=
  .inr ⟨h.of_busy he (by rw [hstill.1]; exact h.busy), .of_still hstill.1 hstill.2 hc hturn hends⟩

/-- A worker that is about to begin a cycle is moved by its turn alone. -/
theorem advances_of_ready (h : s.AtWork r) (hfit : r.SinglesFit) (he : e.quiet = true)
    {fresh : Bool} {batch : Batch Parcel} (hw : s.worker = .ready fresh batch) :
    s.Advances r e := by
  have hqueue : s.worker.batch? ≠ none := by simp [hw, Worker.batch?]
  by_cases hturn : e = .workerTurn
  · subst hturn
    rcases h.reachable.turn_of_ready hfit h.isOpen hw with hrests | ⟨hc, hbusy, hwork⟩
    · exact .inl hrests
    · have hstages : (s.step r .workerTurn).stages + 1 ≤ s.stages := by
        rw [stages, stages, if_neg hqueue]
        have hless : (s.step r .workerTurn).work < s.work := hwork
        split <;> omega
      exact .inr ⟨h.of_busy he hbusy, by rw [hc]; exact hwork, Nat.le_of_succ_le hstages,
        fun _ n hn => by omega, fun _ heq => by cases heq⟩
  · -- there is no send of its that could end
    have hstill : (s.step r e).worker = s.worker ∧ (s.step r e).intake = s.intake := by
      by_cases hends : ∃ outcome, e = .sendEnds .worker outcome
      · obtain ⟨outcome, rfl⟩ := hends
        have hsame : s.workerSendEnds r outcome = s := by rw [workerSendEnds, hw]
        rw [State.step, hsame]
        exact ⟨rfl, rfl⟩
      · exact h.reachable.still_of_quiet h.isOpen he hturn (not_exists.1 hends)
    have hc : s.circles r e = false := by
      cases e <;> first | rfl | exact absurd rfl hturn
    exact h.advances_of_still he hstill hc (fun heq => absurd heq hturn) fun _ _ => hqueue

/-- A worker that has a message with the transport is moved by the end of its send alone. -/
theorem advances_of_sending (h : s.AtWork r) (he : e.quiet = true) {batch : Batch Parcel}
    {message : List Parcel} {last : Bool} (hw : s.worker = .sending batch message last) :
    s.Advances r e := by
  have hqueue : s.worker.batch? = none := by simp [hw, Worker.batch?]
  by_cases hends : ∃ outcome, e = .sendEnds .worker outcome
  · obtain ⟨outcome, rfl⟩ := hends
    rcases h.reachable.sendEnds_of_sending h.isOpen hw outcome with hgone | ⟨hready, hintake⟩
    · refine .inl ⟨Nat.zero_le _, ?_⟩
      rw [State.step, hgone]
      exact .gone
    · have hwork : (s.step r (.sendEnds .worker outcome)).work = s.work := by
        rw [State.step, work, work, hready, hintake, hw]
        rfl
      have hagain : (s.step r (.sendEnds .worker outcome)).worker.batch? ≠ none := by
        rw [State.step, hready]
        exact Option.some_ne_none batch
      have hstages : (s.step r (.sendEnds .worker outcome)).stages + 1 = s.stages := by
        rw [stages, stages, hwork, if_pos hqueue, if_neg hagain]
      refine .inr ⟨h.of_busy he (by rw [State.step, hready]; rfl), ?_, ?_, fun heq => ?_,
        fun _ _ n hn => ?_⟩
      · exact Nat.le_of_eq hwork
      · omega
      · cases heq
      · omega
  · -- its turn comes too early
    have hstill : (s.step r e).worker = s.worker ∧ (s.step r e).intake = s.intake := by
      by_cases hturn : e = .workerTurn
      · rw [hturn, State.step, workerTurn_of_batch?_eq_none hqueue]
        exact ⟨rfl, rfl⟩
      · exact h.reachable.still_of_quiet h.isOpen he hturn (not_exists.1 hends)
    have hc : s.circles r e = false := by
      cases e with
      | workerTurn => rw [circles, fill, hw]
      | _ => rfl
    exact h.advances_of_still he hstill hc (fun _ => hqueue)
      fun outcome heq => absurd ⟨outcome, heq⟩ hends

/-- Whatever is quiet brings a worker at work to rest, or takes off what it has before it. -/
theorem step (h : s.AtWork r) (hfit : r.SinglesFit) (he : e.quiet = true) : s.Advances r e := by
  cases hw : s.worker with
  | absent => exact absurd h.busy (by simp [hw, Worker.busy])
  | parked batch since deadline => exact absurd h.busy (by simp [hw, Worker.busy])
  | gone => exact absurd h.busy (by simp [hw, Worker.busy])
  | ready fresh batch => exact h.advances_of_ready hfit he hw
  | sending batch message last => exact h.advances_of_sending he hw

end AtWork

/-! ## Runs of quiet events -/

theorem Worker.busy_of_resting {w : Worker} (h : w.Resting) : w.busy = false := by
  cases h <;> rfl

theorem cycles_of_resting (h : s.worker.Resting) (later : List Event) : s.cycles r later = 0 := by
  have hidle := Worker.busy_of_resting h
  cases later with
  | nil => rfl
  | cons e rest => simp [cycles, hidle]

/-- A worker at work goes through no more cycles than it has work before it. -/
theorem AtWork.cycles_le (h : s.AtWork r) (hfit : r.SinglesFit) {later : List Event}
    (hl : ∀ e ∈ later, e.quiet = true) : s.cycles r later ≤ s.work := by
  induction later generalizing s with
  | nil => exact Nat.zero_le _
  | cons e rest ih =>
    obtain ⟨he, hrest⟩ := List.forall_mem_cons.1 hl
    rw [cycles, if_pos h.busy]
    rcases h.step hfit he with ⟨hle, hresting⟩ | ⟨hatWork, hspends⟩
    · rw [cycles_of_resting hresting]
      exact hle
    · have hlater := ih hatWork hrest
      have hle := hspends.work_le
      omega

/-- A worker at work comes to rest, given as many turns and ends of sends by turns as it has before
it. -/
theorem AtWork.rests_within (h : s.AtWork r) (hfit : r.SinglesFit) {later due : List Event}
    {outcomes : List Outcome} (hl : ∀ e ∈ later, e.quiet = true) (hsub : due.Sublist later)
    (hdue : due = Event.rounds outcomes
      ∨ ∃ outcome, due = .sendEnds .worker outcome :: Event.rounds outcomes)
    (hn : s.stages ≤ due.length) :
    ∃ before after, later = before ++ after ∧ (s.run r before).worker.Resting := by
  induction later generalizing s due outcomes with
  | nil =>
    have htwo := s.two_le_stages
    rw [List.sublist_nil.1 hsub, List.length_nil] at hn
    omega
  | cons e rest ih =>
    obtain ⟨he, hrest⟩ := List.forall_mem_cons.1 hl
    rcases h.step hfit he with ⟨-, hresting⟩ | ⟨hatWork, hspends⟩
    · exact ⟨[e], rest, rfl, hresting⟩
    · have later_of_rest : (∃ before after, rest = before ++ after
          ∧ ((s.step r e).run r before).worker.Resting) →
          ∃ before after, e :: rest = before ++ after ∧ (s.run r before).worker.Resting := by
        rintro ⟨before, after, heq, hresting⟩
        exact ⟨e :: before, after, by rw [heq]; rfl, hresting⟩
      refine later_of_rest ?_
      -- what is due is a turn and the end of a send by turns; anything may come between them
      rcases List.sublist_cons_iff.1 hsub with hskip | ⟨due', rfl, hmore⟩
      · exact ih hatWork hrest hskip hdue (Nat.le_trans hspends.stages_le hn)
      · rcases hdue with hdue | ⟨outcome, hdue⟩
        · cases outcomes with
          | nil => cases hdue
          | cons outcome outcomes =>
            rw [Event.rounds_cons] at hdue
            obtain ⟨rfl, rfl⟩ := List.cons.inj hdue
            refine ih hatWork hrest hmore (.inr ⟨outcome, rfl⟩) ?_
            simp only [List.length_cons, Event.length_rounds] at hn ⊢
            exact hspends.turn rfl _ hn
        · obtain ⟨rfl, rfl⟩ := List.cons.inj hdue
          refine ih hatWork hrest hmore (.inl rfl) ?_
          simp only [List.length_cons, Event.length_rounds] at hn ⊢
          exact hspends.ends outcome rfl _ hn

/-- Where the transport sizes no single span smaller than the encoding does, the worker of an open
reporter never spins: with nothing but its own turns, the ends of sends and time that passes, it
goes through no more cycles than twice the queued spans, the spans in its batch and the stored
permit, and then it waits at the queue or has ended. -/
theorem worker_comes_to_rest
    (hsize : ∀ size, r.encoder.encoding.singleSize size ≤ r.transport.singleSize size)
    (hs : s.Reachable r) (hopen : s.closed = false) {fresh : Bool} {batch : Batch Parcel}
    (hw : s.worker = .ready fresh batch) {later : List Event}
    (hquiet : ∀ e ∈ later, e.quiet = true) :
    let most := 2 * s.queued.length + batch.slots.length + s.intake.signal.permit.toNat
    s.cycles r later ≤ most
      ∧ ∀ outcomes, outcomes.length = most + 1 → (Event.rounds outcomes).Sublist later →
        ∃ before after, later = before ++ after ∧ (s.run r before).worker.Resting := by
  intro most
  have hfit : r.SinglesFit := fun size hle => Nat.le_trans (hsize size) hle
  have hatWork : s.AtWork r := ⟨hs, hopen, by rw [hw]; rfl⟩
  have hmost : s.work = most := by
    rw [work, hw, show most = 2 * s.queued.length + _ + _ from rfl, queued, List.length_map]
    rfl
  refine ⟨hmost ▸ hatWork.cycles_le hfit hquiet, fun outcomes hlength hsub => ?_⟩
  refine hatWork.rests_within hfit hquiet hsub (.inl rfl) ?_
  have hready : s.worker.batch? ≠ none := by
    rw [hw]
    exact Option.some_ne_none batch
  rw [Event.length_rounds, hlength, stages, hmost, if_neg hready]
  omega

/-- Three spans and a stored permit. The transport finds two of them too much for a message, though
they fit into the batch, so one is lost in packing. -/
theorem patient_rests :
    let span : Span := default
    let s := (initial .patient).run .patient [.report span, .report span, .report span]
    let later := Event.rounds (List.replicate 8 (.failed .closed) |>.set 0 .sent)
    s.worker = .ready true (.new .proto3 3 10)
      ∧ s.queued.length = 3 ∧ s.intake.signal.permit = true
      ∧ s.cycles .patient later = 2 ∧ s.cycles .patient later ≤ 7
      ∧ ∃ before after, later = before ++ after ∧ (s.run .patient before).worker.Resting := by
  intro span s later
  have hworker : s.worker = .ready true (.new .proto3 3 10) := by decide +kernel
  have hqueued : s.queued.length = 3 := by decide +kernel
  have hpermit : s.intake.signal.permit = true := by decide +kernel
  have hopen : s.closed = false := by decide +kernel
  have hquiet : ∀ e ∈ later, e.quiet = true := by decide +kernel
  have hs : s.Reachable .patient := ⟨_, rfl⟩
  obtain ⟨hcycles, hrests⟩ := worker_comes_to_rest (fun _ => Nat.le_refl _) hs hopen hworker hquiet
  rw [hqueued, hpermit] at hcycles hrests
  refine ⟨hworker, hqueued, hpermit, by decide +kernel, hcycles, ?_⟩
  exact hrests _ (by decide +kernel) (List.Sublist.refl _)

end State

end SpanCourier
