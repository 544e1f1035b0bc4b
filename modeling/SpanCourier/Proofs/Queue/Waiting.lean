import SpanCourier.Proofs.Queue.Fifo

set_option autoImplicit false

/-! # How long a drain waits

A drain that begins at an intake is over at once if there are items, if it has no time, or if a
permit is stored. Otherwise it waits, while others offer items, clear the queue and wake it, and it
goes on as soon as it may: the clock stands still as long as a drain could go on (`Usage.Prompt`).

Then only two things end the wait, the first signal and the deadline. A signal is a wake, or an
offer that is admitted (`Usage.signals`); everything else leaves the waiter alone. The proof follows
the waiter of the signal: a wait is quiet (`Usage.Quiet`) until the first signal, and notified from
then on.
-/

namespace SpanCourier

namespace Intake

variable {α : Type}

/-- The use is none of a drainer: it offers, clears, wakes, or lets time pass. -/
def Use.byOthers : Use α → Bool
  | .offer _ _ => true
  | .clear => true
  | .wake => true
  | .pass _ => true
  | _ => false

namespace Usage

/-! ## Courses of a wait -/

/-- The drain that waits could go on now. -/
def MayGoOn (u : Usage α) : Prop := ∃ count into, (u.step .goOn).2 = .drained count into

/-- The use signals the drain: it wakes it, or it is an offer that is admitted. -/
def signals (u : Usage α) : Use α → Bool
  | .offer item size => (u.intake.offer? item size).isSome
  | .wake => true
  | _ => false

/-- The time of the first signal. -/
def firstSignal? (u : Usage α) : List (Use α) → Option Instant
  | [] => none
  | use :: rest => if u.signals use then some u.now else (u.step use).1.firstSignal? rest

/-- Others use the intake while a drain waits, and no time passes while it could go on. -/
def Prompt (u : Usage α) : List (Use α) → Prop
  | [] => True
  | use :: rest =>
    use.byOthers = true
      ∧ (∀ time, use = .pass time → ∀ t < time, ¬ (u.step (.pass t)).1.MayGoOn)
      ∧ (u.step use).1.Prompt rest

/-- A drain into a receiver is over: the receiver was handed the items from the front, until it
refused one or none was left. If it took none although there are some, it refused the first. -/
def EndsDrain (u : Usage α) (into : Receiver α) (result : Usage α × Answer α) : Prop :=
  ∃ taken left state,
    into.offer.Drains into.state u.slots taken left state false
      ∧ result.2 = .drained taken.length { into with state }
      ∧ result.1.slots = left
      ∧ result.1.now = u.now
      ∧ (taken = [] → left ≠ [] → ∃ slot rest, u.slots = slot :: rest
        ∧ into.offer into.state slot.item slot.size = (.refused, state))

/-- When a wait with this deadline ends: at the first signal, or else at the deadline. -/
def endOfWait (u : Usage α) (deadline : Instant) (during : List (Use α)) : Instant :=
  (u.firstSignal? during).elim deadline (min deadline)

/-- What is so of a wait that has begun, with this deadline, after the course `during`. -/
structure WellTimed (begun : Usage α) (deadline : Instant) (into : Receiver α)
    (during : List (Use α)) : Prop where
  now_le : (begun.run during).now ≤ begun.endOfWait deadline during
  mayGoOn_iff : (begun.run during).MayGoOn ↔
    (begun.run during).now = begun.endOfWait deadline during
  /-- A wait that is not over can last until its deadline. -/
  lasts : ¬ (begun.run during).MayGoOn →
    begun.Prompt (during ++ [.pass (deadline - (begun.run during).now)])
  ends : (begun.run during).MayGoOn →
    (begun.run during).EndsDrain into ((begun.run during).step .goOn)
  /-- If the drain goes on without having been notified, every offer was refused. -/
  refused : (begun.run during).MayGoOn → (begun.run during).intake.signal.waiter ≠ .notified →
    ∀ earlier item size rest, during = earlier ++ .offer item size :: rest →
      ((begun.run earlier).step (.offer item size)).2 = .offered false
  clear_iff : ((begun.run during).step .clear).1.MayGoOn ↔ (begun.run during).MayGoOn
  refuse_iff : ∀ item size,
    ((begun.run during).step (.offer item size)).2 = .offered false →
      (((begun.run during).step (.offer item size)).1.MayGoOn ↔ (begun.run during).MayGoOn)
  /-- Where a permit is stored, a further signal stores no other. -/
  one_permit : (begun.run during).intake.signal.permit = true →
    (begun.run during).intake.signal.notify = (begun.run during).intake.signal

variable {u : Usage α} {deadline : Instant} {into : Receiver α}

theorem prompt_append (u : Usage α) (uses later : List (Use α)) :
    u.Prompt (uses ++ later) ↔ u.Prompt uses ∧ (u.run uses).Prompt later := by
  induction uses generalizing u with
  | nil => exact (and_iff_right trivial).symm
  | cons use rest ih =>
    rw [List.cons_append, Prompt, Prompt, ih, and_assoc, and_assoc]
    rfl

/-- Without a signal in a course, none of its uses signals. -/
theorem signals_eq_false {earlier rest : List (Use α)} {use : Use α}
    (h : u.firstSignal? (earlier ++ use :: rest) = none) :
    (u.run earlier).signals use = false := by
  induction earlier generalizing u with
  | nil =>
    rw [List.nil_append, firstSignal?] at h
    split at h
    · cases h
    · next hs => exact Bool.eq_false_iff.2 hs
  | cons first rest ih =>
    rw [List.cons_append, firstSignal?] at h
    split at h
    · cases h
    · exact ih h

/-- An offer that does not signal is refused. -/
theorem step_of_signals_eq_false {item : α} {size : Nat}
    (h : u.signals (.offer item size) = false) :
    u.step (.offer item size) = (u, .offered false) := by
  have hnone : u.intake.offer? item size = none :=
    Option.isNone_iff_eq_none.1 (Option.isSome_eq_false_iff.1 h)
  rw [step, hnone]

/-! ## The end of a drain -/

/-- A drain that takes what there is ends as it should. -/
theorem endsDrain_tryDrain (u : Usage α) (into : Receiver α) (u' : Usage α) (signal : Signal)
    (hnow : u'.now = u.now) :
    let result := { u.intake with signal }.tryDrain into.offer into.state
    u.EndsDrain into (u'.finishDrain into result.1 result.2) := by
  obtain ⟨taken, left, state, hd, he⟩ :=
    Queue.drain_steady into.steady u.intake.queue into.state
  simp only [tryDrain, he]
  refine ⟨taken, left, state, hd, rfl, rfl, hnow, ?_⟩
  rintro rfl hleft
  exact hd.refused_head hleft

/-- A drain that takes nothing from an empty queue ends as it should. -/
theorem endsDrain_nothing (hempty : u.slots = []) (into : Receiver α) (u' : Usage α)
    (signal : Signal) (hnow : u'.now = u.now) :
    u.EndsDrain into
      (u'.finishDrain into { u.intake with signal } ⟨into.state, 0, false⟩) := by
  refine ⟨[], [], into.state, ?_, rfl, hempty, hnow, fun _ hne => absurd rfl hne⟩
  rw [hempty]
  exact .done _

/-! ## The waiter during a wait -/

/-- A drain waits and has not been notified: there is nothing to drain, no permit is stored, and its
time may just be up but not longer. -/
structure Quiet (deadline : Instant) (into : Receiver α) (u : Usage α) : Prop where
  waiting_eq : u.waiting = some (deadline, into)
  waiter_eq : u.intake.signal.waiter = .waiting
  slots_eq : u.slots = []
  permit_eq : u.intake.signal.permit = false
  now_le : u.now ≤ deadline

/-- A drain waits and has been notified. -/
structure Roused (deadline : Instant) (into : Receiver α) (u : Usage α) : Prop where
  waiting_eq : u.waiting = some (deadline, into)
  waiter_eq : u.intake.signal.waiter = .notified

/-- A drain that waits may go on when it has been notified or its time is up. -/
theorem mayGoOn_iff (h : u.waiting = some (deadline, into)) :
    u.MayGoOn ↔ u.intake.signal.waiter = .notified ∨ deadline ≤ u.now := by
  rcases step_goOn h with ⟨hn, hstep⟩ | ⟨-, hle, hstep⟩ | ⟨hn, hlt, hstep⟩
  · exact iff_of_true ⟨_, _, by rw [hstep]; rfl⟩ (.inl hn)
  · exact iff_of_true ⟨_, _, by rw [hstep]; rfl⟩ (.inr hle)
  · refine iff_of_false ?_ (not_or.2 ⟨hn, Nat.not_le_of_lt hlt⟩)
    rintro ⟨count, into', hgoes⟩
    rw [hstep] at hgoes
    cases hgoes

theorem Roused.mayGoOn (h : u.Roused deadline into) : u.MayGoOn :=
  (mayGoOn_iff h.waiting_eq).2 (.inl h.waiter_eq)

theorem Quiet.mayGoOn_iff (h : u.Quiet deadline into) : u.MayGoOn ↔ u.now = deadline := by
  rw [Usage.mayGoOn_iff h.waiting_eq, h.waiter_eq]
  have hle := h.now_le
  constructor
  · rintro (hn | hd)
    · cases hn
    · exact Nat.le_antisymm hle hd
  · exact fun heq => .inr (Nat.le_of_eq heq.symm)

/-- What others do keeps a wait quiet, if it does not signal; and a signal rouses the drain. -/
theorem Quiet.step (h : u.Quiet deadline into) {use : Use α} (ho : use.byOthers = true)
    (hp : ∀ time, use = .pass time → ∀ t < time, ¬ (u.step (.pass t)).1.MayGoOn) :
    (u.signals use = false ∧ (u.step use).1.Quiet deadline into)
      ∨ (u.signals use = true ∧ (u.step use).1.Roused deadline into
        ∧ (u.step use).1.now = u.now) := by
  have hnotify : u.intake.signal.notify.waiter = .notified := by
    rw [Signal.notify_of_waiting h.waiter_eq]
  cases use with
  | offer item size =>
    cases ho' : u.intake.offer? item size with
    | none =>
      have hs : u.signals (.offer item size) = false := by rw [signals, ho']; rfl
      rw [step_of_signals_eq_false hs]
      exact .inl ⟨hs, h⟩
    | some intake =>
      have hsignal : intake.signal = u.intake.signal.notify := (offer?_eq_some ho').2
      refine .inr ⟨by rw [signals, ho']; rfl, ?_, by simp only [Usage.step, ho']⟩
      simp only [Usage.step, ho']
      exact ⟨h.waiting_eq, by rw [hsignal, hnotify]⟩
  | tryDrain into => cases ho
  | drain timeout into => cases ho
  | goOn => cases ho
  | clear => exact .inl ⟨rfl, h.waiting_eq, h.waiter_eq, rfl, h.permit_eq, h.now_le⟩
  | wake => exact .inr ⟨rfl, ⟨h.waiting_eq, hnotify⟩, rfl⟩
  | pass time =>
    refine .inl ⟨rfl, h.waiting_eq, h.waiter_eq, h.slots_eq, h.permit_eq, ?_⟩
    show u.now + time ≤ deadline
    cases time with
    | zero => exact h.now_le
    | succ t =>
      -- just before, the drain could not go on
      have hnot := hp (t + 1) rfl t (Nat.lt_succ_self t)
      have hwaits : (u.step (.pass t)).1.waiting = some (deadline, into) := h.waiting_eq
      rw [Usage.mayGoOn_iff hwaits] at hnot
      exact Nat.lt_of_not_le fun hle => hnot (.inr hle)

/-- Nothing that others do ends a wait that has been notified, but no time passes any more. -/
theorem Roused.step (h : u.Roused deadline into) {use : Use α} (ho : use.byOthers = true)
    (hp : ∀ time, use = .pass time → ∀ t < time, ¬ (u.step (.pass t)).1.MayGoOn) :
    (u.step use).1.Roused deadline into ∧ (u.step use).1.now = u.now := by
  have hnotify : u.intake.signal.notify.waiter = .notified :=
    Signal.waiter_notify (by rw [h.waiter_eq]; exact Waiter.noConfusion)
  cases use with
  | offer item size =>
    cases ho' : u.intake.offer? item size with
    | none =>
      simp only [Usage.step, ho']
      exact ⟨h, trivial⟩
    | some intake =>
      have hsignal : intake.signal = u.intake.signal.notify := (offer?_eq_some ho').2
      simp only [Usage.step, ho']
      exact ⟨⟨h.waiting_eq, by rw [hsignal, hnotify]⟩, trivial⟩
  | tryDrain into => cases ho
  | drain timeout into => cases ho
  | goOn => cases ho
  | clear => exact ⟨⟨h.waiting_eq, h.waiter_eq⟩, rfl⟩
  | wake => exact ⟨⟨h.waiting_eq, hnotify⟩, rfl⟩
  | pass time =>
    have hzero : time = 0 := by
      refine Nat.eq_zero_of_not_pos fun hpos => hp time rfl 0 hpos ?_
      have hsame : (u.step (.pass 0)).1.Roused deadline into := ⟨h.waiting_eq, h.waiter_eq⟩
      exact hsame.mayGoOn
    rw [hzero]
    exact ⟨⟨h.waiting_eq, h.waiter_eq⟩, rfl⟩

theorem Roused.run (h : u.Roused deadline into) {during : List (Use α)} (hp : u.Prompt during) :
    (u.run during).Roused deadline into ∧ (u.run during).now = u.now := by
  induction during generalizing u with
  | nil => exact ⟨h, rfl⟩
  | cons use rest ih =>
    obtain ⟨ho, htime, hrest⟩ := hp
    obtain ⟨hnext, hnow⟩ := h.step ho htime
    obtain ⟨hlast, hlater⟩ := ih hnext hrest
    exact ⟨hlast, hlater.trans hnow⟩

/-- A course leaves a wait quiet, or it has roused the drain at the time of the first signal and
then stands still. -/
theorem Quiet.run (h : u.Quiet deadline into) {during : List (Use α)} (hp : u.Prompt during) :
    (u.firstSignal? during = none ∧ (u.run during).Quiet deadline into)
      ∨ ∃ t, u.firstSignal? during = some t ∧ t ≤ deadline
        ∧ (u.run during).Roused deadline into ∧ (u.run during).now = t := by
  induction during generalizing u with
  | nil => exact .inl ⟨rfl, h⟩
  | cons use rest ih =>
    obtain ⟨ho, htime, hrest⟩ := hp
    rcases h.step ho htime with ⟨hs, hnext⟩ | ⟨hs, hnext, hnow⟩
    · rw [firstSignal?, hs, if_neg Bool.false_ne_true]
      exact ih hnext hrest
    · rw [firstSignal?, hs, if_pos rfl]
      obtain ⟨hlast, hlater⟩ := hnext.run hrest
      exact .inr ⟨u.now, rfl, h.now_le, hlast, hlater.trans hnow⟩

/-! ## The time of a wait -/

/-- An offer that is refused changes nothing. -/
theorem step_of_refused {item : α} {size : Nat}
    (h : (u.step (.offer item size)).2 = .offered false) : (u.step (.offer item size)).1 = u := by
  cases ho : u.intake.offer? item size with
  | none => rw [step, ho]
  | some intake =>
    rw [step, ho] at h
    cases h

theorem mayGoOn_clear_iff (h : u.waiting = some (deadline, into)) :
    (u.step .clear).1.MayGoOn ↔ u.MayGoOn := by
  have hnext : (u.step .clear).1.waiting = some (deadline, into) := h
  rw [mayGoOn_iff h, mayGoOn_iff hnext]
  rfl

/-- A drain that goes on ends as it should, if it is notified or there is nothing to drain. -/
theorem endsDrain_goOn (h : u.waiting = some (deadline, into))
    (hempty : u.intake.signal.waiter ≠ .notified → u.slots = []) (hm : u.MayGoOn) :
    u.EndsDrain into (u.step .goOn) := by
  rcases step_goOn h with ⟨-, hstep⟩ | ⟨hn, -, hstep⟩ | ⟨hn, hlt, -⟩
  · rw [hstep]
    exact endsDrain_tryDrain u into { u with waiting := none } _ rfl
  · rw [hstep]
    exact endsDrain_nothing (hempty hn) into { u with waiting := none } _ rfl
  · rcases (mayGoOn_iff h).1 hm with hn' | hle
    · exact absurd hn' hn
    · exact absurd hle (Nat.not_le_of_lt hlt)

/-- While a wait is quiet, the time up to its deadline may pass. -/
theorem Quiet.prompt_pass (h : u.Quiet deadline into) : u.Prompt [.pass (deadline - u.now)] := by
  refine ⟨rfl, ?_, trivial⟩
  rintro time heq t hlt hm
  obtain rfl : deadline - u.now = time := Use.pass.inj heq
  have hwaits : (u.step (.pass t)).1.waiting = some (deadline, into) := h.waiting_eq
  rcases (Usage.mayGoOn_iff hwaits).1 hm with hn | hle
  · exact absurd (h.waiter_eq.symm.trans hn) Waiter.noConfusion
  · have hle' : deadline ≤ u.now + t := hle
    exact absurd (Nat.sub_le_iff_le_add'.2 hle') (Nat.not_le_of_lt hlt)

/-- A wait that begins quiet is over at its deadline or at the first signal before. -/
theorem Quiet.wellTimed (h : u.Quiet deadline into) {during : List (Use α)}
    (hp : u.Prompt during) : u.WellTimed deadline into during := by
  have hrefuse : ∀ item size, ((u.run during).step (.offer item size)).2 = .offered false →
      (((u.run during).step (.offer item size)).1.MayGoOn ↔ (u.run during).MayGoOn) := by
    intro item size hr
    rw [step_of_refused hr]
  rcases h.run hp with ⟨hnone, hq⟩ | ⟨t, hfirst, hle, hr, hnow⟩
  · have hends : u.endOfWait deadline during = deadline := by rw [endOfWait, hnone]; rfl
    constructor
    · rw [hends]
      exact hq.now_le
    · rw [hends]
      exact hq.mayGoOn_iff
    · exact fun _ => (u.prompt_append _ _).2 ⟨hp, hq.prompt_pass⟩
    · exact endsDrain_goOn hq.waiting_eq fun _ => hq.slots_eq
    · rintro - - earlier item size rest rfl
      rw [step_of_signals_eq_false (signals_eq_false hnone)]
    · exact mayGoOn_clear_iff hq.waiting_eq
    · exact hrefuse
    · intro hpermit
      rw [hq.permit_eq] at hpermit
      cases hpermit
  · have hends : u.endOfWait deadline during = t := by
      rw [endOfWait, hfirst]
      exact Nat.min_eq_right hle
    constructor
    · rw [hends]
      exact Nat.le_of_eq hnow
    · rw [hends]
      exact iff_of_true hr.mayGoOn hnow
    · exact fun hnot => absurd hr.mayGoOn hnot
    · exact endsDrain_goOn hr.waiting_eq fun hnot => absurd hr.waiter_eq hnot
    · exact fun _ hnot => absurd hr.waiter_eq hnot
    · exact mayGoOn_clear_iff hr.waiting_eq
    · exact hrefuse
    · intro hpermit
      have hnot : (u.run during).intake.signal.waiter ≠ .waiting := by
        rw [hr.waiter_eq]
        exact Waiter.noConfusion
      rw [Signal.notify_of_not_waiting hnot, ← hpermit]

/-- A drain takes the permit that is stored, and there is never more than one. It is over at once if
there are items, if it has no time, or if a permit is stored. Otherwise it waits, and is over at the
first signal or at its deadline, whichever is earlier; nothing else that others do ends it. If it
takes nothing although there are items, the receiver has refused the first. -/
theorem ends_at_first_signal (i : Intake α) (now : Instant) (timeout : Duration)
    (into : Receiver α) :
    let u : Usage α := { now, intake := i }
    let begun := u.step (.drain timeout into)
    begun.1.intake.signal.permit = false
      ∧ (i.queue.slots ≠ [] ∨ timeout = 0 ∨ i.signal.permit = true → u.EndsDrain into begun)
      ∧ (i.queue.slots = [] ∧ timeout ≠ 0 ∧ i.signal.permit = false →
        begun.2 = .waits
          ∧ ∀ during, begun.1.Prompt during → begun.1.WellTimed (now + timeout) into during) := by
  intro u begun
  by_cases hw : u.MustWait timeout
  · obtain ⟨hempty, htime, hpermit⟩ := hw
    have hslots : i.queue.slots = [] := List.isEmpty_iff.1 hempty
    have hbegun : begun = ({ u with
        intake := { u.intake with signal := u.intake.signal.await }
        waiting := some (now + timeout, into) }, .waits) :=
      step_drain_waits ⟨hempty, htime, hpermit⟩ into
    have hquiet : begun.1.Quiet (now + timeout) into := by
      rw [hbegun]
      exact ⟨rfl, rfl, hslots, hpermit, Nat.le_add_right _ _⟩
    refine ⟨hquiet.permit_eq, ?_, fun _ => ⟨by rw [hbegun], fun during => hquiet.wellTimed⟩⟩
    rintro (hne | hzero | hstored)
    · exact absurd hslots hne
    · exact absurd hzero htime
    · exact absurd (hpermit.symm.trans hstored) Bool.false_ne_true
  · have hbegun : begun = _ := step_drain_over hw into
    refine ⟨?_, fun _ => ?_, ?_⟩
    · rw [hbegun]
      rfl
    · rw [hbegun]
      exact endsDrain_tryDrain u into u _ rfl
    · rintro ⟨hslots, htime, hpermit⟩
      exact absurd ⟨List.isEmpty_iff.2 hslots, htime, hpermit⟩ hw

end Usage

end Intake

end SpanCourier
