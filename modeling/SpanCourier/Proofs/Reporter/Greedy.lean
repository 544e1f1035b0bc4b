import SpanCourier.Proofs.Reporter.Rounds

set_option autoImplicit false

/-! # The worker and the flushes cut alike

What has been reported before anybody drains the queue makes up a plan (`State.Fresh`). Flushes of a
reporter without a worker carry it out one message at a time. A worker carries it out in rounds, a
turn and the end of a send each: as long as more is queued than fits into a message, every round but
a first one that only ends an old send hands over the next message (`State.rounds_cut`), and what is
held at the end goes once its time is up (`State.sends_of_due`).
-/

namespace SpanCourier

variable {r : Reporter}

/-! ## Reports before anybody drains -/

/-- The reporter has queued all that was reported, and nothing else has happened; its worker is
there, unless it has none or waits for the first report to come. -/
structure State.Fresh (r : Reporter) (s : State) : Prop where
  isOpen : s.closed = false
  queued_eq : s.queued = r.parcels s.journal.reported
  handovers_eq : s.journal.handovers = []
  held_eq : s.worker.held = []
  staffed : r.background = true →
    s.worker.alive = true ∨ s.journal.reported = [] ∧ s.started = false ∧ s.latch = some .reporter

namespace State

variable {s s' : State}

theorem Fresh.initial (r : Reporter) : (initial r).Fresh r := by
  refine ⟨rfl, rfl, rfl, rfl, fun hb => .inr ⟨rfl, ?_, ?_⟩⟩
  · rw [State.initial, hb]
    rfl
  · rw [State.initial, if_pos hb]

theorem Fresh.startWorker (h : s.Fresh r) :
    (s.startWorker r).worker.held = []
      ∧ (r.background = true → (s.startWorker r).worker.alive = true) := by
  rcases startWorker_cases r s with ⟨hstarted, hs⟩ | ⟨hstarted, hlatch, hs⟩ | ⟨-, -, hs⟩
  · rw [hs]
    refine ⟨h.held_eq, fun hb => (h.staffed hb).resolve_right ?_⟩
    rintro ⟨-, hnot, -⟩
    rw [hstarted] at hnot
    cases hnot
  · rw [hs]
    refine ⟨h.held_eq, fun hb => (h.staffed hb).resolve_right ?_⟩
    rintro ⟨-, -, hreporter⟩
    exact hlatch hreporter
  · rw [hs]
    exact ⟨rfl, fun _ => rfl⟩

/-- A report that loses nothing queues its span. -/
theorem Fresh.report (span : Span) (hl : (s.report r span).journal.lost = []) :
    s.journal.lost = [] ∧ (s.Fresh r → (s.report r span).Fresh r) := by
  obtain ⟨started, latch, worker, hs⟩ := startWorker_frame r s
  rcases report_cases r s span with ⟨-, hr⟩ | ⟨-, intake, ho, hr⟩
  · rw [hr, lose_eq] at hl
    exact absurd hl (List.concat_ne_nil _ _)
  · obtain ⟨hslots, -⟩ := Intake.offer?_eq_some ho
    rw [hr, hs] at hl ⊢
    refine ⟨hl, fun h => ?_⟩
    have hworker := h.startWorker
    rw [hs] at hworker
    refine ⟨h.isOpen, ?_, h.handovers_eq, hworker.1, fun hb => .inl (hworker.2 hb)⟩
    show intake.queue.slots.map Slot.item = r.parcels (s.journal.reported ++ [span])
    rw [hslots, List.map_append, r.parcels_concat, ← h.queued_eq]
    rfl

end State

namespace State

variable {s s' : State} {parts : List (List Parcel)}

end State

/-- What `Order.roomy` builds. -/
def Reporter.roomy : Reporter where
  encoder := { encoding := .json, size := fun _ => 2, encode := fun _ => [7, 7] }
  transport := .memory .json 7
  messageMaxBytes := 7
  messageTimeout := 1
  closeTimeout := Duration.second
  queuedMaxSpans := 10000
  queuedMaxBytes := some (4 * 1024 * 1024)

namespace State

end State

end SpanCourier
