import Mathlib.Data.List.Induction
import SpanCourier.Proofs.BatchUse

set_option autoImplicit false

/-! # When a batch in use is due

Whether a batch is due, and how much time it has left, is read off three things: the mark that it is
full, its deadline, and whether it holds anything. For a batch in use the deadline has a meaning of
its own: it runs from the offer by which the oldest item came in, until the first drain after that.

Items are numbered in the order in which they were accepted, and `Usage.Entered` names the offer by
which the item of a number came in. The oldest item held has as its number how many have left
(`Usage.OldestEntered`), because what is held is what was accepted without what has left.
-/

namespace SpanCourier

namespace Batch

variable {α : Type}

/-- The use is a drain. -/
def Use.isDrain : Use α → Bool
  | .drain _ => true
  | _ => false

/-- The use can take items out of the batch. -/
def Use.removes : Use α → Bool
  | .drain _ => true
  | .clear => true
  | _ => false

theorem Use.isDrain_eq_false {use : Use α} (h : use.removes = false) : use.isDrain = false := by
  cases use with
  | offer item size => rfl
  | drain into => cases h
  | clear => rfl
  | pass time => rfl

namespace Usage

variable {encoding : Encoding} {maxBytes : Nat} {timeout : Duration} {u : Usage α}

/-! ## Uses that take nothing out -/

/-- Nothing has left the batch in between. If it held anything, its deadline is what it was. -/
structure Lingers (u u' : Usage α) : Prop where
  departed_eq : u'.departed = u.departed
  slots_ne_nil : u.batch.slots ≠ [] → u'.batch.slots ≠ []
  deadline_eq : u.batch.slots ≠ [] → u'.batch.deadline = u.batch.deadline
  full : u.batch.full = true → u'.batch.full = true
  now_le : u.now ≤ u'.now

theorem Lingers.refl (u : Usage α) : u.Lingers u := ⟨rfl, id, fun _ => rfl, id, Nat.le_refl _⟩

theorem Lingers.trans {u u₁ u₂ : Usage α} (h : u.Lingers u₁) (h₁ : u₁.Lingers u₂) :
    u.Lingers u₂ where
  departed_eq := h₁.departed_eq.trans h.departed_eq
  slots_ne_nil := fun hne => h₁.slots_ne_nil (h.slots_ne_nil hne)
  deadline_eq := fun hne => (h₁.deadline_eq (h.slots_ne_nil hne)).trans (h.deadline_eq hne)
  full := fun hf => h₁.full (h.full hf)
  now_le := Nat.le_trans h.now_le h₁.now_le

theorem lingers_step (u : Usage α) {use : Use α} (hr : use.removes = false) :
    u.Lingers (u.step use).1 := by
  cases use with
  | offer item size =>
    rcases u.step_offer ⟨item, size⟩ with ⟨-, hstep⟩ | ⟨-, -, hstep⟩ | ⟨-, -, hstep⟩
    · rw [hstep]
      exact ⟨rfl, id, fun _ => rfl, fun _ => rfl, Nat.le_refl _⟩
    · rw [hstep]
      exact .refl u
    · rw [hstep]
      refine ⟨rfl, fun _ => List.concat_ne_nil _ _, fun hne => ?_, fun hf => ?_, Nat.le_refl _⟩
      · exact if_neg fun hempty => hne (List.isEmpty_iff.1 hempty)
      · show (u.batch.full || _) = true
        rw [hf, Bool.true_or]
  | drain into => cases hr
  | clear => cases hr
  | pass time => exact ⟨rfl, id, fun _ => rfl, id, Nat.le_add_right _ _⟩

theorem lingers_run (u : Usage α) {uses : List (Use α)} (hr : ∀ use ∈ uses, use.removes = false) :
    u.Lingers (u.run uses) := by
  induction uses generalizing u with
  | nil => exact .refl u
  | cons use rest ih =>
    have hstep := u.lingers_step (hr use List.mem_cons_self)
    exact hstep.trans (ih _ fun use' h => hr use' (List.mem_cons_of_mem _ h))

/-- A deadline does not move. -/
theorem Lingers.deadline {u' : Usage α} (h : u.Lingers u') (hk : u.Kept encoding maxBytes timeout)
    {deadline : Instant} (hd : u.batch.deadline = some deadline) :
    u'.batch.deadline = some deadline := by
  have hne : u.batch.slots ≠ [] := by
    intro hempty
    rw [hk.deadline_eq hempty] at hd
    cases hd
  exact (h.deadline_eq hne).trans hd

/-- What is due stays due. -/
theorem Lingers.isReady {u' : Usage α} (h : u.Lingers u') (hk : u.Kept encoding maxBytes timeout)
    (hr : u.batch.isReady u.now = true) : u'.batch.isReady u'.now = true := by
  rw [isReady_iff] at hr ⊢
  rcases hr with hfull | ⟨deadline, hd, hle⟩ | ⟨hd, hne⟩
  · exact .inl (h.full hfull)
  · exact .inr (.inl ⟨deadline, h.deadline hk hd, Nat.le_trans hle h.now_le⟩)
  · exact .inr (.inr ⟨(h.deadline_eq hne).trans hd, h.slots_ne_nil hne⟩)

/-! ## The offers by which items came in -/

/-- The item of this number came in by an offer at this time, followed by `later`. -/
def Entered (u : Usage α) (uses : List (Use α)) (number : Nat) (slot : Slot α) (time : Instant)
    (later : List (Use α)) : Prop :=
  ∃ earlier, uses = earlier ++ .offer slot.item slot.size :: later
    ∧ ((u.run earlier).step (.offer slot.item slot.size)).2 = .accepted
    ∧ (u.run earlier).accepted.length = number
    ∧ (u.run earlier).now = time

/-- The oldest item that is held after these uses came in at this time, before `later`. -/
def OldestEntered (u : Usage α) (uses : List (Use α)) (slot : Slot α) (time : Instant)
    (later : List (Use α)) : Prop :=
  u.Entered uses (u.run uses).departed.length slot time later

variable {uses later : List (Use α)} {use : Use α} {number : Nat} {slot : Slot α} {time : Instant}

theorem Entered.concat (h : u.Entered uses number slot time later) (use : Use α) :
    u.Entered (uses ++ [use]) number slot time (later ++ [use]) := by
  obtain ⟨earlier, rfl, haccepted, hnumber, hnow⟩ := h
  exact ⟨earlier, by rw [List.append_assoc, List.cons_append], haccepted, hnumber, hnow⟩

/-- An item came in by the last use, or by one before it. -/
theorem Entered.cases_concat (h : u.Entered (uses ++ [use]) number slot time later) :
    (later = [] ∧ use = .offer slot.item slot.size
        ∧ ((u.run uses).step use).2 = .accepted
        ∧ (u.run uses).accepted.length = number ∧ (u.run uses).now = time)
      ∨ ∃ later', later = later' ++ [use] ∧ u.Entered uses number slot time later' := by
  obtain ⟨earlier, huses, haccepted, hnumber, hnow⟩ := h
  rcases List.eq_nil_or_concat later with rfl | ⟨later', last, rfl⟩
  · obtain ⟨rfl, hlast⟩ := List.append_inj' huses rfl
    obtain rfl : use = _ := (List.cons.inj hlast).1
    exact .inl ⟨rfl, rfl, haccepted, hnumber, hnow⟩
  · rw [List.concat_eq_append] at huses ⊢
    rw [← List.cons_append, ← List.append_assoc] at huses
    obtain ⟨rfl, hlast⟩ := List.append_inj' huses rfl
    obtain rfl : use = last := (List.cons.inj hlast).1
    exact .inr ⟨later', rfl, earlier, rfl, haccepted, hnumber, hnow⟩

/-- What was accepted stays on record. -/
theorem accepted_step (u : Usage α) (use : Use α) :
    ∃ more, (u.step use).1.accepted = u.accepted ++ more
      ∧ (more ≠ [] → ∃ slot : Slot α, use = .offer slot.item slot.size ∧ more = [slot]
        ∧ (u.step use).2 = .accepted) := by
  cases use with
  | offer item size =>
    rcases u.step_offer ⟨item, size⟩ with ⟨-, hstep⟩ | ⟨-, -, hstep⟩ | ⟨-, -, hstep⟩
    · exact ⟨[], by rw [hstep, List.append_nil], fun hne => absurd rfl hne⟩
    · exact ⟨[], by rw [hstep, List.append_nil], fun hne => absurd rfl hne⟩
    · exact ⟨[⟨item, size⟩], by rw [hstep], fun _ => ⟨⟨item, size⟩, rfl, rfl, by rw [hstep]⟩⟩
  | drain into =>
    obtain ⟨taken, left, state, -, -, hstep⟩ := u.step_drain into
    exact ⟨[], by rw [hstep, List.append_nil], fun hne => absurd rfl hne⟩
  | clear => exact ⟨[], (List.append_nil _).symm, fun hne => absurd rfl hne⟩
  | pass time => exact ⟨[], (List.append_nil _).symm, fun hne => absurd rfl hne⟩

/-- Every item that was accepted came in by some offer. -/
theorem exists_entered (hstart : u.accepted = [])
    (hnumber : number < (u.run uses).accepted.length) :
    ∃ slot time later, u.Entered uses number slot time later := by
  induction uses using List.reverseRec with
  | nil =>
    have hnone : (u.run []).accepted = [] := hstart
    rw [hnone] at hnumber
    exact absurd hnumber (Nat.not_lt_zero _)
  | append_singleton uses use ih =>
    obtain ⟨more, hmore, hlast⟩ := (u.run uses).accepted_step use
    rw [run_concat, hmore, List.length_append] at hnumber
    by_cases hold : number < (u.run uses).accepted.length
    · obtain ⟨slot, time, later, h⟩ := ih hold
      exact ⟨slot, time, later ++ [use], h.concat use⟩
    · have hne : more ≠ [] := by
        rintro rfl
        simp at hnumber
        omega
      obtain ⟨slot, rfl, rfl, haccepted⟩ := hlast hne
      rw [List.length_singleton] at hnumber
      have hlength : (u.run uses).accepted.length = number := by omega
      exact ⟨slot, (u.run uses).now, [], uses, rfl, haccepted, hlength, rfl⟩

/-- The item that came in stands at its number among those that were accepted. -/
theorem Entered.accepted_eq (h : u.Entered uses number slot time later) :
    (u.run uses).accepted[number]? = some slot := by
  induction uses using List.reverseRec generalizing later with
  | nil =>
    obtain ⟨earlier, huses, -⟩ := h
    exact absurd huses.symm (List.append_ne_nil_of_right_ne_nil _ (List.cons_ne_nil _ _))
  | append_singleton uses use ih =>
    obtain ⟨more, hmore, hlast⟩ := (u.run uses).accepted_step use
    rw [run_concat, hmore]
    rcases h.cases_concat with ⟨-, rfl, haccepted, hnumber, -⟩ | ⟨later', -, h'⟩
    · rcases (u.run uses).step_offer slot with ⟨-, hstep⟩ | ⟨-, -, hstep⟩ | ⟨-, -, hstep⟩
      · rw [hstep] at haccepted
        cases haccepted
      · rw [hstep] at haccepted
        cases haccepted
      · rw [hstep] at hmore
        obtain rfl : more = [slot] := (List.append_cancel_left hmore).symm
        rw [← hnumber]
        exact List.getElem?_concat_length
    · obtain ⟨hlt, -⟩ := List.getElem?_eq_some_iff.1 (ih h')
      rw [List.getElem?_append_left hlt]
      exact ih h'

/-! ## The oldest item -/

/-- As long as anything is held, its oldest item came in by some offer. -/
theorem Kept.exists_oldestEntered (h : (u.run uses).Kept encoding maxBytes timeout)
    (hstart : u.accepted = []) (hne : (u.run uses).batch.slots ≠ []) :
    ∃ slot time later, u.OldestEntered uses slot time later := by
  have hlength : (u.run uses).accepted.length =
      (u.run uses).departed.length + (u.run uses).batch.slots.length := by
    rw [h.accepted_eq, List.length_append]
  have hpos : 0 < (u.run uses).batch.slots.length := List.length_pos_iff.2 hne
  exact exists_entered hstart (by omega)

/-- The offer of the oldest item offered the item that is held first. -/
theorem OldestEntered.head?_eq (h : u.OldestEntered uses slot time later)
    (hk : (u.run uses).Kept encoding maxBytes timeout) :
    (u.run uses).batch.slots.head? = some slot := by
  have hget := Entered.accepted_eq h
  rw [hk.accepted_eq, List.getElem?_append_right (Nat.le_refl _), Nat.sub_self] at hget
  rw [List.head?_eq_getElem?]
  exact hget

/-- The deadline runs from the offer of the oldest item, until the first drain after it. -/
theorem OldestEntered.deadline_eq (hk : ∀ uses, (u.run uses).Kept encoding maxBytes timeout)
    (h : u.OldestEntered uses slot time later) :
    (u.run uses).batch.deadline =
      if later.any Use.isDrain then none else some (time + timeout) := by
  induction uses using List.reverseRec generalizing slot later with
  | nil =>
    obtain ⟨earlier, huses, -⟩ := h
    exact absurd huses.symm (List.append_ne_nil_of_right_ne_nil _ (List.cons_ne_nil _ _))
  | append_singleton uses use ih =>
    have hhead := h.head?_eq (hk _)
    have hcases := Entered.cases_concat h
    rw [run_concat] at hhead hcases ⊢
    rcases hcases with ⟨rfl, rfl, haccepted, hnumber, rfl⟩ | ⟨later', rfl, h'⟩
    · -- it came in just now, when as many had left as had come
      rcases (u.run uses).step_offer slot with ⟨-, hstep⟩ | ⟨-, -, hstep⟩ | ⟨-, -, hstep⟩
      · rw [hstep] at haccepted
        cases haccepted
      · rw [hstep] at haccepted
        cases haccepted
      · rw [hstep] at hnumber ⊢
        have hempty : (u.run uses).batch.isEmpty = true := by
          rw [(hk uses).accepted_eq, List.length_append] at hnumber
          exact List.isEmpty_iff.2 (List.eq_nil_of_length_eq_zero (Nat.add_eq_left.1 hnumber))
        have htimeout := (hk uses).timeout_eq
        show (if _ then _ else _) = _
        rw [if_pos hempty, htimeout]
        rfl
    · -- it came in earlier
      rw [List.any_append, List.any_cons, List.any_nil, Bool.or_false]
      cases hr : use.removes with
      | false =>
        have hl := (u.run uses).lingers_step hr
        have hold : u.OldestEntered uses slot time later' := by
          rw [hl.departed_eq] at h'
          exact h'
        have hne : (u.run uses).batch.slots ≠ [] := by
          intro hempty
          have hfirst := hold.head?_eq (hk uses)
          rw [hempty] at hfirst
          cases hfirst
        rw [hl.deadline_eq hne, ih hold, Use.isDrain_eq_false hr, Bool.or_false]
      | true =>
        cases use with
        | offer item size => cases hr
        | drain into =>
          obtain ⟨taken, left, state, -, -, hstep⟩ := (u.run uses).step_drain into
          rw [hstep]
          exact (if_pos (Bool.or_true _)).symm
        | clear => cases hhead
        | pass time => cases hr

/-! ## The law -/

/-- However a batch is used: as long as it holds anything, its oldest item came in by some offer,
and the deadline is the time of that offer with the timeout added if no drain has come since, and
none otherwise; an empty batch has none. The clock can name the deadline, because an offer that
would set another one crashes instead of coming in. Offers and time do not move a deadline, and what
is due stays due until a drain or a clear. A batch that holds anything is due exactly if it is full
or has no time left; one that is empty and not full is not due and has all of its time left. -/
theorem due_by_oldest (encoding : Encoding) (maxBytes : Nat) (timeout : Duration)
    (uses : List (Use α)) :
    let fresh : Usage α := start encoding maxBytes timeout
    let u := fresh.run uses
    (u.batch.slots ≠ [] → ∃ slot time later, fresh.OldestEntered uses slot time later)
      ∧ (∀ slot time later, fresh.OldestEntered uses slot time later →
        u.batch.slots.head? = some slot
          ∧ u.batch.deadline = if later.any Use.isDrain then none else some (time + timeout))
      ∧ (u.batch.slots = [] → u.batch.deadline = none)
      ∧ (∀ deadline, u.batch.deadline = some deadline → deadline ≤ Instant.last)
      ∧ (∀ more, (∀ use ∈ more, use.removes = false) →
        (∀ deadline, u.batch.deadline = some deadline →
            (u.run more).batch.deadline = some deadline)
          ∧ (u.batch.isReady u.now = true →
            (u.run more).batch.isReady (u.run more).now = true))
      ∧ (u.batch.slots ≠ [] →
        (u.batch.isReady u.now = true ↔ u.batch.full = true ∨ u.batch.remaining u.now = 0))
      ∧ (u.batch.slots = [] → u.batch.full = false →
        u.batch.isReady u.now = false ∧ u.batch.remaining u.now = timeout) := by
  intro fresh u
  have hruns : ∀ uses, (fresh.run uses).Kept encoding maxBytes timeout :=
    (Kept.start encoding maxBytes timeout).run
  have hk : u.Kept encoding maxBytes timeout := hruns uses
  refine ⟨hk.exists_oldestEntered rfl,
    fun slot time later h => ⟨h.head?_eq hk, h.deadline_eq hruns⟩, hk.deadline_eq, hk.deadline_le,
    fun more hmore => ?_, fun hne => ?_, fun hempty hfull => ?_⟩
  · have hl := u.lingers_run hmore
    exact ⟨fun deadline => hl.deadline hk, hl.isReady hk⟩
  · constructor
    · intro hr
      cases hfull : u.batch.full with
      | true => exact .inl rfl
      | false =>
        refine .inr (Decidable.byContradiction fun hleft => ?_)
        rw [isReady_eq_false hfull hleft] at hr
        cases hr
    · rintro (hfull | hnone)
      · exact isReady_iff.2 (.inl hfull)
      · exact isReady_of_remaining hne hnone
  · have hnone := hk.deadline_eq hempty
    constructor
    · rw [isReady, hnone, hfull, isEmpty, hempty]
      rfl
    · rw [remaining_of_empty hnone hempty, hk.timeout_eq]

end Usage

end Batch

end SpanCourier
