import Mathlib.Data.List.Basic
import Mathlib.Data.List.Induction

/-!
# Traces whose events are allowed by their past

A condition relates an event to the events before it.  A trace is guarded when
every one of its events meets the condition where it stands; what must not
follow an event and what happens at most once are read off from it.
-/

namespace Httpfs.Transition

universe u

variable {ε : Type u} {allowed : List ε → ε → Prop}

/-- Every event is allowed by the events before it. -/
def Guarded (allowed : List ε → ε → Prop) (events : List ε) : Prop :=
  ∀ before event after, events = before ++ event :: after → allowed before event

theorem guarded_nil (allowed : List ε → ε → Prop) : Guarded allowed [] := by
  intro before event after split
  simp at split

namespace Guarded

theorem append {events new : List ε} (guarded : Guarded allowed events)
    (fresh : ∀ before event after, new = before ++ event :: after →
      allowed (events ++ before) event) : Guarded allowed (events ++ new) := by
  intro before event after split
  rcases List.append_eq_append_iff.mp split with
    ⟨middle, beforeEq, newEq⟩ | ⟨middle, eventsEq, restEq⟩
  · rw [beforeEq]
    exact fresh middle event after newEq
  · cases middle with
    | nil =>
        rw [List.nil_append] at restEq
        rw [List.append_nil] at eventsEq
        have here := fresh [] event after restEq.symm
        rwa [List.append_nil, eventsEq] at here
    | cons first middle =>
        cases restEq
        exact guarded before event middle eventsEq

/-- An event found after another is allowed with that one in its past. -/
theorem of_mem_after {events before after : List ε} {first later : ε}
    (guarded : Guarded allowed events) (split : events = before ++ first :: after)
    (member : later ∈ after) :
    ∃ between, allowed (before ++ first :: between) later := by
  obtain ⟨between, rest, afterEq⟩ := List.mem_iff_append.mp member
  refine ⟨between, guarded _ later rest ?_⟩
  simp [split, afterEq]

/-- Events that exclude their like in the past happen at most once. -/
theorem countP_le_one {events : List ε} {kind : ε → Bool}
    (guarded : Guarded allowed events)
    (excludes : ∀ before event, allowed before event → kind event = true →
      ∀ past ∈ before, kind past = false) : events.countP kind ≤ 1 := by
  induction events using List.reverseRecOn with
  | nil => simp
  | append_singleton events last inductionHypothesis =>
      have initial : Guarded allowed events := by
        intro before event after split
        exact guarded before event (after ++ [last]) (by simp [split])
      rw [List.countP_append]
      cases here : kind last with
      | false => simpa [here] using inductionHypothesis initial
      | true =>
          have unique := excludes events last (guarded events last [] rfl) here
          have none : events.countP kind = 0 := by
            rw [List.countP_eq_zero]
            intro past member
            simp [unique past member]
          simp [none, here]

end Guarded

end Httpfs.Transition
