import Httpfs.Transition.Monitor
import Mathlib.Data.DFinsupp.WellFounded
import Mathlib.Data.Prod.Lex

/-!
# Threads that run out of steps

When every advance takes its thread to a control point of lower rank, finitely
many threads cannot run forever: a thread that falls asleep leaves one thread
fewer awake, and only an advance wakes threads again.  Ranks come from any
well-founded order, so that a thread may learn on the way how much work is left.
-/

namespace Httpfs.Transition.Monitor

universe u v w x y z

variable {ι : Type u} {σ : Type v} {τ : Type w} {χ : Type x} {ε : Type y} {α : Type z}

/-- Every advance lowers the rank of the control point. -/
def Descends [LT α] (program : Program ι σ τ χ ε) (rank : τ → α) : Prop :=
  ∀ thread shared control choice shared' control' events notify,
    program thread shared control choice = some (.advance shared' control' events notify) →
      rank control' < rank control

/-- The ranks of all threads and, for equal ranks, the number of threads that are
awake. -/
noncomputable def potential (rank : τ → α) (world : World ι σ τ ε) : (ι → α) ×ₗ Nat :=
  toLex (rank ∘ world.control, {thread | world.asleep thread = false}.ncard)

section Steps

variable [DecidableEq ι] [Finite ι]

theorem potential_sleep [Preorder α] (rank : τ → α) (world : World ι σ τ ε) {thread : ι}
    (awake : world.asleep thread = false) :
    potential rank (world.sleep thread) < potential rank world := by
  apply Prod.Lex.toLex_lt_toLex.mpr
  refine Or.inr ⟨rfl, Set.ncard_lt_ncard ?_ (Set.toFinite _)⟩
  constructor
  · intro other stays
    by_cases same : other = thread
    · rw [same]
      exact awake
    · simpa [World.sleep, same] using stays
  · intro kept
    have asleep := kept awake
    simp [World.sleep] at asleep

omit [Finite ι] in
theorem potential_advance [Preorder α] (rank : τ → α) (world : World ι σ τ ε) {thread : ι}
    {shared : σ} {control : τ} (lower : rank control < rank (world.control thread))
    (events : List ε) (notify : Bool) :
    potential rank (world.advance thread shared control events notify) <
      potential rank world := by
  apply Prod.Lex.toLex_lt_toLex.mpr
  refine Or.inl ?_
  have moved : rank ∘ (world.advance thread shared control events notify).control =
      Function.update (rank ∘ world.control) thread (rank control) :=
    Function.comp_update rank world.control thread control
  rw [moved]
  exact update_lt_self_iff.mpr lower

/-- Finitely many threads that descend run out of steps, however they are
scheduled and whatever the environment chooses. -/
theorem Descends.wellFounded [Preorder α] [WellFoundedLT α] {program : Program ι σ τ χ ε}
    {rank : τ → α} (descends : Descends program rank)
    (admits : World ι σ τ ε → ι → Prop) :
    WellFounded fun next world => Next program admits world next := by
  apply (InvImage.wf (potential rank) wellFounded_lt).mono
  rintro next world ⟨thread, choice, _, stepped⟩
  obtain ⟨awake, ⟨waits, rfl⟩ | ⟨shared, control, events, notify, advances, rfl⟩⟩ :=
    step_cases stepped
  · exact potential_sleep rank world awake
  · exact potential_advance rank world (descends _ _ _ _ _ _ _ _ advances) events notify

end Steps

end Httpfs.Transition.Monitor
