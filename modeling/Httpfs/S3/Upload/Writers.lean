import Httpfs.S3.Upload.Uploads

/-!
# Whose bytes were written

Every write that passes `PrepareWrite` is the write of one call, which passes
it once and with its own data.
-/

namespace Httpfs.S3.Upload

open Httpfs.Transition
open Httpfs.Transition.Monitor

universe u

variable {ι : Type u} {env : Env} {calls : ι → Call} {world : UploadWorld ι}
  {thread : ι} {next : Session} {here : Pc} {events : List Event} {notify : Bool}

/-- The writes that passed `PrepareWrite`, with the calls that made them. -/
def attributedWrites (trace : List (ι × Event)) : List (ι × Nat × Bytes) :=
  trace.filterMap fun entry => entry.2.prepared?.map fun write => (entry.1, write)

theorem attributedWrites_append (first second : List (ι × Event)) :
    attributedWrites (first ++ second) = attributedWrites first ++ attributedWrites second :=
  List.filterMap_append

theorem attributedWrites_map (thread : ι) (events : List Event) :
    attributedWrites (events.map fun event => (thread, event)) =
      (preparedWrites events).map fun write => (thread, write) := by
  rw [attributedWrites, preparedWrites, List.filterMap_map, List.map_filterMap]
  rfl

theorem map_snd_attributedWrites (world : UploadWorld ι) :
    (attributedWrites world.trace).map Prod.snd = preparedWrites world.events := by
  rw [attributedWrites, preparedWrites, World.events, List.filterMap_map, List.map_filterMap]
  congr 1
  funext entry
  rw [Option.map_map]
  exact Option.map_id' (x := entry.2.prepared?)

namespace Pc

/-- Control points in front of `PrepareWrite`. -/
def unprepared : Pc → Bool
  | .start | .prepareWrite => true
  | _ => false

/-- Control points a write reaches only through `PrepareWrite`. -/
def passed : Pc → Bool
  | .prepareWrite => false
  | .done result => decide (result = .returned ∨ result = .destroyed)
  | pc => decide (pc.owner = .write)

end Pc

theorem Releaser.owner_write {releaser : Releaser} (claims : releaser ≠ .fail) :
    releaser.owner = .write := by
  cases releaser with
  | finish | destroy => rfl
  | fail => contradiction

theorem claims_of_releasedResult {releaser : Releaser}
    (passed : (Pc.done (releasedResult releaser)).passed = true) : releaser ≠ .fail := by
  rintro rfl
  contradiction

theorem claims_of_failedResult {error : ErrorData} {releaser : Releaser}
    (passed : (Pc.done (failedResult error releaser)).passed = true) : releaser ≠ .fail := by
  rintro rfl
  contradiction

/-- A write passes `PrepareWrite` with its own data. -/
theorem Transition.prepares {call : Call} {session : Session} {pc : Pc}
    (transition : Transition env call session pc next here events notify) :
    preparedWrites events = [] ∨ ∃ data location, call = .write data location ∧
      preparedWrites events = [(location, data)] ∧ pc = .prepareWrite ∧
        here.unprepared = false := by
  induction transition with
  | prepared healthy placed numbers split =>
      exact Or.inr ⟨_, _, rfl, preparedWrites_prepared _ _ _, rfl, rfl⟩
  | _ => exact Or.inl rfl

theorem Transition.unprepared_of {call : Call} {session : Session} {pc : Pc}
    (transition : Transition env call session pc next here events notify)
    (unprepared : here.unprepared = true) : pc.unprepared = true := by
  induction transition <;> first
    | rfl
    | contradiction

theorem Transition.passed_of {call : Call} {session : Session} {pc : Pc}
    (present : At call session pc) (write : call.owns .write = true)
    (transition : Transition env call session pc next here events notify)
    (passed : here.passed = true) : pc.passed = true ∨ preparedWrites events ≠ [] := by
  have notFinalize : pc.owner ≠ .finalize := by
    intro finalize
    have owned := present.owned
    rw [finalize] at owned
    rw [Call.eq_finalize owned] at write
    contradiction
  induction transition with
  | prepared healthy placed numbers split =>
      exact Or.inr (by simp)
  | alreadyFinalized => contradiction
  | finishFinalize => exact absurd rfl notFinalize
  | releaseHealthy =>
      exact Or.inl (decide_eq_true (Releaser.owner_write (claims_of_releasedResult passed)))
  | releaseNothing | releaseCleaned | cleaned | publishRelease =>
      exact Or.inl (decide_eq_true (Releaser.owner_write (claims_of_failedResult passed)))
  | publishAbort =>
      rename_i abortError
      cases abortError <;> contradiction
  | _ => first
      | contradiction
      | exact Or.inl rfl
      | exact Or.inl passed

/-- Every accounted write is the write of one call, and every call that is past
`PrepareWrite` is accounted for. -/
structure Writers (calls : ι → Call) (world : UploadWorld ι) : Prop where
  own : ∀ entry ∈ attributedWrites world.trace, calls entry.1 = .write entry.2.2 entry.2.1
  behind : ∀ entry ∈ attributedWrites world.trace, (world.control entry.1).unprepared = false
  once : ((attributedWrites world.trace).map Prod.fst).Nodup
  passed : ∀ thread, (calls thread).owns .write = true →
    (world.control thread).passed = true →
      thread ∈ (attributedWrites world.trace).map Prod.fst

theorem writers_initial : Writers calls initialWorld where
  own := fun _ member => by contradiction
  behind := fun _ member => by contradiction
  once := List.nodup_nil
  passed := fun _ _ passed => by contradiction

variable [DecidableEq ι]

theorem attributedWrites_advance (world : UploadWorld ι) (thread : ι) (next : Session) (here : Pc)
    (events : List Event) (notify : Bool) :
    attributedWrites (world.advance thread next here events notify).trace =
      attributedWrites world.trace ++
        (preparedWrites events).map fun write => (thread, write) := by
  rw [← attributedWrites_map]
  exact attributedWrites_append _ _

theorem Writers.advance (control : Control calls world) (writers : Writers calls world)
    (transition : Transition env (calls thread) world.shared (world.control thread)
      next here events notify) :
    Writers calls (world.advance thread next here events notify) := by
  have extended := attributedWrites_advance world thread next here events notify
  constructor
  · intro entry member
    rw [extended, List.mem_append] at member
    rcases member with earlier | now
    · exact writers.own entry earlier
    · rcases transition.prepares with none | ⟨data, location, call, one, _⟩
      · rw [none] at now
        contradiction
      · rw [one] at now
        rw [List.mem_singleton.mp now]
        exact call
  · intro entry member
    rw [extended, List.mem_append] at member
    by_cases same : entry.1 = thread
    · have prepared : here.unprepared = false := by
        rcases transition.prepares with none | ⟨data, location, call, one, _, prepared⟩
        · rw [none, List.map_nil] at member
          have behind := writers.behind entry (member.resolve_right List.not_mem_nil)
          by_contra unprepared
          have before := transition.unprepared_of (by simpa using unprepared)
          rw [same, before] at behind
          contradiction
        · exact prepared
      simpa [World.advance, same] using prepared
    · have earlier : entry ∈ attributedWrites world.trace := by
        refine member.resolve_right ?_
        intro now
        obtain ⟨write, _, rfl⟩ := List.mem_map.mp now
        exact same rfl
      simpa [World.advance, same] using writers.behind entry earlier
  · rw [extended, List.map_append]
    rcases transition.prepares with none | ⟨data, location, call, one, position, _⟩
    · simpa [none] using writers.once
    · rw [one]
      apply List.Nodup.append writers.once (List.nodup_singleton _)
      intro writer earlier now
      have now : writer = thread := List.mem_singleton.mp now
      obtain ⟨entry, member, rfl⟩ := List.mem_map.mp earlier
      have behind := writers.behind entry member
      rw [now, position] at behind
      contradiction
  · intro other write passed
    rw [extended, List.map_append, List.mem_append]
    by_cases same : other = thread
    · subst same
      rcases transition.passed_of (control.present other) write
        (by simpa [World.advance] using passed) with before | now
      · exact Or.inl (writers.passed other write before)
      · right
        obtain ⟨entry, member⟩ := List.exists_mem_of_ne_nil _ now
        exact List.mem_map.mpr ⟨(other, entry), List.mem_map_of_mem member, rfl⟩
    · exact Or.inl (writers.passed other write (by simpa [World.advance, same] using passed))

theorem Reachable.writers (reachable : Reachable env calls world) : Writers calls world :=
  reachable.invariant writers_initial
    (fun _ _ _ _ _ _ control writers transition => Writers.advance control writers transition)
    (fun _ _ writers => { writers with })

end Httpfs.S3.Upload
