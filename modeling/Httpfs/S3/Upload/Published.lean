import Httpfs.S3.Upload.Content
import Httpfs.S3.Upload.Writers

/-!
# The published object

The account of `Content` is an invariant of every run: a `Finalize` that
returns has asked the server to publish the bytes of exactly the writes that
passed `PrepareWrite`.
-/

namespace Httpfs.S3.Upload

open Httpfs.Transition
open Httpfs.Transition.Monitor

universe u

section Worlds

variable {ι : Type u} {env : Env} {calls : ι → Call} {world : UploadWorld ι}
  {thread : ι} {next : Session} {here : Pc} {events : List Event} {notify : Bool}

/-- The account of a session in a reachable state: writes extend it, a
`Finalize` takes it over and leaves the published object. -/
structure Content (env : Env) (calls : ι → Call) (world : UploadWorld ι) : Prop where
  failed : world.shared.failed = true → ¬ Clean world.events
  raised : ¬ Clean world.events → world.shared.failed = true ∨
    ∃ thread failure, (world.control thread).pendingFailure = some failure
  numbers : Clean world.events → (reservedParts world.events).map PreparedPart.partNumber =
    List.range' 1 world.shared.partEtags.length
  kept : Clean world.events → world.shared.cleanupState = .none →
    world.shared.lifecycleState = .active ∨ world.shared.lifecycleState = .aborting →
      Kept env.config world.shared world.events
  staged : Clean world.events → world.shared.lifecycleState = .finalizing →
    ∀ thread, (world.control thread).active = true →
      FinalStage env.config world.shared world.events (world.control thread)
  object : Clean world.events → world.shared.lifecycleState = .finalized →
    PublishedObject world.events
  ordered : Clean world.events → Guarded InOrder (preparedWrites world.events) ∧
    world.shared.nextOffset = (written world.events).length
  returned : ∀ thread, calls thread = .finalize → world.control thread = .done .returned →
    world.shared.lifecycleState = .finalized

theorem content_initial : Content env calls initialWorld where
  failed := fun failed => by contradiction
  raised := fun raised => absurd (fun _ member => by contradiction) raised
  numbers := fun _ => rfl
  kept := fun _ _ _ => ⟨layout_initial _, rfl, rfl⟩
  staged := fun _ finalizing => by contradiction
  object := fun _ finalized => by contradiction
  ordered := fun _ => ⟨guarded_nil _, rfl⟩
  returned := fun _ _ position => by contradiction

/-- A part lies in the trace at the position its number says. -/
theorem reservedParts_getElem? {events : List Event} {count : Nat}
    (numbers : (reservedParts events).map PreparedPart.partNumber = List.range' 1 count)
    {part : PreparedPart} (reserved : part ∈ reservedParts events) :
    0 < part.partNumber ∧ (reservedParts events)[part.partNumber - 1]? = some part := by
  obtain ⟨position, found⟩ := List.mem_iff_getElem?.mp reserved
  have bound := (List.getElem?_eq_some_iff.mp found).1
  have lengthEq := congrArg List.length numbers
  rw [List.length_map, List.length_range'] at lengthEq
  have mapped := congrArg (fun numbers => numbers[position]?) numbers
  simp only [List.getElem?_map, found, Option.map_some] at mapped
  rw [List.getElem?_range' (by omega), Nat.one_mul, Option.some.injEq] at mapped
  refine ⟨by omega, ?_⟩
  rw [mapped, Nat.add_sub_cancel_left]
  exact found

/-- A completion that lists a stored etag for every slot publishes the parts. -/
theorem publishedObject_of_parted (uploads : Uploads world) (trace : MultipartTrace world)
    (numbers : (reservedParts world.events).map PreparedPart.partNumber =
      List.range' 1 world.shared.partEtags.length)
    (parted : Parted world.events) {uploadId : String} {etags : List String}
    (completion : completions world.events = [(uploadId, etags)])
    (same : world.shared.partEtags = etags) (stored : "" ∉ etags)
    (single : uploadIds world.events = [uploadId]) : PublishedObject world.events := by
  have lengthEq : world.shared.partEtags.length = (reservedParts world.events).length := by
    simpa using (congrArg List.length numbers).symm
  have uploaded {position : Nat} {part : PreparedPart} {etag : String}
      (found : (reservedParts world.events)[position]? = some part)
      (slot : etags[position]? = some etag) :
      .partUploaded part.partNumber uploadId part.data etag ∈ world.events := by
    have nonempty : etag ≠ "" := by
      rintro rfl
      exact stored (List.mem_of_getElem? slot)
    obtain ⟨target, body, answered⟩ := uploads.slots position etag (same ▸ slot) nonempty
    have put := uploads.uploaded _ _ _ _ answered
    have sent : (⟨position + 1, body⟩ : PreparedPart) ∈ sentParts world.events :=
      List.mem_filterMap.mpr ⟨_, put, rfl⟩
    have there := (reservedParts_getElem? numbers (uploads.put _ sent)).2
    rw [Nat.add_sub_cancel, found] at there
    cases there
    rw [← trace.target_eq put rfl single]
    exact answered
  have distinct : (reservedParts world.events).Nodup := by
    apply List.Nodup.of_map PreparedPart.partNumber
    rw [numbers]
    exact List.nodup_range'
  refine Or.inr ⟨parted.parts, parted.single, by rw [numbers, lengthEq], ?_,
    ⟨uploadId, etags, completion, by rw [← same, lengthEq], fun position part etag found slot =>
      uploaded found slot⟩, parted.content⟩
  rw [List.perm_ext_iff_of_nodup (List.Nodup.of_map _ uploads.once) distinct]
  intro part
  refine ⟨uploads.put part, fun reserved => ?_⟩
  obtain ⟨positive, found⟩ := reservedParts_getElem? numbers reserved
  have bound := (List.getElem?_eq_some_iff.mp found).1
  obtain ⟨etag, slot⟩ : ∃ etag, etags[part.partNumber - 1]? = some etag :=
    ⟨_, List.getElem?_eq_getElem (by rw [← same]; omega)⟩
  have put := uploads.uploaded _ _ _ _ (uploaded found slot)
  exact List.mem_filterMap.mpr ⟨_, put, rfl⟩

variable [DecidableEq ι]

omit [DecidableEq ι] in
/-- As long as no exception was raised, none is on its way. -/
theorem MultipartTrace.unpending (trace : MultipartTrace world) (clean : Clean world.events)
    (thread : ι) : (world.control thread).pendingFailure = none := by
  cases pending : (world.control thread).pendingFailure with
  | none => rfl
  | some failure => exact absurd (trace.raised thread failure pending) (clean _)

omit [DecidableEq ι] in
theorem Content.healthy (content : Content env calls world) (clean : Clean world.events) :
    world.shared.failed = false := by
  by_contra failed
  exact content.failed (by simpa using failed) clean

omit [DecidableEq ι] in
private theorem kept_advance {block : StorageBlock} (created : env.config.Created block)
    (control : Control calls world) (trace : MultipartTrace world)
    (content : Content env calls world)
    (transition : Transition env (calls thread) world.shared (world.control thread)
      next here events notify)
    (before : Clean world.events) (now : Clean events) (unclaimed : next.cleanupState = .none)
    (writable : next.lifecycleState = .active ∨ next.lifecycleState = .aborting) :
    Kept env.config next (world.events ++ events) := by
  have change := change_of_transition control.coherent (control.present thread) transition
  have untouched : world.shared.cleanupState = .none := by
    by_contra started
    exact change.cleanup_mono started unclaimed
  have onward : next.lifecycleState ≠ .finalizing := by
    intro finalizing
    rw [finalizing] at writable
    rcases writable with active | aborting
    · contradiction
    · contradiction
  have keep (open' : world.shared.lifecycleState = .active ∨
      world.shared.lifecycleState = .aborting) :
      Kept env.config next (world.events ++ events) :=
    ((content.kept before untouched open').step created (control.present thread) open'
      (content.healthy before) (trace.unpending before thread) now unclaimed onward
      transition).1
  cases state : world.shared.lifecycleState with
  | active => exact keep (Or.inl state)
  | aborting => exact keep (Or.inr state)
  | finalizing =>
      rcases transition.left_finalizing (control.counted thread)
        (trace.unpending before thread) state with finalizing | finalized
      · exact absurd finalizing onward
      · rw [finalized] at writable
        rcases writable with active | aborting
        · contradiction
        · contradiction
  | finalized =>
      have still := change.finalized_mono control.coherent (control.counted thread) state
      rw [still] at writable
      rcases writable with active | aborting
      · contradiction
      · contradiction
  | aborted =>
      have complete := (control.coherent.aborted state).2
      rw [untouched] at complete
      contradiction

/-- The one operation of a finalizing session carries the account on. -/
private theorem staged_advance (control : Control calls world) (trace : MultipartTrace world)
    (uploads : Uploads world) (content : Content env calls world)
    (transition : Transition env (calls thread) world.shared (world.control thread)
      next here events notify)
    (before : Clean world.events) (now : Clean events)
    (finalizing : next.lifecycleState = .finalizing) {other : ι}
    (operating : ((world.advance thread next here events notify).control other).active = true) :
    FinalStage env.config next (world.events ++ events)
      ((world.advance thread next here events notify).control other) := by
  have healthy := content.healthy before
  by_cases state : world.shared.lifecycleState = .finalizing
  · have alone := (control.coherent.finalizing state).1
    by_cases same : other = thread
    · subst same
      simp only [World.advance, Function.update_self] at operating ⊢
      have active : (world.control other).active = true := by
        by_contra inactive
        have admitted := transition.admitted (by simpa using inactive) operating
        rw [state] at admitted
        contradiction
      have present := control.present other
      have finalize : calls other = .finalize := by
        by_contra write
        exact present.writing active write state
      have unfailed : (world.control other).afterFailure = false := by
        by_contra after
        have failed := present.failed (by simpa using after)
        rw [healthy] at failed
        contradiction
      have owner := Pc.owner_finalize (finalize ▸ present.owned) active
        (trace.unpending before other) unfailed
      refine (content.staged before state other active).step owner now
        (trace.completing other) ?_ operating transition
      intro uploadId etags position staged
      rw [position] at staged
      obtain ⟨parted, completion, sameEtags, stored⟩ := staged
      have known := present.known uploadId (by rw [position]; rfl)
      exact publishedObject_of_parted uploads trace (content.numbers before) parted completion
        sameEtags stored (trace.published uploadId known)
    · have separate : (world.control other).active = true := by
        simpa [World.advance, same] using operating
      have inactive : (world.control thread).active = false := by
        by_contra active
        have several := (control.apart same).active separate (by simpa using active)
        omega
      obtain ⟨silent, etags, offset⟩ := transition.silent inactive
      simpa [World.advance, same] using
        (content.staged before state other separate).quiet silent etags offset
  · obtain ⟨_, active, idle, rfl, rfl, rfl⟩ := transition.begins_finalizing state finalizing
    by_cases same : other = thread
    · subst same
      have untouched := control.coherent.untouched healthy active
      have kept := content.kept before untouched (Or.inl active)
      simp only [World.advance, Function.update_self]
      exact kept.quiet rfl rfl rfl rfl rfl rfl rfl
    · have elsewhere : (world.control other).active = true := by
        simpa [World.advance, same] using operating
      have busy := (control.counted other).active elsewhere
      omega

omit [DecidableEq ι] in
private theorem object_advance (control : Control calls world) (content : Content env calls world)
    (transition : Transition env (calls thread) world.shared (world.control thread)
      next here events notify)
    (before : Clean world.events) (finalized : next.lifecycleState = .finalized) :
    PublishedObject (world.events ++ events) := by
  by_cases state : world.shared.lifecycleState = .finalized
  · have idle := (control.coherent.finalized state).1
    have inactive : (world.control thread).active = false := by
      by_contra active
      have busy := (control.counted thread).active (by simpa using active)
      omega
    exact (content.object before state).append_silent (transition.silent inactive).1
  · obtain ⟨position, rfl⟩ := transition.ends_finalizing state finalized
    have finalizing := (control.present thread).finalizing (by rw [position]; rfl)
    have staged := content.staged before finalizing thread (by rw [position]; rfl)
    rw [position] at staged
    rw [List.append_nil]
    exact staged

omit [DecidableEq ι] in
private theorem ordered_advance {block : StorageBlock} (created : env.config.Created block)
    (control : Control calls world) (content : Content env calls world)
    (transition : Transition env (calls thread) world.shared (world.control thread)
      next here events notify)
    (before : Clean world.events) (now : Clean events) :
    Guarded InOrder (preparedWrites (world.events ++ events)) ∧
      next.nextOffset = (written (world.events ++ events)).length := by
  obtain ⟨guarded, offset⟩ := content.ordered before
  have outcome : (preparedWrites events = [] ∧ next.nextOffset = world.shared.nextOffset) ∨
      ∃ data, preparedWrites events = [(world.shared.nextOffset, data)] ∧
        next.nextOffset = world.shared.nextOffset + data.length := by
    by_cases preparing : world.control thread = .prepareWrite
    · have active : (world.control thread).active = true := by rw [preparing]; rfl
      have operating := (control.counted thread).active active
      have untouched := control.coherent.unclaimed operating
      have open' : world.shared.lifecycleState = .active ∨
          world.shared.lifecycleState = .aborting := by
        cases state : world.shared.lifecycleState with
        | active => exact Or.inl rfl
        | aborting => exact Or.inr rfl
        | finalizing =>
            have owned := (control.present thread).owned
            rw [preparing] at owned
            have writes : calls thread ≠ .finalize := by
              intro finalize
              rw [finalize] at owned
              contradiction
            exact absurd state ((control.present thread).writing active writes)
        | finalized =>
            have idle := (control.coherent.finalized state).1
            omega
        | aborted =>
            have idle := (control.coherent.aborted state).1
            omega
      have kept := content.kept before untouched open'
      exact Or.inr (transition.extends_account created kept now preparing)
    · exact Or.inl (transition.unprepared preparing)
  rw [preparedWrites_append, written_append, List.length_append]
  rcases outcome with ⟨none, same⟩ | ⟨data, one, moved⟩
  · have noData : written events = [] := by simp [written, none]
    rw [none, List.append_nil, noData, List.length_nil, Nat.add_zero, same]
    exact ⟨guarded, offset⟩
  · have dataEq : written events = data := by simp [written, one]
    rw [one, dataEq, moved, offset]
    refine ⟨guarded.append ?_, rfl⟩
    intro earlier write later split
    have first : earlier = [] := by
      have lengths := congrArg List.length split
      simp only [List.length_append, List.length_cons, List.length_nil] at lengths
      exact List.eq_nil_of_length_eq_zero (by omega)
    subst first
    cases split
    rw [List.append_nil]
    rfl

/-- Every transition keeps the account. -/
theorem Content.advance {block : StorageBlock} (created : env.config.Created block)
    (control : Control calls world) (trace : MultipartTrace world) (uploads : Uploads world)
    (content : Content env calls world)
    (transition : Transition env (calls thread) world.shared (world.control thread)
      next here events notify) :
    Content env calls (world.advance thread next here events notify) := by
  have change := change_of_transition control.coherent (control.present thread) transition
  constructor
  · intro failed clean
    rw [World.events_advance, clean_append] at clean
    rcases transition.failed_of failed with before | ⟨failure, pending⟩
    · exact content.failed before clean.1
    · rw [trace.unpending clean.1 thread] at pending
      contradiction
  · intro raised
    rw [World.events_advance, clean_append, not_and_or] at raised
    rcases raised with earlier | now
    · rcases content.raised earlier with failed | ⟨other, failure, pending⟩
      · exact Or.inl (change.failed_mono failed)
      · by_cases same : other = thread
        · subst same
          exact Or.inl (transition.latches pending)
        · exact Or.inr ⟨other, failure, by simpa [World.advance, same] using pending⟩
    · simp only [Clean, not_forall, not_not] at now
      obtain ⟨disposition, member⟩ := now
      obtain ⟨failure, pending, _⟩ := transition.raised_of_mem member
      exact Or.inr ⟨thread, failure, by simpa [World.advance] using pending⟩
  · intro clean
    rw [World.events_advance, clean_append] at clean
    obtain ⟨count, lengthEq, numbers⟩ := transition.numbers clean.2
    change _ = List.range' 1 next.partEtags.length
    rw [World.events_advance, reservedParts_append, List.map_append, content.numbers clean.1,
      numbers, lengthEq, Nat.add_comm _ 1]
    simp
  · intro clean unclaimed writable
    rw [World.events_advance, clean_append] at clean
    rw [World.events_advance]
    exact kept_advance created control trace content transition clean.1 clean.2 unclaimed writable
  · intro clean finalizing other operating
    rw [World.events_advance, clean_append] at clean
    rw [World.events_advance]
    exact staged_advance control trace uploads content transition clean.1 clean.2 finalizing
      operating
  · intro clean finalized
    rw [World.events_advance, clean_append] at clean
    rw [World.events_advance]
    exact object_advance control content transition clean.1 finalized
  · intro clean
    rw [World.events_advance, clean_append] at clean
    rw [World.events_advance]
    exact ordered_advance created control content transition clean.1 clean.2
  · intro other finalize returned
    by_cases same : other = thread
    · subst same
      have present := control.present other
      rw [finalize] at present transition
      exact transition.returned_of present (by simpa [World.advance] using returned)
    · exact change.finalized_mono control.coherent (control.counted thread)
        (content.returned other finalize (by simpa [World.advance, same] using returned))

theorem Reachable.content {block : StorageBlock} (created : env.config.Created block)
    (reachable : Reachable env calls world) : Content env calls world :=
  (Reachable.invariant
    (motive := fun world => (MultipartTrace world ∧ Tickets world ∧ Uploads world) ∧
      Content env calls world)
    ⟨⟨multipartTrace_initial, tickets_initial, uploads_initial⟩, content_initial⟩
    (fun _ _ _ _ _ _ control both transition =>
      have ⟨⟨trace, tickets, uploads⟩, content⟩ := both
      ⟨⟨trace.advance control transition, tickets.advance transition,
        uploads.advance tickets transition⟩,
        content.advance created control trace uploads transition⟩)
    (fun _ _ both =>
      have ⟨⟨trace, tickets, uploads⟩, content⟩ := both
      ⟨⟨{ trace with }, { tickets with }, { uploads with }⟩, { content with }⟩)
    reachable).2

omit [DecidableEq ι] in
/-- Nothing was raised in a finalized session. -/
theorem Content.clean_of_finalized (control : Control calls world)
    (content : Content env calls world)
    (finalized : world.shared.lifecycleState = .finalized) : Clean world.events := by
  obtain ⟨idle, healthy⟩ := control.coherent.finalized finalized
  by_contra raised
  rcases content.raised raised with failed | ⟨thread, failure, pending⟩
  · rw [healthy] at failed
    contradiction
  · have active : (world.control thread).active = true := by
      cases position : world.control thread with
      | publishFailure failure | failOperation failure => rfl
      | _ =>
          rw [position] at pending
          contradiction
    have busy := (control.counted thread).active active
    omega

/-- A `Finalize` that returns has asked the server to publish the bytes of
exactly the writes that passed `PrepareWrite`, in offset order.  Until then the
reserved parts and the buffer hold these bytes, unless an exception was raised
or an `Abort` discarded the buffer. -/
theorem finalize_publishes_written (env : Env) (calls : ι → Call) (block : StorageBlock)
    (maxFileSize maxParts : Nat)
    (created : (S3UploadConfig.create block maxFileSize maxParts).val = .ok env.config)
    (reachable : Reachable env calls world) :
    (attributedWrites world.trace).map Prod.snd = preparedWrites world.events ∧
    ((attributedWrites world.trace).map Prod.fst).Nodup ∧
    (∀ thread location data, (thread, location, data) ∈ attributedWrites world.trace →
      calls thread = .write data location) ∧
    (∀ thread, (calls thread).owns .write = true → (world.control thread).passed = true →
      thread ∈ (attributedWrites world.trace).map Prod.fst) ∧
    (Clean world.events → world.shared.cleanupState = .none →
      world.shared.lifecycleState = .active ∨ world.shared.lifecycleState = .aborting →
        (reservedData world.events).flatten ++ bufferedBytes world.shared.bufferedPart =
            written world.events ∧
          world.shared.nextOffset = (written world.events).length) ∧
    ∀ thread, calls thread = .finalize → world.control thread = .done .returned →
      Guarded InOrder (preparedWrites world.events) ∧
        world.shared.nextOffset = (written world.events).length ∧
        PublishedObject world.events := by
  obtain ⟨created, _⟩ := S3UploadConfig.created_of_create created
  have content := reachable.content created
  have writers := reachable.writers
  refine ⟨map_snd_attributedWrites world, writers.once, ?_, writers.passed, ?_, ?_⟩
  · intro thread location data member
    exact writers.own _ member
  · intro clean untouched writable
    have kept := content.kept clean untouched writable
    exact ⟨kept.layout.content, kept.layout.offset_eq⟩
  · intro thread finalize returned
    have finalized := content.returned thread finalize returned
    have clean := content.clean_of_finalized reachable.control finalized
    obtain ⟨ordered, offset⟩ := content.ordered clean
    exact ⟨ordered, offset, content.object clean finalized⟩

end Worlds

/-- A server for files of up to ten bytes. -/
def tenByteEnv : Env :=
  { smallEnv with
    config := ⟨10, 1, 5242880, 1⟩
    maxParts_lt := by decide }

/-- Two writes arrive in the wrong order and are finalized. -/
def swappedCalls : Fin 3 → Call
  | 0 => .write [3] 2
  | 1 => .write [1, 2] 0
  | 2 => .finalize

theorem neZero_three : NeZero 3 :=
  ⟨by decide⟩

def swappedWrites : UploadWorld (Fin 3) :=
  haveI := neZero_three
  play (program tenByteEnv swappedCalls) initialWorld
    ([0, 0, 1, 1, 0, 0, 0, 0, 1, 1, 1, 2, 2, 2, 2, 2].map fun call =>
      (call, answered (.ok ⟨200, "", [("ETag", "tag")], ""⟩)))

theorem finalize_publishes_written_swappedWrites :
    written swappedWrites.events = [1, 2, 3] ∧ PublishedObject swappedWrites.events := by
  have created : (S3UploadConfig.create ⟨262144, by decide, by decide⟩ 10 1).val =
      .ok tenByteEnv.config := by decide
  have returned : swappedWrites.control 2 = .done .returned := by decide +kernel
  have published := (finalize_publishes_written tenByteEnv swappedCalls _ 10 1 created
    (run_play _ _ _)).2.2.2.2.2 2 rfl returned
  exact ⟨by decide +kernel, published.2.2⟩

end Httpfs.S3.Upload
