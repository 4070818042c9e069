import Httpfs.Http.FullDownload.SingleFlight

/-!
# Runs of downloads

What holds in every state of a run, what a step may publish, and that a handle
shows the same bytes for ever.
-/

namespace Httpfs.Http.FullDownload

open Word64
open Httpfs.Transition
open Httpfs.Transition.Monitor

universe u

variable {ι : Type u} [DecidableEq ι]

/-- No thread is in the middle of anything and nothing has been downloaded. -/
def start (ι : Type u) : World ι Shared Control Empty :=
  World.initial {} .running

/-- The runs in which downloads that are over are only destroyed. -/
abbrev CarefulRun : World ι Shared Control Empty → World ι Shared Control Empty → Prop :=
  RunChoosing (program ι) fun world thread choice =>
    Careful world.shared (world.control thread) choice

theorem step_change {world next : World ι Shared Control Empty} {thread : ι} {choice : Choice}
    (stepped : step (program ι) world thread choice = some next) :
    (world.control thread = .starting ∧ next.shared = world.shared) ∨
      ∃ control notify,
        Change world.shared (world.control thread) choice next.shared control notify ∧
        (notify = true → ∀ waiting, next.asleep waiting = false) := by
  rcases (step_cases stepped).2 with
    ⟨waits, rfl⟩ | ⟨shared, control, events, notify, advances, rfl⟩
  · exact .inl ⟨(program_wait waits).1, rfl⟩
  · refine .inr ⟨control, notify, program_advance advances, ?_⟩
    rintro rfl waiting
    rfl

theorem Sound.step {world next : World ι Shared Control Empty} (sound : Sound world.shared)
    {thread : ι} {choice : Choice} (careful : Careful world.shared (world.control thread) choice)
    (stepped : Monitor.step (program ι) world thread choice = some next) :
    Sound next.shared ∧ KeepsHandles world.shared next.shared := by
  rcases step_change stepped with ⟨-, same⟩ | ⟨_, _, change, -⟩
  · rw [same]
    exact ⟨sound, fun _ _ live => ⟨live, rfl⟩⟩
  · exact sound.change change careful

theorem sound_of_carefulRun {world : World ι Shared Control Empty}
    (run : CarefulRun (start ι) world) : Sound world.shared :=
  run.invariant (motive := fun world => Sound world.shared)
    (fun _ _ _ _ sound admitted stepped => (sound.step admitted stepped).1) sound_initial

/-- What a handle shows does not change along a run. -/
theorem keepsHandles_of_carefulRun {world later : World ι Shared Control Empty}
    (before : CarefulRun (start ι) world) (after : CarefulRun world later) :
    KeepsHandles world.shared later.shared := by
  induction after with
  | refl => exact fun _ _ live => ⟨live, rfl⟩
  | tail between last inductionHypothesis =>
      rcases last with ⟨thread, choice, admitted, stepped⟩
      have keeps := ((sound_of_carefulRun (before.trans between)).step admitted stepped).2
      intro handle file live
      rcases inductionHypothesis handle file live with ⟨still, same⟩
      rcases keeps handle file still with ⟨kept, equal⟩
      exact ⟨kept, equal.trans same⟩

/-- A thread that is left asleep waits for an active download. -/
theorem any_active_of_asleep {world : World ι Shared Control Empty}
    (run : CarefulRun (start ι) world) {thread : ι} (asleep : world.asleep thread = true) :
    world.shared.downloads.Any CachedFileDownload.Active := by
  have blocked := run.run.sleepersBlocked notifiesWaiters
    (sleepersBlocked_initial (program ι) {} .running) thread asleep
  exact (sound_of_carefulRun run).downloading.mp (program_wait (blocked ⟨.invalidate, true⟩)).2

/-! ## States -/

/-- What holds in every state. -/
structure StateSound (world : World ι Shared Control Empty) : Prop where
  exclusive : world.shared.downloads.AtMostOne CachedFileDownload.Active
  downloading : world.shared.file.downloading = true ↔
    world.shared.downloads.Any CachedFileDownload.Active
  size : world.shared.downloads.All fun download => download.size ≤ download.capacity
  /-- `Append` returns, and none of its operations wraps. -/
  grows : ∀ handle download, world.shared.downloads.get handle = some download →
    download.Active → ∀ chunk : { bytes : Block // bytes.length < modulus },
      (∀ allocates, (download.append world.shared.blocks chunk.val allocates).isSome = true) ∧
      (0 < chunk.val.length → download.size + chunk.val.length < modulus →
        ∃ newCapacity, download.appendCapacity chunk.val.length = some (pure newCapacity) ∧
          download.size + chunk.val.length ≤ newCapacity ∧ newCapacity < modulus)
  waits : ∀ thread, world.asleep thread = true →
    world.shared.downloads.Any CachedFileDownload.Active

theorem stateSound_of_carefulRun {world : World ι Shared Control Empty}
    (run : CarefulRun (start ι) world) : StateSound world := by
  have sound := sound_of_carefulRun run
  constructor
  · exact sound.unique
  · exact sound.downloading
  · intro handle download live
    exact (sound.downloads handle download live).size
  · intro handle download live active chunk
    have holds := (sound.downloads handle download live).holds active
    constructor
    · intro allocates
      rcases holds.append chunk.property allocates with ⟨_, _, appends, -⟩
      rw [appends]
      rfl
    · intro nonempty fits
      rcases appendCapacity_spec holds.capacity nonempty chunk.property fits with
        ⟨newCapacity, grows, atLeast, -, small⟩
      exact ⟨newCapacity, grows, atLeast, small⟩
  · exact fun _ => any_active_of_asleep run

/-! ## Steps -/

/-- What a step may publish, and what it does for those who wait. -/
structure StepSound (world next : World ι Shared Control Empty) (thread : ι)
    (choice : Choice) : Prop where
  publishes : next.shared.file.cachedData ≠ world.shared.file.cachedData →
    next.shared.file.cachedData = none ∨ ∃ handle, choice.operation = .finalize handle
  finalizes : world.control thread = .running → ∀ handle download,
    choice.operation = .finalize handle → world.shared.downloads.get handle = some download →
    choice.allocates = true →
    world.shared.file.cachedData = none ∧ ∃ file, next.shared.file.cachedData = some file ∧
      file.bytes next.shared.blocks = download.appended ∧
      file.size = download.appended.length ∧
      next.shared.handles.get world.shared.handles.next = some file
  destroys : world.control thread = .running → ∀ handle download,
    choice.operation = .destroy handle → world.shared.downloads.get handle = some download →
    download.Active →
    next.shared.file.cachedData = world.shared.file.cachedData ∧
      ∀ waiting, next.asleep waiting = false ∧ (next.control waiting = .starting →
        ∀ other, ∃ after, step (program ι) next waiting other = some after ∧
          after.control waiting = .running)

/-- A thread in `StartDownload` gets on once no download is going on. -/
theorem step_of_idle {world : World ι Shared Control Empty} {thread : ι}
    (idle : world.shared.file.downloading = false) (awake : world.asleep thread = false)
    (starting : world.control thread = .starting) (choice : Choice) :
    ∃ after, step (program ι) world thread choice = some after ∧
      after.control thread = .running := by
  have advances : program ι thread world.shared (world.control thread) choice =
      some (.advance (world.shared.startDownload choice.allocates) .running [] false) := by
    rw [starting]
    exact if_neg (by simp [idle])
  refine ⟨_, step_of_advance awake advances, ?_⟩
  simp [World.advance]

theorem Sound.stepSound {world next : World ι Shared Control Empty} (sound : Sound world.shared)
    {thread : ι} {choice : Choice} (careful : Careful world.shared (world.control thread) choice)
    (stepped : Monitor.step (program ι) world thread choice = some next) :
    StepSound world next thread choice := by
  rcases step_change stepped with ⟨starting, same⟩ | ⟨_, notify, change, wakes⟩
  · constructor
    · rw [same]
      exact fun published => absurd rfl published
    · rw [starting]
      exact nofun
    · rw [starting]
      exact nofun
  · constructor
    · exact change.publishes
    · intro running handle download isFinalize live allocates
      have subject : choice.operation.subject = some handle := by rw [isFinalize]; rfl
      have active : download.Active := by
        by_contra finished
        have isDestroy := careful running handle download subject live finished
        rw [isFinalize] at isDestroy
        contradiction
      have holds := (sound.downloads handle download live).holds active
      have performs := change.performs running subject live
      rw [Shared.perform, isFinalize] at performs
      simp only [Shared.finalize, allocates, if_true, Option.some.injEq, Prod.mk.injEq]
        at performs
      rw [← performs.1]
      exact ⟨(sound.downloading_of_live live active).2, ⟨download.data, download.size⟩, rfl,
        holds.content, holds.length, Arena.get_insert_next _ _⟩
    · intro running handle download isDestroy live active
      have subject : choice.operation.subject = some handle := by rw [isDestroy]; rfl
      have performs := change.performs running subject live
      rw [Shared.perform, isDestroy] at performs
      simp only [Shared.destroy_of_active handle active, Option.some.injEq, Prod.mk.injEq]
        at performs
      have awake := wakes performs.2.symm
      have idle : next.shared.file.downloading = false := by rw [← performs.1]
      constructor
      · rw [← performs.1]
      · intro waiting
        exact ⟨awake waiting, fun starting other =>
          step_of_idle idle (awake waiting) starting other⟩

/-- A file is downloaded by one request at a time and published as it was
received; what has been published does not change. -/
theorem cachedFile_singleFlight {world : World ι Shared Control Empty}
    (run : CarefulRun (start ι) world) :
    StateSound world ∧
    (∀ next thread choice, Careful world.shared (world.control thread) choice →
      step (program ι) world thread choice = some next → StepSound world next thread choice) ∧
    ∀ later, CarefulRun world later → KeepsHandles world.shared later.shared :=
  ⟨stateSound_of_carefulRun run,
    fun _ _ _ careful stepped => (sound_of_carefulRun run).stepSound careful stepped,
    fun _ after => keepsHandles_of_carefulRun run after⟩

/-- One careful step of the only thread. -/
private abbrev Admitted : World Unit Shared Control Empty → World Unit Shared Control Empty → Prop :=
  NextChoosing (program Unit) fun world thread choice =>
    Careful world.shared (world.control thread) choice

/-- A download has been started. -/
private def started : World Unit Shared Control Empty :=
  play (program Unit) (start Unit) [((), ⟨.startDownload, true⟩), ((), ⟨.startDownload, true⟩)]

/-- One byte has been downloaded. -/
private def downloaded : World Unit Shared Control Empty :=
  play (program Unit) started [((), ⟨.append 0 ⟨[7], by decide⟩, true⟩)]

private theorem careful_of_active {shared : Shared} {choice : Choice}
    (active : ∀ download, shared.downloads.get 0 = some download → download.Active)
    (subject : ∀ handle, choice.operation.subject = some handle → handle = 0) :
    Careful shared .running choice := by
  intro _ handle download isSubject live finished
  rw [subject handle isSubject] at live
  exact absurd (active download live) finished

private theorem started_active : ∀ download, started.shared.downloads.get 0 = some download →
    download.Active := by
  intro download live
  have isNew : some ({} : CachedFileDownload) = some download := live
  cases isNew
  rfl

private theorem carefulRun_downloaded : CarefulRun (start Unit) downloaded := by
  have calls : Admitted (start Unit)
      (play (program Unit) (start Unit) [((), ⟨.startDownload, true⟩)]) := by
    refine ⟨(), ⟨.startDownload, true⟩, ?_, rfl⟩
    rintro _ _ _ ⟨⟩
  have starts : Admitted (play (program Unit) (start Unit) [((), ⟨.startDownload, true⟩)])
      started := by
    refine ⟨(), ⟨.startDownload, true⟩, ?_, rfl⟩
    rintro _ _ _ ⟨⟩
  have appends : Admitted started downloaded := by
    refine ⟨(), ⟨.append 0 ⟨[7], by decide⟩, true⟩, careful_of_active started_active ?_, rfl⟩
    rintro _ ⟨⟩
    rfl
  exact ((Relation.ReflTransGen.single calls).tail starts).tail appends

theorem cachedFile_singleFlight_oneByte :
    ∃ next file, step (program Unit) downloaded () ⟨.finalize 0, true⟩ = some next ∧
      next.shared.file.cachedData = some file ∧ file.bytes next.shared.blocks = [7] := by
  have active : ∀ download, downloaded.shared.downloads.get 0 = some download →
      download.Active := by
    intro download live
    have isNew : some ({ data := some 0, capacity := 1, size := 1, appended := [7] } :
        CachedFileDownload) = some download := live
    cases isNew
    rfl
  have careful : Careful downloaded.shared .running ⟨.finalize 0, true⟩ := by
    refine careful_of_active active ?_
    rintro _ ⟨⟩
    rfl
  have finalizes := ((cachedFile_singleFlight carefulRun_downloaded).2.1 _ ()
    ⟨.finalize 0, true⟩ careful rfl).finalizes rfl 0 _ rfl rfl rfl
  rcases finalizes.2 with ⟨file, published, bytes, -, -⟩
  exact ⟨_, file, rfl, published, bytes⟩

/-- A download that is finalized once more, after the file was invalidated and
another download was started, makes room for a third one. -/
theorem finalize_twice :
    ∃ world : World Unit Shared Control Empty, Run (program Unit) (start Unit) world ∧
      ¬ world.shared.downloads.AtMostOne CachedFileDownload.Active := by
  let again : Unit × Choice := ((), ⟨.startDownload, true⟩)
  refine ⟨play (program Unit) (start Unit) [again, again, ((), ⟨.finalize 0, true⟩),
    ((), ⟨.invalidate, true⟩), again, again, ((), ⟨.finalize 0, true⟩),
    ((), ⟨.invalidate, true⟩), again, again], run_play _ _ _, ?_⟩
  intro unique
  have same := unique 1 2 _ _ rfl rfl rfl rfl
  contradiction

end Httpfs.Http.FullDownload
