import Httpfs.S3.Upload.Multipart
import Httpfs.S3.Upload.Split
import Httpfs.S3.Upload.Uploads

/-!
# What a session publishes

As long as no exception was raised, the reserved parts and the buffer hold the
bytes of every write that passed `PrepareWrite`.  A `Finalize` takes the buffer
over, and when it returns the server has been asked to publish these bytes.
-/

namespace Httpfs.S3.Upload

open Httpfs.Transition
open Httpfs.Transition.Monitor
open Httpfs.Word64

universe u

/-! ## What a trace says about the object -/

/-- The bytes of the writes that passed `PrepareWrite`, in their order. -/
def written (events : List Event) : Bytes :=
  ((preparedWrites events).map Prod.snd).flatten

/-- The bytes of the reserved parts, in the order of their numbers. -/
def reservedData (events : List Event) : List Bytes :=
  (reservedParts events).map PreparedPart.data

/-- A write begins where the writes before it end. -/
def InOrder (before : List (Nat × Bytes)) (write : Nat × Bytes) : Prop :=
  write.1 = (before.map Prod.snd).flatten.length

/-- No exception was raised. -/
def Clean (events : List Event) : Prop :=
  ∀ disposition, .raised disposition ∉ events

/-- The completion lists what the server answered to each part. -/
def Completes (events : List Event) (uploadId : String) (etags : List String) : Prop :=
  etags.length = (reservedParts events).length ∧
    ∀ (position : Nat) (part : PreparedPart) (etag : String),
      (reservedParts events)[position]? = some part → etags[position]? = some etag →
        .partUploaded part.partNumber uploadId part.data etag ∈ events

/-- The object was published from the bytes written: by one PUT of all of them,
or by parts that were each reserved and sent once and listed in order. -/
def PublishedObject (events : List Event) : Prop :=
  (reservedParts events = [] ∧ completions events = [] ∧
    singlePuts events = [written events]) ∨
  (reservedParts events ≠ [] ∧ singlePuts events = [] ∧
    (reservedParts events).map PreparedPart.partNumber =
      List.range' 1 (reservedParts events).length ∧
    (sentParts events).Perm (reservedParts events) ∧
    (∃ uploadId etags, completions events = [(uploadId, etags)] ∧
      Completes events uploadId etags) ∧
    (reservedData events).flatten = written events)

section Append

variable (first second : List Event)

@[simp]
theorem written_append : written (first ++ second) = written first ++ written second := by
  simp [written]

@[simp]
theorem reservedData_append :
    reservedData (first ++ second) = reservedData first ++ reservedData second := by
  simp [reservedData]

@[simp]
theorem written_prepared (location : Nat) (data : Bytes) (parts : List PreparedPart) :
    written (.prepared location data ::
      parts.map fun part => .reserved part.partNumber part.data) = data := by
  simp only [written, preparedWrites_prepared]
  simp

@[simp]
theorem reservedData_prepared (location : Nat) (data : Bytes) (parts : List PreparedPart) :
    reservedData (.prepared location data ::
      parts.map fun part => .reserved part.partNumber part.data) =
      parts.map PreparedPart.data := by
  rw [reservedData, reservedParts_prepared]

theorem clean_append : Clean (first ++ second) ↔ Clean first ∧ Clean second := by
  constructor
  · intro clean
    exact ⟨fun disposition member => clean disposition (List.mem_append_left _ member),
      fun disposition member => clean disposition (List.mem_append_right _ member)⟩
  · rintro ⟨firstClean, secondClean⟩ disposition member
    rcases List.mem_append.mp member with earlier | later
    · exact firstClean disposition earlier
    · exact secondClean disposition later

end Append

/-- Events that say nothing about the object. -/
structure Silent (events : List Event) : Prop where
  prepared : preparedWrites events = []
  reserved : reservedParts events = []
  sent : sentParts events = []
  single : singlePuts events = []
  completions : completions events = []

/-- Events that say nothing about the object do not change it. -/
theorem PublishedObject.append_silent {first second : List Event}
    (object : PublishedObject first) (silent : Silent second) :
    PublishedObject (first ++ second) := by
  obtain ⟨prepared, reserved, sent, single, completed⟩ := silent
  have writtenEq : written (first ++ second) = written first := by
    simp [written, prepared]
  simp only [PublishedObject, Completes, reservedParts_append, singlePuts_append,
    completions_append, sentParts_append, reservedData_append, reserved, single, completed, sent,
    List.append_nil, writtenEq]
  rcases object with alone | ⟨parts, none, numbers, sentOnce, ⟨uploadId, etags, completion,
    lengthEq, uploaded⟩, content⟩
  · exact Or.inl alone
  · refine Or.inr ⟨parts, none, numbers, sentOnce, ⟨uploadId, etags, completion, lengthEq, ?_⟩, ?_⟩
    · intro position part etag found stored
      exact List.mem_append_left _ (uploaded position part etag found stored)
    · simpa [reservedData, reserved] using content

section Steps

variable {env : Env} {call : Call} {session next : Session} {pc here : Pc}
  {events : List Event} {notify : Bool}

/-- Calls that are not between admission and release leave the object alone. -/
theorem Transition.silent
    (transition : Transition env call session pc next here events notify)
    (inactive : pc.active = false) :
    Silent events ∧ next.partEtags = session.partEtags ∧
      next.nextOffset = session.nextOffset := by
  induction transition <;> first
    | contradiction
    | exact ⟨⟨rfl, rfl, rfl, rfl, rfl⟩, rfl, rfl⟩

/-- Reserved parts are numbered like the slots appended for them. -/
theorem Transition.numbers
    (transition : Transition env call session pc next here events notify) (clean : Clean events) :
    ∃ count, next.partEtags.length = session.partEtags.length + count ∧
      (reservedParts events).map PreparedPart.partNumber =
        List.range' (session.partEtags.length + 1) count := by
  induction transition with
  | prepareFailed healthy due stopped => exact absurd (List.mem_singleton_self _) (clean .definitive)
  | prepared healthy placed numbers split =>
      rename_i count buffered offset parts
      refine ⟨count, by simp, ?_⟩
      rw [reservedParts_prepared]
      exact numbers
  | reserveFinal => exact ⟨1, by simp, rfl⟩
  | storeETag healthy | storeFinalETag healthy => exact ⟨0, by simp, rfl⟩
  | _ => exact ⟨0, rfl, rfl⟩

/-! ## From the buffer to the object -/

theorem Layout.content_nil {config : S3UploadConfig} {bytes : Bytes}
    (layout : Layout config session [] bytes) :
    bufferedBytes session.bufferedPart = bytes := by
  simpa using layout.content

/-- The session keeps account of the bytes written. -/
structure Kept (config : S3UploadConfig) (session : Session) (events : List Event) : Prop where
  layout : Layout config session (reservedData events) (written events)
  single : singlePuts events = []
  completions : completions events = []

/-- Everything written lies in reserved parts that are still to be published. -/
structure Parted (events : List Event) : Prop where
  parts : reservedParts events ≠ []
  content : (reservedData events).flatten = written events
  single : singlePuts events = []

/-- What a `Finalize` at a control point has in hand. -/
def FinalStage (config : S3UploadConfig) (session : Session) (events : List Event) : Pc → Prop
  | .chooseUpload buffered => Kept config { session with bufferedPart := buffered } events
  | .sendSingle body =>
      reservedParts events = [] ∧ body = written events ∧ singlePuts events = [] ∧
        completions events = []
  | .awaitSingle _ =>
      reservedParts events = [] ∧ singlePuts events = [written events] ∧
        completions events = []
  | .reserveFinal buffered =>
      Kept config { session with bufferedPart := some buffered } events ∧
        reservedParts events ≠ []
  | .awaitCompletion uploadId etags =>
      Parted events ∧ completions events = [(uploadId, etags)] ∧
        session.partEtags = etags ∧ "" ∉ etags
  | .finishFinalize => PublishedObject events
  | pc => pc.owner = .finalize → Parted events ∧ completions events = []

theorem PublishedObject.single (none : reservedParts events = [])
    (single : singlePuts events = [written events]) (uncompleted : completions events = []) :
    PublishedObject events :=
  Or.inl ⟨none, uncompleted, single⟩

/-- A step that says nothing about the object keeps the account. -/
theorem Kept.quiet {config : S3UploadConfig} {before : List Event}
    (kept : Kept config session before) (prepared : preparedWrites events = [])
    (reserved : reservedParts events = []) (single : singlePuts events = [])
    (completed : Upload.completions events = [])
    (etags : next.partEtags.length = session.partEtags.length)
    (buffer : next.bufferedPart = session.bufferedPart)
    (offset : next.nextOffset = session.nextOffset) : Kept config next (before ++ events) := by
  have writtenEq : written (before ++ events) = written before := by
    simp [written, prepared]
  have dataEq : reservedData (before ++ events) = reservedData before := by
    simp [reservedData, reserved]
  obtain ⟨layout, noSingle, noCompletion⟩ := kept
  refine ⟨?_, by simp [noSingle, single], by simp [noCompletion, completed]⟩
  rw [writtenEq, dataEq]
  exact {
    aligned := etags.trans layout.aligned
    content := buffer ▸ layout.content
    offset_eq := offset.trans layout.offset_eq
    offset_le := offset ▸ layout.offset_le
    sized := layout.sized
    scheduled := buffer ▸ layout.scheduled
    multipart := layout.multipart }

/-- A write that passes `PrepareWrite` is accounted for. -/
theorem Kept.prepared {block : StorageBlock} {config : S3UploadConfig} {before : List Event}
    {data : Bytes} {allocation : Option ErrorData} {parts : List PreparedPart}
    (created : config.Created block) (kept : Kept config session before)
    (split : (prepareWriteLocked config session data session.nextOffset allocation).val =
      (next, .ok parts)) :
    Kept config next (before ++ .prepared session.nextOffset data ::
      parts.map fun part => .reserved part.partNumber part.data) ∧
      next.nextOffset = session.nextOffset + data.length := by
  obtain ⟨layout, single, completed⟩ := kept
  have fits := fits_of_prepareWriteLocked_ok created layout (congrArg Prod.snd split)
  obtain ⟨final, result, computed, outcome⟩ :=
    prepareWriteLocked_spec created layout fits allocation
  rw [computed, Machine.val_pure] at split
  cases split
  rcases outcome with ⟨taken, takenEq, offset, laid⟩ | ⟨error, _, failed⟩
  · cases takenEq
    refine ⟨⟨?_, by simp [single], by simp [completed]⟩, offset⟩
    rw [reservedData_append, written_append, written_prepared, reservedData_prepared]
    exact laid
  · contradiction

/-- A step keeps the account, and a write extends it at its end. -/
theorem Kept.step {block : StorageBlock} {before : List Event}
    (created : env.config.Created block) (kept : Kept env.config session before)
    (present : At call session pc)
    (writable : session.lifecycleState = .active ∨ session.lifecycleState = .aborting)
    (unfailed : session.failed = false) (unpending : pc.pendingFailure = none)
    (clean : Clean events) (unclaimed : next.cleanupState = .none)
    (onward : next.lifecycleState ≠ .finalizing)
    (transition : Transition env call session pc next here events notify) :
    Kept env.config next (before ++ events) ∧
      ((preparedWrites events = [] ∧ next.nextOffset = session.nextOffset) ∨
        ∃ data, preparedWrites events = [(session.nextOffset, data)] ∧
          next.nextOffset = session.nextOffset + data.length) := by
  have notFinalizing : pc.owner ≠ .finalize := by
    intro finalize
    have finalizing := present.finalizing finalize
    rcases writable with active | aborting
    · rw [finalizing] at active
      contradiction
    · rw [finalizing] at aborting
      contradiction
  have refuted (failed : session.failed = true) : False := by
    rw [unfailed] at failed
    contradiction
  induction transition with
  | prepared healthy placed numbers split =>
      subst placed
      obtain ⟨kept, offset⟩ := kept.prepared created split
      exact ⟨kept, Or.inr ⟨_, preparedWrites_prepared _ _ _, offset⟩⟩
  | prepareFailed healthy due stopped =>
      exact absurd (List.mem_singleton_self _) (clean .definitive)
  | publishUploadIdLate failed => exact absurd failed refuted
  | raise raises => exact absurd (List.mem_singleton_self _) (clean _)
  | initializeFailed => exact absurd (List.mem_singleton_self _) (clean _)
  | storeETag healthy =>
      exact ⟨kept.quiet rfl rfl rfl rfl (by simp) rfl rfl, Or.inl ⟨rfl, rfl⟩⟩
  | beginFinalize healthy active idle => exact absurd rfl onward
  | failOperation | publishFailure => contradiction
  | releaseOwner failed | releaseNothing failed => exact absurd failed refuted
  | abortObserved idle failed | abortObserving idle failed => exact absurd failed refuted
  | abortOwner | abortNothing | publishRelease | publishAbort => contradiction
  | reserveFinal | storeFinalETag | chooseSingle | chooseCompletion | chooseReserve
  | sendSingle | singleUploaded | checkedCompletion | takeSnapshot | sendCompletion
  | completed | finishFinalize => exact absurd rfl notFinalizing
  | _ => exact ⟨kept.quiet rfl rfl rfl rfl rfl rfl rfl, Or.inl ⟨rfl, rfl⟩⟩

theorem reservedParts_eq_nil_iff {config : S3UploadConfig} {before : List Event}
    (layout : Layout config session (reservedData before) (written before)) :
    reservedParts before = [] ↔ session.partEtags = [] := by
  rw [← List.length_eq_zero_iff, ← List.length_eq_zero_iff, layout.aligned, reservedData,
    List.length_map]

theorem Parted.quiet {before : List Event} (parted : Parted before)
    (prepared : preparedWrites events = []) (reserved : reservedParts events = [])
    (single : singlePuts events = []) : Parted (before ++ events) := by
  obtain ⟨parts, content, noSingle⟩ := parted
  constructor
  · simpa [reserved] using parts
  · simpa [reservedData, written, prepared, reserved] using content
  · simp [noSingle, single]

/-- A `Finalize` carries what it has in hand to its next control point. -/
theorem FinalStage.step {before : List Event} (staged : FinalStage env.config session before pc)
    (finalize : pc.owner = .finalize) (clean : Clean events)
    (completing : ∀ etags, pc.completion? = some etags →
      session.partEtags = etags ∧ "" ∉ etags)
    (publishable : ∀ uploadId etags, pc = .awaitCompletion uploadId etags →
      FinalStage env.config session before pc → PublishedObject before)
    (operating : here.active = true)
    (transition : Transition env call session pc next here events notify) :
    FinalStage env.config next (before ++ events) here := by
  induction transition with
  | raise raises => exact absurd (List.mem_singleton_self _) (clean _)
  | initializeFailed => exact absurd (List.mem_singleton_self _) (clean _)
  | publishUploadIdLate failed => exact absurd (List.mem_singleton_self _) (clean .definitive)
  | chooseSingle single =>
      obtain ⟨layout, noSingle, noCompletion⟩ := staged
      have none := (reservedParts_eq_nil_iff layout).mpr single
      rw [reservedData, none, List.map_nil] at layout
      rw [List.append_nil]
      exact ⟨none, layout.content_nil, noSingle, noCompletion⟩
  | chooseCompletion multipart =>
      obtain ⟨layout, noSingle, noCompletion⟩ := staged
      have parts := mt (reservedParts_eq_nil_iff layout).mp multipart
      have content := layout.content
      rw [List.append_nil]
      exact fun _ => ⟨⟨parts, by simpa using content, noSingle⟩, noCompletion⟩
  | chooseReserve multipart =>
      have parts := mt (reservedParts_eq_nil_iff staged.layout).mp multipart
      rw [List.append_nil]
      exact ⟨staged, parts⟩
  | sendSingle =>
      obtain ⟨none, rfl, noSingle, noCompletion⟩ := staged
      have same : written (before ++ [.singlePut (written before)]) = written before := by
        rw [written_append]
        exact List.append_nil _
      refine ⟨by rw [reservedParts_append, none]; rfl, ?_,
        by rw [completions_append, noCompletion]; rfl⟩
      rw [same, singlePuts_append, noSingle]
      rfl
  | singleUploaded =>
      obtain ⟨none, single, noCompletion⟩ := staged
      exact (PublishedObject.single none single noCompletion).append_silent
        ⟨rfl, rfl, rfl, rfl, rfl⟩
  | reserveFinal =>
      obtain ⟨⟨layout, noSingle, noCompletion⟩, parts⟩ := staged
      refine fun _ => ⟨⟨by simp [parts], ?_, ?_⟩, ?_⟩
      · rw [reservedData_append, written_append, List.flatten_append]
        simpa [reservedData, reservedParts, written, preparedWrites, Event.reserved?,
          Event.prepared?, List.filterMap_cons] using layout.content
      · rw [singlePuts_append, noSingle]
        rfl
      · rw [completions_append, noCompletion]
        rfl
  | sendCompletion =>
      obtain ⟨parted, noCompletion⟩ := staged finalize
      obtain ⟨etagsEq, stored⟩ := completing _ rfl
      refine ⟨parted.quiet rfl rfl rfl, ?_, etagsEq, stored⟩
      rw [completions_append, noCompletion]
      rfl
  | completed =>
      exact (publishable _ _ rfl staged).append_silent ⟨rfl, rfl, rfl, rfl, rfl⟩
  | finishFinalize => contradiction
  | _ => first
      | contradiction
      | exact absurd finalize (Releaser.owner_ne_finalize _)
      | exact fun _ => ⟨(staged finalize).1.quiet rfl rfl rfl,
          by rw [completions_append, (staged finalize).2]; rfl⟩

/-! ## Where the account changes hands -/

/-- Shared state fails when a pending failure arrives. -/
theorem Transition.failed_of
    (transition : Transition env call session pc next here events notify)
    (failed : next.failed = true) :
    session.failed = true ∨ ∃ failure, pc.pendingFailure = some failure := by
  induction transition with
  | publishFailure | failOperation => exact Or.inr ⟨_, rfl⟩
  | _ => exact Or.inl failed

theorem Transition.latches
    (transition : Transition env call session pc next here events notify) {failure : Failure}
    (pending : pc.pendingFailure = some failure) : next.failed = true := by
  induction transition with
  | publishFailure | failOperation => exact failed_latchFailureLocked _ _ _
  | raise raises =>
      rename_i pc raised
      cases pc <;> contradiction
  | _ => contradiction

/-- Without a failure, a session leaves `FINALIZING` only for `FINALIZED`. -/
theorem Transition.left_finalizing (counted : Counted session pc)
    (transition : Transition env call session pc next here events notify)
    (unpending : pc.pendingFailure = none)
    (finalizing : session.lifecycleState = .finalizing) :
    next.lifecycleState = .finalizing ∨ next.lifecycleState = .finalized := by
  have unaborted (aborts : pc.aborting = true) : False := by
    have aborting := counted.aborting aborts
    rw [finalizing] at aborting
    contradiction
  induction transition with
  | publishFailure | failOperation => contradiction
  | finishFinalize => exact Or.inr rfl
  | startAbort active | beginFinalize healthy active =>
      rw [finalizing] at active
      contradiction
  | abortObserved | abortNothing | abortCleaned | publishAbort => exact absurd rfl unaborted
  | _ => exact Or.inl finalizing

/-- A session becomes `FINALIZING` when a `Finalize` takes its buffer. -/
theorem Transition.begins_finalizing
    (transition : Transition env call session pc next here events notify)
    (before : session.lifecycleState ≠ .finalizing)
    (finalizing : next.lifecycleState = .finalizing) :
    session.failed = false ∧ session.lifecycleState = .active ∧
      session.activeOperations = 0 ∧ here = .chooseUpload session.bufferedPart ∧
      events = [] ∧ next = { session with
        lifecycleState := .finalizing
        activeOperations := session.activeOperations + 1
        bufferedPart := none } := by
  induction transition with
  | beginFinalize healthy active idle => exact ⟨healthy, active, idle, rfl, rfl, rfl⟩
  | publishFailure | failOperation =>
      exact absurd finalizing (latchFailureLocked_not_finalizing _ _ _)
  | _ => contradiction

/-- A session becomes `FINALIZED` at the end of a `Finalize`. -/
theorem Transition.ends_finalizing
    (transition : Transition env call session pc next here events notify)
    (before : session.lifecycleState ≠ .finalized)
    (finalized : next.lifecycleState = .finalized) :
    pc = .finishFinalize ∧ events = [] := by
  induction transition with
  | finishFinalize => exact ⟨rfl, rfl⟩
  | publishFailure | failOperation =>
      exact absurd (latchFailureLocked_lifecycle _ _ _ finalized (by simp)) before
  | _ => contradiction

theorem failedResult_ne_returned (error : ErrorData) (releaser : Releaser) :
    failedResult error releaser ≠ .returned := by
  cases releaser <;> simp [failedResult]

theorem abortResult_ne_returned (abortError : Option ErrorData) :
    abortResult abortError ≠ .returned := by
  cases abortError <;> simp [abortResult]

/-- A `Finalize` that returns leaves a finalized session. -/
theorem Transition.returned_of (present : At .finalize session pc)
    (transition : Transition env .finalize session pc next here events notify)
    (returned : here = .done .returned) : next.lifecycleState = .finalized := by
  have owned := present.owned
  generalize Call.finalize = operation at transition
  induction transition with
  | alreadyFinalized healthy finalized idle => exact finalized
  | finishFinalize => rfl
  | releaseHealthy =>
      rename_i releaser healthy
      cases releaser <;> contradiction
  | releaseNothing | releaseCleaned | cleaned | publishRelease =>
      exact absurd (Pc.done.inj returned) (failedResult_ne_returned _ _)
  | publishAbort => exact absurd (Pc.done.inj returned) (abortResult_ne_returned _)
  | throwLatched | reject | abortObserved | abortCleaned =>
      cases Pc.done.inj returned
  | _ => contradiction

/-- Only a write at `PrepareWrite` extends the account. -/
theorem Transition.unprepared
    (transition : Transition env call session pc next here events notify)
    (elsewhere : pc ≠ .prepareWrite) :
    preparedWrites events = [] ∧ next.nextOffset = session.nextOffset := by
  induction transition with
  | prepared | prepareFailed => exact absurd rfl elsewhere
  | _ => exact ⟨rfl, rfl⟩

/-- A write at `PrepareWrite` extends the account at its end. -/
theorem Transition.extends_account {block : StorageBlock} {before : List Event}
    (created : env.config.Created block) (kept : Kept env.config session before)
    (clean : Clean events)
    (transition : Transition env call session pc next here events notify)
    (due : pc = .prepareWrite) :
    ∃ data, preparedWrites events = [(session.nextOffset, data)] ∧
      next.nextOffset = session.nextOffset + data.length := by
  induction transition with
  | prepared healthy placed numbers split =>
      subst placed
      exact ⟨_, preparedWrites_prepared _ _ _, (kept.prepared created split).2⟩
  | prepareFailed healthy due stopped =>
      exact absurd (List.mem_singleton_self _) (clean .definitive)
  | raise raises => exact absurd (List.mem_singleton_self _) (clean _)
  | _ => contradiction

/-- Operations are admitted to active sessions only. -/
theorem Transition.admitted
    (transition : Transition env call session pc next here events notify)
    (inactive : pc.active = false) (operating : here.active = true) :
    session.lifecycleState = .active := by
  induction transition with
  | beginWrite healthy active | beginFinalize healthy active => exact active
  | raise raises =>
      rw [Pc.active_of_canRaise raises] at inactive
      contradiction
  | _ => contradiction

/-- An active `Finalize` without a failure is at a control point of its own. -/
theorem Pc.owner_finalize {pc : Pc} (owned : Call.finalize.owns pc.owner = true)
    (active : pc.active = true) (unpending : pc.pendingFailure = none)
    (unfailed : pc.afterFailure = false) : pc.owner = .finalize := by
  cases pc with
  | releaseOperation releaser =>
      cases releaser <;> contradiction
  | ensureUpload part after | sendInitialize part after | awaitInitialize part after
  | publishUploadId part after _ | checkPart part after _ | sendPart part after _
  | awaitPart part after _ | storeETag part after _ =>
      cases after with
      | write rest => contradiction
      | finalize => rfl
  | _ => first
      | rfl
      | contradiction

/-- What a `Finalize` has in hand is not touched by silent events. -/
theorem FinalStage.quiet {config : S3UploadConfig} {before : List Event}
    (staged : FinalStage config session before pc) (silent : Silent events)
    (etags : next.partEtags = session.partEtags)
    (offset : next.nextOffset = session.nextOffset) :
    FinalStage config next (before ++ events) pc := by
  obtain ⟨prepared, reserved, sent, single, completed⟩ := silent
  have sameWritten : written (before ++ events) = written before := by
    simp [written, prepared]
  have sameLength : next.partEtags.length = session.partEtags.length :=
    congrArg List.length etags
  have kept (buffered : Option BufferedPart)
      (kept : Kept config { session with bufferedPart := buffered } before) :
      Kept config { next with bufferedPart := buffered } (before ++ events) :=
    kept.quiet prepared reserved single completed sameLength rfl offset
  have parted (finalize : pc.owner = .finalize)
      (parted : pc.owner = .finalize → Parted before ∧ completions before = []) :
      Parted (before ++ events) ∧ completions (before ++ events) = [] :=
    ⟨(parted finalize).1.quiet prepared reserved single, by
      rw [completions_append, (parted finalize).2, completed]
      rfl⟩
  cases pc with
  | chooseUpload buffered => exact kept buffered staged
  | sendSingle body =>
      simpa [FinalStage, reserved, single, completed, sameWritten] using staged
  | awaitSingle body =>
      simpa [FinalStage, reserved, single, completed, sameWritten] using staged
  | reserveFinal buffered =>
      exact ⟨kept buffered staged.1, by simpa [reserved] using staged.2⟩
  | awaitCompletion uploadId uploaded =>
      obtain ⟨parts, completion, same, stored⟩ := staged
      exact ⟨parts.quiet prepared reserved single, by
        rw [completions_append, completion, completed]
        rfl, etags.trans same, stored⟩
  | finishFinalize =>
      exact PublishedObject.append_silent staged ⟨prepared, reserved, sent, single, completed⟩
  | _ => exact fun finalize => parted finalize staged

end Steps

end Httpfs.S3.Upload
