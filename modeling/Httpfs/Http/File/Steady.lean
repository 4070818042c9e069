import Httpfs.Http.File.Versions

/-!
# A file that does not change

Any number of threads open and read an object that stays as it is.  Each request may
meet another server; some fail, some ignore ranges, some do not tell the size.  What the
handles share is then of the object whenever a thread looks at it: the file that is
cached, the size in the metadata cache and the sizes of the handles.
-/

namespace Httpfs.Http.File.Sharing

open FullDownload RangeRequest Word64
open Httpfs.Transition
open Httpfs.Transition.Monitor

universe u

/-! ## Answers about the object -/

/-- A request for the whole file fails, or brings the object. -/
inductive BringsWhole (object : Object) : Attempt → Prop
  | fails (attempt : Attempt) : FailsToAnswer attempt → BringsWhole object attempt
  | whole (response : HTTPResponse) (chunks : List Block) :
      chunks.flatten = object.val → BringsWhole object (.answered response chunks)

/-- A HEAD fails, or the server answers for the object and does not leave its size to the
two bytes that were asked for. -/
def TellsSize (object : Object) (opened : Opened) (choice : Choice) : Prop :=
  (∃ error, choice.server.head opened.session.configuredHeaders = .error error) ∨
    Serves object (opened.facing choice.server) ∧
      ¬ Untold object (opened.facing choice.server) opened.handle (choice.world [])

/-- A request for a range fails, or brings bytes that fill the buffer only if they are
those of the range. -/
def BringsRange (object : Object) (opened : Opened) (call : Cursor.Reading) (choice : Choice) :
    Prop :=
  AnswersRange object call.location call.readSize
      ((opened.facing choice.server).lastAttempt opened.handle.readConfig
        ⟨call.location, some 0, call.readSize⟩) ∧
    ¬ Misled object (opened.facing choice.server) opened.handle.readConfig 0 call.readSize
      call.location (choice.world (List.replicate call.readSize 0))

/-- The sizes that come with a name or from elsewhere are those of the object. -/
def Operation.Honest (object : Object) : Operation → Prop
  | .openFile _ _ info => ∀ given, info = some given → ∀ size, given.fileSize = some size →
      size = object.size
  | .changeMetadata entry => ∀ found, entry = some found → found.length = object.size
  | .read _ _ _ | .invalidateCachedFile => True

/-- What a thread is told at a control point is about the object. -/
def Choice.Honest (object : Object) (shared : Shared) (choice : Choice) : Control → Prop
  | .idle => choice.operation.Honest object
  | .opening opened (.requestFileInfo _) =>
      opened.handle.flags.openForReading = true → TellsSize object opened choice
  | .reading handle call (.tryRangeRequest _) =>
      ∀ opened, shared.handles[handle]? = some opened → BringsRange object opened call choice
  | .downloading caller .requesting => ∀ opened, caller.opened? shared = some opened →
      BringsWhole object ((opened.facing choice.server).wholeFile opened.handle.readConfig)
  | _ => True

section Requests

variable {object : Object} {session : Session} {opened : Opened} {choice : Choice}

/-- What a request tells a handle is what loading would have told it. -/
theorem loadFileInfo_of_fileInfo {handle loaded : HTTPFileHandle}
    (unknown : Session.NotKnown handle (choice.world []))
    (returns : fileInfo session handle choice = .ok loaded) :
    ∃ after, (session.loadFileInfo handle).run (choice.world []) = (.ok loaded, after) := by
  cases requests : (session.requestFileInfo handle).run (choice.world []) with
  | mk reply between =>
      rw [fileInfo, requests] at returns
      cases reply with
      | error error => cases returns
      | ok requested =>
          obtain ⟨requested, response⟩ := requested
          cases response with
          | some response =>
              cases returns
              rcases session.loadFileInfo_of_requested unknown requests with ⟨after, loads, -⟩
              exact ⟨after, loads⟩
          | none =>
              cases returns
              refine ⟨between, ?_⟩
              simp only [Session.loadFileInfo, Action.run_bind, Action.run_get,
                Session.tryLoadFileInfoWithoutRequest, unknown.uncached, unknown.uninitialized,
                unknown.unforced, unknown.kept, Bool.or_self, Bool.false_eq_true, if_false,
                requests, Action.run_pure]

/-- The size that a request tells is right, or will be taken from a full download. -/
theorem accounted_of_fileInfo {loaded : HTTPFileHandle}
    (reading : opened.handle.flags.openForReading = true)
    (unknown : Session.NotKnown opened.handle (choice.world []))
    (tells : TellsSize object opened choice)
    (returns : fileInfo (opened.facing choice.server) opened.handle choice = .ok loaded) :
    Accounted object opened.session loaded := by
  rcases tells with ⟨error, failed⟩ | ⟨serves, told⟩
  · have throws : ((opened.facing choice.server).requestFileInfo opened.handle).run
        (choice.world []) = (.error error, choice.world []) := by
      apply Action.run_bind_of_error
      rw [Action.run_lift]
      exact congrArg (·, choice.world []) failed
    rw [fileInfo, throws] at returns
    cases returns
  · obtain ⟨after, loads⟩ := loadFileInfo_of_fileInfo unknown returns
    have known : opened.handle.initialized = true → opened.handle.length = object.size := by
      intro initialized
      rw [unknown.uninitialized] at initialized
      cases initialized
    have accounted := serves.loadFileInfo_accounted reading unknown.kept known
      (.of_none unknown.uncached) told loads
    exact accounted.2.2

theorem retryFileInfoWithRange_flags {handle retried : HTTPFileHandle} {response : HTTPResponse}
    {before after : File.World}
    (returns : (session.retryFileInfoWithRange handle).run before =
      (.ok (retried, response), after)) : retried.flags = handle.flags := by
  rw [Session.retryFileInfoWithRange, Action.run_bind_eq_ok_iff] at returns
  rcases returns with ⟨outcome, between, -, returns⟩
  simp only [Action.run_ite, Action.run_pure, Action.run_throw] at returns
  split at returns
  · cases returns
    rfl
  · split at returns
    · cases returns
      rfl
    · cases returns

theorem requestFileInfo_flags {handle requested : HTTPFileHandle} {response : Option HTTPResponse}
    {before after : File.World}
    (returns : (session.requestFileInfo handle).run before = (.ok (requested, response), after)) :
    requested.flags = handle.flags := by
  rw [Session.requestFileInfo, Action.run_bind_eq_ok_iff] at returns
  rcases returns with ⟨answered, between, -, returns⟩
  simp only [Action.run_ite, Action.run_pure, Action.run_throw] at returns
  split at returns
  · cases returns
    rfl
  · split at returns
    · split at returns
      · cases returns
      · cases returns
        rfl
    · split at returns
      · rw [Action.run_bind_eq_ok_iff] at returns
        rcases returns with ⟨retried, there, retries, returns⟩
        cases returns
        exact retryFileInfoWithRange_flags retries
      · cases returns

theorem fileInfo_flags {handle loaded : HTTPFileHandle}
    (returns : fileInfo session handle choice = .ok loaded) : loaded.flags = handle.flags := by
  cases requests : (session.requestFileInfo handle).run (choice.world []) with
  | mk reply between =>
      rw [fileInfo, requests] at returns
      cases reply with
      | error error => cases returns
      | ok requested =>
          obtain ⟨requested, response⟩ := requested
          have same := requestFileInfo_flags requests
          cases response with
          | some response =>
              cases returns
              exact same
          | none =>
              cases returns
              exact same

theorem eq_object_of_fileRequest {readConfig : HTTPReadConfig} {file : Block}
    (brings : BringsWhole object (session.wholeFile readConfig))
    (returns : fileRequest session readConfig = .ok file) : file = object.val := by
  rw [Versions.fileRequest_eq] at returns
  cases downloads : (session.fullDownload readConfig).run {} with
  | mk reply after =>
      rw [downloads] at returns
      cases returns
      rcases session.fullDownload_cases readConfig downloads with
        ⟨cached, -⟩ | ⟨-, -, response, chunks, last, status, -, rfl⟩
      · cases cached
      · rw [last] at brings
        cases brings with
        | fails _ fails =>
            cases fails with
            | answered _ _ high => omega
        | whole _ _ isObject => exact isObject

/-- A range that was requested is the one of the object. -/
theorem eq_slice_of_rangeRequest {call : Cursor.Reading} {bytes : Block}
    (positive : 0 < call.readSize) (noOverflow : ¬ modulus - 1 - call.location < call.readSize)
    (brings : BringsRange object opened call choice)
    (returns : rangeRequest (opened.facing choice.server) opened.handle.readConfig call choice =
      .ok (some bytes)) :
    bytes = object.slice call.location call.readSize ∧
      call.location + call.readSize ≤ object.size := by
  unfold rangeRequest at returns
  split at returns
  · rename_i after reads
    cases returns
    have inBuffer : 0 + call.readSize ≤
        (choice.world (List.replicate call.readSize 0)).memory.length := by
      change 0 + call.readSize ≤ (List.replicate call.readSize (0 : UInt8)).length
      rw [List.length_replicate, Nat.zero_add]
    have holds := tryRangeRequest_holdsRange positive noOverflow inBuffer rfl brings.1 brings.2 reads
    have framed := (opened.facing choice.server).tryRangeRequest_framed opened.handle.readConfig
      inBuffer call.location (choice.world (List.replicate call.readSize 0)) (.refl _)
    rw [reads] at framed
    have size : after.memory.length = call.readSize :=
      framed.size.trans List.length_replicate
    have filled : Filled 0 after.memory after := by
      intro index _
      rw [Nat.zero_add]
    exact ⟨eq_slice_of_holdsRange size filled holds, within_of_holdsRange positive holds⟩
  · cases returns
  · cases returns

end Requests

/-! ## What is known -/

/-- What the handles of a path share is of the object. -/
structure Shared.IsOf (object : Object) (shared : Shared) : Prop where
  cachedFile : ∀ file, shared.cachedFile = some file → file = object.val
  metadata : ∀ entry, shared.metadataCache = some (some entry) → entry.length = object.size
  handles : ∀ opened ∈ shared.handles, opened.handle.flags.openForReading = true →
    opened.handle.length = object.size

/-- What is known of the size of a handle while it is opened. -/
def Opening.IsOf (object : Object) (opened : Opened) : Opening → Prop
  | .tryInitializeRead | .loadFileInfo _ => opened.handle.writeOverwriteMode = false ∧
      (opened.handle.initialized = true → opened.handle.length = object.size)
  | .requestFileInfo _ => opened.handle.initialized = false ∧
      opened.handle.forceFullDownload = false ∧ opened.handle.writeOverwriteMode = false
  | .finalize _ => Accounted object opened.session opened.handle
  | .initialized _ => opened.handle.length = object.size

/-- A file that was brought is the object; a range that is requested has an end. -/
def stageIsOf (object : Object) (call : Cursor.Reading) : Cursor.Stage → Prop
  | .tryRangeRequest _ => ¬ modulus - 1 - call.location < call.readSize
  | .compare file => file = object.val
  | .lookup _ | .fullDownload => True

def progressIsOf (object : Object) (call : Cursor.Reading) : Cursor.Progress → Prop
  | .continues stage _ _ => stageIsOf object call stage
  | .returns data _ => data = object.slice call.location call.readSize ∧
      call.location + call.readSize ≤ object.size
  | .throws _ cachedFile => ∀ file, cachedFile = some file → file = object.val

def Control.IsOf (object : Object) : Control → Prop
  | .idle | .downloading (.opening _ _) _ => True
  | .opening opened stage =>
      opened.handle.flags.openForReading = true → stage.IsOf object opened
  | .reading _ call stage => 0 < call.readSize ∧ stageIsOf object call stage
  | .downloading (.reading _ call) _ => 0 < call.readSize

/-- What one step keeps, and what it returns if it ends a read. -/
structure Keeps (object : Object) (control : Control) (after : Shared) (next : Control)
    (events : List Event) : Prop where
  shared : after.IsOf object
  known : next.IsOf object
  read : ∀ handle call stage data, control = .reading handle call stage →
    events = [.read handle data] →
    data = object.slice call.location call.readSize ∧
      call.location + call.readSize ≤ object.size

section Steps

variable {object : Object} {shared after : Shared} {choice : Choice} {control next : Control}
  {events : List Event} {notify : Bool}

theorem tryLoadFileInfoWithoutRequest_flags {handle loaded : HTTPFileHandle}
    {cachedFile : Option Block}
    (loads : Session.tryLoadFileInfoWithoutRequest handle cachedFile = some loaded) :
    loaded.flags = handle.flags := by
  unfold Session.tryLoadFileInfoWithoutRequest at loads
  split at loads
  · cases loads
    rfl
  · split at loads
    · cases loads
      rfl
    · split at loads
      · cases loads
        rfl
      · cases loads

/-- What is known without a request accounts for the size, or nothing is known. -/
theorem tryLoadFileInfoWithoutRequest_cases (isOf : shared.IsOf object) {handle : HTTPFileHandle}
    (keeps : handle.writeOverwriteMode = false)
    (known : handle.initialized = true → handle.length = object.size) (session : Session) :
    (∃ loaded, Session.tryLoadFileInfoWithoutRequest handle shared.cachedFile = some loaded ∧
        Accounted object session loaded) ∨
      (Session.tryLoadFileInfoWithoutRequest handle shared.cachedFile = none ∧
        handle.initialized = false ∧ handle.forceFullDownload = false) := by
  cases cached : shared.cachedFile with
  | some file =>
      exact .inl ⟨_, rfl, .inl (congrArg List.length (isOf.cachedFile file cached))⟩
  | none =>
      rw [Session.tryLoadFileInfoWithoutRequest, keeps, if_neg Bool.false_ne_true]
      by_cases already : (handle.initialized || handle.forceFullDownload) = true
      · rw [if_pos already]
        refine .inl ⟨handle, rfl, ?_⟩
        rcases (Bool.or_eq_true _ _).mp already with initialized | forced
        · exact .inl (known initialized)
        · exact accounted_of_forced forced
      · rw [if_neg already]
        rw [Bool.not_eq_true, Bool.or_eq_false_iff] at already
        exact .inr ⟨rfl, already⟩

/-- A step that ends no read. -/
theorem keeps_of_noRead (isOf : after.IsOf object) (known : next.IsOf object)
    (noRead : ∀ handle call stage data, control = .reading handle call stage →
      events ≠ [.read handle data]) : Keeps object control after next events :=
  ⟨isOf, known, fun handle call stage data isReading isRead =>
    absurd isRead (noRead handle call stage data isReading)⟩

theorem keeps_of_idle (isOf : after.IsOf object)
    (noRead : ∀ handle call stage data, control = .reading handle call stage →
      events ≠ [.read handle data]) : Keeps object control after .idle events :=
  keeps_of_noRead isOf trivial noRead

theorem keeps_of_quietly {changed : Shared} {there : Control}
    (advances : quietly changed there = some (.advance after next events notify))
    (isOf : changed.IsOf object) (known : there.IsOf object) :
    Keeps object control after next events := by
  cases advances
  apply keeps_of_noRead isOf known
  rintro _ _ _ _ - ⟨⟩

theorem keeps_of_operation {operation : Operation} (isOf : shared.IsOf object)
    (honest : operation.Honest object)
    (advances : beginOperation shared operation = some (.advance after next events notify)) :
    Keeps object .idle after next events := by
  cases operation with
  | openFile session flags info =>
      apply keeps_of_quietly advances isOf
      intro _
      exact ⟨(create_flags flags info).2, create_length honest⟩
  | read handle readSize location =>
      simp only [beginOperation] at advances
      split at advances
      · cases advances
      · split at advances
        · cases advances
          apply keeps_of_idle isOf
          rintro _ _ _ _ ⟨⟩
        · rename_i nonzero
          exact keeps_of_quietly advances isOf ⟨Nat.pos_of_ne_zero nonzero, trivial⟩
  | invalidateCachedFile =>
      have invalidated : Shared.IsOf object { shared with cachedFile := none } := by
        refine ⟨?_, isOf.metadata, isOf.handles⟩
        rintro _ ⟨⟩
      exact keeps_of_quietly advances invalidated trivial
  | changeMetadata entry =>
      have changed : Shared.IsOf object
          { shared with metadataCache := shared.metadataCache.map fun _ => entry } := by
        refine ⟨isOf.cachedFile, ?_, isOf.handles⟩
        intro found isFound
        obtain ⟨-, -, isEntry⟩ := Option.map_eq_some_iff.mp isFound
        exact honest found isEntry
      exact keeps_of_quietly advances changed trivial

theorem keeps_of_opening {opened : Opened} {stage : Opening} (isOf : shared.IsOf object)
    (known : (Control.opening opened stage).IsOf object)
    (honest : choice.Honest object shared (.opening opened stage))
    (advances : openingStep opened shared choice stage =
      some (.advance after next events notify)) :
    Keeps object (.opening opened stage) after next events := by
  cases stage with
  | tryInitializeRead =>
      simp only [openingStep] at advances
      split at advances
      · exact keeps_of_quietly advances isOf known
      · split at advances
        · exact keeps_of_quietly advances isOf trivial
        · split at advances
          · exact keeps_of_quietly advances isOf known
          · exact keeps_of_quietly advances isOf known
          · rename_i entry found
            apply keeps_of_quietly advances isOf
            intro _
            exact isOf.metadata entry found
  | loadFileInfo shouldWriteCache =>
      simp only [openingStep] at advances
      split at advances
      · rename_i handle loads
        apply keeps_of_quietly advances isOf
        intro reading
        have same : handle.flags = opened.handle.flags := tryLoadFileInfoWithoutRequest_flags loads
        have isReading : opened.handle.flags.openForReading = true := by
          rw [← same]
          exact reading
        obtain ⟨keeps, initialized⟩ := known isReading
        rcases tryLoadFileInfoWithoutRequest_cases isOf keeps initialized opened.session with
          ⟨loaded, isLoaded, accounted⟩ | ⟨unknown, -⟩
        · rw [loads] at isLoaded
          cases isLoaded
          exact accounted
        · rw [loads] at unknown
          cases unknown
      · rename_i nothing
        apply keeps_of_quietly advances isOf
        intro reading
        obtain ⟨keeps, initialized⟩ := known reading
        rcases tryLoadFileInfoWithoutRequest_cases isOf keeps initialized opened.session with
          ⟨loaded, isLoaded, -⟩ | ⟨-, uninitialized, unforced⟩
        · rw [nothing] at isLoaded
          cases isLoaded
        · exact ⟨uninitialized, unforced, keeps⟩
  | requestFileInfo shouldWriteCache =>
      simp only [openingStep] at advances
      split at advances
      · cases advances
        apply keeps_of_idle isOf
        rintro _ _ _ _ ⟨⟩
      · rename_i handle returns
        apply keeps_of_quietly advances isOf
        intro reading
        have isReading : opened.handle.flags.openForReading = true := by
          rw [← fileInfo_flags returns]
          exact reading
        obtain ⟨uninitialized, unforced, kept⟩ := known isReading
        have unknown : Session.NotKnown opened.handle (choice.world []) :=
          ⟨rfl, uninitialized, unforced, kept⟩
        have accounted : Accounted object opened.session handle :=
          accounted_of_fileInfo isReading unknown (honest isReading) returns
        exact accounted
  | finalize shouldWriteCache =>
      simp only [openingStep] at advances
      split at advances
      · rename_i notReading
        apply keeps_of_quietly advances isOf
        intro reading
        rw [reading] at notReading
        cases notReading
      · rename_i reading
        have accounted : Accounted object opened.session opened.handle :=
          known (by simpa [Opened.finalizeReadConfig, HTTPFileHandle.finalizeReadConfig] using reading)
        split at advances
        · exact keeps_of_quietly advances isOf trivial
        · rename_i notDownloaded
          have length : opened.handle.length = object.size := accounted.resolve_right notDownloaded
          split at advances
          · apply keeps_of_quietly advances _ (fun _ => length)
            refine ⟨isOf.cachedFile, ?_, isOf.handles⟩
            rintro entry ⟨⟩
            exact length
          · exact keeps_of_quietly advances isOf fun _ => length
  | initialized erasesWhenWriting =>
      cases advances
      apply keeps_of_idle
      · constructor
        · exact isOf.cachedFile
        · intro entry found
          dsimp only at found
          split at found
          · obtain ⟨-, -, isEntry⟩ := Option.map_eq_some_iff.mp found
            cases isEntry
          · exact isOf.metadata entry found
        · intro other member
          rcases List.mem_append.mp member with before | added
          · exact isOf.handles other before
          · rw [List.mem_singleton.mp added]
            exact known
      · rintro _ _ _ _ ⟨⟩

/-- A caller goes on with the object. -/
theorem isOf_resume {caller : Caller} {stage : Download}
    (known : (Control.downloading caller stage).IsOf object) {file : Block}
    (isObject : file = object.val) : (caller.resume file).IsOf object := by
  cases caller with
  | opening opened forced => exact fun _ => congrArg List.length isObject
  | reading handle call => exact ⟨known, isObject⟩

theorem keeps_of_download {caller : Caller} {stage : Download} (isOf : shared.IsOf object)
    (known : (Control.downloading caller stage).IsOf object)
    (honest : choice.Honest object shared (.downloading caller stage))
    (advances : downloadStep caller shared choice stage =
      some (.advance after next events notify)) :
    Keeps object (.downloading caller stage) after next events := by
  have stays : ∀ there, (Control.downloading caller there).IsOf object := by
    intro there
    cases caller with
    | opening opened forced => trivial
    | reading handle call => exact known
  cases stage with
  | lookup =>
      simp only [downloadStep] at advances
      split at advances
      · rename_i file cached
        exact keeps_of_quietly advances isOf (isOf_resume known (isOf.cachedFile file cached))
      · exact keeps_of_quietly advances isOf (stays _)
  | starting =>
      simp only [downloadStep] at advances
      split at advances
      · cases advances
      · split at advances
        · exact keeps_of_quietly advances isOf (stays _)
        · have begun : Shared.IsOf object { shared with downloading := true } :=
            ⟨isOf.cachedFile, isOf.metadata, isOf.handles⟩
          exact keeps_of_quietly advances begun (stays _)
  | requesting =>
      simp only [downloadStep] at advances
      split at advances
      · cases advances
      · rename_i opened isOpened
        split at advances
        · cases advances
          apply keeps_of_idle
          · exact ⟨isOf.cachedFile, isOf.metadata, isOf.handles⟩
          · rintro _ _ _ _ ⟨⟩
        · rename_i file returns
          cases advances
          have isObject := eq_object_of_fileRequest (honest opened isOpened) returns
          apply keeps_of_noRead
          · refine ⟨?_, isOf.metadata, isOf.handles⟩
            rintro _ ⟨⟩
            exact isObject
          · exact isOf_resume known isObject
          · rintro _ _ _ _ ⟨⟩

/-- One look, or one answer, leads a read on, or to bytes of its range, or to an error that
leaves what is cached or nothing. -/
theorem isOf_readAtWithFallback {path : String} {length : Nat} {call : Cursor.Reading}
    {cachedFile : Option Block} {range : Except ErrorData (Option Block)} {stage : Cursor.Stage}
    {progress : Cursor.Progress} (isOf : ∀ file, cachedFile = some file → file = object.val)
    (positive : 0 < call.readSize) (known : stageIsOf object call stage)
    (ranged : ∀ again bytes, stage = .tryRangeRequest again → range = .ok (some bytes) →
      bytes = object.slice call.location call.readSize ∧
        call.location + call.readSize ≤ object.size)
    (progresses : Cursor.readAtWithFallback path length call cachedFile (Cursor.withRange range)
      stage = some progress) : progressIsOf object call progress := by
  cases stage with
  | lookup again =>
      simp only [Cursor.readAtWithFallback] at progresses
      split at progresses
      · cases progresses
        exact isOf
      · rename_i noOverflow
        split at progresses
        · rename_i file
          split at progresses
          · cases progresses
            exact isOf
          · rename_i fits
            cases progresses
            obtain rfl := isOf file rfl
            exact ⟨rfl, Nat.le_of_not_lt fits⟩
        · cases progresses
          exact noOverflow
  | tryRangeRequest again =>
      simp only [Cursor.readAtWithFallback, Cursor.withRange] at progresses
      split at progresses
      · cases progresses
        exact isOf
      · rename_i bytes
        split at progresses
        · cases progresses
          exact ranged again bytes rfl rfl
        · cases progresses
      · split at progresses
        · cases progresses
          exact isOf
        · cases progresses
          trivial
  | fullDownload =>
      simp only [Cursor.readAtWithFallback, Cursor.withRange] at progresses
      split at progresses
      · rename_i file
        cases progresses
        exact isOf file rfl
      · cases progresses
        rintro _ ⟨⟩
  | compare file =>
      simp only [Cursor.readAtWithFallback] at progresses
      split at progresses
      · cases progresses
        rintro _ ⟨⟩
      · cases progresses
        trivial

theorem keeps_of_reading {handle : Nat} {call : Cursor.Reading} {stage : Cursor.Stage}
    (isOf : shared.IsOf object) (known : (Control.reading handle call stage).IsOf object)
    (honest : choice.Honest object shared (.reading handle call stage))
    (advances : readingStep handle call shared choice stage =
      some (.advance after next events notify)) :
    Keeps object (.reading handle call stage) after next events := by
  obtain ⟨positive, stageKnown⟩ := known
  simp only [readingStep] at advances
  split at advances
  · cases advances
  · rename_i opened isOpened
    have ranged : ∀ again bytes, stage = .tryRangeRequest again →
        rangeRequest (opened.facing choice.server) opened.handle.readConfig call choice =
          .ok (some bytes) →
        bytes = object.slice call.location call.readSize ∧
          call.location + call.readSize ≤ object.size := by
      rintro again bytes rfl returns
      exact eq_slice_of_rangeRequest positive stageKnown (honest opened isOpened) returns
    have progressKnown := fun progress => @isOf_readAtWithFallback object opened.session.path
      opened.handle.length call shared.cachedFile _ stage progress isOf.cachedFile positive
      stageKnown ranged
    split at advances
    · cases advances
    · exact keeps_of_quietly advances isOf positive
    · rename_i there _ _ _ progresses
      exact keeps_of_quietly advances isOf ⟨positive, progressKnown _ progresses⟩
    · rename_i data _ progresses
      cases advances
      refine ⟨isOf, trivial, ?_⟩
      rintro _ _ _ _ ⟨⟩ ⟨⟩
      exact progressKnown _ progresses
    · rename_i error cachedFile progresses
      cases advances
      apply keeps_of_idle
      · exact ⟨progressKnown _ progresses, isOf.metadata, isOf.handles⟩
      · rintro _ _ _ _ _ ⟨⟩

theorem keeps_of_program {ι : Type u} {thread : ι} (isOf : shared.IsOf object)
    (known : control.IsOf object) (honest : choice.Honest object shared control)
    (advances : program thread shared control choice =
      some (.advance after next events notify)) : Keeps object control after next events := by
  cases control with
  | idle => exact keeps_of_operation isOf honest advances
  | opening opened stage => exact keeps_of_opening isOf known honest advances
  | reading handle call stage => exact keeps_of_reading isOf known honest advances
  | downloading caller stage => exact keeps_of_download isOf known honest advances

end Steps

/-! ## Runs -/

section Runs

variable {ι : Type u} [DecidableEq ι] {object : Object}
  {world next : Monitor.World ι Shared Control Event}

/-- What is shared and what threads know is of the object. -/
structure Invariant (object : Object) (world : Monitor.World ι Shared Control Event) : Prop where
  shared : world.shared.IsOf object
  known : ∀ thread, (world.control thread).IsOf object

/-- The environment tells threads about the object. -/
def Tells (object : Object) (world : Monitor.World ι Shared Control Event) (thread : ι)
    (choice : Choice) : Prop :=
  choice.Honest object world.shared (world.control thread)

theorem Invariant.step {thread : ι} {choice : Choice} (invariant : Invariant object world)
    (tells : Tells object world thread choice)
    (stepped : Monitor.step program world thread choice = some next) : Invariant object next := by
  obtain ⟨-, ⟨-, rfl⟩ | ⟨shared, control, events, notify, advances, rfl⟩⟩ := step_cases stepped
  · exact ⟨invariant.shared, invariant.known⟩
  · have keeps := keeps_of_program invariant.shared (invariant.known thread) tells advances
    constructor
    · exact keeps.shared
    · intro other
      by_cases same : other = thread
      · subst same
        simpa [Monitor.World.advance] using keeps.known
      · simpa [Monitor.World.advance, same] using invariant.known other

/-- Whoever opens and reads an object that does not change, and in whatever order: what
is cached is the object, what was opened for reading has its size, and a read that returns
gives the bytes of its range. -/
theorem steady_reads (metadataCache : Option (Option HTTPMetadataCacheEntry))
    (metadataTrue : ∀ entry, metadataCache = some (some entry) → entry.length = object.size)
    (run : RunChoosing program (Tells object) (.initial { metadataCache } .idle) world) :
    world.shared.IsOf object ∧
      ∀ thread choice, Tells object world thread choice →
        Monitor.step program world thread choice = some next →
        ∀ handle call stage data, world.control thread = .reading handle call stage →
          next.events = world.events ++ [.read handle data] →
          data = object.slice call.location call.readSize ∧
            call.location + call.readSize ≤ object.size := by
  have nothing : Shared.IsOf object { metadataCache } := by
    refine ⟨?_, metadataTrue, fun _ member => absurd member List.not_mem_nil⟩
    rintro _ ⟨⟩
  have start : Invariant object (World.initial { metadataCache } .idle : Monitor.World ι _ _ Event) :=
    ⟨nothing, fun _ => trivial⟩
  have keeps : ∀ (before after : Monitor.World ι Shared Control Event) thread choice,
      Invariant object before → Tells object before thread choice →
      Monitor.step program before thread choice = some after → Invariant object after :=
    fun _ _ _ _ invariant tells stepped => invariant.step tells stepped
  have invariant : Invariant object world := RunChoosing.invariant keeps run start
  refine ⟨invariant.shared, ?_⟩
  intro thread choice tells stepped handle call stage data isReading isRead
  obtain ⟨-, ⟨-, rfl⟩ | ⟨shared, control, events, notify, advances, rfl⟩⟩ := step_cases stepped
  · have none : ([] : List Event) = [.read handle data] :=
      List.append_cancel_left ((List.append_nil _).trans isRead)
    cases none
  · have keeps := keeps_of_program invariant.shared (invariant.known thread) tells advances
    rw [Monitor.World.events_advance] at isRead
    exact keeps.read handle call stage data isReading (List.append_cancel_left isRead)

end Runs

/-! ## A byte that two threads read -/

namespace Example

theorem oneByte_lt : ([7] : Block).length < modulus := by
  decide

def oneByte : Object :=
  ⟨[7], oneByte_lt⟩

/-- A server that tells the size in a HEAD and ignores ranges. -/
def byteServer : Server where
  head _ := .ok ⟨200, "", [("Content-Length", "1")], ""⟩
  get _ := ⟨[], .answered ⟨200, "", [], ""⟩ [[7]]⟩

def opensByte : Choice where
  operation := .openFile ⟨.plain, byteServer, "http://host/byte", {}, []⟩ {} none
  server := byteServer

def readsByte : Choice where
  operation := .read 0 1 0
  server := byteServer

/-- One thread opens the file, and another one begins to read it. -/
def twoThreads : List (Bool × Choice) :=
  List.replicate 6 (true, opensByte) ++ List.replicate 2 (false, readsByte)

/-- Reads are for the first byte. -/
def Control.firstByte : Control → Bool
  | .reading _ call _ => call.location == 0 && call.readSize == 1
  | _ => true

def Control.isReading : Control → Bool
  | .reading handle _ _ => handle == 0
  | _ => false

theorem serves_byteServer (opened : Opened) : Serves oneByte (opened.facing byteServer) where
  head := ⟨_, rfl, .ok rfl (.inl (by decide +kernel)) (by decide +kernel)⟩
  probe _ _ := ⟨_, _, rfl, rfl, .whole rfl rfl (.inr (by decide +kernel)) (by decide +kernel)⟩
  whole _ _ := ⟨_, _, rfl, rfl, rfl, rfl⟩

theorem honest_byteServer {choice : Choice} (server : choice.server = byteServer)
    (operation : choice.operation.Honest oneByte) {shared : Shared} {control : Control}
    (first : Control.firstByte control = true) : choice.Honest oneByte shared control := by
  obtain ⟨_, _, _⟩ := choice
  subst server
  unfold Choice.Honest
  split
  · exact operation
  · rename_i opened _
    intro _
    refine .inr ⟨serves_byteServer opened, ?_⟩
    intro untold
    exact untold.rejected _ rfl rfl
  · rename_i handle call _
    intro opened _
    obtain ⟨reader, readSize, location⟩ := call
    simp only [Control.firstByte, Bool.and_eq_true, beq_iff_eq] at first
    obtain ⟨rfl, rfl⟩ := first
    refine ⟨.ignores _ _ rfl (.inl List.prefix_rfl), ?_⟩
    rintro ⟨-, -, -, -, -, response, chunks, last, -, ⟨-, other⟩ | ⟨status, -⟩⟩
    · cases last
      exact other rfl
    · cases last
      cases status
  · intro opened _
    exact .whole _ _ rfl
  · trivial

def nothingOpen : Monitor.World Bool Shared Control Event :=
  .initial {} .idle

theorem tells_twoThreads {before after : List (Bool × Choice)} (split : twoThreads = before ++ after)
    (thread : Bool) {choice : Choice} (isByte : choice = opensByte ∨ choice = readsByte) :
    Tells oneByte (play program nothingOpen before) thread choice := by
  have first : ∀ index < 9, ∀ thread,
      Control.firstByte ((play program nothingOpen (twoThreads.take index)).control thread) = true := by
    decide +kernel
  have inside : before.length < 9 := by
    have size : (before ++ after).length = 8 := split ▸ rfl
    rw [List.length_append] at size
    omega
  have taken : twoThreads.take before.length = before := by
    rw [split, List.take_left]
  have control := first before.length inside thread
  rw [taken] at control
  rcases isByte with rfl | rfl
  · have opens : opensByte.operation.Honest oneByte := by
      rintro _ ⟨⟩
    exact honest_byteServer rfl opens control
  · have reads : readsByte.operation.Honest oneByte := trivial
    exact honest_byteServer rfl reads control

theorem steady_reads_twoThreads :
    let world := play program nothingOpen twoThreads
    world.shared.IsOf oneByte ∧
      ∃ next, Monitor.step program world false readsByte = some next ∧
        next.events = world.events ++ [.read 0 [7]] ∧ [7] = oneByte.slice 0 1 := by
  intro world
  have run : RunChoosing program (Tells oneByte) nothingOpen world := by
    apply runChoosing_play
    intro before scheduled after split
    apply tells_twoThreads split
    have member : scheduled ∈ twoThreads :=
      split ▸ List.mem_append_right before List.mem_cons_self
    rcases List.mem_append.mp member with opening | reading
    · exact .inl (congrArg Prod.snd (List.eq_of_mem_replicate opening))
    · exact .inr (congrArg Prod.snd (List.eq_of_mem_replicate reading))
  have isReading : Control.isReading (world.control false) = true := by
    decide +kernel
  have first : Control.firstByte (world.control false) = true := by
    decide +kernel
  have events : (Monitor.step program world false readsByte).map (·.events) =
      some (world.events ++ [.read 0 [7]]) := by
    decide +kernel
  obtain ⟨next, stepped, isRead⟩ := Option.map_eq_some_iff.mp events
  have tells := tells_twoThreads (List.append_nil twoThreads).symm false (.inr rfl)
  have noEntry : ∀ entry : HTTPMetadataCacheEntry,
      (none : Option (Option HTTPMetadataCacheEntry)) = some (some entry) →
        entry.length = oneByte.size := by
    rintro _ ⟨⟩
  have steady := @steady_reads Bool _ oneByte world next none noEntry run
  cases controlEq : world.control false with
  | reading handle call stage =>
      rw [controlEq] at isReading first
      simp only [Control.isReading, Control.firstByte, Bool.and_eq_true, beq_iff_eq] at isReading first
      subst isReading
      have read := steady.2 false readsByte tells stepped 0 call stage [7] controlEq isRead
      rw [first.1, first.2] at read
      exact ⟨steady.1, next, stepped, isRead, read.1⟩
  | idle => rw [controlEq] at isReading; cases isReading
  | opening opened stage => rw [controlEq] at isReading; cases isReading
  | downloading caller stage => rw [controlEq] at isReading; cases isReading

end Example

end Httpfs.Http.File.Sharing
