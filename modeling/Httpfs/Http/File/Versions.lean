import Httpfs.Http.File.Received
import Httpfs.Http.File.Sharing

/-!
# Reads of one version

The object changes while its handles are open.  Each version has its own `ETag`, which
all answers about it carry.  What a request brings to a handle with an `ETag` is of the
version with this `ETag`; the file that is cached for the path may be of another one,
and no look at it compares.
-/

namespace Httpfs.Http.File.Sharing

open FullDownload RangeRequest Text
open Httpfs.Transition
open Httpfs.Transition.Monitor

universe u v

/-! ## Versions -/

/-- The versions of an object. -/
structure Versions (V : Type v) where
  etag : V → String
  content : V → Block
  strong : ∀ version, isStrongETag (etag version) = true
  own : Function.Injective etag

section ETags

variable {etag other : String}

theorem exists_quoted {text : Text} (long : 2 ≤ text.length) (first : text.head? = some '"')
    (last : text.getLast? = some '"') : ∃ inner, text = '"' :: (inner ++ ['"']) := by
  cases text with
  | nil => cases first
  | cons byte rest =>
      obtain rfl : byte = '"' := Option.some.inj first
      have nonempty : rest ≠ [] := by
        rintro rfl
        exact absurd long (by decide)
      rw [List.getLast?_cons_of_ne_nil nonempty] at last
      exact ⟨rest.dropLast, congrArg _ (List.dropLast_append_getLast? _ last).symm⟩

/-- What is between the quotes of a strong `ETag` has no quote; one that does not begin
and end with a quote has one inside. -/
theorem strongETag_cases (strong : isStrongETag etag = true) :
    (∃ inner, '"' ∉ inner ∧ etag.toList = '"' :: (inner ++ ['"']) ∧
        stripETagQuotes etag = inner) ∨
      ('"' ∈ etag.toList ∧ stripETagQuotes etag = etag.toList) := by
  simp only [isStrongETag] at strong
  split at strong
  · contradiction
  · rename_i shaped
    simp only [not_or, Nat.not_lt, not_not] at shaped
    obtain ⟨-, first, -, -⟩ := shaped
    by_cases quoted : 2 ≤ etag.toList.length ∧ etag.toList.head? = some '"' ∧
        etag.toList.getLast? = some '"'
    · rcases exists_quoted quoted.1 quoted.2.1 quoted.2.2 with ⟨inner, pieces⟩
      have trimmed : trim etag.toList = etag.toList := by
        have noSpace : ∀ byte ∈ some '"', isSpace byte = false := by decide
        have core := @trim_of_spaces [] etag.toList [] nofun nofun (quoted.2.1 ▸ noSpace)
          (quoted.2.2 ▸ noSpace) (by rw [pieces]; exact List.cons_ne_nil _ _)
        rwa [List.nil_append, List.append_nil] at core
      refine .inl ⟨inner, ?_, pieces, ?_⟩
      · intro quote
        rw [trimmed, pieces, List.drop_one, List.tail_cons, List.dropLast_concat,
          List.all_eq_true] at strong
        exact absurd (strong '"' quote) (by decide)
      · rw [stripETagQuotes, if_pos quoted]
        have cut : etag.toList = ['"'] ++ (inner ++ ['"']) := pieces
        refine substr_of_eq cut rfl ?_
        rw [cut, List.length_append, List.length_append, List.length_singleton]
        omega
    · refine .inr ⟨mem_of_mem_trim (List.mem_of_mem_head? first), if_neg quoted⟩

theorem stripETagQuotes_inj (strong : isStrongETag etag = true)
    (otherStrong : isStrongETag other = true)
    (same : stripETagQuotes etag = stripETagQuotes other) : etag = other := by
  rcases strongETag_cases strong with ⟨inner, noQuote, quoted, strip⟩ | ⟨quote, strip⟩
  · rcases strongETag_cases otherStrong with
      ⟨otherInner, -, otherQuoted, otherStrip⟩ | ⟨otherQuote, otherStrip⟩
    · rw [strip, otherStrip] at same
      rw [same, ← otherQuoted] at quoted
      exact String.toList_injective quoted
    · rw [strip, otherStrip] at same
      exact absurd (same ▸ otherQuote) noQuote
  · rcases strongETag_cases otherStrong with
      ⟨otherInner, otherNoQuote, -, otherStrip⟩ | ⟨-, otherStrip⟩
    · rw [strip, otherStrip] at same
      exact absurd (same ▸ quote) otherNoQuote
    · rw [strip, otherStrip] at same
      exact String.toList_injective same

theorem ne_empty_of_isStrongETag (strong : isStrongETag etag = true) : etag ≠ "" := by
  rintro rfl
  revert strong
  decide

end ETags

namespace Versions

variable {V : Type v} (versions : Versions V)

/-- The version has an `ETag`, in quotes or not. -/
def Named (etag : String) (version : V) : Prop :=
  stripETagQuotes (versions.etag version) = stripETagQuotes etag

/-- No two versions have an `ETag` in common. -/
theorem named_unique {etag : String} {version other : V} (named : versions.Named etag version)
    (otherNamed : versions.Named etag other) : version = other :=
  versions.own (stripETagQuotes_inj (versions.strong version) (versions.strong other)
    (Eq.trans named (Eq.symm otherNamed)))

/-- Bytes of the version with some `ETag` and of no other. -/
def BytesOf (etag : String) (bytes : Block) : Prop :=
  bytes = [] ∨ ∃ version, versions.Named etag version ∧ bytes <:+: versions.content version

/-- An attempt at a range or at the whole file: it fails, or brings bytes of a version
with its `ETag`. -/
inductive Answers : Attempt → Prop
  | fails (attempt : Attempt) : FailsToAnswer attempt → Answers attempt
  | carries (version : V) (response : HTTPResponse) (chunks : List Block) :
      response.status < 300 → response.header? "ETag" = some (versions.etag version) →
      chunks.flatten <:+: versions.content version → Answers (.answered response chunks)

/-- All answers of a server are about some version, not always the same. -/
structure AnsweredBy (server : Server) : Prop where
  head : ∀ headers response, server.head headers = .ok response → response.status = 200 →
    ∃ version, response.header? "ETag" = some (versions.etag version)
  failed : ∀ headers, ∀ attempt ∈ (server.get headers).failed, versions.Answers attempt
  last : ∀ headers, versions.Answers (server.get headers).last

variable {versions}

theorem BytesOf.part {etag : String} {bytes part : Block} (bytesOf : versions.BytesOf etag bytes)
    (isPart : part <:+: bytes) : versions.BytesOf etag part := by
  rcases bytesOf with rfl | ⟨version, named, within⟩
  · exact .inl (List.infix_nil.mp isPart)
  · exact .inr ⟨version, named, isPart.trans within⟩

/-! ## Requests -/

/-- The configuration checks answers against an `ETag`. -/
structure Checks (readConfig : HTTPReadConfig) (etag : String) : Prop where
  etag : readConfig.etag = etag
  validates : readConfig.validateEtag = true

section Requests

variable {session : Session} {readConfig : HTTPReadConfig} {etag : String}
  (answered : versions.AnsweredBy session.server) (checks : Checks readConfig etag)
  (nonempty : etag ≠ "")

include checks nonempty

theorem named_of_agrees {response : HTTPResponse} {version : V}
    (carries : response.header? "ETag" = some (versions.etag version))
    (agrees : etagAgrees readConfig response = true) : versions.Named etag version := by
  have checked : (!readConfig.validateEtag || readConfig.etag == "") = false := by
    rw [checks.validates, checks.etag, Bool.not_true, Bool.false_or]
    exact beq_false_of_ne nonempty
  rw [etagAgrees, checked, if_neg Bool.false_ne_true, carries, checks.etag] at agrees
  rcases Bool.or_eq_true_iff.mp agrees with empty | same
  · exact absurd (beq_iff_eq.mp empty) (ne_empty_of_isStrongETag (versions.strong version))
  · exact beq_iff_eq.mp same

/-- A body that comes with the right `ETag` is of the version with it. -/
theorem Answers.bytesOf {response : HTTPResponse} {chunks : List Block}
    (answers : versions.Answers (.answered response chunks)) (status : response.status < 300)
    (agrees : etagAgrees readConfig response = true) :
    versions.BytesOf etag chunks.flatten := by
  cases answers with
  | fails _ fails =>
      cases fails with
      | answered _ _ high => exact absurd status (Nat.not_lt.mpr high)
  | carries version _ _ _ header within =>
      exact .inr ⟨version, named_of_agrees checks nonempty header agrees, within⟩

include answered

/-- A range request brings bytes of the version of the handle. -/
theorem bytesOf_rangeRequest {call : Cursor.Reading} {choice : Choice} {bytes : Block}
    (returns : rangeRequest session readConfig call choice = .ok (some bytes)) :
    versions.BytesOf etag bytes := by
  unfold rangeRequest at returns
  split at returns
  · rename_i after reads
    cases returns
    have within : 0 + call.readSize ≤ (choice.world (List.replicate call.readSize 0)).memory.length := by
      change 0 + call.readSize ≤ (List.replicate call.readSize (0 : UInt8)).length
      rw [List.length_replicate, Nat.zero_add]
    have framed := session.tryRangeRequest_framed readConfig within call.location
      (choice.world (List.replicate call.readSize 0)) (.refl _)
    rw [reads] at framed
    have size : after.memory.length = call.readSize :=
      framed.size.trans List.length_replicate
    rcases session.tryRangeRequest_of_true readConfig rfl within reads with
      ⟨response, chunks, last, unmodified⟩ | ⟨-, -, response, chunks, last, status, fills, filled⟩
    · have answers := answered.last (rangeGetRequest session.util session.path
        session.configuredHeaders readConfig ⟨call.location, some 0, call.readSize⟩).headers
      change versions.Answers (session.lastAttempt readConfig _) at answers
      rw [last] at answers
      cases answers with
      | fails _ fails =>
          cases fails with
          | answered _ _ _ notUnmodified => exact absurd unmodified notUnmodified
      | carries _ _ _ good => omega
    · have answers := answered.last (rangeGetRequest session.util session.path
        session.configuredHeaders readConfig ⟨call.location, some 0, call.readSize⟩).headers
      change versions.Answers (session.lastAttempt readConfig _) at answers
      rw [last] at answers
      have body : after.memory = chunks.flatten := by
        apply List.ext_getElem?
        intro index
        by_cases inside : index < chunks.flatten.length
        · have stored := filled index inside
          rwa [Nat.zero_add] at stored
        · have outside : after.memory.length ≤ index := by
            rw [size]
            exact (Nat.not_lt.mp inside).trans' (Nat.le_of_eq fills.length.symm)
          rw [List.getElem?_eq_none outside, List.getElem?_eq_none (Nat.not_lt.mp inside)]
      rw [body]
      exact answers.bytesOf checks nonempty status fills.agrees
  · cases returns
  · cases returns

omit answered checks nonempty in
/-- Where nothing is cached, a full download is one request for the file. -/
theorem fileRequest_eq : fileRequest session readConfig =
    ((session.fullDownload readConfig).run {}).1 := by
  rw [session.fullDownload_of_uncached readConfig rfl, fileRequest]
  cases sent : session.getRequest readConfig with
  | mk reply download =>
      cases reply with
      | error error => rfl
      | ok response =>
          simp only [bind, Except.bind]
          cases checked : throwIfReadConditionFailed session.path readConfig response with
          | error error => rfl
          | ok _ =>
              simp only
              split <;> rfl

/-- A full download brings bytes of the version of the handle it is made for. -/
theorem bytesOf_fileRequest {file : Block}
    (returns : fileRequest session readConfig = .ok file) : versions.BytesOf etag file := by
  rw [fileRequest_eq] at returns
  cases downloaded : (session.fullDownload readConfig).run {} with
  | mk reply after =>
      rw [downloaded] at returns
      cases returns
      rcases session.fullDownload_cases readConfig downloaded with
        ⟨cached, -⟩ | ⟨-, -, response, chunks, last, status, agrees, rfl⟩
      · cases cached
      · have answers := answered.last
          (prepareFullGetHeaders session.configuredHeaders readConfig)
        change versions.Answers (session.wholeFile readConfig) at answers
        rw [last] at answers
        exact answers.bytesOf checks nonempty (by omega) agrees

end Requests

end Versions

/-! ## Steps -/

namespace Opened

/-- The checks of `ETag`s are enabled. -/
def Checked (opened : Opened) : Prop :=
  opened.session.params.unsafeDisableEtagChecks = false

/-- Reads are checked against the `ETag` of the handle. -/
def Pinned (opened : Opened) : Prop :=
  Versions.Checks opened.handle.readConfig opened.handle.etag

theorem Checked.pinned {opened : Opened} (checked : opened.Checked) :
    opened.finalizeReadConfig.Pinned :=
  ⟨rfl, (congrArg not checked : (!opened.session.params.unsafeDisableEtagChecks) = !false)⟩

end Opened

/-- A handle that is opened is checked, and pinned once it is configured. -/
def Control.Sound : Control → Prop
  | .idle | .reading _ _ _ | .downloading (.reading _ _) _ => True
  | .opening opened (.initialized _) => opened.Checked ∧ opened.Pinned
  | .opening opened _ => opened.Checked
  | .downloading (.opening opened _) _ => opened.Checked ∧ opened.Pinned

/-- The ways in which `ReadAtWithFallback` returns. -/
theorem returns_cases {path : String} {length : Nat} {call : Cursor.Reading}
    {cachedFile : Option Block} {range : Except ErrorData (Option Block)} {stage : Cursor.Stage}
    {data : Block} {events : List Cursor.Event}
    (returns : Cursor.readAtWithFallback path length call cachedFile (Cursor.withRange range)
      stage = some (.returns data events)) :
    (∃ again file, stage = .lookup again ∧ cachedFile = some file ∧ data <:+: file) ∨
      data = [] ∨ range = .ok (some data) := by
  cases stage with
  | lookup again =>
      simp only [Cursor.readAtWithFallback] at returns
      split at returns
      · cases returns
      · split at returns
        · rename_i file
          split at returns
          · cases returns
          · cases returns
            have isPart : (file.drop call.location).take call.readSize <:+: file :=
              (List.take_prefix _ _).isInfix.trans (List.drop_suffix _ _).isInfix
            exact .inl ⟨again, file, rfl, rfl, isPart⟩
        · split at returns
          · cases returns
          · cases returns
            exact .inr (.inl rfl)
  | tryRangeRequest again =>
      simp only [Cursor.readAtWithFallback, Cursor.withRange] at returns
      split at returns
      · cases returns
      · split at returns
        · cases returns
          exact .inr (.inr rfl)
        · cases returns
      · split at returns
        · cases returns
        · cases returns
  | fullDownload =>
      simp only [Cursor.readAtWithFallback] at returns
      split at returns
      · cases returns
      · split at returns
        · cases returns
        · cases returns
  | compare file =>
      simp only [Cursor.readAtWithFallback] at returns
      split at returns
      · cases returns
      · cases returns

namespace Versions

variable {V : Type v} (versions : Versions V)

/-- What reads return is of the version of their handle. -/
def Consistent (handles : List Opened) (events : List Event) : Prop :=
  ∀ handle data, .read handle data ∈ events → ∃ opened, handles[handle]? = some opened ∧
    (opened.handle.etag ≠ "" → versions.BytesOf opened.handle.etag data)

theorem consistent_nil (handles : List Opened) : versions.Consistent handles [] :=
  nofun

/-- An event that is not a read that returns. -/
theorem consistent_singleton (handles : List Opened) {event : Event}
    (noRead : ∀ handle data, event ≠ .read handle data) : versions.Consistent handles [event] := by
  intro handle data member
  exact absurd (List.mem_singleton.mp member).symm (noRead handle data)

/-- What a step does: handles that are added are pinned, and a read returns what it
should. -/
structure Steps (before after : Shared) (control : Control) (events : List Event) : Prop where
  handles : ∃ more, after.handles = before.handles ++ more ∧ ∀ opened ∈ more, opened.Pinned
  control : control.Sound
  events : versions.Consistent before.handles events

theorem Steps.same {before after : Shared} {control : Control} {events : List Event}
    (handles : after.handles = before.handles) (sound : control.Sound)
    (consistent : versions.Consistent before.handles events) :
    versions.Steps before after control events :=
  ⟨⟨[], by rw [handles, List.append_nil], fun _ member => absurd member List.not_mem_nil⟩,
    sound, consistent⟩

section Steps

variable {shared after : Shared} {choice : Choice} {control : Control} {events : List Event}
  {notify : Bool}

theorem steps_of_quietly {changed : Shared} {there : Control}
    (advances : quietly changed there = some (.advance after control events notify))
    (handles : changed.handles = shared.handles) (sound : there.Sound) :
    versions.Steps shared after control events := by
  cases advances
  exact Steps.same versions handles sound (versions.consistent_nil _)

theorem steps_of_opening {opened : Opened} {stage : Opening}
    (sound : (Control.opening opened stage).Sound)
    (advances : openingStep opened shared choice stage =
      some (.advance after control events notify)) :
    versions.Steps shared after control events := by
  cases stage with
  | tryInitializeRead =>
      have checked : opened.Checked := sound
      simp only [openingStep] at advances
      split at advances
      · exact versions.steps_of_quietly advances rfl checked
      · split at advances
        · exact versions.steps_of_quietly advances rfl ⟨checked, checked.pinned⟩
        · split at advances
          · exact versions.steps_of_quietly advances rfl checked
          · exact versions.steps_of_quietly advances rfl checked
          · rename_i entry _
            have found : Opened.Checked { opened with
                handle := opened.handle.initializeFromCacheEntry entry } := checked
            exact versions.steps_of_quietly advances rfl ⟨checked, found.pinned⟩
  | loadFileInfo shouldWriteCache =>
      have checked : opened.Checked := sound
      simp only [openingStep] at advances
      split at advances
      · exact versions.steps_of_quietly advances rfl checked
      · exact versions.steps_of_quietly advances rfl checked
  | requestFileInfo shouldWriteCache =>
      have checked : opened.Checked := sound
      simp only [openingStep] at advances
      split at advances
      · cases advances
        exact Steps.same versions rfl trivial (versions.consistent_singleton _ nofun)
      · exact versions.steps_of_quietly advances rfl checked
  | finalize shouldWriteCache =>
      have checked : opened.Checked := sound
      have pinned : opened.finalizeReadConfig.Checked ∧ opened.finalizeReadConfig.Pinned :=
        ⟨checked, checked.pinned⟩
      simp only [openingStep] at advances
      split at advances
      · exact versions.steps_of_quietly advances rfl pinned
      · split at advances
        · exact versions.steps_of_quietly advances rfl pinned
        · split at advances
          · exact versions.steps_of_quietly advances rfl pinned
          · exact versions.steps_of_quietly advances rfl pinned
  | initialized erasesWhenWriting =>
      have pinned : opened.Pinned := sound.2
      cases advances
      constructor
      · exact ⟨[opened], rfl, fun other member => List.mem_singleton.mp member ▸ pinned⟩
      · trivial
      · exact versions.consistent_singleton _ nofun

theorem sound_resume {caller : Caller} {stage : Download}
    (sound : (Control.downloading caller stage).Sound) (file : Block) :
    (caller.resume file).Sound := by
  cases caller with
  | opening opened forced => exact sound
  | reading handle call => trivial

theorem steps_of_download {caller : Caller} {stage : Download}
    (sound : (Control.downloading caller stage).Sound)
    (advances : downloadStep caller shared choice stage =
      some (.advance after control events notify)) :
    versions.Steps shared after control events := by
  have stays : ∀ there, (Control.downloading caller there).Sound := by
    intro there
    cases caller with
    | opening opened forced => exact sound
    | reading handle call => trivial
  have failed : ∀ error, versions.Consistent shared.handles [caller.failed error] := by
    intro error
    cases caller with
    | opening opened forced => exact versions.consistent_singleton _ nofun
    | reading handle call => exact versions.consistent_singleton _ nofun
  cases stage with
  | lookup =>
      simp only [downloadStep] at advances
      split at advances
      · exact versions.steps_of_quietly advances rfl (sound_resume sound _)
      · exact versions.steps_of_quietly advances rfl (stays _)
  | starting =>
      simp only [downloadStep] at advances
      split at advances
      · cases advances
      · split at advances
        · exact versions.steps_of_quietly advances rfl (stays _)
        · exact versions.steps_of_quietly advances rfl (stays _)
  | requesting =>
      simp only [downloadStep] at advances
      split at advances
      · cases advances
      · split at advances
        · cases advances
          exact Steps.same versions rfl trivial (failed _)
        · cases advances
          exact Steps.same versions rfl (sound_resume sound _) (versions.consistent_nil _)

/-- A read that looks at the cached file finds none, or one of the version of its handle. -/
def FindsOwn (shared : Shared) : Control → Prop
  | .reading handle _ (.lookup _) => ∀ opened file, shared.handles[handle]? = some opened →
      opened.handle.etag ≠ "" → shared.cachedFile = some file →
      versions.BytesOf opened.handle.etag file
  | _ => True

theorem steps_of_reading (answered : versions.AnsweredBy choice.server)
    (pinned : ∀ opened ∈ shared.handles, opened.Pinned) {handle : Nat} {call : Cursor.Reading}
    {stage : Cursor.Stage} (findsOwn : versions.FindsOwn shared (.reading handle call stage))
    (advances : readingStep handle call shared choice stage =
      some (.advance after control events notify)) :
    versions.Steps shared after control events := by
  simp only [readingStep] at advances
  split at advances
  · cases advances
  · rename_i opened isOpened
    split at advances
    · cases advances
    · exact versions.steps_of_quietly advances rfl trivial
    · exact versions.steps_of_quietly advances rfl trivial
    · rename_i data _ returns
      cases advances
      refine Steps.same versions rfl trivial ?_
      intro other bytes member
      cases List.mem_singleton.mp member
      refine ⟨opened, isOpened, fun nonempty => ?_⟩
      rcases returns_cases returns with ⟨again, file, rfl, cached, isPart⟩ | rfl | brought
      · exact (findsOwn opened file isOpened nonempty cached).part isPart
      · exact .inl rfl
      · exact bytesOf_rangeRequest answered (pinned opened (List.mem_of_getElem? isOpened))
          nonempty brought
    · cases advances
      exact Steps.same versions rfl trivial (versions.consistent_singleton _ nofun)

end Steps

/-! ## Runs -/

/-- Checks of `ETag`s are enabled where a file is opened, and answers are about
versions. -/
structure Conforms (choice : Choice) : Prop where
  checked : ∀ session flags info, choice.operation = .openFile session flags info →
    session.params.unsafeDisableEtagChecks = false
  answered : versions.AnsweredBy choice.server

/-- What is open is pinned, what is being opened is sound, and reads kept to their
version. -/
structure Invariant {ι : Type u} (world : Monitor.World ι Shared Control Event) : Prop where
  pinned : ∀ opened ∈ world.shared.handles, opened.Pinned
  sound : ∀ thread, (world.control thread).Sound
  consistent : versions.Consistent world.shared.handles world.events

variable {versions}

theorem Consistent.append {handles more : List Opened} {events others : List Event}
    (consistent : versions.Consistent handles events) (rest : versions.Consistent handles others) :
    versions.Consistent (handles ++ more) (events ++ others) := by
  intro handle data member
  have one : ∃ opened, handles[handle]? = some opened ∧
      (opened.handle.etag ≠ "" → versions.BytesOf opened.handle.etag data) := by
    rcases List.mem_append.mp member with earlier | later
    · exact consistent handle data earlier
    · exact rest handle data later
  rcases one with ⟨opened, isOpened, bytesOf⟩
  have inside : handle < handles.length := (List.getElem?_eq_some_iff.mp isOpened).1
  exact ⟨opened, by rw [List.getElem?_append_left inside, isOpened], bytesOf⟩

theorem steps_of_operation {shared after : Shared} {choice : Choice} {control : Control}
    {events : List Event} {notify : Bool} (conforms : versions.Conforms choice)
    (advances : beginOperation shared choice.operation =
      some (.advance after control events notify)) :
    versions.Steps shared after control events := by
  cases isOperation : choice.operation with
  | openFile session flags info =>
      rw [isOperation] at advances
      exact versions.steps_of_quietly advances rfl (conforms.checked _ _ _ isOperation)
  | read handle readSize location =>
      rw [isOperation] at advances
      simp only [beginOperation] at advances
      split at advances
      · cases advances
      · rename_i isOpened
        split at advances
        · cases advances
          refine Steps.same versions rfl trivial ?_
          intro other data member
          cases List.mem_singleton.mp member
          exact ⟨_, List.getElem?_eq_getElem (Nat.not_le.mp isOpened), fun _ => .inl rfl⟩
        · exact versions.steps_of_quietly advances rfl trivial
  | invalidateCachedFile =>
      rw [isOperation] at advances
      exact versions.steps_of_quietly advances rfl trivial
  | changeMetadata entry =>
      rw [isOperation] at advances
      exact versions.steps_of_quietly advances rfl trivial

section Runs

variable {ι : Type u} {world : Monitor.World ι Shared Control Event} {thread : ι} {choice : Choice}

theorem steps_of_program {after : Shared} {control : Control} {events : List Event} {notify : Bool}
    (invariant : versions.Invariant world) (conforms : versions.Conforms choice)
    (findsOwn : versions.FindsOwn world.shared (world.control thread))
    (advances : program thread world.shared (world.control thread) choice =
      some (.advance after control events notify)) :
    versions.Steps world.shared after control events := by
  have sound := invariant.sound thread
  cases controlEq : world.control thread with
  | idle =>
      rw [controlEq] at advances
      exact steps_of_operation conforms advances
  | opening opened stage =>
      rw [controlEq] at advances sound
      exact versions.steps_of_opening sound advances
  | reading handle call stage =>
      rw [controlEq] at advances findsOwn
      exact versions.steps_of_reading conforms.answered invariant.pinned findsOwn advances
  | downloading caller stage =>
      rw [controlEq] at advances sound
      exact versions.steps_of_download sound advances

variable [DecidableEq ι]

theorem Invariant.step {next : Monitor.World ι Shared Control Event}
    (invariant : versions.Invariant world) (conforms : versions.Conforms choice)
    (findsOwn : versions.FindsOwn world.shared (world.control thread))
    (stepped : Monitor.step program world thread choice = some next) :
    versions.Invariant next := by
  obtain ⟨-, ⟨-, rfl⟩ | ⟨shared, control, events, notify, advances, rfl⟩⟩ := step_cases stepped
  · exact ⟨invariant.pinned, invariant.sound, invariant.consistent⟩
  · have steps := steps_of_program invariant conforms findsOwn advances
    rcases steps.handles with ⟨more, handlesEq, pinnedMore⟩
    have handlesAfter : (world.advance thread shared control events notify).shared.handles =
        world.shared.handles ++ more := handlesEq
    constructor
    · intro opened member
      rw [handlesAfter] at member
      rcases List.mem_append.mp member with before | added
      · exact invariant.pinned opened before
      · exact pinnedMore opened added
    · intro other
      by_cases same : other = thread
      · subst same
        simpa [Monitor.World.advance] using steps.control
      · simpa [Monitor.World.advance, same] using invariant.sound other
    · rw [handlesAfter, Monitor.World.events_advance]
      exact invariant.consistent.append steps.events

/-- Where no read finds a cached file of another version, each read that returns gives
bytes of the version of its handle. -/
theorem reads_consistent (metadataCache : Option (Option HTTPMetadataCacheEntry))
    (run : RunChoosing program
      (fun world thread choice => versions.Conforms choice ∧
        versions.FindsOwn world.shared (world.control thread))
      (.initial { metadataCache } .idle) world) :
    versions.Consistent world.shared.handles world.events := by
  have start : versions.Invariant (ι := ι) (.initial { metadataCache } .idle) :=
    ⟨fun _ member => absurd member List.not_mem_nil, fun _ => trivial, versions.consistent_nil _⟩
  have invariant := RunChoosing.invariant
    (fun world next thread choice invariant admitted stepped =>
      Invariant.step invariant admitted.1 admitted.2 stepped) run start
  exact invariant.consistent

end Runs

end Versions

/-! ## A file that changes between two openings -/

namespace Example

/-- Two versions of two bytes each. -/
def twoVersions : Versions Bool where
  etag version := if version then "\"2\"" else "\"1\""
  content version := if version then [3, 4] else [1, 2]
  strong := by decide
  own := by decide

/-- A server at one version, which may tell the size. -/
def serverAt (version tellsSize : Bool) : Server where
  head _ := .ok ⟨200, "", ("ETag", twoVersions.etag version) ::
    if tellsSize then [("Content-Length", "2")] else [], ""⟩
  get _ := ⟨[], .answered ⟨200, "", [("ETag", twoVersions.etag version)], ""⟩
    [twoVersions.content version]⟩

/-- A file is opened. -/
def opens (version tellsSize : Bool) : Choice where
  operation := .openFile ⟨.plain, serverAt version tellsSize, "http://host/file", {}, []⟩ {} none
  server := serverAt version tellsSize

/-- The first handle reads its two bytes. -/
def reads : Choice where
  operation := .read 0 2 0
  server := serverAt false true

/-- A handle is opened that learns the size; then one that does not, and so downloads
the file; then the first one is read. -/
def schedule (version : Bool) : List (Unit × Choice) :=
  List.replicate 6 ((), opens false true) ++ (List.replicate 9 ((), opens version false) ++
    List.replicate 2 ((), reads))

theorem answeredBy_serverAt (version tellsSize : Bool) :
    twoVersions.AnsweredBy (serverAt version tellsSize) := by
  constructor
  · rintro headers response isResponse -
    cases isResponse
    refine ⟨version, ?_⟩
    cases version <;> cases tellsSize <;> decide +kernel
  · intro headers attempt member
    exact absurd member List.not_mem_nil
  · intro headers
    have body : [twoVersions.content version].flatten <:+: twoVersions.content version := by
      rw [List.flatten_cons, List.flatten_nil, List.append_nil]
    refine .carries version _ _ (show 200 < 300 by decide) ?_ body
    cases version <;> decide +kernel

theorem conforms_of_mem {version : Bool} {scheduled : Unit × Choice}
    (member : scheduled ∈ schedule version) : twoVersions.Conforms scheduled.2 := by
  have opening : ∀ version tellsSize, twoVersions.Conforms (opens version tellsSize) := by
    intro version tellsSize
    constructor
    · intro session flags info isOperation
      cases isOperation
      rfl
    · exact answeredBy_serverAt version tellsSize
  rcases List.mem_append.mp member with first | rest
  · rw [List.eq_of_mem_replicate first]
    exact opening false true
  · rcases List.mem_append.mp rest with second | last
    · rw [List.eq_of_mem_replicate second]
      exact opening version false
    · rw [List.eq_of_mem_replicate last]
      constructor
      · intro session flags info isOperation
        cases isOperation
      · exact answeredBy_serverAt false true

def start : Monitor.World Unit Shared Control Event :=
  .initial {} .idle

/-- The cached file and all handles are of the first version. -/
def OneVersion (shared : Shared) : Prop :=
  (∀ opened ∈ shared.handles, opened.handle.etag = "\"1\"") ∧
    ∀ file ∈ shared.cachedFile, file = [1, 2]

instance (shared : Shared) : Decidable (OneVersion shared) :=
  inferInstanceAs (Decidable (_ ∧ _))

theorem findsOwn_of_oneVersion {shared : Shared} (oneVersion : OneVersion shared)
    (control : Control) : twoVersions.FindsOwn shared control := by
  unfold Versions.FindsOwn
  split
  · intro opened file isOpened _ cached
    have known : opened.handle.etag = "\"1\"" :=
      oneVersion.1 opened (List.mem_of_getElem? isOpened)
    have isFile : file = [1, 2] := oneVersion.2 file cached
    have named : twoVersions.Named "\"1\"" false := rfl
    rw [known, isFile]
    exact .inr ⟨false, named, List.infix_rfl⟩
  · trivial

/-- Both handles have one version: the first is read from the file that the second
downloaded. -/
theorem reads_consistent_sameVersion :
    let world := play program start (schedule false)
    .read 0 [1, 2] ∈ world.events ∧
      twoVersions.Consistent world.shared.handles world.events := by
  intro world
  refine ⟨by decide +kernel, Versions.reads_consistent none (runChoosing_play _ _ _ ?_)⟩
  intro before scheduled after split
  have member : scheduled ∈ schedule false :=
    split ▸ List.mem_append_right before List.mem_cons_self
  have inside : before.length < 17 := by
    have size : (schedule false).length = 17 := rfl
    rw [← size, split, List.length_append, List.length_cons]
    omega
  have taken : before = (schedule false).take before.length := by
    rw [split, List.take_left]
  have oneVersion : ∀ index < 17,
      OneVersion (play program start ((schedule false).take index)).shared := by
    decide +kernel
  refine ⟨conforms_of_mem member, findsOwn_of_oneVersion ?_ _⟩
  have before' := oneVersion before.length inside
  rwa [← taken] at before'

/-- The second handle has a newer version, and the first one is given its bytes. -/
theorem reads_ofOtherVersion :
    ∃ world, RunChoosing program (fun _ _ choice => twoVersions.Conforms choice) start world ∧
      .read 0 [3, 4] ∈ world.events ∧
      ¬ twoVersions.Consistent world.shared.handles world.events := by
  have known : (play program start (schedule true)).shared.handles.map
      (fun opened => opened.handle.etag) = ["\"1\"", "\"2\""] := by
    decide +kernel
  have given : .read 0 [3, 4] ∈ (play program start (schedule true)).events := by
    decide +kernel
  refine ⟨play program start (schedule true), runChoosing_play _ _ _ ?_, given, ?_⟩
  · intro before scheduled after split
    exact conforms_of_mem (split ▸ List.mem_append_right before List.mem_cons_self)
  · intro consistent
    rcases consistent 0 [3, 4] given with ⟨opened, isOpened, bytesOf⟩
    have etag : opened.handle.etag = "\"1\"" := by
      have first := congrArg (fun etags => etags[0]?) known
      simp only [List.getElem?_map, isOpened, Option.map_some] at first
      exact Option.some.inj first
    rw [etag] at bytesOf
    rcases bytesOf (by decide) with empty | ⟨version, named, within⟩
    · cases empty
    · have isFirst : version = false := twoVersions.named_unique named rfl
      rw [isFirst] at within
      exact absurd within (by decide)

end Example

end Httpfs.Http.File.Sharing
