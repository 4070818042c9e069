import Httpfs.Http.File.ReadExact
import Httpfs.Transition.Guarded
import Httpfs.Transition.Monitor

/-!
# The cursor of a handle

Sequential reads, seeks and positions take the mutex of the cursor.  A sequential read
keeps it until the server has answered, also where it falls back to the whole file.  A
positional read shares nothing with it but the file that is cached for the path, which
other handles change as well.  What the server brings is the choice of the environment.
-/

namespace Httpfs.Http.File.Cursor

open FullDownload
open Httpfs.Transition
open Httpfs.Transition.Monitor

universe u

/-! ## State -/

/-- What the threads share. -/
structure HandleState (ι : Type u) where
  fileOffset : Nat
  cursorMutex : Option ι := none
  cachedFile : Option Block := none

/-- The calls on a handle, and what other handles do to the cached file. -/
inductive Operation
  | read (nrBytes : Nat)
  | readAt (nrBytes location : Nat)
  | seek (location : Nat)
  | seekPosition
  | publish (file : Block)
  | invalidateCachedFile

inductive Reader
  | sequential (nrBytes : Nat)
  | positional

/-- A call of `ReadAtWithFallback`. -/
structure Reading where
  reader : Reader
  readSize : Nat
  location : Nat

/-- The place in `ReadAtWithFallback`; `again` behind the full download. -/
inductive Stage
  | lookup (again : Bool)
  | tryRangeRequest (again : Bool)
  | fullDownload
  | compare (file : Block)

inductive Control
  | idle
  | reading (call : Reading) (stage : Stage)

/-- What the environment chooses: the next call of a thread that is idle, the result of
a range request with the bytes in the buffer, and the result of a full download. -/
structure Choice where
  operation : Operation
  range : Except ErrorData (Option Block)
  file : Except ErrorData Block

inductive Event
  | ranged (location : Nat) (bytes : Block)
  | brought (file : Block)
  | read (location nrBytes result : Nat) (data : Block)
  | readFailed (error : ErrorData)
  | readAt (location : Nat) (data : Block)
  | readAtFailed (error : ErrorData)
  | sought (location : Nat)
  | position (location : Nat)

/-! ## Steps -/

/-- What a step of `ReadAtWithFallback` leads to. -/
inductive Progress
  | continues (stage : Stage) (cachedFile : Option Block) (events : List Event)
  | returns (data : Block) (events : List Event)
  | throws (error : ErrorData) (cachedFile : Option Block)

def rangeOverflow (path : String) : ErrorData :=
  .io ("HTTP read range overflow for file \"" ++ path ++ "\"")

def cachedFileTooShort : ErrorData :=
  .io ("Cached file length can't satisfy the requested Read. You can try to " ++
    "resolve this by enabling `SET force_download=true`")

def lengthMismatch (path : String) (length downloaded : Nat) : ErrorData :=
  .http ("The size reported by HEAD for '" ++ path ++ "' was " ++
    toString length ++ " bytes, but the full GET downloaded " ++ toString downloaded ++
    " bytes. You can try to resolve this by enabling `SET force_download=true`")

def retryFailed : ErrorData :=
  .http "Failed to read from HTTP file after automatically retrying a full file download."

/-- `ReadAtWithFallback`, from one look at the cached file or answer to the next. -/
def readAtWithFallback (path : String) (length : Nat) (call : Reading) (cachedFile : Option Block)
    (choice : Choice) : Stage → Option Progress
  | .lookup again =>
      if Word64.modulus - 1 - call.location < call.readSize then
        some (.throws (rangeOverflow path) cachedFile)
      else
        match cachedFile with
        | some file =>
            if file.length < call.location + call.readSize then
              some (.throws cachedFileTooShort cachedFile)
            else some (.returns ((file.drop call.location).take call.readSize) [])
        | none =>
            if 0 < call.readSize then some (.continues (.tryRangeRequest again) none [])
            else some (.returns [] [])
  | .tryRangeRequest again =>
      match choice.range with
      | .error error => some (.throws error cachedFile)
      | .ok (some bytes) =>
          if bytes.length = call.readSize then
            some (.returns bytes [.ranged call.location bytes])
          else none
      | .ok none =>
          if again then some (.throws retryFailed cachedFile)
          else some (.continues .fullDownload cachedFile [])
  | .fullDownload =>
      match cachedFile with
      | some file => some (.continues (.compare file) cachedFile [])
      | none =>
          match choice.file with
          | .error error => some (.throws error none)
          | .ok file => some (.continues (.compare file) (some file) [.brought file])
  | .compare file =>
      if file.length ≠ length then some (.throws (lengthMismatch path length file.length) none)
      else some (.continues (.lookup true) cachedFile [])

section

variable {ι : Type u}

/-- A read returns: a sequential one moves the cursor and gives the mutex back. -/
def Reading.returned (call : Reading) (state : HandleState ι) (data : Block) :
    HandleState ι × Event :=
  match call.reader with
  | .sequential nrBytes =>
      ({ state with fileOffset := state.fileOffset + call.readSize, cursorMutex := none },
        .read call.location nrBytes call.readSize data)
  | .positional => (state, .readAt call.location data)

def Reading.threw (call : Reading) (state : HandleState ι) (error : ErrorData) :
    HandleState ι × Event :=
  match call.reader with
  | .sequential _ => ({ state with cursorMutex := none }, .readFailed error)
  | .positional => (state, .readAtFailed error)

abbrev StepResult (ι : Type u) := Option (Outcome (HandleState ι) Control Event)

def quietly (state : HandleState ι) (control : Control) (events : List Event) : StepResult ι :=
  some (.advance state control events false)

/-- The start of a call; nothing happens while another thread has the mutex. -/
def beginOperation (length : Nat) (thread : ι) (state : HandleState ι) :
    Operation → StepResult ι
  | .read nrBytes =>
      if state.cursorMutex.isSome then none
      else if nrBytes = 0 ∨ length ≤ state.fileOffset then
        quietly state .idle [.read state.fileOffset nrBytes 0 []]
      else
        quietly { state with cursorMutex := some thread }
          (.reading ⟨.sequential nrBytes, min (length - state.fileOffset) nrBytes,
            state.fileOffset⟩ (.lookup false)) []
  | .readAt nrBytes location =>
      if nrBytes = 0 then quietly state .idle [.readAt location []]
      else quietly state (.reading ⟨.positional, nrBytes, location⟩ (.lookup false)) []
  | .seek location =>
      if state.cursorMutex.isSome then none
      else quietly { state with fileOffset := location } .idle [.sought location]
  | .seekPosition =>
      if state.cursorMutex.isSome then none
      else quietly state .idle [.position state.fileOffset]
  | .publish file => quietly { state with cachedFile := some file } .idle [.brought file]
  | .invalidateCachedFile => quietly { state with cachedFile := none } .idle []

/-- The threads of a handle of some length. -/
def program (path : String) (length : Nat) : Program ι (HandleState ι) Control Choice Event :=
  fun thread state control choice =>
    match control with
    | .idle => beginOperation length thread state choice.operation
    | .reading call stage =>
        match readAtWithFallback path length call state.cachedFile choice stage with
        | none => none
        | some (.continues stage cachedFile events) =>
            quietly { state with cachedFile } (.reading call stage) events
        | some (.returns data events) =>
            quietly (call.returned state data).1 .idle (events ++ [(call.returned state data).2])
        | some (.throws error cachedFile) =>
            quietly (call.threw { state with cachedFile } error).1 .idle
              [(call.threw { state with cachedFile } error).2]

end

/-! ## A call without other threads -/

/-- What `ReadAtWithFallback` comes to where no other thread changes the cached file. -/
inductive Alone (path : String) (length : Nat) (call : Reading) :
    Stage → Option Block → Except ErrorData Block → Option Block → Prop
  | returns {stage : Stage} {cachedFile : Option Block} {choice : Choice} {data : Block}
      {events : List Event}
      (goes : readAtWithFallback path length call cachedFile choice stage =
        some (.returns data events)) :
      Alone path length call stage cachedFile (.ok data) cachedFile
  | throws {stage : Stage} {cachedFile after : Option Block} {choice : Choice} {error : ErrorData}
      (goes : readAtWithFallback path length call cachedFile choice stage =
        some (.throws error after)) :
      Alone path length call stage cachedFile (.error error) after
  | continues {stage there : Stage} {cachedFile between after : Option Block} {choice : Choice}
      {reply : Except ErrorData Block} {events : List Event}
      (goes : readAtWithFallback path length call cachedFile choice stage =
        some (.continues there between events))
      (rest : Alone path length call there between reply after) :
      Alone path length call stage cachedFile reply after

def withRange (range : Except ErrorData (Option Block)) : Choice :=
  ⟨.seekPosition, range, .error retryFailed⟩

def withFile (file : Except ErrorData Block) : Choice :=
  ⟨.seekPosition, .ok none, file⟩

/-- The bytes in a buffer. -/
def bufferOf (world : File.World) (buffer readSize : Nat) : Block :=
  (world.memory.drop buffer).take readSize

theorem bufferOf_memcpy {target source : Block} {offset : Nat} (within : offset ≤ target.length) :
    ((memcpy target offset source).drop offset).take source.length = source := by
  have front : (target.take offset).length = offset := by
    rw [List.length_take]
    omega
  have behind : (memcpy target offset source).drop offset =
      source ++ target.drop (offset + source.length) := by
    rw [memcpy, List.append_assoc, List.drop_append_of_le_length (Nat.le_of_eq front.symm),
      List.drop_eq_nil_of_le (Nat.le_of_eq front), List.nil_append]
  rw [behind, List.take_left]

section

variable {session : Session} {readConfig : HTTPReadConfig} {length buffer readSize location : Nat}
  {reader : Reader} (positive : 0 < readSize) {world : File.World}
  (inBuffer : buffer + readSize ≤ world.memory.length)

include positive inBuffer

/-- What a first or second look at the file gives. -/
theorem alone_of_readAt (again : Bool) {after : File.World} {reply : Except ErrorData Bool}
    (reads : (session.readAt readConfig buffer readSize location).run world = (reply, after)) :
    match reply with
    | .ok true => Alone session.path length ⟨reader, readSize, location⟩ (.lookup again)
        world.fileState.cachedFile (.ok (bufferOf after buffer readSize)) after.fileState.cachedFile
    | .error error => Alone session.path length ⟨reader, readSize, location⟩ (.lookup again)
        world.fileState.cachedFile (.error error) after.fileState.cachedFile
    | .ok false => world.fileState.cachedFile = none ∧ after.fileState.cachedFile = none ∧
        readAtWithFallback session.path length ⟨reader, readSize, location⟩ none
          (withRange (.ok none)) (.lookup again) =
            some (.continues (.tryRangeRequest again) none []) := by
  by_cases overflows : Word64.modulus - 1 - location < readSize
  · simp only [Session.readAt, Action.run_throw, if_pos overflows] at reads
    cases reads
    have goes : readAtWithFallback session.path length ⟨reader, readSize, location⟩
        world.fileState.cachedFile (withRange (.ok none)) (.lookup again) =
          some (.throws (rangeOverflow session.path) world.fileState.cachedFile) := by
      simp only [readAtWithFallback, if_pos overflows]
    exact .throws goes
  · cases cached : world.fileState.cachedFile with
    | some file =>
        simp only [Session.readAt, Action.run_ite, Action.run_throw, Action.run_bind,
          Action.run_get, cached, Action.run_modify, Action.run_pure, if_pos positive,
          if_neg overflows] at reads
        have looks : readAtWithFallback session.path length ⟨reader, readSize, location⟩
            (some file) (withRange (.ok none)) (.lookup again) =
              if file.length < location + readSize then
                some (.throws cachedFileTooShort (some file))
              else some (.returns ((file.drop location).take readSize) []) := by
          simp only [readAtWithFallback, if_neg overflows]
        split at reads
        · rename_i short
          cases reads
          rw [if_pos short] at looks
          rw [cached]
          exact .throws looks
        · rename_i fits
          cases reads
          rw [if_neg fits] at looks
          have size : ((file.drop location).take readSize).length = readSize := by
            rw [List.length_take, List.length_drop]
            omega
          have bytes : bufferOf { world with
              memory := memcpy world.memory buffer ((file.drop location).take readSize) } buffer
              readSize = (file.drop location).take readSize := by
            have copied := @bufferOf_memcpy world.memory ((file.drop location).take readSize) buffer
              (by omega)
            rw [size] at copied
            exact copied
          change Alone _ _ _ _ _ (.ok (bufferOf { world with
            memory := memcpy world.memory buffer ((file.drop location).take readSize) } buffer
            readSize)) world.fileState.cachedFile
          rw [bytes, cached]
          exact .returns looks
    | none =>
        rw [session.readAt_of_uncached readConfig positive overflows cached] at reads
        have uncached := tryRangeRequest_cachedFile session readConfig
          ⟨location, some buffer, readSize⟩ world
        rw [reads, cached] at uncached
        dsimp only at uncached
        have looks : ∀ choice, readAtWithFallback session.path length
            ⟨reader, readSize, location⟩ none choice (.lookup again) =
              some (.continues (.tryRangeRequest again) none []) := by
          intro choice
          simp only [readAtWithFallback, if_neg overflows, if_pos positive]
        cases reply with
        | error error =>
            dsimp only
            rw [uncached]
            have goes : readAtWithFallback session.path length ⟨reader, readSize, location⟩ none
                (withRange (.error error)) (.tryRangeRequest again) =
                  some (.throws error none) := rfl
            exact .continues (looks (withRange (.ok none))) (.throws goes)
        | ok answered =>
            cases answered with
            | false => exact ⟨rfl, uncached, looks _⟩
            | true =>
                have framed := session.tryRangeRequest_framed readConfig inBuffer location world
                  (.refl _)
                rw [reads] at framed
                have size : (bufferOf after buffer readSize).length = readSize := by
                  have same : after.memory.length = world.memory.length := framed.size
                  rw [bufferOf, List.length_take, List.length_drop]
                  omega
                have goes : readAtWithFallback session.path length
                    ⟨reader, readSize, location⟩ none
                    (withRange (.ok (some (bufferOf after buffer readSize))))
                    (.tryRangeRequest again) =
                      some (.returns (bufferOf after buffer readSize)
                        [.ranged location (bufferOf after buffer readSize)]) := by
                  simp only [readAtWithFallback, withRange, if_pos size]
                dsimp only
                rw [uncached]
                exact .continues (looks (withRange (.ok none))) (.returns goes)

omit positive inBuffer in
theorem fullDownload_outcome (uncached : world.fileState.cachedFile = none) :
    (∃ error, (session.fullDownload readConfig).run world = (.error error, world)) ∨
      ∃ file, (session.fullDownload readConfig).run world =
        (.ok file, { world with fileState.cachedFile := some file }) := by
  rw [session.fullDownload_of_uncached readConfig uncached]
  split
  · exact .inl ⟨_, rfl⟩
  · split
    · exact .inl ⟨_, rfl⟩
    · split
      · exact .inl ⟨_, rfl⟩
      · exact .inr ⟨_, rfl⟩

/-- Alone, `ReadAtWithFallback` takes the steps of a thread. -/
theorem alone_of_readAtWithFallback {reply : Except ErrorData Unit} {after : File.World}
    (reads : (session.readAtWithFallback readConfig length buffer readSize location).run world =
      (reply, after)) :
    Alone session.path length ⟨reader, readSize, location⟩ (.lookup false)
      world.fileState.cachedFile (reply.map fun _ => bufferOf after buffer readSize)
      after.fileState.cachedFile := by
  rw [Session.readAtWithFallback] at reads
  cases firstEq : (session.readAt readConfig buffer readSize location).run world with
  | mk first between =>
      have look := @alone_of_readAt session readConfig length _ _ _ reader positive _ inBuffer
        false _ _ firstEq
      cases first with
      | error error =>
          rw [Action.run_bind_of_error firstEq] at reads
          cases reads
          exact look
      | ok answered =>
          rw [Action.run_bind_of_ok firstEq] at reads
          cases answered with
          | true =>
              cases reads
              exact look
          | false =>
              obtain ⟨uncached, stillUncached, looks⟩ := look
              have declines : readAtWithFallback session.path length
                  ⟨reader, readSize, location⟩ none (withRange (.ok none))
                  (.tryRangeRequest false) = some (.continues .fullDownload none []) := rfl
              rw [uncached]
              refine .continues looks (.continues declines ?_)
              rw [if_neg Bool.false_ne_true] at reads
              rcases @fullDownload_outcome session readConfig _ stillUncached with
                ⟨error, downloads⟩ | ⟨file, downloads⟩
              · rw [Action.run_bind_of_error downloads] at reads
                cases reads
                have goes : readAtWithFallback session.path length
                    ⟨reader, readSize, location⟩ none (withFile (.error error)) .fullDownload =
                      some (.throws error none) := rfl
                rw [stillUncached]
                exact .throws goes
              · rw [Action.run_bind_of_ok downloads] at reads
                have goes : readAtWithFallback session.path length
                    ⟨reader, readSize, location⟩ none (withFile (.ok file)) .fullDownload =
                      some (.continues (.compare file) (some file) [.brought file]) := rfl
                refine .continues goes ?_
                have framed := session.readAt_framed readConfig inBuffer location world (.refl _)
                rw [firstEq] at framed
                have inBufferStill : buffer + readSize ≤ between.memory.length := by
                  rw [framed.size]
                  exact inBuffer
                by_cases other : file.length ≠ length
                · rw [if_pos other] at reads
                  cases reads
                  have fails : readAtWithFallback session.path length
                      ⟨reader, readSize, location⟩ (some file) (withRange (.ok none))
                      (.compare file) =
                        some (.throws (lengthMismatch session.path length file.length) none) := by
                    simp only [readAtWithFallback, if_pos other]
                  exact .throws fails
                · have retries : readAtWithFallback session.path length
                      ⟨reader, readSize, location⟩ (some file) (withRange (.ok none))
                      (.compare file) = some (.continues (.lookup true) (some file) []) := by
                    simp only [readAtWithFallback, if_neg other]
                  refine .continues retries ?_
                  rw [if_neg other] at reads
                  cases secondEq : (session.readAt readConfig buffer readSize location).run
                      { between with fileState.cachedFile := some file } with
                  | mk second final =>
                      have lookAgain := @alone_of_readAt session readConfig length _ _ _ reader
                        positive { between with fileState.cachedFile := some file } inBufferStill
                        true _ _ secondEq
                      cases second with
                      | error error =>
                          rw [Action.run_bind_of_error secondEq] at reads
                          cases reads
                          exact lookAgain
                      | ok answered =>
                          rw [Action.run_bind_of_ok secondEq] at reads
                          cases answered with
                          | true =>
                              cases reads
                              exact lookAgain
                          | false => exact absurd lookAgain.1 (by simp)

end

section

variable {ι : Type u}

/-! ## What the calls mean -/

/-- Only seeks and sequential reads that return move the cursor. -/
def Event.cursor (cursor : Nat) : Event → Nat
  | .sought location => location
  | .read _ _ result _ => cursor + result
  | _ => cursor

def cursorAfter (start : Nat) (events : List Event) : Nat :=
  events.foldl Event.cursor start

/-- The file was cached at the start, or some handle brought it. -/
def Known (cachedFile : Option Block) (before : List Event) (file : Block) : Prop :=
  cachedFile = some file ∨ .brought file ∈ before

/-- Bytes from a range request or from a file that was cached. -/
def Given (cachedFile : Option Block) (before : List Event) (location : Nat) (data : Block) :
    Prop :=
  data = [] ∨ .ranged location data ∈ before ∨
    ∃ file, Known cachedFile before file ∧ location + data.length ≤ file.length ∧
      data = (file.drop location).take data.length

/-- A sequential read starts at the cursor and reads up to the end of the file. -/
def Obeys (length start : Nat) (cachedFile : Option Block) (before : List Event) : Event → Prop
  | .read location nrBytes result data =>
      location = cursorAfter start before ∧ result = min nrBytes (length - location) ∧
        data.length = result ∧ Given cachedFile before location data
  | .position location => location = cursorAfter start before
  | _ => True

/-- The locations a sequential read returns. -/
def Event.locations : Event → List Nat
  | .read location _ result _ => List.range' location result
  | _ => []

def Event.data : Event → Block
  | .read _ _ _ data => data
  | _ => []

/-- All the server brought is part of an object. -/
structure BroughtFrom (object : Block) (cachedFile : Option Block) (events : List Event) :
    Prop where
  files : ∀ file, Known cachedFile events file → CutOrOverrun object file
  ranges : ∀ location bytes, .ranged location bytes ∈ events →
    bytes = (object.drop location).take bytes.length

/-! ## What a step does -/

/-- An event that does not tell about the cursor. -/
def Event.Quiet : Event → Prop
  | .read _ _ _ _ | .sought _ | .position _ => False
  | _ => True

/-- A cached file was cached before, or is brought. -/
structure Brings (before after : Option Block) (events : List Event) : Prop where
  quiet : ∀ event ∈ events, event.Quiet
  known : ∀ file, after = some file → before = some file ∨ .brought file ∈ events

theorem Brings.same (cachedFile : Option Block) : Brings cachedFile cachedFile [] :=
  ⟨fun _ member => absurd member List.not_mem_nil, fun _ => .inl⟩

theorem Brings.none (before : Option Block) : Brings before none [] :=
  ⟨fun _ member => absurd member List.not_mem_nil, nofun⟩

theorem Brings.file (before : Option Block) (file : Block) :
    Brings before (some file) [.brought file] := by
  constructor
  · rintro event member
    obtain rfl := List.mem_singleton.mp member
    trivial
  · rintro _ ⟨⟩
    exact .inr List.mem_cons_self

def Control.Beside : Control → Prop
  | .idle => True
  | .reading call _ => call.reader = .positional

inductive Moves (length : Nat) (thread : ι) (state : HandleState ι) :
    Control → HandleState ι → Control → List Event → Prop
  | atEnd {nrBytes : Nat} (nothing : nrBytes = 0 ∨ length ≤ state.fileOffset) :
      Moves length thread state .idle state .idle [.read state.fileOffset nrBytes 0 []]
  | begins {nrBytes : Nat} (free : state.cursorMutex = none) :
      Moves length thread state .idle { state with cursorMutex := some thread }
        (.reading ⟨.sequential nrBytes, min (length - state.fileOffset) nrBytes,
          state.fileOffset⟩ (.lookup false)) []
  | seeks {location : Nat} (free : state.cursorMutex = none) :
      Moves length thread state .idle { state with fileOffset := location } .idle
        [.sought location]
  | tells : Moves length thread state .idle state .idle [.position state.fileOffset]
  | beside {control : Control} {cachedFile : Option Block} {events : List Event}
      (positional : control.Beside) (brings : Brings state.cachedFile cachedFile events) :
      Moves length thread state .idle { state with cachedFile } control events
  | continues {call : Reading} {stage next : Stage} {cachedFile : Option Block}
      {events : List Event} (brings : Brings state.cachedFile cachedFile events) :
      Moves length thread state (.reading call stage) { state with cachedFile }
        (.reading call next) events
  | returns {call : Reading} {stage : Stage} {data : Block} {events : List Event}
      (quiet : ∀ event ∈ events, event.Quiet) (filled : data.length = call.readSize)
      (given : data = [] ∨ .ranged call.location data ∈ events ∨
        ∃ file, state.cachedFile = some file ∧ call.location + data.length ≤ file.length ∧
          data = (file.drop call.location).take data.length) :
      Moves length thread state (.reading call stage) (call.returned state data).1 .idle
        (events ++ [(call.returned state data).2])
  | throws {call : Reading} {stage : Stage} {error : ErrorData} {cachedFile : Option Block}
      (brings : Brings state.cachedFile cachedFile []) :
      Moves length thread state (.reading call stage)
        (call.threw { state with cachedFile } error).1 .idle
        [(call.threw { state with cachedFile } error).2]

section

variable {path : String} {length : Nat} {thread : ι} {state next : HandleState ι}
  {here : Control} {choice : Choice} {events : List Event} {notify : Bool}

theorem moves_of_beginOperation {operation : Operation}
    (begins : beginOperation length thread state operation =
      some (.advance next here events notify)) :
    Moves length thread state .idle next here events := by
  cases operation with
  | read nrBytes =>
      rw [beginOperation] at begins
      split at begins
      · contradiction
      · rename_i free
        split at begins
        · rename_i nothing
          cases begins
          exact .atEnd nothing
        · cases begins
          exact .begins (by simpa using free)
  | readAt nrBytes location =>
      rw [beginOperation] at begins
      split at begins
      · cases begins
        refine .beside trivial ⟨?_, fun _ => .inl⟩
        intro event member
        obtain rfl := List.mem_singleton.mp member
        trivial
      · cases begins
        exact .beside rfl (.same _)
  | seek location =>
      rw [beginOperation] at begins
      split at begins
      · contradiction
      · rename_i free
        cases begins
        exact .seeks (by simpa using free)
  | seekPosition =>
      rw [beginOperation] at begins
      split at begins
      · contradiction
      · cases begins
        exact .tells
  | publish file =>
      cases begins
      exact .beside trivial (.file _ file)
  | invalidateCachedFile =>
      cases begins
      exact .beside trivial (.none _)

/-- What a step of `ReadAtWithFallback` may lead to. -/
def Progress.Sound (call : Reading) (cachedFile : Option Block) : Progress → Prop
  | .continues _ after events => Brings cachedFile after events
  | .returns data events => (∀ event ∈ events, event.Quiet) ∧ data.length = call.readSize ∧
      (data = [] ∨ .ranged call.location data ∈ events ∨
        ∃ file, cachedFile = some file ∧ call.location + data.length ≤ file.length ∧
          data = (file.drop call.location).take data.length)
  | .throws _ after => Brings cachedFile after []

theorem readAtWithFallback_sound {call : Reading} {cachedFile : Option Block} {stage : Stage}
    {progress : Progress}
    (goes : readAtWithFallback path length call cachedFile choice stage = some progress) :
    progress.Sound call cachedFile := by
  cases stage with
  | lookup again =>
      simp only [readAtWithFallback] at goes
      split at goes
      · cases goes
        exact .same cachedFile
      · split at goes
        · rename_i file
          split at goes
          · cases goes
            exact .same _
          · rename_i fits
            cases goes
            have filled : ((file.drop call.location).take call.readSize).length =
                call.readSize := by
              rw [List.length_take, List.length_drop]
              omega
            refine ⟨fun _ member => absurd member List.not_mem_nil, filled, .inr (.inr ?_)⟩
            rw [filled]
            exact ⟨file, rfl, Nat.le_of_not_lt fits, rfl⟩
        · split at goes
          · cases goes
            exact .same none
          · rename_i empty
            cases goes
            exact ⟨fun _ member => absurd member List.not_mem_nil,
              (Nat.eq_zero_of_not_pos empty).symm, .inl rfl⟩
  | tryRangeRequest again =>
      simp only [readAtWithFallback] at goes
      split at goes
      · cases goes
        exact .same cachedFile
      · split at goes
        · rename_i filled
          cases goes
          refine ⟨?_, filled, .inr (.inl List.mem_cons_self)⟩
          intro event member
          obtain rfl := List.mem_singleton.mp member
          trivial
        · cases goes
      · split at goes
        · cases goes
          exact .same cachedFile
        · cases goes
          exact .same cachedFile
  | fullDownload =>
      simp only [readAtWithFallback] at goes
      split at goes
      · cases goes
        exact .same _
      · split at goes
        · cases goes
          exact .none _
        · cases goes
          exact .file _ _
  | compare file =>
      simp only [readAtWithFallback] at goes
      split at goes
      · cases goes
        exact .none cachedFile
      · cases goes
        exact .same cachedFile

/-- All that a step can do. -/
theorem moves_of_program {control : Control}
    (advances : program path length thread state control choice =
      some (.advance next here events notify)) :
    Moves length thread state control next here events := by
  cases control with
  | idle => exact moves_of_beginOperation advances
  | reading call stage =>
      rw [program] at advances
      split at advances
      · cases advances
      · rename_i continues
        cases advances
        exact .continues (readAtWithFallback_sound continues)
      · rename_i returns
        cases advances
        obtain ⟨quiet, filled, given⟩ := readAtWithFallback_sound returns
        exact .returns quiet filled given
      · rename_i throws
        cases advances
        exact .throws (readAtWithFallback_sound throws)

theorem program_ne_wait (control : Control) :
    program path length thread state control choice ≠ some .wait := by
  intro waits
  cases control with
  | idle =>
      change beginOperation length thread state choice.operation = some .wait at waits
      generalize choice.operation = operation at waits
      cases operation with
      | read nrBytes =>
          rw [beginOperation] at waits
          split at waits
          · cases waits
          · split at waits <;> cases waits
      | readAt nrBytes location =>
          rw [beginOperation] at waits
          split at waits <;> cases waits
      | seek location =>
          rw [beginOperation] at waits
          split at waits <;> cases waits
      | seekPosition =>
          rw [beginOperation] at waits
          split at waits <;> cases waits
      | publish file => cases waits
      | invalidateCachedFile => cases waits
  | reading call stage =>
      rw [program] at waits
      split at waits <;> cases waits

end

/-! ## The cursor in a run -/

theorem cursorAfter_append (start : Nat) (before after : List Event) :
    cursorAfter start (before ++ after) = cursorAfter (cursorAfter start before) after :=
  List.foldl_append

theorem cursorAfter_of_quiet {events : List Event} (quiet : ∀ event ∈ events, event.Quiet)
    (start : Nat) : cursorAfter start events = start := by
  induction events with
  | nil => rfl
  | cons event events inductionHypothesis =>
      rw [List.forall_mem_cons] at quiet
      have same : event.cursor start = start := by
        cases event with
        | read location nrBytes result data => exact quiet.1.elim
        | sought location => exact quiet.1.elim
        | _ => rfl
      change cursorAfter (event.cursor start) events = start
      rw [same]
      exact inductionHypothesis quiet.2

theorem obeys_of_quiet {length start : Nat} {cachedFile : Option Block} {before : List Event}
    {event : Event} (quiet : event.Quiet) : Obeys length start cachedFile before event := by
  cases event with
  | read location nrBytes result data => exact quiet.elim
  | position location => exact quiet.elim
  | _ => trivial

theorem Known.append {cachedFile : Option Block} {before : List Event} {file : Block}
    (known : Known cachedFile before file) (after : List Event) :
    Known cachedFile (before ++ after) file :=
  known.imp_right (List.mem_append_left after)

section

variable {length start : Nat} {cachedFile : Option Block} {events new : List Event}

theorem guarded_append_quiet (guarded : Guarded (Obeys length start cachedFile) events)
    (quiet : ∀ event ∈ new, event.Quiet) :
    Guarded (Obeys length start cachedFile) (events ++ new) := by
  apply guarded.append
  rintro before event after rfl
  exact obeys_of_quiet (quiet event (List.mem_append_right before List.mem_cons_self))

theorem guarded_append_last (guarded : Guarded (Obeys length start cachedFile) events)
    {last : Event} (obeys : Obeys length start cachedFile events last) :
    Guarded (Obeys length start cachedFile) (events ++ [last]) := by
  apply guarded.append
  intro before event after split
  cases before with
  | nil =>
      obtain ⟨rfl, -⟩ := List.cons.inj split
      rw [List.append_nil]
      exact obeys
  | cons first before => exact absurd (List.cons.inj split).2 (by simp)

end

/-- The mutex belongs to the one sequential read under way, which holds the cursor where
it found it. -/
structure CursorInvariant (length start : Nat) (cachedFile : Option Block)
    (world : Monitor.World ι (HandleState ι) Control Event) : Prop where
  offset : world.shared.fileOffset = cursorAfter start world.events
  owner : ∀ thread call stage nrBytes, world.control thread = .reading call stage →
    call.reader = .sequential nrBytes →
      world.shared.cursorMutex = some thread ∧ call.location = world.shared.fileOffset ∧
        call.readSize = min nrBytes (length - call.location)
  known : ∀ file, world.shared.cachedFile = some file → Known cachedFile world.events file
  obeys : Guarded (Obeys length start cachedFile) world.events

/-- Another thread's read keeps cursor and mutex. -/
theorem Moves.frame {length : Nat} {thread : ι} {state next : HandleState ι}
    {control here : Control} {events : List Event}
    (moves : Moves length thread state control next here events)
    (held : state.cursorMutex ≠ none)
    (positional : ∀ call stage, control = .reading call stage → call.reader = .positional) :
    next.cursorMutex = state.cursorMutex ∧ next.fileOffset = state.fileOffset := by
  induction moves with
  | atEnd nothing => exact ⟨rfl, rfl⟩
  | begins free => exact absurd free held
  | seeks free => exact absurd free held
  | tells => exact ⟨rfl, rfl⟩
  | beside isPositional brings => exact ⟨rfl, rfl⟩
  | continues brings => exact ⟨rfl, rfl⟩
  | @returns call stage data _ quiet filled given =>
      rw [Reading.returned, positional call stage rfl]
      exact ⟨rfl, rfl⟩
  | @throws call stage error after brings =>
      rw [Reading.threw, positional call stage rfl]
      exact ⟨rfl, rfl⟩

theorem Known.brings {initial before after : Option Block} {past events : List Event}
    (known : ∀ file, before = some file → Known initial past file)
    (brings : Brings before after events) {file : Block} (cached : after = some file) :
    Known initial (past ++ events) file := by
  rcases brings.known file cached with wasCached | brought
  · exact (known file wasCached).append events
  · exact .inr (List.mem_append_right past brought)

theorem Reading.reader_cases (call : Reading) :
    call.reader = .positional ∨ ∃ nrBytes, call.reader = .sequential nrBytes := by
  cases call.reader with
  | sequential nrBytes => exact .inr ⟨nrBytes, rfl⟩
  | positional => exact .inl rfl

section

variable {length start : Nat} {cachedFile : Option Block}
  {world : Monitor.World ι (HandleState ι) Control Event} {thread : ι} {next : HandleState ι}
  {here : Control} {events : List Event} {notify : Bool}

/-- What a sequential read under way knows stays true when another thread moves. -/
theorem CursorInvariant.owner_of_other (invariant : CursorInvariant length start cachedFile world)
    (moves : Moves length thread world.shared (world.control thread) next here events)
    {other : ι} (different : other ≠ thread) {call : Reading} {stage : Stage} {nrBytes : Nat}
    (control : world.control other = .reading call stage)
    (sequential : call.reader = .sequential nrBytes) :
    next.cursorMutex = some other ∧ call.location = next.fileOffset ∧
      call.readSize = min nrBytes (length - call.location) := by
  obtain ⟨held, located, size⟩ := invariant.owner other call stage nrBytes control sequential
  have positional : ∀ mine stage, world.control thread = .reading mine stage →
      mine.reader = .positional := by
    intro mine stage here
    rcases mine.reader_cases with positional | ⟨own, isSequential⟩
    · exact positional
    · have twice := (invariant.owner thread mine stage own here isSequential).1
      rw [held] at twice
      exact absurd (Option.some.inj twice) different
  obtain ⟨sameMutex, sameOffset⟩ := moves.frame (by rw [held]; simp) positional
  rw [sameMutex, sameOffset]
  exact ⟨held, located, size⟩

theorem CursorInvariant.owner_of_moves (invariant : CursorInvariant length start cachedFile world)
    (moves : Moves length thread world.shared (world.control thread) next here events) :
    ∀ call stage nrBytes, here = .reading call stage → call.reader = .sequential nrBytes →
      next.cursorMutex = some thread ∧ call.location = next.fileOffset ∧
        call.readSize = min nrBytes (length - call.location) := by
  have owner := invariant.owner thread
  intro call stage nrBytes isHere sequential
  generalize world.control thread = control at moves owner
  induction moves with
  | atEnd nothing => cases isHere
  | begins free =>
      cases isHere
      cases sequential
      exact ⟨rfl, rfl, Nat.min_comm _ _⟩
  | seeks free => cases isHere
  | tells => cases isHere
  | beside positional brings =>
      subst isHere
      have isPositional : call.reader = .positional := positional
      rw [sequential] at isPositional
      contradiction
  | continues brings =>
      cases isHere
      exact owner _ _ nrBytes rfl sequential
  | returns quiet filled given => cases isHere
  | throws brings => cases isHere

theorem CursorInvariant.offset_of_moves (invariant : CursorInvariant length start cachedFile world)
    {control : Control} (moves : Moves length thread world.shared control next here events) :
    next.fileOffset = cursorAfter start (world.events ++ events) := by
  rw [cursorAfter_append, ← invariant.offset]
  induction moves with
  | atEnd nothing => rfl
  | begins free => rfl
  | seeks free => rfl
  | tells => rfl
  | beside positional brings => exact (cursorAfter_of_quiet brings.quiet _).symm
  | continues brings => exact (cursorAfter_of_quiet brings.quiet _).symm
  | @returns call stage data events quiet filled given =>
      rw [cursorAfter_append, cursorAfter_of_quiet quiet, Reading.returned]
      cases call.reader <;> rfl
  | @throws call stage error after brings =>
      rw [Reading.threw]
      cases call.reader <;> rfl

theorem CursorInvariant.known_of_moves (invariant : CursorInvariant length start cachedFile world)
    {control : Control} (moves : Moves length thread world.shared control next here events) :
    ∀ file, next.cachedFile = some file → Known cachedFile (world.events ++ events) file := by
  intro file cached
  induction moves with
  | atEnd nothing => exact (invariant.known file cached).append _
  | begins free => exact (invariant.known file cached).append _
  | seeks free => exact (invariant.known file cached).append _
  | tells => exact (invariant.known file cached).append _
  | beside positional brings => exact Known.brings invariant.known brings cached
  | continues brings => exact Known.brings invariant.known brings cached
  | @returns call stage data events quiet filled given =>
      have same : (call.returned world.shared data).1.cachedFile = world.shared.cachedFile := by
        rw [Reading.returned]
        cases call.reader <;> rfl
      rw [same] at cached
      exact (invariant.known file cached).append _
  | @throws call stage error after brings =>
      have same : (call.threw { world.shared with cachedFile := after } error).1.cachedFile =
          after := by
        rw [Reading.threw]
        cases call.reader <;> rfl
      rw [same] at cached
      have known := Known.brings invariant.known brings cached
      rw [List.append_nil] at known
      exact known.append _

theorem CursorInvariant.obeys_of_moves (invariant : CursorInvariant length start cachedFile world)
    (moves : Moves length thread world.shared (world.control thread) next here events) :
    Guarded (Obeys length start cachedFile) (world.events ++ events) := by
  have owner := invariant.owner thread
  have offset := invariant.offset
  generalize world.control thread = control at moves owner
  induction moves with
  | atEnd nothing =>
      apply guarded_append_last invariant.obeys
      refine ⟨offset, ?_, rfl, .inl rfl⟩
      rcases nothing with rfl | beyond
      · exact (Nat.zero_min _).symm
      · rw [Nat.sub_eq_zero_of_le beyond, Nat.min_zero]
  | begins free => exact guarded_append_quiet invariant.obeys fun _ member => by simp at member
  | seeks free => exact guarded_append_last invariant.obeys trivial
  | tells => exact guarded_append_last invariant.obeys offset
  | beside positional brings => exact guarded_append_quiet invariant.obeys brings.quiet
  | continues brings => exact guarded_append_quiet invariant.obeys brings.quiet
  | @returns call stage data events quiet filled given =>
      rw [← List.append_assoc]
      apply guarded_append_last (guarded_append_quiet invariant.obeys quiet)
      rw [Reading.returned]
      cases reader : call.reader with
      | positional => trivial
      | sequential nrBytes =>
          obtain ⟨-, located, size⟩ := owner call stage nrBytes rfl reader
          refine ⟨?_, size, filled, ?_⟩
          · rw [cursorAfter_append, cursorAfter_of_quiet quiet, located, offset]
          · rcases given with empty | ranged | ⟨file, cached, fits, copied⟩
            · exact .inl empty
            · exact .inr (.inl (List.mem_append_right _ ranged))
            · exact .inr (.inr ⟨file, (invariant.known file cached).append events, fits, copied⟩)
  | @throws call stage error after brings =>
      apply guarded_append_last invariant.obeys
      rw [Reading.threw]
      cases call.reader <;> trivial

variable [DecidableEq ι]

/-- Every step keeps the invariant. -/
theorem CursorInvariant.step {path : String} {after : Monitor.World ι (HandleState ι) Control Event}
    {choice : Choice} (invariant : CursorInvariant length start cachedFile world)
    (stepped : Monitor.step (program path length) world thread choice = some after) :
    CursorInvariant length start cachedFile after := by
  obtain ⟨-, ⟨waits, -⟩ | ⟨next, here, events, notify, advances, rfl⟩⟩ := step_cases stepped
  · exact absurd waits (program_ne_wait _)
  · have moves := moves_of_program advances
    constructor
    · rw [World.events_advance]
      exact invariant.offset_of_moves moves
    · intro other call stage nrBytes control sequential
      by_cases same : other = thread
      · subst same
        change Function.update world.control other here other = _ at control
        rw [Function.update_self] at control
        exact invariant.owner_of_moves moves call stage nrBytes control sequential
      · change Function.update world.control thread here other = _ at control
        rw [Function.update_of_ne same] at control
        exact invariant.owner_of_other moves same control sequential
    · rw [World.events_advance]
      exact invariant.known_of_moves moves
    · rw [World.events_advance]
      exact invariant.obeys_of_moves moves

theorem cursorInvariant_of_run {path : String}
    (run : Run (program path length)
      (.initial { fileOffset := start, cachedFile } .idle) world) :
    CursorInvariant length start cachedFile world := by
  apply run.invariant fun _ _ _ _ invariant _ stepped => invariant.step stepped
  exact ⟨rfl, nofun, fun file cached => .inl cached, guarded_nil _⟩

end

/-! ## Reads between seeks -/

def Event.result : Event → Nat
  | .read _ _ result _ => result
  | _ => 0

/-- A seek, a sequential read that returns, or an event that leaves the cursor alone. -/
theorem Event.cases_cursor (event : Event) :
    (∃ location, event = .sought location) ∨
      (∃ location nrBytes result data, event = .read location nrBytes result data) ∨
        ((∀ start, event.cursor start = start) ∧ event.result = 0 ∧ event.locations = [] ∧
          event.data = []) := by
  cases event with
  | sought location => exact .inl ⟨location, rfl⟩
  | read location nrBytes result data => exact .inr (.inl ⟨location, nrBytes, result, data, rfl⟩)
  | _ => exact .inr (.inr ⟨fun _ => rfl, rfl, rfl, rfl⟩)

/-- All bytes that the sequential reads among some events return. -/
def total (events : List Event) : Nat :=
  (events.map Event.result).sum

/-- The sequential reads between two seeks follow one another without gap or overlap. -/
structure Contiguous (length start : Nat) (cachedFile : Option Block)
    (world : Monitor.World ι (HandleState ι) Control Event) : Prop where
  offset : world.shared.fileOffset = cursorAfter start world.events
  obeys : ∀ before event after, world.events = before ++ event :: after →
    Obeys length start cachedFile before event
  moved : ∀ before middle after, world.events = before ++ (middle ++ after) →
    (∀ location, .sought location ∉ middle) →
      cursorAfter start (before ++ middle) = cursorAfter start before + total middle
  locations : ∀ before middle after, world.events = before ++ (middle ++ after) →
    (∀ location, .sought location ∉ middle) →
      middle.flatMap Event.locations = List.range' (cursorAfter start before) (total middle)
  data : ∀ object : Block, object.length = length →
    BroughtFrom object cachedFile world.events →
      ∀ before middle after, world.events = before ++ (middle ++ after) →
        (∀ location, .sought location ∉ middle) →
          middle.flatMap Event.data =
            (object.drop (cursorAfter start before)).take (total middle)

theorem take_drop_of_cutOrOverrun {object file : Block} (sent : CutOrOverrun object file)
    {location count : Nat} (inFile : location + count ≤ file.length)
    (inObject : location + count ≤ object.length) :
    (file.drop location).take count = (object.drop location).take count := by
  rcases sent with ⟨rest, rfl⟩ | ⟨rest, rfl⟩
  · rw [List.drop_append_of_le_length (by omega), List.take_append_of_le_length]
    rw [List.length_drop]
    omega
  · rw [List.drop_append_of_le_length (by omega), List.take_append_of_le_length]
    rw [List.length_drop]
    omega

section

variable {length start : Nat} {cachedFile : Option Block} {events before : List Event}

/-- What a sequential read returns of an object. -/
theorem data_of_obeys {object : Block} (size : object.length = length)
    (brought : BroughtFrom object cachedFile events) {after : List Event}
    {location nrBytes result : Nat} {data : Block}
    (split : events = before ++ .read location nrBytes result data :: after)
    (obeys : Obeys length start cachedFile before (.read location nrBytes result data)) :
    data = (object.drop location).take result := by
  obtain ⟨-, isResult, filled, given⟩ := obeys
  have past : ∀ event ∈ before, event ∈ events := by
    intro event member
    rw [split]
    exact List.mem_append_left _ member
  rcases given with rfl | ranged | ⟨file, known, fits, copied⟩
  · rw [← filled]
    rfl
  · rw [← filled]
    exact brought.ranges location data (past _ ranged)
  · rw [filled] at copied fits
    by_cases nothing : result = 0
    · rw [nothing] at copied ⊢
      exact copied
    · rw [copied]
      apply take_drop_of_cutOrOverrun (brought.files file (known.imp_right (past _))) fits
      omega

theorem contiguous_of_guarded (guarded : Guarded (Obeys length start cachedFile) events)
    (middle : List Event) {after : List Event} (split : events = before ++ (middle ++ after))
    (noSeek : ∀ location, .sought location ∉ middle) :
    cursorAfter start (before ++ middle) = cursorAfter start before + total middle ∧
      middle.flatMap Event.locations = List.range' (cursorAfter start before) (total middle) ∧
      ∀ object : Block, object.length = length → BroughtFrom object cachedFile events →
        middle.flatMap Event.data =
          (object.drop (cursorAfter start before)).take (total middle) := by
  induction middle generalizing before with
  | nil =>
      rw [List.append_nil]
      exact ⟨rfl, rfl, fun _ _ _ => rfl⟩
  | cons event middle inductionHypothesis =>
      have splitEvent : events = before ++ event :: (middle ++ after) := split
      have splitRest : events = (before ++ [event]) ++ (middle ++ after) := by
        rw [List.append_assoc]
        exact split
      obtain ⟨moved, locations, data⟩ := inductionHypothesis splitRest fun location member =>
        noSeek location (List.mem_cons_of_mem event member)
      have one : cursorAfter start (before ++ [event]) =
          event.cursor (cursorAfter start before) := cursorAfter_append start before [event]
      have cut : before ++ event :: middle = (before ++ [event]) ++ middle := by
        rw [List.append_assoc]
        rfl
      have sum : total (event :: middle) = event.result + total middle := List.sum_cons
      have obeys := guarded before event (middle ++ after) splitEvent
      rw [cut, moved, sum, List.flatMap_cons, List.flatMap_cons, locations, one]
      rcases event.cases_cursor with
        ⟨location, rfl⟩ | ⟨location, nrBytes, result, bytes, rfl⟩ | ⟨stays, noResult, nowhere, empty⟩
      · exact absurd List.mem_cons_self (noSeek location)
      · have atCursor : location = cursorAfter start before := obeys.1
        refine ⟨Nat.add_assoc _ _ _, ?_, ?_⟩
        · change List.range' location result ++ List.range' (cursorAfter start before + result) _ = _
          rw [atCursor]
          exact List.range'_append_1
        · intro object size brought
          rw [data object size brought, one]
          change bytes ++ (object.drop (cursorAfter start before + result)).take _ =
            (object.drop (cursorAfter start before)).take (result + _)
          rw [data_of_obeys size brought splitEvent obeys, atCursor, List.take_add,
            List.drop_drop]
      · rw [stays] at one ⊢
        rw [noResult, nowhere, empty, Nat.zero_add, List.nil_append, List.nil_append]
        refine ⟨rfl, rfl, ?_⟩
        intro object size brought
        rw [data object size brought, one]

end

variable [DecidableEq ι]

/-- Whatever the threads do in whatever order, and whichever reads fail, each sequential
read that returns goes on where the last one ended. -/
theorem sequentialReads_contiguous (path : String) (length start : Nat)
    (cachedFile : Option Block) {world : Monitor.World ι (HandleState ι) Control Event}
    (run : Run (program path length) (.initial { fileOffset := start, cachedFile } .idle) world) :
    Contiguous length start cachedFile world := by
  have invariant := cursorInvariant_of_run run
  refine ⟨invariant.offset, invariant.obeys, ?_, ?_, ?_⟩
  · intro before middle after split noSeek
    exact (contiguous_of_guarded invariant.obeys middle split noSeek).1
  · intro before middle after split noSeek
    exact (contiguous_of_guarded invariant.obeys middle split noSeek).2.1
  · intro object size brought before middle after split noSeek
    exact (contiguous_of_guarded invariant.obeys middle split noSeek).2.2 object size brought

end

/-- One thread reads twice; between its reads another thread falls back to the whole
file, which the second read is given from. -/
theorem sequentialReads_contiguous_fallback :
    let refused : ErrorData := .http "refused"
    let read : Choice := ⟨.read 2, .ok (some [1, 2]), .error refused⟩
    let readAt : Choice := ⟨.readAt 1 4, .ok none, .ok [1, 2, 3, 4, 5]⟩
    let world : Monitor.World Bool (HandleState Bool) Control Event :=
      play (program "http://host/file" 5) (.initial { fileOffset := 0, cachedFile := none } .idle)
        [(false, read), (true, readAt), (false, read), (true, readAt), (false, read),
          (true, readAt), (true, readAt), (false, read), (true, readAt), (false, read)]
    world.events.flatMap Event.data = [1, 2, 3, 4] ∧ Contiguous 5 0 none world := by
  intro refused read readAt world
  exact ⟨by decide, sequentialReads_contiguous "http://host/file" 5 0 none (run_play _ _ _)⟩

end Httpfs.Http.File.Cursor
