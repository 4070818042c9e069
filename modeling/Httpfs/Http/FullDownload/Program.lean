import Httpfs.Http.FullDownload.Buffer
import Httpfs.Transition.Monitor

/-!
# Downloading a file once

Several requests may want the whole of a file.  One of them downloads it while
the others wait; then all of them read the same data, which is not changed any
more, also when it is no longer the data of the file.

The file is under a lock, so a step is one critical section or a change of a
download by its holder.  An allocation may fail anywhere; the operation then
throws and changes nothing.  Handles are not given back here: what they refer
to lives as long as they do.
-/

namespace Httpfs.Http.FullDownload

open Word64
open Httpfs.Transition
open Httpfs.Transition.Monitor

universe u

structure CachedFileData where
  data : Option Nat
  size : Nat
  deriving DecidableEq, Repr

/-- What a handle shows: `GetSize` bytes from `GetData` on. -/
def CachedFileData.bytes (blocks : Arena Block) (file : CachedFileData) : Block :=
  (content blocks file.data).take file.size

/-- `CachedFile`, without its mutex and condition variable. -/
structure CachedFile where
  cachedData : Option CachedFileData := none
  downloading : Bool := false
  deriving DecidableEq, Repr

/-- One file, its downloads and handles, and the allocations they use. -/
structure Shared where
  file : CachedFile := {}
  downloads : Arena CachedFileDownload := .empty
  handles : Arena CachedFileData := .empty
  blocks : Arena Block := .empty

inductive Operation
  | tryGetHandle
  | startDownload
  | invalidate
  | reserve (download : Nat) (capacity : Fin modulus)
  | append (download : Nat) (chunk : { bytes : Block // bytes.length < modulus })
  | reset (download : Nat)
  | finalize (download : Nat)
  | destroy (download : Nat)

/-- The download an operation is called on. -/
def Operation.subject : Operation → Option Nat
  | .tryGetHandle | .startDownload | .invalidate => none
  | .reserve download _ | .append download _ | .reset download | .finalize download
  | .destroy download => some download

/-- What a thread does next, and whether the allocator grants what that needs. -/
structure Choice where
  operation : Operation
  allocates : Bool := true

/-- A thread between two operations, or in `StartDownload`. -/
inductive Control
  | running
  | starting
  deriving DecidableEq, Repr

namespace Shared

def tryGetHandle (shared : Shared) (allocates : Bool) : Shared :=
  match shared.file.cachedData with
  | none => shared
  | some cachedData =>
      if allocates then { shared with handles := shared.handles.insert cachedData } else shared

/-- `StartDownload`, after the wait. -/
def startDownload (shared : Shared) (allocates : Bool) : Shared :=
  if shared.file.cachedData.isSome then shared
  else if allocates then
    { shared with
      file := { shared.file with downloading := true }
      downloads := shared.downloads.insert {} }
  else shared

def invalidate (shared : Shared) : Shared :=
  { shared with file := { shared.file with cachedData := none } }

/-- A change of one download and of the allocations. -/
def replace (shared : Shared) (handle : Nat) (result : Arena Block × CachedFileDownload) :
    Shared :=
  { shared with
    blocks := result.1
    downloads := shared.downloads.modify handle fun _ => result.2 }

/-- `Finalize`; a failure to allocate comes before the first change. -/
def finalize (shared : Shared) (handle : Nat) (download : CachedFileDownload)
    (allocates : Bool) : Shared × Bool :=
  if allocates then
    let cachedData : CachedFileData := ⟨download.data, download.size⟩
    ({ shared with
        file := { cachedData := some cachedData, downloading := false }
        downloads := shared.downloads.modify handle fun _ =>
          { download with data := none, active := false }
        handles := shared.handles.insert cachedData }, true)
  else (shared, false)

def abort (shared : Shared) (download : CachedFileDownload) : Shared × Bool :=
  if download.active then
    ({ shared with file := { shared.file with downloading := false } }, true)
  else (shared, false)

/-- `~CachedFileDownload`. -/
def destroy (shared : Shared) (handle : Nat) (download : CachedFileDownload) : Shared × Bool :=
  let (aborted, notify) := shared.abort download
  ({ aborted with
      downloads := aborted.downloads.erase handle
      blocks := free aborted.blocks download.data }, notify)

theorem destroy_of_active {shared : Shared} {download : CachedFileDownload} (handle : Nat)
    (active : download.active = true) :
    shared.destroy handle download =
      ({ shared with
          file := { shared.file with downloading := false }
          downloads := shared.downloads.erase handle
          blocks := free shared.blocks download.data }, true) := by
  simp only [destroy, abort, if_pos active]

theorem destroy_of_over {shared : Shared} {download : CachedFileDownload} (handle : Nat)
    (finished : ¬ download.active = true) :
    shared.destroy handle download =
      ({ shared with
          downloads := shared.downloads.erase handle
          blocks := free shared.blocks download.data }, false) := by
  simp only [destroy, abort, if_neg finished]

/-- The operation on a live download, with whether `download_complete` is
notified.  `none` when it does not return. -/
def perform (shared : Shared) (download : CachedFileDownload) (choice : Choice) :
    Option (Shared × Bool) :=
  match choice.operation with
  | .tryGetHandle | .startDownload | .invalidate => none
  | .reserve handle capacity =>
      some (shared.replace handle (download.reserve shared.blocks capacity choice.allocates), false)
  | .append handle chunk =>
      (download.append shared.blocks chunk.val choice.allocates).map fun result =>
        (shared.replace handle result, false)
  | .reset handle => some (shared.replace handle (download.reset shared.blocks), false)
  | .finalize handle => some (shared.finalize handle download choice.allocates)
  | .destroy handle => some (shared.destroy handle download)

end Shared

def program (ι : Type u) : Program ι Shared Control Choice Empty
  | _, shared, .running, choice =>
      match choice.operation with
      | .tryGetHandle => some (.advance (shared.tryGetHandle choice.allocates) .running [] false)
      | .startDownload => some (.advance shared .starting [] false)
      | .invalidate => some (.advance shared.invalidate .running [] false)
      | operation =>
          (operation.subject.bind shared.downloads.get).bind fun download =>
            (shared.perform download choice).map fun result =>
              .advance result.1 .running [] result.2
  | _, shared, .starting, choice =>
      if shared.file.downloading then some .wait
      else some (.advance (shared.startDownload choice.allocates) .running [] false)

variable {ι : Type u}

/-! ## What a step does -/

/-- The ways a step can change what is shared. -/
inductive Change (shared : Shared) (control : Control) (choice : Choice) :
    Shared → Control → Bool → Prop
  | lookup : control = .running → choice.operation = .tryGetHandle →
      Change shared control choice (shared.tryGetHandle choice.allocates) .running false
  | call : control = .running → choice.operation = .startDownload →
      Change shared control choice shared .starting false
  | invalidate : control = .running → choice.operation = .invalidate →
      Change shared control choice shared.invalidate .running false
  | start : control = .starting → shared.file.downloading = false →
      Change shared control choice (shared.startDownload choice.allocates) .running false
  | perform (handle : Nat) (download : CachedFileDownload) (shared' : Shared) (notify : Bool) :
      control = .running → choice.operation.subject = some handle →
      shared.downloads.get handle = some download →
      shared.perform download choice = some (shared', notify) →
      Change shared control choice shared' .running notify

/-- The only change an operation on a live download can make. -/
theorem Change.performs {shared shared' : Shared} {control control' : Control} {choice : Choice}
    {notify : Bool} (change : Change shared control choice shared' control' notify)
    (running : control = .running) {handle : Nat} {download : CachedFileDownload}
    (subject : choice.operation.subject = some handle)
    (live : shared.downloads.get handle = some download) :
    shared.perform download choice = some (shared', notify) := by
  induction change with
  | lookup _ other =>
      rw [other] at subject
      contradiction
  | call _ other =>
      rw [other] at subject
      contradiction
  | invalidate _ other =>
      rw [other] at subject
      contradiction
  | start starting =>
      rw [running] at starting
      contradiction
  | perform _ _ _ _ _ otherSubject otherLive performs =>
      cases subject.symm.trans otherSubject
      cases live.symm.trans otherLive
      exact performs

theorem program_advance {thread : ι} {shared shared' : Shared} {control control' : Control}
    {choice : Choice} {events : List Empty} {notify : Bool}
    (advances : program ι thread shared control choice =
      some (.advance shared' control' events notify)) :
    Change shared control choice shared' control' notify := by
  cases control with
  | starting =>
      simp only [program] at advances
      split at advances
      · cases advances
      · rename_i idle
        cases advances
        exact .start rfl (by simpa using idle)
  | running =>
      rcases choice with ⟨operation, allocates⟩
      cases operation with
      | tryGetHandle =>
          cases advances
          exact .lookup rfl rfl
      | startDownload =>
          cases advances
          exact .call rfl rfl
      | invalidate =>
          cases advances
          exact .invalidate rfl rfl
      | _ =>
          simp only [program, Operation.subject, Option.bind_some, Option.bind_eq_some_iff,
            Option.map_eq_some_iff] at advances
          rcases advances with ⟨download, live, result, performs, eq⟩
          cases eq
          exact .perform _ download _ _ rfl rfl live performs

/-- Only a thread in `StartDownload` waits, and only during a download. -/
theorem program_wait {thread : ι} {shared : Shared} {control : Control} {choice : Choice}
    (waits : program ι thread shared control choice = some .wait) :
    control = .starting ∧ shared.file.downloading = true := by
  cases control with
  | starting =>
      simp only [program] at waits
      split at waits
      · rename_i downloading
        exact ⟨rfl, downloading⟩
      · cases waits
  | running =>
      rcases choice with ⟨operation, allocates⟩
      cases operation with
      | tryGetHandle => cases waits
      | startDownload => cases waits
      | invalidate => cases waits
      | _ =>
          simp only [program, Operation.subject, Option.bind_some, Option.bind_eq_some_iff,
            Option.map_eq_some_iff] at waits
          rcases waits with ⟨_, _, _, _, eq⟩
          cases eq

/-! ## Waiting -/

/-- Whoever ends a download notifies the waiting threads. -/
theorem Shared.perform_silent {shared shared' : Shared} {download : CachedFileDownload}
    {choice : Choice} (performs : shared.perform download choice = some (shared', false)) :
    shared'.file = shared.file := by
  rcases choice with ⟨operation, allocates⟩
  cases operation with
  | tryGetHandle => cases performs
  | startDownload => cases performs
  | invalidate => cases performs
  | reserve => cases performs; rfl
  | reset => cases performs; rfl
  | append handle chunk =>
      simp only [Shared.perform, Option.map_eq_some_iff] at performs
      rcases performs with ⟨_, _, eq⟩
      cases eq
      rfl
  | finalize handle =>
      simp only [Shared.perform, Shared.finalize] at performs
      split at performs
      · cases performs
      · cases performs
        rfl
  | destroy handle =>
      simp only [Shared.perform, Shared.destroy, Shared.abort] at performs
      split at performs
      · cases performs
      · cases performs
        rfl

theorem Change.silent {shared shared' : Shared} {control control' : Control} {choice : Choice}
    (change : Change shared control choice shared' control' false)
    (downloading : shared.file.downloading = true) : shared'.file.downloading = true := by
  generalize isSilent : false = notify at change
  induction change with
  | lookup =>
      unfold Shared.tryGetHandle
      split
      · exact downloading
      · split <;> exact downloading
  | call => exact downloading
  | invalidate => exact downloading
  | start _ idle =>
      rw [downloading] at idle
      contradiction
  | perform _ _ _ _ _ _ _ performs =>
      subst isSilent
      rw [Shared.perform_silent performs, downloading]

theorem notifiesWaiters : NotifiesWaiters (program ι) where
  waits := by
    intro thread shared control choice waits other
    rcases program_wait waits with ⟨rfl, downloading⟩
    exact if_pos downloading
  silent := by
    intro thread shared control choice shared' control' events advances sleeper waiting blocked other
    rcases program_wait (blocked other) with ⟨rfl, downloading⟩
    exact if_pos ((program_advance advances).silent downloading)

end Httpfs.Http.FullDownload
