import Httpfs.Http.FullDownload.Program

/-!
# At most one download, and data that does not change

A download that has been finalized must only be destroyed: `Finalize` does not
check whether the download is still active.  The requests finalize a download
once and then drop it.
-/

namespace Httpfs.Http.FullDownload

open Word64
open Httpfs.Transition
open Httpfs.Transition.Monitor

universe u

variable {ι : Type u}

def CachedFileDownload.Active (download : CachedFileDownload) : Prop :=
  download.active = true

/-- The allocation of published data has not been given back. -/
def Stored (blocks : Arena Block) (file : CachedFileData) : Prop :=
  ∀ block, file.data = some block → ∃ bytes, blocks.get block = some bytes

/-- Published data does not share its allocation with a download. -/
def Apart (download : CachedFileDownload) (file : CachedFileData) : Prop :=
  ∀ block, download.data = some block → file.data ≠ some block

theorem apart_of_null {download : CachedFileDownload} (null : download.data = none)
    (file : CachedFileData) : Apart download file := by
  intro block isBlock
  rw [null] at isBlock
  contradiction

/-- A download in use holds what was appended; one that is over holds nothing. -/
structure DownloadSound (blocks : Arena Block) (download : CachedFileDownload) : Prop where
  size : download.size ≤ download.capacity
  holds : download.Active → Holds blocks download
  null : ¬ download.Active → download.data = none

theorem Holds.sound {blocks : Arena Block} {download : CachedFileDownload}
    (holds : Holds blocks download) (active : download.Active) : DownloadSound blocks download :=
  ⟨holds.size, fun _ => holds, fun inactive => absurd active inactive⟩

/-- A download that is over does not depend on the allocations. -/
theorem DownloadSound.of_inactive {blocks : Arena Block} {download : CachedFileDownload}
    (sound : DownloadSound blocks download) (inactive : ¬ download.Active)
    (after : Arena Block) : DownloadSound after download :=
  ⟨sound.size, fun active => absurd active inactive, sound.null⟩

structure Sound (shared : Shared) : Prop where
  unique : shared.downloads.AtMostOne CachedFileDownload.Active
  downloading : shared.file.downloading = true ↔
    shared.downloads.Any CachedFileDownload.Active
  uncached : shared.file.downloading = true → shared.file.cachedData = none
  downloads : shared.downloads.All (DownloadSound shared.blocks)
  cached : ∀ file, shared.file.cachedData = some file → Stored shared.blocks file
  handles : shared.handles.All (Stored shared.blocks)
  apart : shared.downloads.All fun download => shared.handles.All (Apart download)

theorem sound_initial : Sound {} where
  unique := Arena.atMostOne_empty
  downloading := iff_of_false Bool.false_ne_true Arena.not_any_empty
  uncached := nofun
  downloads := Arena.all_empty
  cached := nofun
  handles := Arena.all_empty
  apart := Arena.all_empty

/-- What the handles of a state show is seen in another as well. -/
def KeepsHandles (shared shared' : Shared) : Prop :=
  ∀ handle file, shared.handles.get handle = some file →
    shared'.handles.get handle = some file ∧
      file.bytes shared'.blocks = file.bytes shared.blocks

theorem Frame.bytes {before after : Arena Block} {download changed : CachedFileDownload}
    (frame : Frame before download after changed) {file : CachedFileData}
    (stored : Stored before file) (apart : Apart download file) :
    file.bytes after = file.bytes before := by
  unfold CachedFileData.bytes content
  cases isBlock : file.data with
  | none => rfl
  | some block =>
      rcases stored block isBlock with ⟨bytes, live⟩
      have different : download.data ≠ some block :=
        fun same => apart block same isBlock
      rw [Option.bind_some, Option.bind_some, (frame block bytes different live).1, live]

theorem Frame.stored {before after : Arena Block} {download changed : CachedFileDownload}
    (frame : Frame before download after changed) {file : CachedFileData}
    (stored : Stored before file) (apart : Apart download file) :
    Stored after file ∧ Apart changed file := by
  constructor
  · intro block isBlock
    rcases stored block isBlock with ⟨bytes, live⟩
    exact ⟨bytes, (frame block bytes (fun same => apart block same isBlock) live).1⟩
  · intro block isChanged isBlock
    rcases stored block isBlock with ⟨bytes, live⟩
    exact (frame block bytes (fun same => apart block same isBlock) live).2 isChanged

namespace Sound

variable {shared : Shared}

/-- Besides an active download there are only downloads that are over. -/
theorem others_null (sound : Sound shared) {handle other : Nat}
    {download found : CachedFileDownload}
    (live : shared.downloads.get handle = some download) (active : download.Active)
    (different : other ≠ handle) (otherLive : shared.downloads.get other = some found) :
    ¬ found.Active ∧ found.data = none := by
  have inactive : ¬ found.Active := fun also =>
    different (sound.unique other handle found download otherLive live also active)
  exact ⟨inactive, (sound.downloads other found otherLive).null inactive⟩

theorem downloading_of_live (sound : Sound shared) {handle : Nat} {download : CachedFileDownload}
    (live : shared.downloads.get handle = some download) (active : download.Active) :
    shared.file.downloading = true ∧ shared.file.cachedData = none := by
  have downloading := sound.downloading.mpr ⟨handle, download, live, active⟩
  exact ⟨downloading, sound.uncached downloading⟩

theorem idle_null (sound : Sound shared) (idle : shared.file.downloading ≠ true) {handle : Nat}
    {download : CachedFileDownload} (live : shared.downloads.get handle = some download) :
    download.data = none :=
  (sound.downloads handle download live).null fun active =>
    idle (sound.downloading.mpr ⟨handle, download, live, active⟩)

/-- Filling, growing or emptying the buffer of an active download. -/
theorem replace (sound : Sound shared) {handle : Nat} {download changed : CachedFileDownload}
    {after : Arena Block} (live : shared.downloads.get handle = some download)
    (active : download.Active) (stays : changed.Active) (holds : Holds after changed)
    (frame : Frame shared.blocks download after changed) :
    Sound (shared.replace handle (after, changed)) ∧
      KeepsHandles shared (shared.replace handle (after, changed)) := by
  have uncached := (sound.downloading_of_live live active).2
  have apart := sound.apart handle download live
  constructor
  · constructor
    · apply sound.unique.modify
      intro value found _
      cases live.symm.trans found
      exact active
    · exact sound.downloading.trans
        (Arena.any_modify live (iff_of_true stays active)).symm
    · exact sound.uncached
    · intro other found otherLive
      rcases Arena.get_modify_cases otherLive with ⟨-, _, -, rfl⟩ | ⟨different, otherLive⟩
      · exact holds.sound stays
      · exact (sound.downloads other found otherLive).of_inactive
          (sound.others_null live active different otherLive).1 after
    · intro file isCached
      rw [show (shared.replace handle (after, changed)).file = shared.file from rfl, uncached]
        at isCached
      contradiction
    · intro reader file fileLive
      exact (frame.stored (sound.handles reader file fileLive) (apart reader file fileLive)).1
    · intro other found otherLive reader file fileLive
      rcases Arena.get_modify_cases otherLive with ⟨-, _, -, rfl⟩ | ⟨different, otherLive⟩
      · exact (frame.stored (sound.handles reader file fileLive) (apart reader file fileLive)).2
      · exact apart_of_null (sound.others_null live active different otherLive).2 file
  · intro reader file fileLive
    exact ⟨fileLive, frame.bytes (sound.handles reader file fileLive) (apart reader file fileLive)⟩

/-- What `Finalize` publishes is what was appended. -/
theorem finalize (sound : Sound shared) {handle : Nat} {download : CachedFileDownload}
    (live : shared.downloads.get handle = some download) (active : download.Active)
    (allocates : Bool) :
    Sound (shared.finalize handle download allocates).1 ∧
      KeepsHandles shared (shared.finalize handle download allocates).1 := by
  unfold Shared.finalize
  cases allocates with
  | false => exact ⟨sound, fun _ _ fileLive => ⟨fileLive, rfl⟩⟩
  | true =>
      have finished : ¬ CachedFileDownload.Active { download with data := none, active := false } :=
        Bool.false_ne_true
      have holds := (sound.downloads handle download live).holds active
      have stored : Stored shared.blocks ⟨download.data, download.size⟩ := by
        intro block isBlock
        rcases holds.stored with ⟨null, -⟩ | ⟨_, bytes, isData, blockLive, -⟩
        · cases null.symm.trans isBlock
        · cases isData.symm.trans isBlock
          exact ⟨bytes, blockLive⟩
      have null : ∀ other found, (shared.downloads.modify handle fun _ =>
          { download with data := none, active := false }).get other = some found →
            found.data = none := by
        intro other found otherLive
        rcases Arena.get_modify_cases otherLive with ⟨-, _, -, rfl⟩ | ⟨different, otherLive⟩
        · rfl
        · exact (sound.others_null live active different otherLive).2
      constructor
      · constructor
        · exact sound.unique.modify fun _ _ stays => absurd stays finished
        · exact iff_of_false Bool.false_ne_true (sound.unique.not_any_modify live active finished)
        · exact nofun
        · exact sound.downloads.modify fun _ _ _ =>
            ⟨holds.size, fun stays => absurd stays finished, fun _ => rfl⟩
        · rintro file ⟨⟩
          exact stored
        · exact sound.handles.insert stored
        · intro other found otherLive reader file _
          exact apart_of_null (null other found otherLive) file
      · intro reader file fileLive
        exact ⟨Arena.get_insert_of_live _ fileLive, rfl⟩

theorem destroy (sound : Sound shared) {handle : Nat} {download : CachedFileDownload}
    (live : shared.downloads.get handle = some download) :
    Sound (shared.destroy handle download).1 ∧
      KeepsHandles shared (shared.destroy handle download).1 := by
  have apart := sound.apart handle download live
  have frame : Frame shared.blocks download (free shared.blocks download.data) {} :=
    frame_free shared.blocks rfl
  have handles : shared.handles.All (Stored (free shared.blocks download.data)) :=
    fun reader file fileLive =>
      (frame.stored (sound.handles reader file fileLive) (apart reader file fileLive)).1
  have keeps : KeepsHandles shared (shared.destroy handle download).1 := by
    intro reader file fileLive
    by_cases active : download.active = true
    · rw [Shared.destroy_of_active handle active]
      exact ⟨fileLive,
        frame.bytes (sound.handles reader file fileLive) (apart reader file fileLive)⟩
    · rw [Shared.destroy_of_over handle active]
      exact ⟨fileLive,
        frame.bytes (sound.handles reader file fileLive) (apart reader file fileLive)⟩
  refine ⟨?_, keeps⟩
  by_cases active : download.Active
  · have gone := sound.unique.not_any_erase live active
    rw [Shared.destroy_of_active handle active]
    constructor
    · exact sound.unique.erase handle
    · exact iff_of_false Bool.false_ne_true gone
    · exact nofun
    · intro other found otherLive
      have before := Arena.get_erase_cases otherLive
      exact (sound.downloads other found before.2).of_inactive
        (sound.others_null live active before.1 before.2).1 _
    · intro file isCached
      have uncached := (sound.downloading_of_live live active).2
      cases uncached.symm.trans isCached
    · exact handles
    · exact sound.apart.erase handle
  · have null := (sound.downloads handle download live).null active
    rw [null] at handles
    rw [Shared.destroy_of_over handle active, null]
    constructor
    · exact sound.unique.erase handle
    · exact sound.downloading.trans (Arena.any_erase live active).symm
    · exact sound.uncached
    · exact sound.downloads.erase handle
    · exact sound.cached
    · exact handles
    · exact sound.apart.erase handle

theorem tryGetHandle (sound : Sound shared) (allocates : Bool) :
    Sound (shared.tryGetHandle allocates) ∧
      KeepsHandles shared (shared.tryGetHandle allocates) := by
  unfold Shared.tryGetHandle
  cases isCached : shared.file.cachedData with
  | none => exact ⟨sound, fun _ _ fileLive => ⟨fileLive, rfl⟩⟩
  | some cachedData =>
      cases allocates with
      | false => exact ⟨sound, fun _ _ fileLive => ⟨fileLive, rfl⟩⟩
      | true =>
          have idle : shared.file.downloading ≠ true := by
            intro downloading
            rw [sound.uncached downloading] at isCached
            contradiction
          constructor
          · constructor
            · exact sound.unique
            · exact sound.downloading
            · exact sound.uncached
            · exact sound.downloads
            · exact sound.cached
            · exact sound.handles.insert (sound.cached cachedData isCached)
            · intro handle download live reader file _
              exact apart_of_null (sound.idle_null idle live) file
          · intro reader file fileLive
            exact ⟨Arena.get_insert_of_live _ fileLive, rfl⟩

theorem startDownload (sound : Sound shared) (idle : shared.file.downloading = false)
    (allocates : Bool) : Sound (shared.startDownload allocates) ∧
      KeepsHandles shared (shared.startDownload allocates) := by
  have idle' : shared.file.downloading ≠ true := by
    simp [idle]
  have none : ¬ shared.downloads.Any CachedFileDownload.Active :=
    fun any => idle' (sound.downloading.mpr any)
  unfold Shared.startDownload
  split
  · exact ⟨sound, fun _ _ fileLive => ⟨fileLive, rfl⟩⟩
  · rename_i uncached
    have uncached : shared.file.cachedData = .none := by
      simpa using uncached
    cases allocates with
    | false => exact ⟨sound, fun _ _ fileLive => ⟨fileLive, rfl⟩⟩
    | true =>
        constructor
        · constructor
          · exact sound.unique.insert fun _ => none
          · exact iff_of_true rfl (Arena.any_insert.mpr (.inl rfl))
          · exact fun _ => uncached
          · exact sound.downloads.insert ((holds_new shared.blocks).sound rfl)
          · exact sound.cached
          · exact sound.handles
          · exact sound.apart.insert fun _ file _ => apart_of_null rfl file
        · exact fun _ _ fileLive => ⟨fileLive, rfl⟩

theorem invalidate (sound : Sound shared) :
    Sound shared.invalidate ∧ KeepsHandles shared shared.invalidate := by
  constructor
  · constructor
    · exact sound.unique
    · exact sound.downloading
    · exact fun _ => rfl
    · exact sound.downloads
    · exact nofun
    · exact sound.handles
    · exact sound.apart
  · exact fun _ _ fileLive => ⟨fileLive, rfl⟩

end Sound

/-! ## Steps -/

/-- A download that is over is only destroyed. -/
def Careful (shared : Shared) (control : Control) (choice : Choice) : Prop :=
  control = .running → ∀ handle download, choice.operation.subject = some handle →
    shared.downloads.get handle = some download → ¬ download.Active →
    choice.operation = .destroy handle

theorem Sound.perform {shared shared' : Shared} (sound : Sound shared) {choice : Choice}
    {handle : Nat} {download : CachedFileDownload} {notify : Bool}
    (subject : choice.operation.subject = some handle)
    (live : shared.downloads.get handle = some download)
    (careful : ¬ download.Active → choice.operation = .destroy handle)
    (performs : shared.perform download choice = some (shared', notify)) :
    Sound shared' ∧ KeepsHandles shared shared' := by
  rcases choice with ⟨operation, allocates⟩
  have inUse : operation ≠ .destroy handle → download.Active := by
    intro other
    by_contra finished
    exact other (careful finished)
  have holds := (sound.downloads handle download live).holds
  cases operation with
  | tryGetHandle => cases performs
  | startDownload => cases performs
  | invalidate => cases performs
  | reserve other capacity =>
      cases subject
      cases performs
      have active := inUse (by simp)
      rcases (holds active).reserve capacity.isLt allocates with ⟨held, frame, same⟩
      exact sound.replace live active (same.trans active) held frame
  | append other chunk =>
      cases subject
      have active := inUse (by simp)
      rcases (holds active).append chunk.property allocates with
        ⟨after, changed, appends, held, frame, same, -⟩
      simp only [Shared.perform, appends, Option.map_some] at performs
      cases performs
      exact sound.replace live active (same.trans active) held frame
  | reset other =>
      cases subject
      cases performs
      have active := inUse (by simp)
      rcases Holds.reset shared.blocks download with ⟨held, frame⟩
      exact sound.replace live active active held frame
  | finalize other =>
      cases subject
      have finalized := sound.finalize live (inUse (by simp)) allocates
      simp only [Shared.perform, Option.some.injEq] at performs
      rwa [performs] at finalized
  | destroy other =>
      cases subject
      have destroyed := sound.destroy live
      simp only [Shared.perform, Option.some.injEq] at performs
      rwa [performs] at destroyed

theorem Sound.change {shared shared' : Shared} (sound : Sound shared)
    {control control' : Control} {choice : Choice} {notify : Bool}
    (change : Change shared control choice shared' control' notify)
    (careful : Careful shared control choice) : Sound shared' ∧ KeepsHandles shared shared' := by
  induction change with
  | lookup => exact sound.tryGetHandle choice.allocates
  | call => exact ⟨sound, fun _ _ fileLive => ⟨fileLive, rfl⟩⟩
  | invalidate => exact sound.invalidate
  | start _ idle => exact sound.startDownload idle choice.allocates
  | perform handle download _ _ running subject live performs =>
      exact sound.perform subject live (careful running handle download subject live) performs

/-- Data is published by `Finalize` alone. -/
theorem Change.publishes {shared shared' : Shared} {control control' : Control}
    {choice : Choice} {notify : Bool}
    (change : Change shared control choice shared' control' notify)
    (published : shared'.file.cachedData ≠ shared.file.cachedData) :
    shared'.file.cachedData = none ∨ ∃ handle, choice.operation = .finalize handle := by
  induction change with
  | lookup =>
      refine absurd ?_ published
      unfold Shared.tryGetHandle
      split
      · rfl
      · split <;> rfl
  | call => exact absurd rfl published
  | invalidate => exact .inl rfl
  | start =>
      refine absurd ?_ published
      unfold Shared.startDownload
      split
      · rfl
      · split <;> rfl
  | perform handle download _ _ _ subject _ performs =>
      rcases choice with ⟨operation, allocates⟩
      cases operation with
      | tryGetHandle => cases subject
      | startDownload => cases subject
      | invalidate => cases subject
      | reserve => cases performs; exact absurd rfl published
      | reset => cases performs; exact absurd rfl published
      | append =>
          simp only [Shared.perform, Option.map_eq_some_iff] at performs
          rcases performs with ⟨_, -, eq⟩
          cases eq
          exact absurd rfl published
      | finalize other => exact .inr ⟨other, rfl⟩
      | destroy other =>
          simp only [Shared.perform, Option.some.injEq] at performs
          by_cases active : download.active = true
          · rw [Shared.destroy_of_active other active] at performs
            cases performs
            exact absurd rfl published
          · rw [Shared.destroy_of_over other active] at performs
            cases performs
            exact absurd rfl published

end Httpfs.Http.FullDownload
