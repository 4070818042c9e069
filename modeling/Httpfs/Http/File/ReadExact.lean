import Httpfs.Http.File.Length
import Httpfs.Http.File.Received

/-!
# What a read gives

A read that returns filled its buffer from what is cached, from an answer to a request
for the range, or from the whole file that was downloaded instead.  The bytes are those
of the object unless an answer of the right length brought others.
-/

namespace Httpfs.Http.File

open FullDownload RangeRequest Word64

/-! ## Answers -/

/-- A body that is cut off somewhere, or that goes on after its end. -/
def CutOrOverrun (whole body : Block) : Prop :=
  body <+: whole ∨ whole <+: body

theorem CutOrOverrun.eq_of_length {whole body : Block} (sent : CutOrOverrun whole body)
    (length : body.length = whole.length) : body = whole := by
  rcases sent with cut | overrun
  · exact cut.eq_of_length length
  · exact (overrun.eq_of_length length.symm).symm

/-- The bytes of a range, as far as there are such bytes. -/
def Object.slice (object : Object) (offset length : Nat) : Block :=
  (object.val.drop offset).take length

/-- An attempt without an answer, or with one that is not a success. -/
inductive FailsToAnswer : Attempt → Prop
  | unanswered (error : String) : FailsToAnswer (.unanswered error)
  | answered (response : HTTPResponse) (chunks : List Block) : 300 ≤ response.status →
      response.status ≠ 304 → FailsToAnswer (.answered response chunks)

/-- An attempt at the whole file: it fails, or brings the bytes of the object. -/
inductive AnswersWhole (object : Object) : Attempt → Prop
  | fails (attempt : Attempt) : FailsToAnswer attempt → AnswersWhole object attempt
  | whole (response : HTTPResponse) (chunks : List Block) : response.status = 200 →
      CutOrOverrun object.val chunks.flatten → AnswersWhole object (.answered response chunks)

/-- An attempt at a range: it fails, brings the bytes of the range, or ignores the range
and brings the bytes of the object. -/
inductive AnswersRange (object : Object) (offset length : Nat) : Attempt → Prop
  | fails (attempt : Attempt) : FailsToAnswer attempt → AnswersRange object offset length attempt
  | honours (response : HTTPResponse) (chunks : List Block) : response.status = 206 →
      CutOrOverrun (object.slice offset length) chunks.flatten →
      AnswersRange object offset length (.answered response chunks)
  | ignores (response : HTTPResponse) (chunks : List Block) : response.status = 200 →
      CutOrOverrun object.val chunks.flatten →
      AnswersRange object offset length (.answered response chunks)

/-- An answer to a request for a range is not that nothing was modified, and one that
fills a buffer has the status of a body. -/
theorem AnswersRange.status {object : Object} {offset length : Nat} {response : HTTPResponse}
    {chunks : List Block}
    (answers : AnswersRange object offset length (.answered response chunks)) :
    response.status ≠ 304 ∧
      (response.status < 300 → response.status = 200 ∨ response.status = 206) := by
  cases answers with
  | fails _ fails =>
      cases fails with
      | answered _ _ high other => exact ⟨other, fun low => absurd low (Nat.not_lt.mpr high)⟩
  | honours _ _ status => exact ⟨by omega, fun _ => .inr status⟩
  | ignores _ _ status => exact ⟨by omega, fun _ => .inl status⟩

/-! ## Bytes of the object -/

/-- The buffer holds the bytes of a range of the object. -/
def HoldsRange (object : Object) (offset length buffer : Nat) (memory : Block) : Prop :=
  ∀ index, index < length → ∃ byte, object.val[offset + index]? = some byte ∧
    memory[buffer + index]? = some byte

theorem Object.getElem?_slice (object : Object) {offset length index : Nat}
    (inside : index < length) :
    (object.slice offset length)[index]? = object.val[offset + index]? := by
  rw [slice, List.getElem?_take_of_lt inside, List.getElem?_drop]

theorem Object.length_slice (object : Object) {offset length : Nat}
    (within : offset + length ≤ object.size) : (object.slice offset length).length = length := by
  have size : object.val.length = object.size := rfl
  rw [slice, List.length_take, List.length_drop]
  omega

/-- A buffer that was filled with the bytes of a range holds them. -/
theorem holdsRange_of_filled {object : Object} {offset length buffer : Nat} {world : World}
    (within : offset + length ≤ object.size)
    (filled : Filled buffer (object.slice offset length) world) :
    HoldsRange object offset length buffer world.memory := by
  intro index inside
  have present : offset + index < object.val.length := Nat.lt_of_lt_of_le (by omega) within
  have stored := filled index (by rw [object.length_slice within]; exact inside)
  rw [object.getElem?_slice inside, List.getElem?_eq_getElem present] at stored
  exact ⟨_, List.getElem?_eq_getElem present, stored⟩

/-- A body whose bytes are those of a range is the range. -/
theorem eq_slice_of_holdsRange {object : Object} {offset length buffer : Nat} {body : Block}
    {world : World} (bodyLength : body.length = length) (filled : Filled buffer body world)
    (holds : HoldsRange object offset length buffer world.memory) :
    body = object.slice offset length := by
  apply List.ext_getElem?
  intro index
  by_cases inside : index < length
  · rcases holds index inside with ⟨byte, ofObject, ofMemory⟩
    rw [← filled index (by rw [bodyLength]; exact inside), ofMemory, object.getElem?_slice inside,
      ofObject]
  · rw [List.getElem?_eq_none (by omega), List.getElem?_eq_none]
    rw [Object.slice, List.length_take]
    omega

/-- There are bytes of the object up to the end of a range that a buffer holds. -/
theorem within_of_holdsRange {object : Object} {offset length buffer : Nat} {memory : Block}
    (positive : 0 < length) (holds : HoldsRange object offset length buffer memory) :
    offset + length ≤ object.size := by
  rcases holds (length - 1) (by omega) with ⟨byte, ofObject, -⟩
  have present := (List.getElem?_eq_some_iff.mp ofObject).1
  change _ < object.size at present
  omega

/-! ## Nothing outside the buffer is written -/

namespace Session

variable (session : Session) (readConfig : HTTPReadConfig)

theorem fullDownload_memory (world : World) :
    ((session.fullDownload readConfig).run world).2.memory = world.memory := by
  cases cached : world.fileState.cachedFile with
  | some file => rw [session.fullDownload_of_cached readConfig cached]
  | none =>
      rw [session.fullDownload_of_uncached readConfig cached]
      split
      · rfl
      · split
        · rfl
        · split <;> rfl

section Memory

variable {buffer readSize : Nat} {memory : Block} (within : buffer + readSize ≤ memory.length)
  (location : Nat)

include within

theorem tryRangeRequest_framed (world : World) (framed : Framed buffer readSize memory world.memory) :
    Framed buffer readSize memory ((session.tryRangeRequest readConfig
      ⟨location, some buffer, readSize⟩).run world).2.memory := by
  have requests : ∀ state : World, Framed buffer readSize memory state.memory →
      Framed buffer readSize memory ((session.getRangeRequest readConfig
        ⟨location, some buffer, readSize⟩).run state).2.memory := by
    intro state framed
    have inBuffer : buffer + (⟨location, some buffer, readSize⟩ : Range).bufferOutLen ≤
        state.memory.length := by
      rw [framed.size]
      exact within
    exact framed.trans (session.getRangeRequest_framed readConfig rfl inBuffer)
  refine Action.bind_preserves (motive := fun state : World =>
    Framed buffer readSize memory state.memory) requests ?_ world framed
  intro outcome state framed
  refine Action.bind_preserves (motive := fun state : World =>
    Framed buffer readSize memory state.memory) (fun _ framed => framed) ?_ state framed
  intro _ state framed
  simp only [Action.run_ite, Action.run_pure, Action.run_throw]
  split
  · split <;> exact framed
  · split <;> exact framed

theorem readAt_framed (world : World) (framed : Framed buffer readSize memory world.memory) :
    Framed buffer readSize memory
      ((session.readAt readConfig buffer readSize location).run world).2.memory := by
  simp only [readAt, Action.run_ite, Action.run_throw, Action.run_bind, Action.run_get]
  split
  · exact framed
  · cases cached : world.fileState.cachedFile with
    | none =>
        simp only [Action.run_ite, Action.run_pure]
        split
        · exact session.tryRangeRequest_framed readConfig within location world framed
        · exact framed
    | some file =>
        simp only [Action.run_ite, Action.run_throw, Action.run_bind, Action.run_modify,
          Action.run_pure]
        split
        · exact framed
        · split
          · have size := framed.size
            refine framed.trans (.memcpy (Nat.le_refl buffer) ?_ (by omega))
            rw [List.length_take]
            omega
          · exact framed

theorem readAtWithFallback_framed (length : Nat) (world : World)
    (framed : Framed buffer readSize memory world.memory) :
    Framed buffer readSize memory
      ((session.readAtWithFallback readConfig length buffer readSize location).run
        world).2.memory := by
  have reads := session.readAt_framed readConfig within location
  refine Action.bind_preserves (motive := fun state : World =>
    Framed buffer readSize memory state.memory) reads ?_ world framed
  intro answered state framed
  cases answered with
  | true => exact framed
  | false =>
      refine Action.bind_preserves (motive := fun state : World =>
        Framed buffer readSize memory state.memory) ?_ ?_ state framed
      · intro state framed
        rwa [session.fullDownload_memory readConfig state]
      · intro file state framed
        rw [Action.run_ite]
        split
        · exact framed
        · refine Action.bind_preserves (motive := fun state : World =>
            Framed buffer readSize memory state.memory) reads ?_ state framed
          intro answered state framed
          cases answered with
          | true => exact framed
          | false => exact framed

end Memory

/-! ## How a read returns -/

theorem readAt_of_cached {buffer readSize location : Nat} (positive : 0 < readSize)
    {world after : World} {file : Block} {answered : Bool}
    (cached : world.fileState.cachedFile = some file)
    (returns : (session.readAt readConfig buffer readSize location).run world =
      (.ok answered, after)) :
    answered = true ∧ location + readSize ≤ file.length ∧
      after.memory = memcpy world.memory buffer ((file.drop location).take readSize) := by
  simp only [readAt, Action.run_ite, Action.run_throw, Action.run_bind, Action.run_get, cached,
    Action.run_modify, Action.run_pure, if_pos positive] at returns
  split at returns
  · cases returns
  · split at returns
    · cases returns
    · rename_i fits
      cases returns
      exact ⟨rfl, Nat.le_of_not_lt fits, rfl⟩

theorem readAt_of_uncached {buffer readSize location : Nat} (positive : 0 < readSize)
    (noOverflow : ¬ modulus - 1 - location < readSize) {world : World}
    (uncached : world.fileState.cachedFile = none) :
    (session.readAt readConfig buffer readSize location).run world =
      (session.tryRangeRequest readConfig ⟨location, some buffer, readSize⟩).run world := by
  simp only [readAt, if_neg noOverflow, Action.run_bind, Action.run_get, uncached, if_pos positive]

theorem noOverflow_of_readAt {buffer readSize location : Nat} {world after : World} {answered : Bool}
    (returns : (session.readAt readConfig buffer readSize location).run world =
      (.ok answered, after)) : ¬ modulus - 1 - location < readSize := by
  intro overflows
  simp only [readAt, if_pos overflows, Action.run_throw] at returns
  cases returns

end Session

/-! ## Reads of an object -/

/-- Other bytes than those of the range come in an answer that fills the buffer: an
answer that ignored the range, or one to a range beyond the end of the object. -/
structure Misled (object : Object) (session : Session) (readConfig : HTTPReadConfig)
    (buffer readSize location : Nat) (world : World) : Prop where
  positive : 0 < readSize
  noOverflow : ¬ modulus - 1 - location < readSize
  uncached : world.fileState.cachedFile = none
  asked : ¬ Session.Declined readConfig world
  noneRefused : session.NoneRefused readConfig ⟨location, some buffer, readSize⟩
  answer : ∃ response chunks,
    session.lastAttempt readConfig ⟨location, some buffer, readSize⟩ = .answered response chunks ∧
    Fills readConfig readSize response chunks.flatten ∧
    ((response.status = 200 ∧ chunks.flatten ≠ object.slice location readSize) ∨
      (response.status = 206 ∧ object.size < location + readSize))

section Reading

variable {object : Object} {session : Session} {readConfig : HTTPReadConfig}
  {buffer readSize location : Nat} {world : World}

/-- What is copied from the object is the range. -/
theorem holdsRange_of_copied {memory after : Block} {file : Block} (isObject : file = object.val)
    (inBuffer : buffer + readSize ≤ memory.length) (within : location + readSize ≤ file.length)
    (copied : after = memcpy memory buffer ((file.drop location).take readSize)) :
    HoldsRange object location readSize buffer after := by
  subst isObject copied
  intro index inside
  have present : location + index < object.val.length := by omega
  have copies : index < (object.slice location readSize).length := by
    rw [object.length_slice within]
    exact inside
  refine ⟨_, List.getElem?_eq_getElem present, ?_⟩
  change (memcpy memory buffer (object.slice location readSize))[buffer + index]? = _
  rw [getElem?_memcpy_inside (by omega) copies, object.getElem?_slice inside,
    List.getElem?_eq_getElem present]

theorem readAt_cached_holdsRange (positive : 0 < readSize)
    (inBuffer : buffer + readSize ≤ world.memory.length) {file : Block}
    (cached : world.fileState.cachedFile = some file) (isObject : file = object.val)
    {after : World} {answered : Bool}
    (returns : (session.readAt readConfig buffer readSize location).run world =
      (.ok answered, after)) :
    HoldsRange object location readSize buffer after.memory := by
  rcases session.readAt_of_cached readConfig positive cached returns with ⟨-, within, copied⟩
  exact holdsRange_of_copied isObject inBuffer within copied

/-- A range request that counts as answered read the range, unless it was misled. -/
theorem tryRangeRequest_holdsRange (positive : 0 < readSize)
    (noOverflow : ¬ modulus - 1 - location < readSize)
    (inBuffer : buffer + readSize ≤ world.memory.length)
    (uncached : world.fileState.cachedFile = none)
    (answers : AnswersRange object location readSize
      (session.lastAttempt readConfig ⟨location, some buffer, readSize⟩))
    (notMisled : ¬ Misled object session readConfig buffer readSize location world) {after : World}
    (returns : (session.tryRangeRequest readConfig ⟨location, some buffer, readSize⟩).run world =
      (.ok true, after)) :
    HoldsRange object location readSize buffer after.memory := by
  rcases session.tryRangeRequest_of_true readConfig rfl inBuffer returns with
    ⟨response, chunks, last, status⟩ |
      ⟨asked, noneRefused, response, chunks, last, good, fills, filled⟩
  · rw [last] at answers
    exact absurd status answers.status.1
  · have honest : ¬ ((response.status = 200 ∧ chunks.flatten ≠ object.slice location readSize) ∨
        (response.status = 206 ∧ object.size < location + readSize)) := by
      intro other
      exact notMisled ⟨positive, noOverflow, uncached, asked, noneRefused, response, chunks, last,
        fills, other⟩
    rw [not_or, not_and, not_and, not_not, Nat.not_lt] at honest
    have isSlice : chunks.flatten = object.slice location readSize ∧
        location + readSize ≤ object.size := by
      rw [last] at answers
      have length := fills.length
      cases answers with
      | fails _ fails =>
          cases fails with
          | answered _ _ high => exact absurd good (Nat.not_lt.mpr high)
      | honours _ _ status sent =>
          have within := honest.2 status
          refine ⟨sent.eq_of_length ?_, within⟩
          rw [object.length_slice within]
          exact length
      | ignores _ _ status =>
          have same := honest.1 status
          refine ⟨same, ?_⟩
          rw [same, Object.slice, List.length_take, List.length_drop] at length
          change min readSize (object.size - location) = readSize at length
          omega
    rw [isSlice.1] at filled
    exact holdsRange_of_filled isSlice.2 filled

/-- A full download of the right size gives the object. -/
theorem fullDownload_eq_object (uncached : world.fileState.cachedFile = none)
    (answersWhole : AnswersWhole object (session.wholeFile readConfig)) {file : Block}
    {after : World} (returns : (session.fullDownload readConfig).run world = (.ok file, after))
    (length : file.length = object.size) :
    file = object.val ∧ after.fileState.cachedFile = some file := by
  rcases session.fullDownload_cases readConfig returns with
    ⟨cached, -⟩ | ⟨-, rfl, response, chunks, last, status, -, rfl⟩
  · rw [uncached] at cached
    cases cached
  · refine ⟨?_, rfl⟩
    rw [last] at answersWhole
    cases answersWhole with
    | fails _ fails =>
        cases fails with
        | answered _ _ high => omega
    | whole _ _ _ sent => exact sent.eq_of_length length

theorem tryRangeRequest_cachedFile (session : Session) (readConfig : HTTPReadConfig)
    (range : Range) (world : World) :
    ((session.tryRangeRequest readConfig range).run world).2.fileState.cachedFile =
      world.fileState.cachedFile := by
  let same := fun state : World => state.fileState.cachedFile = world.fileState.cachedFile
  have requests : ∀ state, same state →
      same ((session.getRangeRequest readConfig range).run state).2 := fun state isSame =>
    (session.getRangeRequest_cachedFile readConfig range state).trans isSame
  refine Action.bind_preserves requests ?_ world rfl
  intro outcome state isSame
  refine Action.bind_preserves (motive := same) (fun _ isSame => isSame) ?_ state isSame
  intro _ state isSame
  simp only [Action.run_ite, Action.run_pure, Action.run_throw]
  split
  · split <;> exact isSame
  · split <;> exact isSame

theorem read_holdsRange (caches : CachesObject object world)
    (inBuffer : buffer + readSize ≤ world.memory.length)
    (answersRange : AnswersRange object location readSize
      (session.lastAttempt readConfig ⟨location, some buffer, readSize⟩))
    (answersWhole : AnswersWhole object (session.wholeFile readConfig))
    (notMisled : ¬ Misled object session readConfig buffer readSize location world) {after : World}
    (returns : (session.read readConfig object.size buffer readSize location).run world =
      (.ok (), after)) :
    HoldsRange object location readSize buffer after.memory := by
  rcases Nat.eq_zero_or_pos readSize with rfl | positive
  · exact nofun
  · rw [Session.read, if_neg positive.ne', Session.readAtWithFallback,
      Action.run_bind_eq_ok_iff] at returns
    rcases returns with ⟨answered, between, reads, returns⟩
    have noOverflow := session.noOverflow_of_readAt readConfig reads
    cases cached : world.fileState.cachedFile with
    | some file =>
        have isObject := caches file cached
        have isTrue := (session.readAt_of_cached readConfig positive cached reads).1
        subst isTrue
        cases returns
        exact readAt_cached_holdsRange positive inBuffer cached isObject reads
    | none =>
        rw [session.readAt_of_uncached readConfig positive noOverflow cached] at reads
        cases answered with
        | true =>
            cases returns
            exact tryRangeRequest_holdsRange positive noOverflow inBuffer cached answersRange
              notMisled reads
        | false =>
            have uncached : between.fileState.cachedFile = none := by
              have same := tryRangeRequest_cachedFile session readConfig
                ⟨location, some buffer, readSize⟩ world
              rw [reads] at same
              exact same.trans cached
            have framed := session.tryRangeRequest_framed readConfig inBuffer location world
              (.refl _)
            rw [reads] at framed
            rw [if_neg Bool.false_ne_true, Action.run_bind_eq_ok_iff] at returns
            rcases returns with ⟨file, downloaded, downloads, returns⟩
            have memory := session.fullDownload_memory readConfig between
            rw [downloads] at memory
            rw [Action.run_ite] at returns
            split at returns
            · simp only [Action.run_bind, Action.run_modify, Action.run_throw] at returns
              cases returns
            · rename_i sameLength
              rcases fullDownload_eq_object uncached answersWhole downloads
                (Decidable.of_not_not sameLength) with ⟨isObject, cachedNow⟩
              rw [Action.run_bind_eq_ok_iff] at returns
              rcases returns with ⟨again, final, readsAgain, returns⟩
              have isTrue := (session.readAt_of_cached readConfig positive cachedNow readsAgain).1
              subst isTrue
              cases returns
              refine readAt_cached_holdsRange positive ?_ cachedNow isObject readsAgain
              rw [memory, framed.size]
              exact inBuffer

/-- A read that is misled returns without the bytes of the range. -/
theorem Misled.read (misled : Misled object session readConfig buffer readSize location world)
    (inBuffer : buffer + readSize ≤ world.memory.length) :
    ∃ after, (session.read readConfig object.size buffer readSize location).run world =
      (.ok (), after) ∧ ¬ HoldsRange object location readSize buffer after.memory := by
  rcases misled.answer with ⟨response, chunks, last, fills, wrong⟩
  have status : response.status = 200 ∨ response.status = 206 := wrong.imp And.left And.left
  rcases session.tryRangeRequest_of_fills readConfig rfl inBuffer misled.asked misled.noneRefused
    last status fills with ⟨after, answered, filled⟩
  have positive := misled.positive
  rw [← session.readAt_of_uncached readConfig positive misled.noOverflow misled.uncached]
    at answered
  refine ⟨after, ?_, ?_⟩
  · rw [Session.read, if_neg positive.ne', Session.readAtWithFallback,
      Action.run_bind_of_ok answered, if_pos rfl, Action.run_pure]
  · intro holds
    rcases wrong with ⟨-, other⟩ | ⟨-, beyond⟩
    · exact other (eq_slice_of_holdsRange fills.length filled holds)
    · exact absurd (within_of_holdsRange positive holds) (Nat.not_le.mpr beyond)

/-- A read that returns filled the buffer with the range and changed no other memory,
exactly if it is not misled. -/
theorem read_exact_iff (caches : CachesObject object world)
    (inBuffer : buffer + readSize ≤ world.memory.length)
    (answersRange : AnswersRange object location readSize
      (session.lastAttempt readConfig ⟨location, some buffer, readSize⟩))
    (answersWhole : AnswersWhole object (session.wholeFile readConfig)) :
    ((∀ after, (session.read readConfig object.size buffer readSize location).run world =
        (.ok (), after) → HoldsRange object location readSize buffer after.memory) ∧
      Framed buffer readSize world.memory
        ((session.read readConfig object.size buffer readSize location).run world).2.memory) ↔
      ¬ Misled object session readConfig buffer readSize location world := by
  constructor
  · rintro ⟨reads, -⟩ misled
    rcases misled.read inBuffer with ⟨after, returns, wrong⟩
    exact wrong (reads after returns)
  · intro notMisled
    constructor
    · intro after returns
      exact read_holdsRange caches inBuffer answersRange answersWhole notMisled returns
    · rw [Session.read]
      split
      · exact .refl _
      · exact session.readAtWithFallback_framed readConfig inBuffer location object.size world
          (.refl _)

end Reading

private def fourBytes : Object :=
  ⟨[1, 2, 3, 4], by decide⟩

/-- A server of four bytes with one answer to all requests. -/
private def oneAnswer (status : Nat) (body : Block) : Session where
  util := .plain
  server :=
    { head := fun _ => .ok ⟨405, "", [], ""⟩
      get := fun _ => ⟨[], .answered ⟨status, "", [], ""⟩ [body]⟩ }
  path := "http://host/file"
  params := {}
  configuredHeaders := []

private theorem oneAnswer_fills (readConfig : HTTPReadConfig) (status : Nat) (body : Block) :
    Fills readConfig [body].flatten.length ⟨status, "", [], ""⟩ [body].flatten where
  received := rfl
  agrees := by simp [etagAgrees, HTTPResponse.header?]
  passes := nofun
  length := rfl

theorem read_exact_iff_wholeFile :
    (∀ after, ((oneAnswer 200 [1, 2, 3, 4]).read {} 4 0 4 0).run { memory := [0, 0, 0, 0] } =
        (.ok (), after) → HoldsRange fourBytes 0 4 0 after.memory) ∧
      Framed 0 4 [0, 0, 0, 0]
        (((oneAnswer 200 [1, 2, 3, 4]).read {} 4 0 4 0).run
          { memory := [0, 0, 0, 0] }).2.memory := by
  have whole : CutOrOverrun fourBytes.val [[1, 2, 3, 4]].flatten := .inl (List.prefix_refl _)
  have inBuffer : 0 + 4 ≤ ({ memory := [0, 0, 0, 0] } : World).memory.length := by decide
  have answersRange : AnswersRange fourBytes 0 4
      ((oneAnswer 200 [1, 2, 3, 4]).lastAttempt {} ⟨0, some 0, 4⟩) := .ignores _ _ rfl whole
  have answersWhole : AnswersWhole fourBytes ((oneAnswer 200 [1, 2, 3, 4]).wholeFile {}) :=
    .whole _ _ rfl whole
  refine (read_exact_iff ?_ inBuffer answersRange answersWhole).mpr ?_
  · rintro _ ⟨⟩
  · rintro ⟨-, -, -, -, -, response, chunks, last, -, ⟨-, other⟩ | ⟨status, -⟩⟩
    · cases last
      exact other rfl
    · cases last
      cases status

/-- A server that ignores the range and whose body is cut off after two bytes: the last
two bytes of four are read as the first two. -/
theorem read_firstTwo_as_lastTwo :
    AnswersRange fourBytes 2 2 ((oneAnswer 200 [1, 2]).lastAttempt {} ⟨2, some 0, 2⟩) ∧
      AnswersWhole fourBytes ((oneAnswer 200 [1, 2]).wholeFile {}) ∧
      ∃ after, ((oneAnswer 200 [1, 2]).read {} 4 0 2 2).run { memory := [0, 0] } = (.ok (), after) ∧
        ¬ HoldsRange fourBytes 2 2 0 after.memory := by
  have cut : CutOrOverrun fourBytes.val [[1, 2]].flatten := .inl ⟨[3, 4], rfl⟩
  refine ⟨.ignores _ _ rfl cut, .whole _ _ rfl cut, ?_⟩
  have misled : Misled fourBytes (oneAnswer 200 [1, 2]) {} 0 2 2 { memory := [0, 0] } := by
    refine ⟨by decide, by decide, rfl, ?_, nofun, _, _, rfl, oneAnswer_fills {} 200 [1, 2],
      .inl ⟨rfl, by decide⟩⟩
    rintro ⟨⟨⟩, -⟩
  exact misled.read (by decide)

end Httpfs.Http.File
