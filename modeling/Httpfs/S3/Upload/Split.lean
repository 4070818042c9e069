import Httpfs.S3.Upload.PrepareWrite

/-!
# Correctness of splitting

`Split` relates the bytes written so far to the parts reserved so far and the
bytes still buffered.  The critical section of `PrepareWrite` maintains it,
wraps no 64-bit operation and never exceeds the part budget, because every
reserved part has at least its scheduled size and the schedule covers the
largest admitted file.
-/

namespace Httpfs.S3.Upload

open Httpfs.Word64
open S3UploadConfig

variable {block : StorageBlock} {config : S3UploadConfig}

/-- Scheduled size of the part with the given 0-based position. -/
def partCapacity (config : S3UploadConfig) (position : Nat) : Nat :=
  scheduledSize config.initialPartSize config.growthInterval position

theorem partSize_eq_partCapacity (created : config.Created block) (position : Nat) :
    config.partSize position = pure (partCapacity config position) :=
  created.partSize_eq position

theorem partCapacity_le_max (config : S3UploadConfig) (position : Nat) :
    partCapacity config position ≤ maxMultipartPartSize :=
  scheduledSize_le_max _ _ _

theorem min_le_partCapacity (created : config.Created block) (position : Nat) :
    minMultipartPartSize ≤ partCapacity config position :=
  created.initial.min_le.trans (initial_le_scheduledSize created.initial.le_max _ _)

theorem partCapacity_pos (created : config.Created block) (position : Nat) :
    0 < partCapacity config position :=
  (show 0 < minMultipartPartSize by decide).trans_le (min_le_partCapacity created position)

private theorem max_lt_word : maxMultipartPartSize < modulus := by
  decide

private theorem parts_lt_word : maxMultipartParts + 1 < modulus := by
  decide

/-! ## Sized parts -/

/-- Every part has at least its scheduled size and at most the largest size. -/
def Sized (config : S3UploadConfig) (parts : List Bytes) : Prop :=
  ∀ position part, parts[position]? = some part →
    partCapacity config position ≤ part.length ∧ part.length ≤ maxMultipartPartSize

theorem sized_nil (config : S3UploadConfig) : Sized config [] := by
  intro position part found
  simp at found

theorem Sized.append_singleton {parts : List Bytes} {part : Bytes}
    (sized : Sized config parts) (lower : partCapacity config parts.length ≤ part.length)
    (upper : part.length ≤ maxMultipartPartSize) : Sized config (parts ++ [part]) := by
  intro position found lookup
  rcases Nat.lt_trichotomy position parts.length with before | last | after
  · rw [List.getElem?_append_left before] at lookup
    exact sized position found lookup
  · subst last
    simp only [List.getElem?_concat_length, Option.some.injEq] at lookup
    subst lookup
    exact ⟨lower, upper⟩
  · rw [List.getElem?_eq_none (by simp; omega)] at lookup
    contradiction

theorem Sized.of_append {front back : List Bytes} (sized : Sized config (front ++ back)) :
    Sized config front := by
  intro position part lookup
  apply sized position part
  rw [List.getElem?_append_left (List.getElem?_eq_some_iff.mp lookup).1]
  exact lookup

/-- Sized parts fill the schedule. -/
theorem Sized.capacity_le {parts : List Bytes} (sized : Sized config parts) :
    scheduleCapacity config.initialPartSize config.growthInterval parts.length ≤
      parts.flatten.length := by
  induction parts using List.reverseRecOn with
  | nil => simp [scheduleCapacity]
  | append_singleton parts part inductionHypothesis =>
      have front := inductionHypothesis sized.of_append
      have last := (sized parts.length part (by simp)).1
      rw [List.length_append, List.length_singleton, scheduleCapacity,
        Finset.sum_range_succ, List.flatten_append, List.length_append]
      simp only [List.flatten_cons, List.flatten_nil, List.append_nil]
      exact Nat.add_le_add front last

/-- While bytes of an admitted file remain, a part number remains. -/
theorem Sized.length_lt_maxParts (created : config.Created block) {parts : List Bytes}
    (sized : Sized config parts) {total : Nat} (more : parts.flatten.length < total)
    (admitted : total ≤ config.maxFileSize) : parts.length < config.maxParts := by
  by_contra exhausted
  have covered := created.initial.covers
  have monotone := scheduleCapacity_le_of_le config.initialPartSize config.growthInterval
    (show config.maxParts ≤ parts.length by omega)
  have filled := sized.capacity_le
  omega

/-! ## The splitting relation -/

/-- The write took the part numbers behind `etags` in order, one empty etag
slot each. -/
structure Numbered (etags : List String) (reserving : Reserving) : Prop where
  etags_eq : reserving.partEtags = etags ++ List.replicate reserving.parts.length ""
  numbers : reserving.parts.map PreparedPart.partNumber =
    List.range' (etags.length + 1) reserving.parts.length

theorem numbered_nil (etags : List String) (buffered : Option BufferedPart) :
    Numbered etags ⟨etags, [], buffered⟩ :=
  ⟨by simp, by simp⟩

theorem Numbered.reserve {etags : List String} {reserving : Reserving}
    (numbered : Numbered etags reserving) (data : Bytes) (buffered : Option BufferedPart) :
    Numbered etags
      { partEtags := reserving.partEtags ++ [""]
        parts := reserving.parts ++ [⟨reserving.partEtags.length + 1, data⟩]
        bufferedPart := buffered } := by
  constructor
  · rw [numbered.etags_eq]
    simp [List.replicate_succ']
  · rw [List.map_append, numbered.numbers, List.length_append, List.length_singleton,
      List.range'_concat]
    simp [numbered.etags_eq]
    omega

/-- State of a split after `inputOffset` bytes of `data`: `reserved` are the
parts of earlier writes, `prior` the bytes of earlier writes. -/
structure Split (config : S3UploadConfig) (etags : List String) (reserved : List Bytes)
    (prior data : Bytes) (reserving : Reserving) (inputOffset : Nat) : Prop
    extends Numbered etags reserving where
  offset_le : inputOffset ≤ data.length
  content : (reserved ++ reserving.parts.map PreparedPart.data).flatten ++
    bufferedBytes reserving.bufferedPart = prior ++ data.take inputOffset
  sized : Sized config (reserved ++ reserving.parts.map PreparedPart.data)
  multipart : reserved ++ reserving.parts.map PreparedPart.data ≠ [] →
    partCapacity config 0 < prior.length + data.length

/-- A buffered part is nonempty and has the scheduled size of the next part
number. -/
def BufferScheduled (config : S3UploadConfig) (reservedParts : Nat)
    (buffered : Option BufferedPart) : Prop :=
  ∀ part, buffered = some part →
    part.capacity = partCapacity config reservedParts ∧ 0 < part.size

namespace Split

variable {etags : List String} {reserved : List Bytes} {prior data : Bytes}
  {reserving : Reserving} {inputOffset : Nat}

/-- All parts reserved so far, by earlier writes and by this one. -/
def parts (reserved : List Bytes) (reserving : Reserving) : List Bytes :=
  reserved ++ reserving.parts.map PreparedPart.data

theorem partEtags_length (split : Split config etags reserved prior data reserving inputOffset)
    (aligned : etags.length = reserved.length) :
    reserving.partEtags.length = (parts reserved reserving).length := by
  rw [split.etags_eq, parts]
  simp [aligned]

theorem content_length
    (split : Split config etags reserved prior data reserving inputOffset) :
    (parts reserved reserving).flatten.length +
      (bufferedBytes reserving.bufferedPart).length = prior.length + inputOffset := by
  have lengths := congrArg List.length split.content
  have offset := split.offset_le
  simp only [List.length_append, List.length_take] at lengths
  rw [parts]
  omega

/-- Reserving a part of scheduled size extends the split, whatever bytes the
part moves out of the buffer and out of the input. -/
theorem reserve (created : config.Created block)
    (split : Split config etags reserved prior data reserving inputOffset)
    (aligned : etags.length = reserved.length)
    (admitted : prior.length + data.length ≤ config.maxFileSize)
    {part : Bytes} {nextOffset : Nat}
    (lower : partCapacity config (parts reserved reserving).length ≤ part.length)
    (upper : part.length ≤ maxMultipartPartSize)
    (offset : nextOffset ≤ data.length)
    (moved : (parts reserved reserving).flatten ++ part = prior ++ data.take nextOffset)
    (follows : (parts reserved reserving) = [] → part.length = partCapacity config 0 →
      nextOffset < data.length) :
    reservePart config { reserving with bufferedPart := none } part =
        pure (.ok { reserving with
          partEtags := reserving.partEtags ++ [""]
          parts := reserving.parts ++ [⟨reserving.partEtags.length + 1, part⟩]
          bufferedPart := none }) ∧
      Split config etags reserved prior data
        { reserving with
          partEtags := reserving.partEtags ++ [""]
          parts := reserving.parts ++ [⟨reserving.partEtags.length + 1, part⟩]
          bufferedPart := none } nextOffset := by
  have length := split.partEtags_length aligned
  have movedLength : (parts reserved reserving).flatten.length + part.length =
      prior.length + nextOffset := by
    have lengths := congrArg List.length moved
    simp only [List.length_append, List.length_take] at lengths
    omega
  have positive := partCapacity_pos created (parts reserved reserving).length
  have budget : (parts reserved reserving).length < config.maxParts :=
    split.sized.length_lt_maxParts created
      (show (reserved ++ reserving.parts.map PreparedPart.data).flatten.length <
          prior.length + nextOffset by
        change (parts reserved reserving).flatten.length < _
        omega) (by omega)
  have limit := created.parts_le
  have word := parts_lt_word
  constructor
  · rw [reservePart, if_neg (by simp [hasPartCapacity, length, budget]),
      add_eq_pure (by simp only [length]; omega), pure_bind]
  · refine ⟨split.toNumbered.reserve part none, offset, ?_, ?_, ?_⟩
    · simpa [parts] using moved
    · have extended := split.sized.append_singleton lower upper
      simpa using extended
    · intro _
      rcases List.eq_nil_or_concat (parts reserved reserving) with empty | ⟨_, _, nonempty⟩
      · have first := lower
        rw [empty, List.length_nil] at first
        have bytes : part.length = prior.length + nextOffset := by
          rw [empty] at movedLength
          simpa using movedLength
        rcases Nat.eq_or_lt_of_le first with exact | larger
        · have := follows empty exact.symm
          omega
        · omega
      · apply split.multipart
        change parts reserved reserving ≠ []
        rw [nonempty]
        simp

end Split

/-! ## The critical section -/

theorem appendToBufferedPart_eq (part : BufferedPart) (data : Bytes)
    (bound : part.capacity < modulus) :
    ∃ filled, appendToBufferedPart part data =
        pure (filled, min data.length (part.capacity - part.size)) ∧
      filled.capacity = part.capacity ∧
      filled.bytes = part.bytes ++ data.take (min data.length (part.capacity - part.size)) := by
  have fits := part.size_le
  have space : sub part.capacity part.size = pure (part.capacity - part.size) :=
    sub_eq_pure fits bound
  refine ⟨⟨part.capacity, part.bytes ++
    data.take (min data.length (part.capacity - part.size)), ?_⟩, ?_, rfl, rfl⟩
  · simp only [List.length_append, List.length_take, BufferedPart.size]
    omega
  · apply Machine.ext
    · simp [appendToBufferedPart, space]
    · have sum : part.size + min data.length (part.capacity - part.size) < modulus := by
        have : part.size ≤ part.capacity := fits
        omega
      simp only [appendToBufferedPart, space, Machine.val_pure, Machine.exact_pure,
        add_eq_pure sum, Bool.and_self]

theorem le_of_shouldBuffer {partEtags : List String} {remaining partSize : Nat}
    (buffers : shouldBuffer partEtags remaining partSize = true) : remaining ≤ partSize := by
  unfold shouldBuffer at buffers
  split at buffers <;> simp at buffers <;> omega

theorem ge_of_not_shouldBuffer {partEtags : List String} {remaining partSize : Nat}
    (direct : shouldBuffer partEtags remaining partSize = false) :
    partSize ≤ remaining ∧ (partEtags = [] → partSize < remaining) := by
  unfold shouldBuffer at direct
  split at direct
  · simp at direct
    exact ⟨direct.le, fun _ => direct⟩
  · rename_i nonempty
    simp at direct nonempty
    exact ⟨direct, fun empty => absurd empty nonempty⟩

section CriticalSection

variable {etags : List String} {reserved : List Bytes} {prior data : Bytes}

/-- Outcome of topping up the buffer: the split goes on behind the bytes that
filled it, and the buffer is gone whenever input remains. -/
theorem fillBufferedPart_spec (created : config.Created block)
    (aligned : etags.length = reserved.length)
    (admitted : prior.length + data.length ≤ config.maxFileSize)
    {buffered : Option BufferedPart}
    (split : Split config etags reserved prior data ⟨etags, [], buffered⟩ 0)
    (scheduled : BufferScheduled config reserved.length buffered) :
    ∃ reserving inputOffset,
      fillBufferedPart config ⟨etags, [], buffered⟩ data = pure (.ok (reserving, inputOffset)) ∧
      Split config etags reserved prior data reserving inputOffset ∧
      BufferScheduled config (Split.parts reserved reserving).length reserving.bufferedPart ∧
      (inputOffset < data.length → reserving.bufferedPart = none) := by
  have unsplit : Split.parts reserved ⟨etags, [], buffered⟩ = reserved := by
    simp [Split.parts]
  have budgetBytes := split.content_length
  rw [unsplit] at budgetBytes
  cases buffered with
  | none =>
      refine ⟨_, 0, rfl, split, ?_, fun _ => rfl⟩
      rw [unsplit]
      exact scheduled
  | some part =>
      obtain ⟨capacityEq, positive⟩ := scheduled part rfl
      have upper : part.bytes.length ≤ maxMultipartPartSize := by
        have := part.size_le
        have := partCapacity_le_max config reserved.length
        omega
      have content : reserved.flatten ++ part.bytes = prior := by
        simpa using split.content
      simp only [fillBufferedPart]
      split_ifs with emptyInput full
      · refine ⟨_, 0, rfl, split, ?_, fun more => ?_⟩
        · rw [unsplit]
          exact scheduled
        · omega
      · -- A full buffer is reserved before any input is looked at.
        have moved : (Split.parts reserved ⟨etags, [], some part⟩).flatten ++ part.bytes =
            prior ++ data.take 0 := by
          simpa [unsplit] using content
        obtain ⟨reserveEq, extended⟩ := split.reserve created aligned admitted
          (by rw [unsplit, ← capacityEq, ← full]; exact le_refl _) upper (Nat.zero_le _)
          moved (fun _ _ => by omega)
        refine ⟨_, 0, ?_, extended, ?_, fun _ => rfl⟩
        · rw [reserveEq, pure_bind]
          rfl
        · intro absent impossible
          contradiction
      · obtain ⟨filled, appendEq, filledCapacity, filledBytes⟩ :=
          appendToBufferedPart_eq part data (by
            have := partCapacity_le_max config reserved.length
            have := max_lt_word
            omega)
        set copied := min data.length (part.capacity - part.size) with copiedEq
        have sizeLe : part.size ≤ part.capacity := part.size_le
        have filledSize : filled.size = part.size + copied := by
          rw [BufferedPart.size, filledBytes, List.length_append, List.length_take,
            BufferedPart.size]
          omega
        rw [appendEq, pure_bind]
        dsimp only
        split_ifs with fullNow
        · obtain ⟨fullCapacity, more⟩ := fullNow
          have moved : (Split.parts reserved ⟨etags, [], some part⟩).flatten ++ filled.bytes =
              prior ++ data.take copied := by
            rw [unsplit, filledBytes, ← List.append_assoc, content]
          obtain ⟨reserveEq, extended⟩ := split.reserve created aligned admitted
            (by rw [unsplit, ← capacityEq, ← filledCapacity, ← fullCapacity]; exact le_refl _)
            (by
              have := filled.size_le
              have := partCapacity_le_max config reserved.length
              omega)
            more.le moved (fun _ _ => more)
          refine ⟨_, copied, ?_, extended, ?_, fun _ => rfl⟩
          · rw [reserveEq, pure_bind]
            rfl
          · intro absent impossible
            contradiction
        · -- The buffer absorbed the whole input.
          have absorbed : copied = data.length := by omega
          refine ⟨_, copied, rfl, ?_, ?_, fun more => by omega⟩
          · refine ⟨⟨split.etags_eq, split.numbers⟩, absorbed.le, ?_, split.sized,
              split.multipart⟩
            simp [filledBytes, ← content, List.append_assoc]
          · intro kept keptEq
            cases keptEq
            rw [show Split.parts reserved ⟨etags, [], some filled⟩ = reserved by
              simp [Split.parts]]
            exact ⟨filledCapacity.trans capacityEq, by omega⟩

/-- Outcome of the loop: either it fails with the allocation error, or the
whole input is split. -/
theorem reserveLoop_spec (created : config.Created block)
    (aligned : etags.length = reserved.length)
    (admitted : prior.length + data.length ≤ config.maxFileSize)
    (allocation : Option ErrorData) {rounds inputOffset : Nat} {reserving : Reserving}
    (split : Split config etags reserved prior data reserving inputOffset)
    (scheduled : BufferScheduled config (Split.parts reserved reserving).length
      reserving.bufferedPart)
    (unbuffered : inputOffset < data.length → reserving.bufferedPart = none)
    (enough : data.length ≤ inputOffset + rounds) :
    ∃ result, (reserveLoop config allocation data rounds reserving inputOffset =
        pure (result, none) ∧
        Split config etags reserved prior data result data.length ∧
        BufferScheduled config (Split.parts reserved result).length result.bufferedPart) ∨
      (∃ error, allocation = some error ∧
        reserveLoop config allocation data rounds reserving inputOffset =
          pure (result, some error)) := by
  have word := created.fileSize_lt_modulus
  induction rounds generalizing reserving inputOffset with
  | zero =>
      have finished : inputOffset = data.length := by
        have := split.offset_le
        omega
      subst finished
      exact ⟨reserving, Or.inl ⟨rfl, split, scheduled⟩⟩
  | succ rounds inductionHypothesis =>
      simp only [reserveLoop]
      rcases Nat.lt_or_ge inputOffset data.length with more | consumed
      · rw [if_pos more]
        have length := split.partEtags_length aligned
        have emptied := unbuffered more
        have content : (Split.parts reserved reserving).flatten =
            prior ++ data.take inputOffset := by
          simpa [emptied, Split.parts] using split.content
        have flattenLength : (Split.parts reserved reserving).flatten.length =
            prior.length + inputOffset := by
          simpa [emptied] using split.content_length
        have emptyEtags (empty : Split.parts reserved reserving = []) :
            reserving.partEtags = [] := by
          rw [empty] at length
          exact List.length_eq_zero_iff.mp length
        have capacityLe := partCapacity_le_max config (Split.parts reserved reserving).length
        have positive := partCapacity_pos created (Split.parts reserved reserving).length
        have maxWord := max_lt_word
        rw [sub_eq_pure more.le (by omega), pure_bind, partSize_eq_partCapacity created,
          pure_bind, length]
        cases buffers : shouldBuffer reserving.partEtags (data.length - inputOffset)
            (partCapacity config (Split.parts reserved reserving).length) with
        | true =>
            simp only [if_true]
            cases allocation with
            | some error => exact ⟨reserving, Or.inr ⟨error, rfl, rfl⟩⟩
            | none =>
                have fits := le_of_shouldBuffer buffers
                obtain ⟨filled, appendEq, filledCapacity, filledBytes⟩ :=
                  appendToBufferedPart_eq
                    (.allocate (partCapacity config (Split.parts reserved reserving).length))
                    (data.drop inputOffset) (by
                      change partCapacity config _ < modulus
                      omega)
                have whole : filled.bytes = data.drop inputOffset := by
                  rw [filledBytes]
                  simp only [BufferedPart.allocate, BufferedPart.size, List.length_nil,
                    Nat.sub_zero, List.nil_append, List.length_drop]
                  exact List.take_of_length_le (by simp; omega)
                refine ⟨{ reserving with bufferedPart := some filled }, Or.inl ⟨?_, ?_, ?_⟩⟩
                · dsimp only
                  rw [appendEq, pure_bind, add_eq_pure, pure_bind]
                  simp only [BufferedPart.allocate, BufferedPart.size, List.length_nil,
                    List.length_drop]
                  omega
                · refine ⟨⟨split.etags_eq, split.numbers⟩, le_refl _, ?_, split.sized,
                    split.multipart⟩
                  change (Split.parts reserved reserving).flatten ++ filled.bytes = _
                  rw [content, whole, List.append_assoc, List.take_append_drop,
                    List.take_length]
                · intro kept keptEq
                  cases keptEq
                  refine ⟨filledCapacity, ?_⟩
                  rw [BufferedPart.size, whole, List.length_drop]
                  omega
        | false =>
            obtain ⟨large, larger⟩ := ge_of_not_shouldBuffer buffers
            simp only [Bool.false_eq_true, if_false]
            set directSize := min (data.length - inputOffset) maxMultipartPartSize
              with directSizeEq
            have directLength : ((data.drop inputOffset).take directSize).length =
                directSize := by
              simp only [List.length_take, List.length_drop]
              omega
            have moved : (Split.parts reserved reserving).flatten ++
                (data.drop inputOffset).take directSize =
                  prior ++ data.take (inputOffset + directSize) := by
              rw [content, List.append_assoc, List.take_add]
            obtain ⟨reserveEq, extended⟩ := split.reserve created aligned admitted
              (by rw [directLength]; omega) (by rw [directLength]; omega) (by omega) moved
              (by
                -- A first part of exactly the scheduled size is the largest part, and
                -- more than that remains.
                intro empty exact
                have := larger (emptyEtags empty)
                rw [empty, List.length_nil] at this
                rw [directLength] at exact
                omega)
            have unchanged : { reserving with bufferedPart := none } = reserving := by
              rw [← emptied]
            rw [unchanged] at reserveEq
            have next := inductionHypothesis extended (by intro _ absent; contradiction)
              (fun _ => rfl) (by omega)
            rw [reserveEq, pure_bind]
            dsimp only
            rw [add_eq_pure (by omega), pure_bind]
            exact next
      · have finished : inputOffset = data.length := by
          have := split.offset_le
          omega
        subst finished
        rw [if_neg (by omega)]
        exact ⟨reserving, Or.inl ⟨rfl, split, scheduled⟩⟩

end CriticalSection

/-- The session accounts for the bytes written so far: they are the reserved
parts in number order followed by the buffer. -/
structure Layout (config : S3UploadConfig) (session : Session) (reserved : List Bytes)
    (written : Bytes) : Prop where
  aligned : session.partEtags.length = reserved.length
  content : reserved.flatten ++ bufferedBytes session.bufferedPart = written
  offset_eq : session.nextOffset = written.length
  offset_le : session.nextOffset ≤ config.maxFileSize
  sized : Sized config reserved
  scheduled : BufferScheduled config reserved.length session.bufferedPart
  multipart : reserved ≠ [] → partCapacity config 0 < written.length

theorem layout_initial (config : S3UploadConfig) : Layout config .initial [] [] where
  aligned := rfl
  content := rfl
  offset_eq := rfl
  offset_le := Nat.zero_le _
  sized := sized_nil config
  scheduled := by
    intro part found
    contradiction
  multipart := fun nonempty => absurd rfl nonempty

/-- A write at the expected offset that fits the file is split without
wrapping.  Only a failed allocation can stop it; otherwise the part numbers it
takes are the next ones and the layout holds for all bytes including its own. -/
theorem prepareWriteLocked_spec (created : config.Created block) {session : Session}
    {reserved : List Bytes} {written : Bytes} (layout : Layout config session reserved written)
    {data : Bytes} (fits : written.length + data.length ≤ config.maxFileSize)
    (allocation : Option ErrorData) :
    ∃ next result,
      prepareWriteLocked config session data session.nextOffset allocation =
        pure (next, result) ∧
      ((∃ parts, result = .ok parts ∧
        next.nextOffset = session.nextOffset + data.length ∧
        Layout config next (reserved ++ parts.map PreparedPart.data) (written ++ data)) ∨
      (∃ error, allocation = some error ∧ result = .error error)) := by
  have word := created.fileSize_lt_modulus
  have offset := layout.offset_eq
  have start : Split config session.partEtags reserved written data
      ⟨session.partEtags, [], session.bufferedPart⟩ 0 := by
    refine ⟨numbered_nil _ _, Nat.zero_le _, ?_, ?_, ?_⟩
    · simpa using layout.content
    · simpa using layout.sized
    · intro nonempty
      have := layout.multipart (by simpa using nonempty)
      omega
  obtain ⟨filled, inputOffset, fillEq, fillSplit, fillScheduled, unbuffered⟩ :=
    fillBufferedPart_spec created layout.aligned fits start layout.scheduled
  obtain ⟨result, outcome⟩ := reserveLoop_spec created layout.aligned fits allocation
    fillSplit fillScheduled unbuffered (show data.length ≤ inputOffset + data.length by omega)
  rw [prepareWriteLocked, if_neg (by simp), sub_eq_pure layout.offset_le word, pure_bind,
    if_neg (by omega), fillEq, pure_bind]
  dsimp only
  rcases outcome with ⟨loopEq, split, scheduled⟩ | ⟨error, allocationEq, loopEq⟩
  · rw [loopEq, pure_bind]
    dsimp only
    rw [add_eq_pure (by omega), pure_bind]
    refine ⟨_, _, rfl, Or.inl ⟨result.parts, rfl, rfl, ?_⟩⟩
    refine ⟨?_, ?_, ?_, ?_, split.sized, scheduled, ?_⟩
    · exact split.partEtags_length layout.aligned
    · simpa using split.content
    · change session.nextOffset + data.length = _
      rw [List.length_append, offset]
    · change session.nextOffset + data.length ≤ _
      omega
    · intro nonempty
      rw [List.length_append]
      exact split.multipart nonempty
  · rw [loopEq, pure_bind]
    exact ⟨_, _, rfl, Or.inr ⟨error, allocationEq, rfl⟩⟩

/-- A write that is split fits the file. -/
theorem fits_of_prepareWriteLocked_ok (created : config.Created block) {session : Session}
    {reserved : List Bytes} {written : Bytes} (layout : Layout config session reserved written)
    {data : Bytes} {allocation : Option ErrorData} {parts : List PreparedPart}
    (succeeded : (prepareWriteLocked config session data session.nextOffset allocation).val.2 =
      .ok parts) : written.length + data.length ≤ config.maxFileSize := by
  have word := created.fileSize_lt_modulus
  have offset := layout.offset_eq
  have bounded := layout.offset_le
  by_contra tooLarge
  rw [prepareWriteLocked, if_neg (by simp), sub_eq_pure bounded word, pure_bind,
    if_pos (by omega)] at succeeded
  contradiction

/-! ## What every outcome leaves in place -/

theorem reservePart_eq_ok (word : config.maxParts < modulus) {reserving next : Reserving}
    {data : Bytes} (reserved : (reservePart config reserving data).val = .ok next) :
    next = { reserving with
      partEtags := reserving.partEtags ++ [""]
      parts := reserving.parts ++ [⟨reserving.partEtags.length + 1, data⟩] } := by
  unfold reservePart at reserved
  split at reserved
  · contradiction
  · rename_i capacity
    have budget : reserving.partEtags.length < config.maxParts := by
      simpa [hasPartCapacity] using capacity
    rw [add_eq_pure (by omega), pure_bind] at reserved
    cases reserved
    rfl

theorem reservePart_numbered (word : config.maxParts < modulus) {etags : List String}
    {reserving next : Reserving} {data : Bytes} (numbered : Numbered etags reserving)
    (reserved : (reservePart config reserving data).val = .ok next) :
    Numbered etags next := by
  rw [reservePart_eq_ok word reserved]
  exact numbered.reserve data _

theorem fillBufferedPart_numbered (word : config.maxParts < modulus) {etags : List String}
    {reserving next : Reserving} {data : Bytes} {inputOffset : Nat}
    (numbered : Numbered etags reserving)
    (filled : (fillBufferedPart config reserving data).val = .ok (next, inputOffset)) :
    Numbered etags next := by
  have moved (buffered : Option BufferedPart) :
      Numbered etags { reserving with bufferedPart := buffered } :=
    ⟨numbered.etags_eq, numbered.numbers⟩
  unfold fillBufferedPart at filled
  split at filled
  · cases filled
    exact numbered
  · rename_i part _
    have reservation {offset : Nat} {part : BufferedPart}
        (reserved : (reservePart config { reserving with bufferedPart := none } part.bytes).val.map
          (fun reserving => (reserving, offset)) = .ok (next, inputOffset)) :
        Numbered etags next := by
      cases reserveEq : (reservePart config { reserving with bufferedPart := none }
          part.bytes).val with
      | error error =>
          rw [reserveEq] at reserved
          contradiction
      | ok result =>
          rw [reserveEq] at reserved
          cases reserved
          exact reservePart_numbered word (moved none) reserveEq
    split_ifs at filled with emptyInput full
    · cases filled
      exact numbered
    · exact reservation filled
    · rw [Machine.val_bind] at filled
      dsimp only at filled
      split_ifs at filled
      · exact reservation filled
      · cases filled
        exact moved _

theorem reserveLoop_numbered (word : config.maxParts < modulus)
    (allocation : Option ErrorData) {etags : List String} (data : Bytes) (rounds : Nat)
    {reserving : Reserving} (inputOffset : Nat) (numbered : Numbered etags reserving) :
    Numbered etags
      (reserveLoop config allocation data rounds reserving inputOffset).val.1 := by
  induction rounds generalizing reserving inputOffset with
  | zero => exact numbered
  | succ rounds inductionHypothesis =>
      simp only [reserveLoop]
      split
      · simp only [Machine.val_bind]
        split
        · cases allocation with
          | some error => exact numbered
          | none => exact ⟨numbered.etags_eq, numbered.numbers⟩
        · rw [Machine.val_bind]
          split
          · exact numbered
          · rename_i next reserveEq
            exact inductionHypothesis _ (reservePart_numbered word numbered reserveEq)
      · exact numbered

/-- Whatever happens, only the buffer, the offset and the etag slots change;
slots are only appended, empty, and a successful write owns exactly the
appended numbers. -/
theorem prepareWriteLocked_frame (word : config.maxParts < modulus) (session : Session)
    (data : Bytes) (location : Nat) (allocation : Option ErrorData) :
    ∃ count buffered offset,
      (prepareWriteLocked config session data location allocation).val.1 =
        { session with
          partEtags := session.partEtags ++ List.replicate count ""
          bufferedPart := buffered
          nextOffset := offset } ∧
      ∀ parts, (prepareWriteLocked config session data location allocation).val.2 = .ok parts →
        parts.map PreparedPart.partNumber =
            List.range' (session.partEtags.length + 1) count ∧
          location = session.nextOffset := by
  unfold prepareWriteLocked
  split_ifs with misplaced
  · exact ⟨0, session.bufferedPart, session.nextOffset, by simp, by simp⟩
  · have placed : location = session.nextOffset := by
      simpa using misplaced
    rw [Machine.val_bind]
    split_ifs with tooLarge
    · exact ⟨0, session.bufferedPart, session.nextOffset, by simp, by simp⟩
    · rw [Machine.val_bind]
      split
      · exact ⟨0, none, session.nextOffset, by simp, by simp⟩
      · rename_i filled inputOffset fillEq
        have numbered := reserveLoop_numbered word allocation data data.length inputOffset
          (fillBufferedPart_numbered word (numbered_nil _ _) fillEq)
        rw [Machine.val_bind]
        set result := (reserveLoop config allocation data data.length filled inputOffset).val
        dsimp only
        split
        · refine ⟨result.1.parts.length, none, session.nextOffset, ?_, by simp⟩
          simp [numbered.etags_eq]
        · refine ⟨result.1.parts.length, result.1.bufferedPart,
            (add session.nextOffset data.length).val, ?_, ?_⟩
          · rw [Machine.val_bind]
            simp only [Machine.val_pure, numbered.etags_eq]
          · intro parts succeeded
            cases succeeded
            exact ⟨numbered.numbers, placed⟩

/-- Only a write that is split moves the offset. -/
theorem prepareWriteLocked_offset (config : S3UploadConfig) (session : Session) (data : Bytes)
    (location : Nat) (allocation : Option ErrorData) :
    (prepareWriteLocked config session data location allocation).val.1.nextOffset =
      match (prepareWriteLocked config session data location allocation).val.2 with
      | .error _ => session.nextOffset
      | .ok _ => (add session.nextOffset data.length).val := by
  unfold prepareWriteLocked
  split_ifs
  · rfl
  · rw [Machine.val_bind]
    split_ifs
    · rfl
    · rw [Machine.val_bind]
      split
      · rfl
      · rw [Machine.val_bind]
        dsimp only
        split
        · rfl
        · rw [Machine.val_bind]
          rfl

end Httpfs.S3.Upload
