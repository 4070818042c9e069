import Httpfs.S3.Upload.Split

/-!
# Part sizes of a whole upload

Writes that arrive in order are split one after another and the rest is
reserved by `Finalize`.  Up to the largest admitted file the part budget is
never exceeded, every part has a size the server accepts, and no 64-bit
operation wraps on the way.
-/

namespace Httpfs.S3.Upload

open Httpfs.Word64
open S3UploadConfig

/-- A write with the error its buffer allocation meets, if it allocates. -/
abbrev SizedWrite := Bytes × Option ErrorData

/-- The bytes of a sequence of writes. -/
def contents (writes : List SizedWrite) : Bytes :=
  (writes.map Prod.fst).flatten

/-- The server answers every part of a write with its etag. -/
def storeETags (etag : Nat → String) (session : Session) : List PreparedPart → Session
  | [] => session
  | part :: rest =>
      storeETags etag
        { session with
          partEtags := session.partEtags.set (part.partNumber - 1) (etag part.partNumber) }
        rest

/-- Writes in order, each at the offset the one before it reached, up to the
first that fails.  The result lists the parts of the writes that passed. -/
def writeInOrder (config : S3UploadConfig) (etag : Nat → String) :
    Session → List SizedWrite → Machine (Session × Except ErrorData (List PreparedPart))
  | session, [] => pure (session, .ok [])
  | session, (data, allocation) :: rest => do
      match ← prepareWriteLocked config session data session.nextOffset allocation with
      | (next, .error error) => pure (next, .error error)
      | (next, .ok parts) => do
          let (final, result) ← writeInOrder config etag (storeETags etag next parts) rest
          pure (final, result.map (parts ++ ·))

/-- How an object is uploaded: by one PUT or by parts. -/
inductive Publication
  | single (body : Bytes)
  | multipart (parts : List PreparedPart)
  deriving DecidableEq, Repr

/-- What a `Finalize` makes of the parts sent before it and the buffer. -/
def finalizeUpload (config : S3UploadConfig) (session : Session) (sent : List PreparedPart) :
    Machine (Except ErrorData Publication) :=
  if session.partEtags.isEmpty then
    pure (.ok (.single (bufferedBytes session.bufferedPart)))
  else
    match session.bufferedPart with
    | none => pure (.ok (.multipart sent))
    | some part => do
        let reserved ← reservePart config ⟨session.partEtags, [], none⟩ part.bytes
        pure (reserved.map fun reserving => .multipart (sent ++ reserving.parts))

/-- The sizes a server accepts, by the schedule of the configuration. -/
def WellSized (config : S3UploadConfig) (data : Bytes) : Publication → Prop
  | .single body =>
      body = data ∧ data.length ≤ (config.partSize 0).val ∧
        body.length ≤ maxMultipartPartSize
  | .multipart parts =>
      (config.partSize 0).val < data.length ∧ parts ≠ [] ∧ parts.length ≤ config.maxParts ∧
        parts.map PreparedPart.partNumber = List.range' 1 parts.length ∧
        (parts.map PreparedPart.data).flatten = data ∧
        ∀ position part, parts[position]? = some part →
          1 ≤ part.data.length ∧ part.data.length ≤ maxMultipartPartSize ∧
            (position + 1 < parts.length → (config.partSize position).val ≤ part.data.length ∧
              minMultipartPartSize ≤ part.data.length)

section Contents

variable (first second : List SizedWrite) (data : Bytes) (allocation : Option ErrorData)

@[simp]
theorem contents_nil : contents [] = [] :=
  rfl

@[simp]
theorem contents_cons : contents ((data, allocation) :: second) = data ++ contents second := by
  simp [contents]

@[simp]
theorem contents_append : contents (first ++ second) = contents first ++ contents second := by
  simp [contents]

end Contents

section Sequences

variable {block : StorageBlock} {config : S3UploadConfig} {session : Session}
  {reserved : List Bytes} {written : Bytes} (etag : Nat → String)

/-- Stored etags change neither the layout nor the number of slots. -/
theorem storeETags_layout (parts : List PreparedPart)
    (layout : Layout config session reserved written) :
    Layout config (storeETags etag session parts) reserved written ∧
      (storeETags etag session parts).partEtags.length = session.partEtags.length := by
  induction parts generalizing session with
  | nil => exact ⟨layout, rfl⟩
  | cons part rest inductionHypothesis =>
      have stored : Layout config
          { session with
            partEtags := session.partEtags.set (part.partNumber - 1) (etag part.partNumber) }
          reserved written :=
        { layout with aligned := by simpa using layout.aligned }
      obtain ⟨kept, slots⟩ := inductionHypothesis stored
      exact ⟨kept, slots.trans List.length_set⟩

/-- Writes that fit the file are all split without wrapping, unless memory runs
out; the part numbers they take follow each other. -/
theorem writeInOrder_spec (created : config.Created block)
    (layout : Layout config session reserved written) (writes : List SizedWrite)
    (fits : written.length + (contents writes).length ≤ config.maxFileSize) :
    ∃ final result, writeInOrder config etag session writes = pure (final, result) ∧
      ((∃ parts, result = .ok parts ∧
        Layout config final (reserved ++ parts.map PreparedPart.data)
          (written ++ contents writes) ∧
        final.partEtags.length = session.partEtags.length + parts.length ∧
        parts.map PreparedPart.partNumber =
          List.range' (session.partEtags.length + 1) parts.length) ∨
      ∃ error, some error ∈ writes.map Prod.snd ∧ result = .error error) := by
  induction writes generalizing session reserved written with
  | nil =>
      refine ⟨session, .ok [], rfl, Or.inl ⟨[], rfl, ?_, rfl, rfl⟩⟩
      simpa using layout
  | cons write rest inductionHypothesis =>
      obtain ⟨data, allocation⟩ := write
      rw [contents_cons, List.length_append] at fits
      have dataFits : written.length + data.length ≤ config.maxFileSize := by omega
      obtain ⟨next, result, split, outcome⟩ :=
        prepareWriteLocked_spec created layout dataFits allocation
      rcases outcome with ⟨parts, rfl, _, extended⟩ | ⟨error, failed, rfl⟩
      · obtain ⟨stored, slots⟩ := storeETags_layout etag parts extended
        obtain ⟨final, result, writtenRest, outcome⟩ :=
          inductionHypothesis stored (by rw [List.length_append]; omega)
        have unfolded : writeInOrder config etag session ((data, allocation) :: rest) =
            pure (final, result.map (parts ++ ·)) := by
          rw [writeInOrder, split, pure_bind]
          dsimp only
          rw [writtenRest, pure_bind]
        refine ⟨final, result.map (parts ++ ·), unfolded, ?_⟩
        rcases outcome with ⟨more, rfl, complete, length, numbers⟩ | ⟨error, failed, rfl⟩
        · left
          have nextLength : next.partEtags.length = session.partEtags.length + parts.length := by
            rw [extended.aligned, layout.aligned, List.length_append, List.length_map]
          have taken : parts.map PreparedPart.partNumber =
              List.range' (session.partEtags.length + 1) parts.length := by
            obtain ⟨count, _, _, _, numbered⟩ := prepareWriteLocked_frame
              (created.parts_le.trans_lt (by decide)) session data session.nextOffset allocation
            have taken := (numbered parts (by rw [split]; rfl)).1
            have countEq := congrArg List.length taken
            rw [List.length_map, List.length_range'] at countEq
            rw [taken, countEq]
          refine ⟨parts ++ more, rfl, ?_, ?_, ?_⟩
          · simpa using complete
          · rw [length, slots, nextLength, List.length_append, Nat.add_assoc]
          · rw [List.map_append, taken, numbers, slots, nextLength, List.length_append,
              ← List.range'_append_1]
            congr 2
            omega
        · exact Or.inr ⟨error, List.mem_cons_of_mem _ failed, rfl⟩
      · refine ⟨next, .error error, ?_, Or.inr ⟨error, ?_, rfl⟩⟩
        · rw [writeInOrder, split, pure_bind]
        · exact failed ▸ List.mem_cons_self

/-- What the buffer adds to the reserved parts can still be reserved. -/
theorem reserveFinal_spec (created : config.Created block)
    (layout : Layout config session reserved written) {part : BufferedPart}
    (buffered : session.bufferedPart = some part) :
    reservePart config ⟨session.partEtags, [], none⟩ part.bytes =
        pure (.ok ⟨session.partEtags ++ [""],
          [⟨session.partEtags.length + 1, part.bytes⟩], none⟩) ∧
      reserved.length < config.maxParts := by
  have filled := (layout.scheduled part buffered).2
  have content := congrArg List.length layout.content
  rw [buffered, bufferedBytes_some, List.length_append] at content
  have budget : reserved.length < config.maxParts := by
    have more : reserved.flatten.length < written.length := by
      rw [BufferedPart.size] at filled
      omega
    exact layout.sized.length_lt_maxParts created more (layout.offset_eq ▸ layout.offset_le)
  have limit := created.parts_le
  have word : maxMultipartParts < modulus := by decide
  have sum : session.partEtags.length + 1 < modulus := by
    rw [layout.aligned]
    omega
  refine ⟨?_, budget⟩
  rw [reservePart, if_neg (by simp [hasPartCapacity, layout.aligned, budget]), add_eq_pure sum,
    pure_bind]
  rfl

theorem Sized.wellSized (created : config.Created block) {parts : List Bytes}
    (sized : Sized config parts) {position : Nat} {part : Bytes}
    (found : parts[position]? = some part) :
    1 ≤ part.length ∧ part.length ≤ maxMultipartPartSize ∧
      (config.partSize position).val ≤ part.length ∧ minMultipartPartSize ≤ part.length := by
  obtain ⟨lower, upper⟩ := sized position part found
  have least := min_le_partCapacity created position
  have positive := partCapacity_pos created position
  rw [partSize_eq_partCapacity created]
  exact ⟨by omega, upper, lower, least.trans lower⟩

/-- The parts of an admitted file do not exceed the part budget. -/
theorem Sized.length_le_maxParts (created : config.Created block) {parts : List Bytes}
    (sized : Sized config parts) (admitted : parts.flatten.length ≤ config.maxFileSize) :
    parts.length ≤ config.maxParts := by
  rcases List.eq_nil_or_concat parts with rfl | ⟨front, last, rfl⟩
  · exact Nat.zero_le _
  · rw [List.concat_eq_append] at sized admitted ⊢
    rw [List.flatten_append, List.length_append] at admitted
    have found : (front ++ [last])[front.length]? = some last := by simp
    have nonempty := (sized.wellSized created found).1
    have more : front.flatten.length < front.flatten.length + last.length := by omega
    have budget := sized.of_append.length_lt_maxParts created more (by simpa using admitted)
    rw [List.length_append, List.length_singleton]
    exact budget

/-- Every file is finished by one PUT if its bytes fit the first part, and by
well-sized parts otherwise. -/
theorem finalizeUpload_spec (created : config.Created block) {sent : List PreparedPart}
    (layout : Layout config session (sent.map PreparedPart.data) written)
    (numbers : sent.map PreparedPart.partNumber = List.range' 1 sent.length) :
    ∃ published, finalizeUpload config session sent = pure (.ok published) ∧
      WellSized config written published := by
  have first : (config.partSize 0).val = partCapacity config 0 := by
    rw [partSize_eq_partCapacity created]
    rfl
  have aligned : session.partEtags.length = sent.length := by
    simpa using layout.aligned
  have parts := layout.sized.length_le_maxParts created (by
    have content := congrArg List.length layout.content
    have bounded := layout.offset_eq ▸ layout.offset_le
    rw [List.length_append] at content
    omega)
  by_cases single : session.partEtags = []
  · refine ⟨.single (bufferedBytes session.bufferedPart), ?_, ?_⟩
    · rw [finalizeUpload, single]
      rfl
    · have none : sent = [] := by
        apply List.eq_nil_of_length_eq_zero
        rw [← aligned, single]
        rfl
      have content := layout.content
      have scheduled := layout.scheduled
      subst none
      rw [List.map_nil, List.flatten_nil, List.nil_append] at content
      have small : (bufferedBytes session.bufferedPart).length ≤ partCapacity config 0 := by
        cases buffered : session.bufferedPart with
        | none => exact Nat.zero_le _
        | some part =>
            have capacity := (scheduled part buffered).1
            exact capacity ▸ part.size_le
      refine ⟨content, ?_, small.trans (partCapacity_le_max config 0)⟩
      rw [first, ← content]
      exact small
  · have nonempty : sent ≠ [] := by
      rintro rfl
      exact single (List.eq_nil_of_length_eq_zero aligned)
    have large : (config.partSize 0).val < written.length := by
      rw [first]
      exact layout.multipart (by simpa using nonempty)
    cases buffered : session.bufferedPart with
    | none =>
        refine ⟨.multipart sent, ?_, large, nonempty, by simpa using parts, numbers, ?_, ?_⟩
        · rw [finalizeUpload, if_neg (by simpa using single), buffered]
        · have content := layout.content
          rw [buffered, bufferedBytes_none, List.append_nil] at content
          exact content
        · intro position part found
          have mapped : (sent.map PreparedPart.data)[position]? = some part.data := by
            rw [List.getElem?_map, found]
            rfl
          obtain ⟨positive, upper, lower⟩ := layout.sized.wellSized created mapped
          exact ⟨positive, upper, fun _ => lower⟩
    | some part =>
        obtain ⟨reserved, budget⟩ := reserveFinal_spec created layout buffered
        refine ⟨.multipart (sent ++ [⟨session.partEtags.length + 1, part.bytes⟩]), ?_, large,
          by simp, by simpa using budget, ?_, ?_, ?_⟩
        · rw [finalizeUpload, if_neg (by simpa using single), buffered]
          dsimp only
          rw [reserved, pure_bind]
          rfl
        · rw [List.map_append, numbers, aligned, List.length_append, List.length_singleton,
            List.range'_1_concat]
          simp [Nat.add_comm]
        · have content := layout.content
          rw [buffered, bufferedBytes_some] at content
          simpa using content
        · intro position found lookup
          obtain ⟨capacity, filled⟩ := layout.scheduled part buffered
          rcases Nat.lt_or_ge position sent.length with before | after
          · rw [List.getElem?_append_left before] at lookup
            have mapped : (sent.map PreparedPart.data)[position]? = some found.data := by
              rw [List.getElem?_map, lookup]
              rfl
            obtain ⟨positive, upper, lower⟩ := layout.sized.wellSized created mapped
            exact ⟨positive, upper, fun _ => lower⟩
          · rw [List.getElem?_append_right after, List.getElem?_singleton] at lookup
            split at lookup
            · cases lookup
              have bounded : part.bytes.length ≤ maxMultipartPartSize := by
                have fits := part.size_le
                have largest := partCapacity_le_max config (sent.map PreparedPart.data).length
                omega
              refine ⟨filled, bounded, fun early => ?_⟩
              rw [List.length_append, List.length_singleton] at early
              omega
            · contradiction

/-- Where a sequence of writes first exceeds the file size. -/
theorem exists_crossing {limit : Nat} (writes : List SizedWrite) (start : Nat)
    (within : start ≤ limit) (exceeds : limit < start + (contents writes).length) :
    ∃ front data allocation back, writes = front ++ (data, allocation) :: back ∧
      start + (contents front).length ≤ limit ∧
      limit < start + (contents front).length + data.length := by
  induction writes generalizing start with
  | nil =>
      simp at exceeds
      omega
  | cons write rest inductionHypothesis =>
      obtain ⟨data, allocation⟩ := write
      rw [contents_cons, List.length_append] at exceeds
      rcases Nat.lt_or_ge limit (start + data.length) with crosses | fits
      · exact ⟨[], data, allocation, rest, rfl, by simpa using within, by simpa using crosses⟩
      · obtain ⟨front, crossing, memory, back, rfl, below, above⟩ :=
          inductionHypothesis (start + data.length) fits (by omega)
        refine ⟨(data, allocation) :: front, crossing, memory, back, rfl, ?_, ?_⟩
        · rw [contents_cons, List.length_append]
          omega
        · rw [contents_cons, List.length_append]
          omega

/-- `PrepareWrite` turns a write away that would exceed the file size, and
leaves the session as it was. -/
theorem prepareWriteLocked_exceeds (created : config.Created block)
    (layout : Layout config session reserved written) {data : Bytes}
    (exceeds : config.maxFileSize < written.length + data.length)
    (allocation : Option ErrorData) :
    prepareWriteLocked config session data session.nextOffset allocation =
      pure (session, .error (.io
        s!"S3 upload exceeds the configured maximum file size of {config.maxFileSize} bytes")) := by
  have offset := layout.offset_eq
  have bounded := layout.offset_le
  rw [prepareWriteLocked, if_neg (by simp), sub_eq_pure bounded created.fileSize_lt_modulus,
    pure_bind, if_pos (by omega)]

/-- Writes that fit go on as if alone; the first one that does not is turned
away. -/
theorem writeInOrder_crossing (created : config.Created block)
    (layout : Layout config session reserved written) (front back : List SizedWrite)
    {data : Bytes} (allocation : Option ErrorData)
    (fits : written.length + (contents front).length ≤ config.maxFileSize)
    (exceeds : config.maxFileSize < written.length + (contents front).length + data.length) :
    ∃ final result, writeInOrder config etag session front = pure (final, result) ∧
      writeInOrder config etag session (front ++ (data, allocation) :: back) =
        pure (final, result.bind fun _ => .error (.io
          s!"S3 upload exceeds the configured maximum file size of {config.maxFileSize} bytes")) := by
  induction front generalizing session reserved written with
  | nil =>
      refine ⟨session, .ok [], rfl, ?_⟩
      rw [List.nil_append, writeInOrder,
        prepareWriteLocked_exceeds created layout (by simpa using exceeds), pure_bind]
      rfl
  | cons write rest inductionHypothesis =>
      obtain ⟨first, memory⟩ := write
      rw [contents_cons, List.length_append] at fits exceeds
      have firstFits : written.length + first.length ≤ config.maxFileSize := by omega
      obtain ⟨next, result, split, outcome⟩ :=
        prepareWriteLocked_spec created layout firstFits memory
      rcases outcome with ⟨parts, rfl, _, extended⟩ | ⟨error, _, rfl⟩
      · obtain ⟨stored, _⟩ := storeETags_layout etag parts extended
        obtain ⟨final, result, alone, together⟩ := inductionHypothesis stored
          (by rw [List.length_append]; omega) (by rw [List.length_append]; omega)
        refine ⟨final, result.map (parts ++ ·), ?_, ?_⟩
        · rw [writeInOrder, split, pure_bind]
          dsimp only
          rw [alone, pure_bind]
        · rw [List.cons_append, writeInOrder, split, pure_bind]
          dsimp only
          rw [together, pure_bind]
          cases result <;> rfl
      · refine ⟨next, .error error, ?_, ?_⟩
        · rw [writeInOrder, split, pure_bind]
        · rw [List.cons_append, writeInOrder, split, pure_bind]
          rfl

end Sequences

/-- For every created configuration, in-order writes up to the largest file are
split and finalized without running out of part numbers and without wrapping,
unless memory runs out: by one PUT exactly if the bytes fit the first part, by
well-sized parts otherwise.  Beyond the largest file the first write that
crosses the limit is turned away. -/
theorem inOrderUpload_sized (block : StorageBlock) (maxFileSize maxParts : Nat)
    (config : S3UploadConfig) (created : (create block maxFileSize maxParts).val = .ok config)
    (etag : Nat → String) (writes : List SizedWrite) :
    (create block maxFileSize maxParts).exact = true ∧ config.maxFileSize = maxFileSize ∧
    ((contents writes).length ≤ maxFileSize →
      ∃ session result, writeInOrder config etag .initial writes = pure (session, result) ∧
        ((∃ error, some error ∈ writes.map Prod.snd ∧ result = .error error) ∨
          ∃ parts published, result = .ok parts ∧
            finalizeUpload config session parts = pure (.ok published) ∧
            WellSized config (contents writes) published)) ∧
    (maxFileSize < (contents writes).length → ∃ front data allocation back,
      writes = front ++ (data, allocation) :: back ∧
      (contents front).length ≤ maxFileSize ∧
      maxFileSize < (contents front).length + data.length ∧
      ∃ session result, writeInOrder config etag .initial front = pure (session, result) ∧
        writeInOrder config etag .initial writes =
          pure (session, result.bind fun _ => .error (.io
            s!"S3 upload exceeds the configured maximum file size of {maxFileSize} bytes"))) := by
  have supported := (create_eq_ok_iff_supported block _ _).mp ⟨config, created⟩
  obtain ⟨_, computed, _⟩ := create_of_supported block supported
  obtain ⟨properties, rfl, _⟩ := created_of_create created
  have start := layout_initial config
  refine ⟨by rw [computed]; rfl, rfl, ?_, ?_⟩
  · intro fits
    obtain ⟨session, result, split, outcome⟩ :=
      writeInOrder_spec etag properties start writes (by simpa using fits)
    refine ⟨session, result, split, ?_⟩
    rcases outcome with ⟨parts, rfl, layout, _, numbers⟩ | failed
    · obtain ⟨published, finalized, sized⟩ := finalizeUpload_spec properties layout numbers
      exact Or.inr ⟨parts, published, rfl, finalized, sized⟩
    · exact Or.inl failed
  · intro exceeds
    obtain ⟨front, data, allocation, back, rfl, below, above⟩ :=
      exists_crossing writes 0 (Nat.zero_le _) (by simpa using exceeds)
    rw [Nat.zero_add] at below above
    exact ⟨front, data, allocation, back, rfl, below, above,
      writeInOrder_crossing etag properties start front back allocation (by simpa using below)
        (by simpa using above)⟩

theorem inOrderUpload_sized_oneByte :
    ∃ session result,
      writeInOrder ⟨10, 1, 5242880, 1⟩ (fun _ => "tag") .initial [([1], none)] =
        pure (session, result) ∧
      ((∃ error, some error ∈ [(none : Option ErrorData)] ∧ result = .error error) ∨
        ∃ parts published, result = .ok parts ∧
          finalizeUpload ⟨10, 1, 5242880, 1⟩ session parts = pure (.ok published) ∧
          WellSized ⟨10, 1, 5242880, 1⟩ [1] published) := by
  have created : (create ⟨262144, by decide, by decide⟩ 10 1).val =
      .ok ⟨10, 1, 5242880, 1⟩ := by decide
  exact (inOrderUpload_sized _ 10 1 _ created (fun _ => "tag") [([1], none)]).2.2.1 (by decide)

end Httpfs.S3.Upload
