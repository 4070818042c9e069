import Httpfs.S3.Upload.Session

/-!
# Splitting writes into parts

`PrepareWrite` runs inside one critical section: it fills the shared buffer,
reserves part numbers for what no longer fits and buffers the rest.  It moves
the buffer out of the session first and back last, so an error in between
leaves the session without it.
-/

namespace Httpfs.S3.Upload

open Httpfs.Word64
open S3UploadConfig

/-- `AppendToBufferedPart`: copy what still fits and report how much it was. -/
def appendToBufferedPart (part : BufferedPart) (data : Bytes) :
    Machine (BufferedPart × Nat) :=
  let space := sub part.capacity part.size
  let copySize := min data.length space.val
  have fits : (part.bytes ++ data.take copySize).length ≤ part.capacity := by
    have := sub_val_le part.size_le
    have := part.size_le
    simp only [List.length_append, List.length_take, copySize, space,
      BufferedPart.size] at this ⊢
    omega
  ⟨(⟨part.capacity, part.bytes ++ data.take copySize, fits⟩, copySize),
    space.exact && (add part.size copySize).exact⟩

/-- The session fields and the `PreparedWrite` a write fills while it holds the
lock. -/
structure Reserving where
  partEtags : List String
  parts : List PreparedPart
  bufferedPart : Option BufferedPart

/-- `ReservePart`: take the next part number for `data`. -/
def reservePart (config : S3UploadConfig) (reserving : Reserving) (data : Bytes) :
    Machine (Except ErrorData Reserving) :=
  if config.hasPartCapacity reserving.partEtags.length = false then
    pure (.error (.io
      s!"S3 upload exceeds the configured maximum of {config.maxParts} multipart parts"))
  else do
    let partNumber ← add reserving.partEtags.length 1
    pure (.ok { reserving with
      partEtags := reserving.partEtags ++ [""]
      parts := reserving.parts ++ [⟨partNumber, data⟩] })

/-- The first half of `PrepareWrite`: top up a buffer left by an earlier write
and reserve it once it is full and more data follows.  The result carries the
input offset reached. -/
def fillBufferedPart (config : S3UploadConfig) (reserving : Reserving) (data : Bytes) :
    Machine (Except ErrorData (Reserving × Nat)) :=
  match reserving.bufferedPart with
  | none => pure (.ok (reserving, 0))
  | some part =>
      if data.length = 0 then
        pure (.ok (reserving, 0))
      else if part.size = part.capacity then do
        let reserved ← reservePart config { reserving with bufferedPart := none } part.bytes
        pure (reserved.map fun reserving => (reserving, 0))
      else do
        let (part, inputOffset) ← appendToBufferedPart part data
        if part.size = part.capacity ∧ inputOffset < data.length then do
          let reserved ← reservePart config { reserving with bufferedPart := none } part.bytes
          pure (reserved.map fun reserving => (reserving, inputOffset))
        else
          pure (.ok ({ reserving with bufferedPart := some part }, inputOffset))

/-- Whether the rest of a write is buffered.  A write that exactly fills the
first part stays buffered, so that a file of one part needs no multipart
upload. -/
def shouldBuffer (partEtags : List String) (remaining partSize : Nat) : Bool :=
  if partEtags.isEmpty then decide (remaining ≤ partSize)
  else decide (remaining < partSize)

/-- The loop of `PrepareWrite` over the remaining input.  Every round consumes
at least one byte, so `data.length` rounds suffice. -/
def reserveLoop (config : S3UploadConfig) (allocation : Option ErrorData) (data : Bytes) :
    Nat → Reserving → Nat → Machine (Reserving × Option ErrorData)
  | 0, reserving, _ => pure (reserving, none)
  | rounds + 1, reserving, inputOffset =>
      if inputOffset < data.length then do
        let remaining ← sub data.length inputOffset
        let partSize ← config.partSize reserving.partEtags.length
        if shouldBuffer reserving.partEtags remaining partSize then
          match allocation with
          | some error => pure (reserving, some error)
          | none => do
              let (part, copied) ←
                appendToBufferedPart (.allocate partSize) (data.drop inputOffset)
              let _ ← add inputOffset copied
              pure ({ reserving with bufferedPart := some part }, none)
        else do
          let directSize := min remaining maxMultipartPartSize
          match ← reservePart config reserving ((data.drop inputOffset).take directSize) with
          | .error error => pure (reserving, some error)
          | .ok reserving => do
              let inputOffset ← add inputOffset directSize
              reserveLoop config allocation data rounds reserving inputOffset
      else
        pure (reserving, none)

/-- The critical section of `PrepareWrite` once no wait and no latched failure
stands in its way.  `allocation` is the error `AllocateBufferedPart` throws if
it is called, or `none` if the memory is available. -/
def prepareWriteLocked (config : S3UploadConfig) (session : Session) (data : Bytes)
    (location : Nat) (allocation : Option ErrorData) :
    Machine (Session × Except ErrorData (List PreparedPart)) :=
  if location ≠ session.nextOffset then
    pure (session, .error (.io
      s!"S3 writes must be sequential: expected offset {session.nextOffset}, got {location}"))
  else do
    let room ← sub config.maxFileSize session.nextOffset
    if room < data.length then
      pure (session, .error (.io
        s!"S3 upload exceeds the configured maximum file size of {config.maxFileSize} bytes"))
    else do
      match ← fillBufferedPart config ⟨session.partEtags, [], session.bufferedPart⟩ data with
      | .error error => pure ({ session with bufferedPart := none }, .error error)
      | .ok (reserving, inputOffset) => do
          let (reserving, failure) ←
            reserveLoop config allocation data data.length reserving inputOffset
          match failure with
          | some error =>
              pure ({ session with
                partEtags := reserving.partEtags
                bufferedPart := none }, .error error)
          | none => do
              let nextOffset ← add session.nextOffset data.length
              pure ({ session with
                partEtags := reserving.partEtags
                bufferedPart := reserving.bufferedPart
                nextOffset }, .ok reserving.parts)

end Httpfs.S3.Upload
