import Httpfs.S3.UploadConfig
import Mathlib.Order.Bounds.Basic

/-!
# The schedule of part sizes

What the sizing code computes is stated here in terms of the parts a file is
cut into: how large the part with a given number may be, how much the admitted
parts hold together, and that the chosen initial part size is the least one
with room for the largest admitted file.
-/

namespace Httpfs.S3

open Httpfs.Word64
open S3UploadConfig

namespace S3UploadSizing

/-- The sum of the part sizes the code computes for the first parts. -/
def totalPartSize (initialPartSize growthInterval parts : Nat) : Nat :=
  ∑ completed ∈ Finset.range parts, (partSize initialPartSize growthInterval completed).val

theorem totalPartSize_eq {initialPartSize : Nat} (bound : initialPartSize ≤ maxMultipartPartSize)
    (growthInterval parts : Nat) :
    totalPartSize initialPartSize growthInterval parts =
      scheduleCapacity initialPartSize growthInterval parts := by
  apply Finset.sum_congr rfl
  intro completed _
  rw [partSize_eq bound]
  rfl

/-- Part sizes never wrap, grow from part to part and stay below the limit of a
part. -/
theorem partSize_schedule {initialPartSize : Nat} (bound : initialPartSize ≤ maxMultipartPartSize)
    (growthInterval : Nat) :
    (∀ completed, (partSize initialPartSize growthInterval completed).exact = true ∧
      (partSize initialPartSize growthInterval completed).val ≤ maxMultipartPartSize) ∧
    Monotone fun completed => (partSize initialPartSize growthInterval completed).val := by
  constructor
  · intro completed
    rw [partSize_eq bound]
    exact ⟨rfl, scheduledSize_le_max _ _ _⟩
  · intro fewer more order
    simp only [partSize_eq bound]
    exact scheduledSize_monotone initialPartSize growthInterval order

/-- `ScheduleCovers` compares the sum of the part sizes with the file. -/
theorem scheduleCovers_iff {initialPartSize maxFileSize maxParts growthInterval : Nat}
    (bound : initialPartSize ≤ maxMultipartPartSize) (growthPos : 0 < growthInterval)
    (filePos : 0 < maxFileSize) (fileBound : maxFileSize < modulus)
    (partsBound : maxParts < modulus) :
    (scheduleCovers initialPartSize maxFileSize maxParts growthInterval).exact = true ∧
      ((scheduleCovers initialPartSize maxFileSize maxParts growthInterval).val = true ↔
        maxFileSize ≤ totalPartSize initialPartSize growthInterval maxParts) := by
  rw [scheduleCovers_eq bound growthPos filePos fileBound partsBound, totalPartSize_eq bound]
  exact ⟨rfl, decide_eq_true_iff⟩

/-- A larger initial part size covers at least as much. -/
theorem scheduleCovers_mono {small large maxFileSize maxParts growthInterval : Nat}
    (order : small ≤ large) (bound : large ≤ maxMultipartPartSize)
    (growthPos : 0 < growthInterval) (filePos : 0 < maxFileSize)
    (fileBound : maxFileSize < modulus) (partsBound : maxParts < modulus)
    (covers : (scheduleCovers small maxFileSize maxParts growthInterval).val = true) :
    (scheduleCovers large maxFileSize maxParts growthInterval).val = true := by
  have smaller := order.trans bound
  have reached := (scheduleCovers_iff smaller growthPos filePos fileBound partsBound).2.mp covers
  apply (scheduleCovers_iff bound growthPos filePos fileBound partsBound).2.mpr
  rw [totalPartSize_eq smaller] at reached
  rw [totalPartSize_eq bound]
  exact reached.trans (scheduleCapacity_mono_initial order growthInterval maxParts)

end S3UploadSizing

open S3UploadSizing

namespace S3UploadConfig

/-- The initial part sizes that are admitted and have room for the largest
file. -/
def sufficientPartSizes (block : StorageBlock) (config : S3UploadConfig) : Set Nat :=
  {size | block.size ∣ size ∧ minMultipartPartSize ≤ size ∧ size ≤ maxMultipartPartSize ∧
    config.maxFileSize ≤ totalPartSize size config.growthInterval config.maxParts}

theorem Created.isLeast {block : StorageBlock} {config : S3UploadConfig}
    (created : config.Created block) :
    IsLeast (sufficientPartSizes block config) config.initialPartSize := by
  have initial := created.initial
  constructor
  · refine ⟨initial.aligned, initial.min_le, initial.le_max, ?_⟩
    rw [totalPartSize_eq initial.le_max]
    exact initial.covers
  · rintro other ⟨aligned, least, most, covers⟩
    rw [totalPartSize_eq most] at covers
    exact initial.least other aligned least covers

/-- On limits that `Create` accepts the initial part size is the least multiple
of the storage block between the part size limits whose schedule has room for
the largest file.  For every initial part size between the limits
`ScheduleCovers` decides exactly whether there is room, without wrapping and
monotonically, and the part sizes grow up to the limit of a part. -/
theorem create_partSchedule (block : StorageBlock) (maxFileSize maxParts : Nat)
    (config : S3UploadConfig) (created : (create block maxFileSize maxParts).val = .ok config) :
    (create block maxFileSize maxParts).exact = true ∧
    config.maxFileSize = maxFileSize ∧ config.maxParts = maxParts ∧
    IsLeast (sufficientPartSizes block config) config.initialPartSize ∧
    ∀ initialPartSize growthInterval, minMultipartPartSize ≤ initialPartSize →
      initialPartSize ≤ maxMultipartPartSize → 0 < growthInterval →
      (scheduleCovers initialPartSize maxFileSize maxParts growthInterval).exact = true ∧
      ((scheduleCovers initialPartSize maxFileSize maxParts growthInterval).val = true ↔
        maxFileSize ≤ totalPartSize initialPartSize growthInterval maxParts) ∧
      (∀ larger, initialPartSize ≤ larger → larger ≤ maxMultipartPartSize →
        (scheduleCovers initialPartSize maxFileSize maxParts growthInterval).val = true →
          (scheduleCovers larger maxFileSize maxParts growthInterval).val = true) ∧
      (∀ completed,
        (S3UploadSizing.partSize initialPartSize growthInterval completed).exact = true ∧
        (S3UploadSizing.partSize initialPartSize growthInterval completed).val ≤
          maxMultipartPartSize) ∧
      Monotone fun completed =>
        (S3UploadSizing.partSize initialPartSize growthInterval completed).val := by
  have supported := (create_eq_ok_iff_supported block _ _).mp ⟨config, created⟩
  rcases create_of_supported block supported with ⟨_, computed, _⟩
  rcases created_of_create created with ⟨properties, rfl, rfl⟩
  have fileBound := properties.fileSize_lt_modulus
  have partsBound : config.maxParts < modulus :=
    properties.parts_le.trans_lt (by decide)
  refine ⟨by rw [computed]; rfl, rfl, rfl, properties.isLeast, ?_⟩
  intro initialPartSize growthInterval _ bound growthPos
  have covers := scheduleCovers_iff bound growthPos properties.fileSize_pos fileBound partsBound
  refine ⟨covers.1, covers.2, ?_, partSize_schedule bound growthInterval⟩
  intro larger order most
  exact scheduleCovers_mono order most growthPos properties.fileSize_pos fileBound partsBound

theorem create_partSchedule_oneByte :
    IsLeast (sufficientPartSizes ⟨262144, by decide, by decide⟩ ⟨1, 1, 5242880, 1⟩) 5242880 := by
  have created : (create ⟨262144, by decide, by decide⟩ 1 1).val = .ok ⟨1, 1, 5242880, 1⟩ := by
    decide
  exact (create_partSchedule _ 1 1 _ created).2.2.2.1

end S3UploadConfig

end Httpfs.S3
