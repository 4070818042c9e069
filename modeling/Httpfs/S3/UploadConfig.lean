import Httpfs.Core.Error
import Httpfs.Search.Bisect
import Httpfs.Word64.Core
import Mathlib.Algebra.BigOperators.Intervals
import Mathlib.Algebra.Order.BigOperators.Group.Finset

/-!
# Upload sizing

`S3UploadConfig::Create` chooses the smallest block-aligned initial part size
whose doubling schedule covers the largest admitted file with the admitted
number of parts.  The functions below are the 64-bit code; each is followed by
its exact value over the natural numbers.
-/

namespace Httpfs.S3

open Httpfs.Search
open Httpfs.Word64

namespace S3UploadConfig

def maxMultipartParts : Nat := 10000

def minMultipartPartSize : Nat := 5 * 1024 * 1024

def maxMultipartPartSize : Nat := 5 * 1024 * 1024 * 1024

def partSizeTiers : Nat := 11

end S3UploadConfig

open S3UploadConfig

/-- The storage block (`DEFAULT_BLOCK_SIZE + DEFAULT_BLOCK_HEADER_SIZE`).  The
sizing code asserts that it divides both part size limits and uses nothing
else about it. -/
structure StorageBlock where
  size : Nat
  dividesMin : minMultipartPartSize % size = 0
  dividesMax : maxMultipartPartSize % size = 0

theorem StorageBlock.size_pos (block : StorageBlock) : 0 < block.size := by
  rcases Nat.eq_zero_or_pos block.size with zero | positive
  · have divides := block.dividesMin
    rw [zero] at divides
    simp [minMultipartPartSize] at divides
  · exact positive

structure S3UploadConfig where
  maxFileSize : Nat
  maxParts : Nat
  initialPartSize : Nat
  growthInterval : Nat
  deriving DecidableEq, Repr

namespace S3UploadSizing

/-- The loop of `S3UploadSizing::PartSize`, on the remaining doublings. -/
def partSizeLoop (result : Nat) : Nat → Machine Nat
  | 0 => pure result
  | doublingCount + 1 =>
      if result < maxMultipartPartSize then do
        let doubled ← mul result 2
        partSizeLoop (min doubled maxMultipartPartSize) doublingCount
      else
        pure result

def partSize (initialPartSize growthInterval completedParts : Nat) : Machine Nat :=
  partSizeLoop initialPartSize (completedParts / growthInterval)

/-- The loop of `S3UploadSizing::ScheduleCovers`.  Every round completes at
least one part, so `maxParts` rounds suffice. -/
def scheduleCoversLoop (initialPartSize maxFileSize maxParts growthInterval : Nat) :
    Nat → Nat → Nat → Machine Bool
  | 0, _, _ => pure false
  | rounds + 1, capacity, completedParts =>
      if completedParts < maxParts then do
        let size ← partSize initialPartSize growthInterval completedParts
        let partsLeft ← sub maxParts completedParts
        let partsAtSize := min growthInterval partsLeft
        let uncovered ← sub maxFileSize (min capacity maxFileSize)
        if uncovered / partsAtSize < size then
          pure true
        else do
          let added ← mul size partsAtSize
          let capacity ← add capacity added
          if maxFileSize ≤ capacity then
            pure true
          else do
            let completedParts ← add completedParts partsAtSize
            scheduleCoversLoop initialPartSize maxFileSize maxParts growthInterval
              rounds capacity completedParts
      else
        pure false

def scheduleCovers (initialPartSize maxFileSize maxParts growthInterval : Nat) :
    Machine Bool :=
  scheduleCoversLoop initialPartSize maxFileSize maxParts growthInterval maxParts 0 0

/-- The bisection loop of `S3UploadSizing::InitialPartSize` over block counts.
A 64-bit interval is halved at most 64 times. -/
def initialPartSizeLoop (blockSize maxFileSize maxParts growthInterval : Nat) :
    Nat → Nat → Nat → Machine Nat
  | 0, lower, _ => pure lower
  | rounds + 1, lower, upper =>
      if lower < upper then do
        let width ← sub upper lower
        let middle ← add lower (width / 2)
        let candidate ← mul middle blockSize
        let covers ← scheduleCovers candidate maxFileSize maxParts growthInterval
        if covers then
          initialPartSizeLoop blockSize maxFileSize maxParts growthInterval
            rounds lower middle
        else do
          let next ← add middle 1
          initialPartSizeLoop blockSize maxFileSize maxParts growthInterval
            rounds next upper
      else
        pure lower

def initialPartSize (block : StorageBlock) (maxFileSize maxParts growthInterval : Nat) :
    Machine Nat := do
  let lower ← initialPartSizeLoop block.size maxFileSize maxParts growthInterval 64
    (minMultipartPartSize / block.size) (maxMultipartPartSize / block.size)
  mul lower block.size

end S3UploadSizing

namespace S3UploadConfig

def create (block : StorageBlock) (maxFileSize maxParts : Nat) :
    Machine (Except ErrorData S3UploadConfig) :=
  if maxFileSize = 0 then
    pure (.error (.invalidInput "s3_uploader_max_filesize must be greater than zero"))
  else if maxParts = 0 ∨ maxMultipartParts < maxParts then
    pure (.error (.invalidInput
      "s3_uploader_max_parts_per_file must be between 1 and 10000"))
  else do
    let supportedFileSize ← mul maxMultipartPartSize maxParts
    if supportedFileSize < maxFileSize then
      pure (.error (.invalidInput
        "s3_uploader_max_filesize exceeds the size supported by s3_uploader_max_parts_per_file"))
    else do
      let shifted ← add maxParts partSizeTiers
      let rounded ← sub shifted 1
      let growthInterval := rounded / partSizeTiers
      let initialPartSize ←
        S3UploadSizing.initialPartSize block maxFileSize maxParts growthInterval
      pure (.ok ⟨maxFileSize, maxParts, initialPartSize, growthInterval⟩)

def partSize (config : S3UploadConfig) (reservedParts : Nat) : Machine Nat :=
  S3UploadSizing.partSize config.initialPartSize config.growthInterval reservedParts

def hasPartCapacity (config : S3UploadConfig) (reservedParts : Nat) : Bool :=
  decide (reservedParts < config.maxParts)

end S3UploadConfig

/-! ## Exact values -/

/-- Part size after `completedParts` parts: the initial size doubled once per
growth interval, capped at the largest multipart part. -/
def scheduledSize (initialPartSize growthInterval completedParts : Nat) : Nat :=
  min (initialPartSize * 2 ^ (completedParts / growthInterval)) maxMultipartPartSize

/-- Bytes the first `parts` parts of a schedule can hold. -/
def scheduleCapacity (initialPartSize growthInterval parts : Nat) : Nat :=
  ∑ completed ∈ Finset.range parts, scheduledSize initialPartSize growthInterval completed

theorem scheduledSize_le_max (initialPartSize growthInterval completedParts : Nat) :
    scheduledSize initialPartSize growthInterval completedParts ≤ maxMultipartPartSize :=
  min_le_right _ _

theorem initial_le_scheduledSize {initialPartSize : Nat}
    (bound : initialPartSize ≤ maxMultipartPartSize) (growthInterval completedParts : Nat) :
    initialPartSize ≤ scheduledSize initialPartSize growthInterval completedParts :=
  le_min (Nat.le_mul_of_pos_right _ (Nat.two_pow_pos _)) bound

theorem scheduledSize_zero {initialPartSize : Nat}
    (bound : initialPartSize ≤ maxMultipartPartSize) (growthInterval : Nat) :
    scheduledSize initialPartSize growthInterval 0 = initialPartSize := by
  simp [scheduledSize, bound]

theorem scheduledSize_monotone (initialPartSize growthInterval : Nat) :
    Monotone (scheduledSize initialPartSize growthInterval) := by
  intro fewer more order
  have exponent : fewer / growthInterval ≤ more / growthInterval :=
    Nat.div_le_div_right order
  exact min_le_min
    (Nat.mul_le_mul_left _ (Nat.pow_le_pow_right (by omega) exponent)) (le_refl _)

theorem scheduledSize_mono_initial {small large : Nat} (order : small ≤ large)
    (growthInterval completedParts : Nat) :
    scheduledSize small growthInterval completedParts ≤
      scheduledSize large growthInterval completedParts :=
  min_le_min (Nat.mul_le_mul_right _ order) (le_refl _)

theorem scheduleCapacity_mono_initial {small large : Nat} (order : small ≤ large)
    (growthInterval parts : Nat) :
    scheduleCapacity small growthInterval parts ≤
      scheduleCapacity large growthInterval parts :=
  Finset.sum_le_sum fun _ _ => scheduledSize_mono_initial order _ _

theorem scheduleCapacity_max (growthInterval parts : Nat) :
    scheduleCapacity maxMultipartPartSize growthInterval parts =
      maxMultipartPartSize * parts := by
  have constant : ∀ completed ∈ Finset.range parts,
      scheduledSize maxMultipartPartSize growthInterval completed =
        maxMultipartPartSize := by
    intro completed _
    exact le_antisymm (scheduledSize_le_max _ _ _)
      (initial_le_scheduledSize (le_refl _) _ _)
  rw [scheduleCapacity, Finset.sum_congr rfl constant]
  simp [Nat.mul_comm]

/-! ## The code computes the exact values -/

private theorem max_lt_modulus : 2 * maxMultipartPartSize < modulus := by
  decide

private theorem modulus_eq : modulus = 18446744073709551616 := by
  decide

namespace S3UploadSizing

theorem partSizeLoop_eq {result : Nat} (bound : result ≤ maxMultipartPartSize)
    (doublingCount : Nat) :
    partSizeLoop result doublingCount =
      pure (min (result * 2 ^ doublingCount) maxMultipartPartSize) := by
  induction doublingCount generalizing result with
  | zero => simp [partSizeLoop, bound]
  | succ doublingCount inductionHypothesis =>
      simp only [partSizeLoop]
      split
      · have wide := max_lt_modulus
        rw [mul_eq_pure (by omega), pure_bind,
          inductionHypothesis (min_le_right _ _)]
        congr 1
        rw [Nat.pow_succ', ← Nat.mul_assoc]
        rcases Nat.le_total (result * 2) maxMultipartPartSize with fits | saturated
        · rw [min_eq_left fits]
        · -- Once the cap is reached, further doublings stay above it.
          have grown := Nat.le_mul_of_pos_right maxMultipartPartSize
            (Nat.two_pow_pos doublingCount)
          have larger := Nat.mul_le_mul_right (2 ^ doublingCount) saturated
          rw [min_eq_right saturated, min_eq_right grown,
            min_eq_right (grown.trans larger)]
      · have equal : result = maxMultipartPartSize := by omega
        subst equal
        rw [min_eq_right (Nat.le_mul_of_pos_right _ (Nat.two_pow_pos _))]

theorem partSize_eq {initialPartSize : Nat}
    (bound : initialPartSize ≤ maxMultipartPartSize) (growthInterval completedParts : Nat) :
    partSize initialPartSize growthInterval completedParts =
      pure (scheduledSize initialPartSize growthInterval completedParts) :=
  partSizeLoop_eq bound _

end S3UploadSizing

/-- Parts of one growth tier have one size, so a tier adds a product. -/
theorem scheduleCapacity_add_tier (initialPartSize : Nat) {growthInterval : Nat}
    {tier parts : Nat} (within : parts ≤ growthInterval) :
    scheduleCapacity initialPartSize growthInterval (tier * growthInterval + parts) =
      scheduleCapacity initialPartSize growthInterval (tier * growthInterval) +
        scheduledSize initialPartSize growthInterval (tier * growthInterval) * parts := by
  induction parts with
  | zero => simp
  | succ parts inductionHypothesis =>
      have growthPos : 0 < growthInterval := by omega
      have sameTier : (tier * growthInterval + parts) / growthInterval =
          tier * growthInterval / growthInterval := by
        rw [Nat.mul_div_cancel _ growthPos, Nat.add_comm, Nat.add_mul_div_right _ _ growthPos,
          Nat.div_eq_of_lt (by omega), Nat.zero_add]
      have sameSize : scheduledSize initialPartSize growthInterval
          (tier * growthInterval + parts) =
          scheduledSize initialPartSize growthInterval (tier * growthInterval) := by
        simp only [scheduledSize, sameTier]
      rw [← Nat.add_assoc, scheduleCapacity, Finset.sum_range_succ, sameSize]
      change scheduleCapacity _ _ _ + _ = _
      rw [inductionHypothesis (by omega), Nat.mul_succ, Nat.add_assoc]

theorem scheduleCapacity_le_of_le (initialPartSize growthInterval : Nat)
    {fewer more : Nat} (order : fewer ≤ more) :
    scheduleCapacity initialPartSize growthInterval fewer ≤
      scheduleCapacity initialPartSize growthInterval more :=
  Finset.sum_le_sum_of_subset (Finset.range_mono order)

namespace S3UploadSizing

/-- One tier at a time, the loop decides whether the schedule reaches the file
size; the capacity so far stays below it, so nothing wraps. -/
theorem scheduleCoversLoop_eq {initialPartSize maxFileSize maxParts growthInterval : Nat}
    (bound : initialPartSize ≤ maxMultipartPartSize) (growthPos : 0 < growthInterval)
    (fileBound : maxFileSize < modulus) (partsBound : maxParts < modulus)
    {rounds tier : Nat}
    (uncovered : scheduleCapacity initialPartSize growthInterval (tier * growthInterval) <
      maxFileSize)
    (enough : maxParts ≤ tier * growthInterval + rounds) :
    scheduleCoversLoop initialPartSize maxFileSize maxParts growthInterval rounds
        (scheduleCapacity initialPartSize growthInterval (tier * growthInterval))
        (tier * growthInterval) =
      pure (decide (maxFileSize ≤
        scheduleCapacity initialPartSize growthInterval maxParts)) := by
  have rejected (beyond : maxParts ≤ tier * growthInterval) :
      decide (maxFileSize ≤ scheduleCapacity initialPartSize growthInterval maxParts) =
        false := by
    have smaller := scheduleCapacity_le_of_le initialPartSize growthInterval beyond
    simpa using smaller.trans_lt uncovered
  induction rounds generalizing tier with
  | zero => rw [scheduleCoversLoop, rejected (by omega)]
  | succ rounds inductionHypothesis =>
      simp only [scheduleCoversLoop]
      split
      · rename_i more
        rw [partSize_eq bound, pure_bind, sub_eq_pure more.le partsBound, pure_bind,
          min_eq_left uncovered.le, sub_eq_pure uncovered.le fileBound, pure_bind]
        set size := scheduledSize initialPartSize growthInterval (tier * growthInterval)
        set capacity := scheduleCapacity initialPartSize growthInterval (tier * growthInterval)
        set partsAtSize := min growthInterval (maxParts - tier * growthInterval)
        have partsPos : 0 < partsAtSize := by omega
        have tierCapacity :
            scheduleCapacity initialPartSize growthInterval
              (tier * growthInterval + partsAtSize) = capacity + size * partsAtSize :=
          scheduleCapacity_add_tier _ (min_le_left _ _)
        have tierWithin : scheduleCapacity initialPartSize growthInterval
              (tier * growthInterval + partsAtSize) ≤
            scheduleCapacity initialPartSize growthInterval maxParts :=
          scheduleCapacity_le_of_le _ _ (by omega)
        split
        · rename_i covered
          have reached := (Nat.div_lt_iff_lt_mul partsPos).mp covered
          have covers : maxFileSize ≤
              scheduleCapacity initialPartSize growthInterval maxParts := by omega
          simp [covers]
        · rename_i notCovered
          have fits : size * partsAtSize ≤ maxFileSize - capacity := by
            by_contra exceeds
            exact notCovered ((Nat.div_lt_iff_lt_mul partsPos).mpr (by omega))
          rw [mul_eq_pure (by omega), pure_bind, add_eq_pure (by omega), pure_bind]
          split
          · rename_i reached
            have covers : maxFileSize ≤
                scheduleCapacity initialPartSize growthInterval maxParts := by omega
            simp [covers]
          · rename_i short
            rw [add_eq_pure (by omega), pure_bind]
            rcases Nat.le_total growthInterval (maxParts - tier * growthInterval)
              with fullTier | lastTier
            · have next : tier * growthInterval + partsAtSize =
                  (tier + 1) * growthInterval := by
                rw [Nat.add_mul, Nat.one_mul]
                omega
              rw [← tierCapacity, next]
              apply inductionHypothesis
              · rw [← next]
                omega
              · rw [← next]
                omega
              · intro beyond
                rw [← next] at beyond
                have equal : tier * growthInterval + partsAtSize = maxParts := by omega
                rw [← equal]
                simp
                omega
            · -- The last tier ends at `maxParts`; the next round only leaves the loop.
              have finished : tier * growthInterval + partsAtSize = maxParts := by omega
              rw [finished] at tierCapacity ⊢
              have decided : decide (maxFileSize ≤
                  scheduleCapacity initialPartSize growthInterval maxParts) = false := by
                simp
                omega
              rw [decided]
              cases rounds <;> simp [scheduleCoversLoop]
      · rename_i beyond
        rw [rejected (by omega)]

theorem scheduleCovers_eq {initialPartSize maxFileSize maxParts growthInterval : Nat}
    (bound : initialPartSize ≤ maxMultipartPartSize) (growthPos : 0 < growthInterval)
    (filePos : 0 < maxFileSize) (fileBound : maxFileSize < modulus)
    (partsBound : maxParts < modulus) :
    scheduleCovers initialPartSize maxFileSize maxParts growthInterval =
      pure (decide (maxFileSize ≤
        scheduleCapacity initialPartSize growthInterval maxParts)) := by
  have uncovered : scheduleCapacity initialPartSize growthInterval (0 * growthInterval) <
      maxFileSize := by
    simpa [scheduleCapacity] using filePos
  have start := scheduleCoversLoop_eq bound growthPos fileBound partsBound uncovered
    (show maxParts ≤ 0 * growthInterval + maxParts by omega)
  simpa [scheduleCovers, scheduleCapacity] using start

/-- A block count is accepted when the schedule starting from it covers the
largest file. -/
def coversFrom (blockSize maxFileSize maxParts growthInterval blocks : Nat) : Bool :=
  decide (maxFileSize ≤ scheduleCapacity (blocks * blockSize) growthInterval maxParts)

theorem coversFrom_monotone (blockSize maxFileSize maxParts growthInterval : Nat)
    ⦃small large : Nat⦄ (order : small ≤ large)
    (covers : coversFrom blockSize maxFileSize maxParts growthInterval small = true) :
    coversFrom blockSize maxFileSize maxParts growthInterval large = true := by
  simp only [coversFrom, decide_eq_true_eq] at covers ⊢
  exact covers.trans
    (scheduleCapacity_mono_initial (Nat.mul_le_mul_right _ order) _ _)

theorem initialPartSizeLoop_eq {blockSize maxFileSize maxParts growthInterval : Nat}
    (blockPos : 0 < blockSize) (growthPos : 0 < growthInterval)
    (filePos : 0 < maxFileSize) (fileBound : maxFileSize < modulus)
    (partsBound : maxParts < modulus) {rounds lower upper : Nat}
    (upperBound : upper * blockSize ≤ maxMultipartPartSize) :
    initialPartSizeLoop blockSize maxFileSize maxParts growthInterval rounds lower upper =
      pure (bisect (coversFrom blockSize maxFileSize maxParts growthInterval)
        rounds lower upper) := by
  have wide := max_lt_modulus
  have word := modulus_eq
  induction rounds generalizing lower upper with
  | zero => rfl
  | succ rounds inductionHypothesis =>
      simp only [initialPartSizeLoop, bisect]
      split
      · rename_i narrow
        have upperLe : upper ≤ upper * blockSize := Nat.le_mul_of_pos_right _ blockPos
        have middleLe : (lower + (upper - lower) / 2) * blockSize ≤ upper * blockSize :=
          Nat.mul_le_mul_right _ (by omega)
        rw [sub_eq_pure narrow.le (by omega), pure_bind, add_eq_pure (by omega),
          pure_bind, mul_eq_pure (by omega), pure_bind,
          scheduleCovers_eq (by omega) growthPos filePos fileBound partsBound, pure_bind]
        change (if coversFrom _ _ _ _ _ = true then _ else _) = _
        split
        · exact inductionHypothesis (by omega)
        · rw [add_eq_pure (by omega), pure_bind]
          exact inductionHypothesis upperBound
      · rfl

/-- The chosen initial part size: the least multiple of the block size between
the part size limits whose schedule covers the largest file. -/
structure IsInitialPartSize (block : StorageBlock)
    (maxFileSize maxParts growthInterval size : Nat) : Prop where
  aligned : block.size ∣ size
  min_le : minMultipartPartSize ≤ size
  le_max : size ≤ maxMultipartPartSize
  covers : maxFileSize ≤ scheduleCapacity size growthInterval maxParts
  least : ∀ other, block.size ∣ other → minMultipartPartSize ≤ other →
    maxFileSize ≤ scheduleCapacity other growthInterval maxParts → size ≤ other

theorem initialPartSize_spec (block : StorageBlock)
    {maxFileSize maxParts growthInterval : Nat} (growthPos : 0 < growthInterval)
    (filePos : 0 < maxFileSize) (fileBound : maxFileSize < modulus)
    (partsBound : maxParts < modulus)
    (supported : maxFileSize ≤ maxMultipartPartSize * maxParts) :
    ∃ size, initialPartSize block maxFileSize maxParts growthInterval = pure size ∧
      IsInitialPartSize block maxFileSize maxParts growthInterval size := by
  have blockPos := block.size_pos
  have word := modulus_eq
  have wide := max_lt_modulus
  have minAligned : minMultipartPartSize / block.size * block.size =
      minMultipartPartSize :=
    Nat.div_mul_cancel (Nat.dvd_of_mod_eq_zero block.dividesMin)
  have maxAligned : maxMultipartPartSize / block.size * block.size =
      maxMultipartPartSize :=
    Nat.div_mul_cancel (Nat.dvd_of_mod_eq_zero block.dividesMax)
  set accepts := coversFrom block.size maxFileSize maxParts growthInterval
  have upperAccepted : accepts (maxMultipartPartSize / block.size) = true := by
    simpa [accepts, coversFrom, maxAligned, scheduleCapacity_max] using supported
  have order : minMultipartPartSize / block.size ≤ maxMultipartPartSize / block.size :=
    Nat.div_le_div_right (by decide)
  have rounds : maxMultipartPartSize / block.size - minMultipartPartSize / block.size <
      2 ^ 64 :=
    (Nat.sub_le _ _).trans_lt ((Nat.div_le_self _ _).trans_lt (by decide))
  have found := bisect_isLeastIn (coversFrom_monotone block.size maxFileSize maxParts
    growthInterval) order upperAccepted rounds
  set blocks := bisect accepts 64 (minMultipartPartSize / block.size)
    (maxMultipartPartSize / block.size)
  have sizeLe : blocks * block.size ≤ maxMultipartPartSize := by
    have := Nat.mul_le_mul_right block.size found.le_upper
    omega
  refine ⟨blocks * block.size, ?_, ?_⟩
  · rw [initialPartSize, initialPartSizeLoop_eq blockPos growthPos filePos fileBound
      partsBound (by omega), pure_bind]
    exact mul_eq_pure (sizeLe.trans_lt (by omega))
  · refine ⟨Nat.dvd_mul_left _ _, ?_, sizeLe, ?_, ?_⟩
    · have := Nat.mul_le_mul_right block.size found.lower_le
      omega
    · simpa [accepts, coversFrom] using found.accepted
    · rintro other ⟨otherBlocks, rfl⟩ otherMin otherCovers
      rw [Nat.mul_comm block.size] at otherMin otherCovers ⊢
      apply Nat.mul_le_mul_right
      apply found.least
      · rw [← minAligned] at otherMin
        exact Nat.le_of_mul_le_mul_right otherMin blockPos
      · simpa [accepts, coversFrom] using otherCovers

end S3UploadSizing

namespace S3UploadConfig

/-- What `S3UploadConfig::Create` guarantees about the configuration it
returns. -/
structure Created (block : StorageBlock) (config : S3UploadConfig) : Prop where
  fileSize_pos : 0 < config.maxFileSize
  parts_pos : 0 < config.maxParts
  parts_le : config.maxParts ≤ maxMultipartParts
  fileSize_le : config.maxFileSize ≤ maxMultipartPartSize * config.maxParts
  growthInterval_eq : config.growthInterval =
    (config.maxParts + partSizeTiers - 1) / partSizeTiers
  initial : S3UploadSizing.IsInitialPartSize block config.maxFileSize config.maxParts
    config.growthInterval config.initialPartSize

/-- The limits `S3UploadConfig::Create` accepts. -/
def Supported (maxFileSize maxParts : Nat) : Prop :=
  0 < maxFileSize ∧ 0 < maxParts ∧ maxParts ≤ maxMultipartParts ∧
    maxFileSize ≤ maxMultipartPartSize * maxParts

private theorem supported_lt_modulus :
    maxMultipartPartSize * maxMultipartParts < modulus := by
  decide

/-- On supported limits the configuration is computed without wrapping and
meets its specification. -/
theorem create_of_supported (block : StorageBlock) {maxFileSize maxParts : Nat}
    (supported : Supported maxFileSize maxParts) :
    ∃ config, create block maxFileSize maxParts = pure (.ok config) ∧
      config.Created block ∧ config.maxFileSize = maxFileSize ∧
      config.maxParts = maxParts := by
  obtain ⟨filePos, partsPos, partsLe, fileLe⟩ := supported
  have word := modulus_eq
  have limit := supported_lt_modulus
  have product := Nat.mul_le_mul_left maxMultipartPartSize partsLe
  have partsSmall : maxParts < 10001 := Nat.lt_succ_of_le partsLe
  have tiers : partSizeTiers = 11 := rfl
  have growthPos : 0 < (maxParts + partSizeTiers - 1) / partSizeTiers := by
    rw [tiers]
    omega
  obtain ⟨size, computed, initial⟩ := S3UploadSizing.initialPartSize_spec block
    growthPos filePos (by omega) (by omega) fileLe
  refine ⟨⟨maxFileSize, maxParts, size, (maxParts + partSizeTiers - 1) / partSizeTiers⟩,
    ?_, ⟨filePos, partsPos, partsLe, fileLe, rfl, initial⟩, rfl, rfl⟩
  rw [create, if_neg (by omega), if_neg (by omega), mul_eq_pure (by omega), pure_bind,
    if_neg (by omega), add_eq_pure (by omega), pure_bind,
    sub_eq_pure (by omega) (by omega), pure_bind]
  dsimp only
  rw [computed, pure_bind]

/-- `S3UploadConfig::Create` succeeds exactly on supported limits. -/
theorem create_eq_ok_iff_supported (block : StorageBlock) (maxFileSize maxParts : Nat) :
    (∃ config, (create block maxFileSize maxParts).val = .ok config) ↔
      Supported maxFileSize maxParts := by
  constructor
  · rintro ⟨config, created⟩
    by_cases emptyFile : maxFileSize = 0
    · simp [create, emptyFile] at created
    by_cases badParts : maxParts = 0 ∨ maxMultipartParts < maxParts
    · simp [create, emptyFile, badParts] at created
    have limit := supported_lt_modulus
    have product := Nat.mul_le_mul_left maxMultipartPartSize
      (show maxParts ≤ maxMultipartParts by omega)
    refine ⟨by omega, by omega, by omega, ?_⟩
    by_contra tooLarge
    rw [create, if_neg emptyFile, if_neg badParts, mul_eq_pure (by omega), pure_bind,
      if_pos (by omega)] at created
    cases created
  · intro supported
    obtain ⟨config, created, _⟩ := create_of_supported block supported
    exact ⟨config, by rw [created]; rfl⟩

theorem created_of_create {block : StorageBlock} {maxFileSize maxParts : Nat}
    {config : S3UploadConfig}
    (created : (create block maxFileSize maxParts).val = .ok config) :
    config.Created block ∧ config.maxFileSize = maxFileSize ∧
      config.maxParts = maxParts := by
  have supported := (create_eq_ok_iff_supported block _ _).mp ⟨config, created⟩
  obtain ⟨result, computed, properties⟩ := create_of_supported block supported
  rw [computed] at created
  cases created
  exact properties

namespace Created

variable {block : StorageBlock} {config : S3UploadConfig}

theorem partSize_eq (created : config.Created block) (reservedParts : Nat) :
    config.partSize reservedParts =
      pure (scheduledSize config.initialPartSize config.growthInterval reservedParts) :=
  S3UploadSizing.partSize_eq created.initial.le_max _ _

theorem fileSize_lt_modulus (created : config.Created block) :
    config.maxFileSize < modulus := by
  have limit := supported_lt_modulus
  have product := Nat.mul_le_mul_left maxMultipartPartSize created.parts_le
  have bounded := created.fileSize_le
  omega

end Created

end S3UploadConfig

end Httpfs.S3
