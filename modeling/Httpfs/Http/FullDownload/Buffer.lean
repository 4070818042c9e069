import Httpfs.Transition.Arena
import Httpfs.Word64.Core

/-!
# The buffer of a download

A download collects a body of unknown length in one allocation that it replaces
by a larger one when it is full.  Allocations live under handles of their own,
so that an allocation which is read by someone else is seen to be left alone.

An exception leaves the buffer as it was.
-/

namespace Httpfs.Http.FullDownload

open Word64 Transition

/-- The bytes of an allocation. -/
abbrev Block := List UInt8

def memcpy (target : Block) (offset : Nat) (source : Block) : Block :=
  target.take offset ++ source ++ target.drop (offset + source.length)

/-- The bytes behind a pointer, none behind a null pointer. -/
def content (blocks : Arena Block) (data : Option Nat) : Block :=
  (data.bind blocks.get).getD []

def free (blocks : Arena Block) : Option Nat → Arena Block
  | none => blocks
  | some block => blocks.erase block

/-- `CachedFileDownload`.  What was appended since the last reset is not a field
of the source. -/
structure CachedFileDownload where
  data : Option Nat := none
  capacity : Nat := 0
  size : Nat := 0
  active : Bool := true
  appended : Block := []
  deriving DecidableEq, Repr

namespace CachedFileDownload

/-- A new allocation, with the downloaded bytes copied into it. -/
def newData (blocks : Arena Block) (download : CachedFileDownload) (capacity : Nat) : Block :=
  let fresh : Block := List.replicate capacity 0
  if 0 < download.size then memcpy fresh 0 ((content blocks download.data).take download.size)
  else fresh

/-- Replace the allocation by a larger one, unless the allocator refuses. -/
def reserveInternal (blocks : Arena Block) (download : CachedFileDownload) (capacity : Nat)
    (allocates : Bool) : Option (Arena Block × CachedFileDownload) :=
  if capacity ≤ download.capacity then some (blocks, download)
  else if allocates then
    some ((free blocks download.data).insert (download.newData blocks capacity),
      { download with data := some blocks.next, capacity })
  else none

def reserve (blocks : Arena Block) (download : CachedFileDownload) (capacity : Nat)
    (allocates : Bool) : Arena Block × CachedFileDownload :=
  (reserveInternal blocks download capacity allocates).getD (blocks, download)

/-- The loop of `Append`: double the capacity up to what is required.  `none`
when the fuel does not last. -/
def growCapacity (requiredCapacity : Nat) : Nat → Nat → Option (Machine Nat)
  | 0, _ => none
  | fuel + 1, newCapacity =>
      if newCapacity < requiredCapacity then
        if (modulus - 1) / 2 < newCapacity then some (pure requiredCapacity)
        else
          let doubled := mul newCapacity 2
          (growCapacity requiredCapacity fuel doubled.val).map fun rest => doubled >>= fun _ => rest
      else some (pure newCapacity)

/-- The capacity that `Append` goes on with. -/
def appendCapacity (download : CachedFileDownload) (length : Nat) : Option (Machine Nat) :=
  let requiredCapacity := add download.size length
  if download.capacity < requiredCapacity.val then
    (growCapacity requiredCapacity.val 64 (max download.capacity length)).map
      fun newCapacity => requiredCapacity >>= fun _ => newCapacity
  else some (requiredCapacity >>= fun _ => pure download.capacity)

/-- Write into the allocation behind a pointer. -/
def store (blocks : Arena Block) (data : Option Nat) (offset : Nat) (bytes : Block) :
    Arena Block :=
  match data with
  | none => blocks
  | some block => blocks.modify block fun content => memcpy content offset bytes

/-- `none` when `Append` does not return. -/
def append (blocks : Arena Block) (download : CachedFileDownload) (bytes : Block)
    (allocates : Bool) : Option (Arena Block × CachedFileDownload) :=
  if bytes.length = 0 then some (blocks, download)
  else if modulus - 1 - download.size < bytes.length then some (blocks, download)
  else
    match download.appendCapacity bytes.length with
    | none => none
    | some newCapacity =>
        match reserveInternal blocks download newCapacity.val allocates with
        | none => some (blocks, download)
        | some (blocks, download) =>
            some (store blocks download.data download.size bytes,
              { download with
                size := (add download.size bytes.length).val
                appended := download.appended ++ bytes })

def reset (blocks : Arena Block) (download : CachedFileDownload) :
    Arena Block × CachedFileDownload :=
  (free blocks download.data,
    { download with data := none, capacity := 0, size := 0, appended := [] })

end CachedFileDownload

/-! ## Growth -/

/-- The loop ends at a capacity that suffices, and doubling never wraps. -/
theorem growCapacity_spec {requiredCapacity fuel newCapacity : Nat}
    (required : requiredCapacity < modulus) (small : newCapacity < modulus)
    (enough : modulus ≤ newCapacity * 2 ^ fuel) :
    ∃ result, CachedFileDownload.growCapacity requiredCapacity fuel newCapacity =
        some (pure result) ∧
      requiredCapacity ≤ result ∧ newCapacity ≤ result ∧ result < modulus := by
  induction fuel generalizing newCapacity with
  | zero => omega
  | succ fuel inductionHypothesis =>
      simp only [CachedFileDownload.growCapacity]
      by_cases short : newCapacity < requiredCapacity
      · rw [if_pos short]
        by_cases last : (modulus - 1) / 2 < newCapacity
        · rw [if_pos last]
          exact ⟨requiredCapacity, rfl, le_rfl, short.le, required⟩
        · have exact : newCapacity * 2 < modulus := by
            simp only [modulus] at last ⊢
            omega
          have enough' : modulus ≤ newCapacity * 2 * 2 ^ fuel := by
            rwa [Nat.mul_assoc, ← Nat.pow_succ']
          rcases inductionHypothesis exact enough' with ⟨result, grows, atLeast, more, less⟩
          refine ⟨result, ?_, atLeast, by omega, less⟩
          rw [if_neg last, mul_eq_pure exact, Machine.val_pure, grows]
          rfl
      · rw [if_neg short]
        exact ⟨newCapacity, rfl, Nat.le_of_not_lt short, le_rfl, small⟩

/-- `Append` finds a sufficient capacity without a single operation that wraps. -/
theorem appendCapacity_spec {download : CachedFileDownload} {length : Nat}
    (capacity : download.capacity < modulus) (positive : 0 < length) (word : length < modulus)
    (fits : download.size + length < modulus) :
    ∃ newCapacity, download.appendCapacity length = some (pure newCapacity) ∧
      download.size + length ≤ newCapacity ∧ download.capacity ≤ newCapacity ∧
      newCapacity < modulus := by
  rw [CachedFileDownload.appendCapacity, add_eq_pure fits, Machine.val_pure]
  by_cases short : download.capacity < download.size + length
  · have enough : modulus ≤ max download.capacity length * 2 ^ 64 := by
      have one : 1 ≤ max download.capacity length := le_max_of_le_right positive
      exact Nat.le_mul_of_pos_left _ one
    rcases growCapacity_spec fits (max_lt capacity word) enough with
      ⟨result, grows, atLeast, more, less⟩
    refine ⟨result, ?_, atLeast, (le_max_left _ _).trans more, less⟩
    rw [if_pos short, grows]
    rfl
  · refine ⟨download.capacity, ?_, Nat.le_of_not_lt short, le_rfl, capacity⟩
    rw [if_neg short]
    rfl

/-! ## What the buffer holds -/

/-- The allocation starts with everything that was appended. -/
structure Holds (blocks : Arena Block) (download : CachedFileDownload) : Prop where
  capacity : download.capacity < modulus
  size : download.size ≤ download.capacity
  length : download.size = download.appended.length
  stored : (download.data = none ∧ download.capacity = 0) ∨
    ∃ block bytes, download.data = some block ∧ blocks.get block = some bytes ∧
      bytes.length = download.capacity ∧ bytes.take download.size = download.appended

/-- The allocations of others are left alone. -/
def Frame (before : Arena Block) (download : CachedFileDownload) (after : Arena Block)
    (changed : CachedFileDownload) : Prop :=
  ∀ other bytes, download.data ≠ some other → before.get other = some bytes →
    after.get other = some bytes ∧ changed.data ≠ some other

theorem Frame.refl (blocks : Arena Block) (download : CachedFileDownload) :
    Frame blocks download blocks download :=
  fun _ _ different live => ⟨live, different⟩

theorem Frame.trans {first second third : Arena Block} {before between after : CachedFileDownload}
    (front : Frame first before second between) (back : Frame second between third after) :
    Frame first before third after := by
  intro other bytes different live
  rcases front other bytes different live with ⟨kept, still⟩
  exact back other bytes still kept

theorem holds_new (blocks : Arena Block) : Holds blocks {} where
  capacity := by decide
  size := le_rfl
  length := rfl
  stored := .inl ⟨rfl, rfl⟩

theorem Holds.content {blocks : Arena Block} {download : CachedFileDownload}
    (holds : Holds blocks download) :
    (content blocks download.data).take download.size = download.appended := by
  rcases holds.stored with ⟨null, empty⟩ | ⟨block, bytes, isBlock, live, -, stored⟩
  · have nothing : download.size = 0 := Nat.le_zero.mp (empty ▸ holds.size)
    have isNil := holds.length
    rw [nothing, eq_comm, List.length_eq_zero_iff] at isNil
    rw [nothing, isNil, List.take_zero]
  · rw [FullDownload.content, isBlock, Option.bind_some, live]
    exact stored

theorem take_memcpy {target source : Block} {offset : Nat} (within : offset ≤ target.length) :
    (memcpy target offset source).take (offset + source.length) = target.take offset ++ source := by
  have length : (target.take offset ++ source).length = offset + source.length := by
    rw [List.length_append, List.length_take_of_le within]
  rw [memcpy, ← length, List.take_left]

theorem length_memcpy {target source : Block} {offset : Nat}
    (within : offset + source.length ≤ target.length) :
    (memcpy target offset source).length = target.length := by
  simp only [memcpy, List.length_append, List.length_take, List.length_drop]
  omega

theorem getElem?_memcpy_inside {target source : Block} {offset index : Nat}
    (within : offset ≤ target.length) (inside : index < source.length) :
    (memcpy target offset source)[offset + index]? = source[index]? := by
  have front : (target.take offset).length = offset := List.length_take_of_le within
  rw [memcpy, List.append_assoc, List.getElem?_append_right (by omega), front,
    Nat.add_sub_cancel_left, List.getElem?_append_left inside]

theorem getElem?_memcpy_outside {target source : Block} {offset index : Nat}
    (within : offset + source.length ≤ target.length)
    (outside : index < offset ∨ offset + source.length ≤ index) :
    (memcpy target offset source)[index]? = target[index]? := by
  have front : (target.take offset).length = offset := List.length_take_of_le (by omega)
  rw [memcpy]
  rcases outside with before | behind
  · rw [List.append_assoc, List.getElem?_append_left (by omega), List.getElem?_take_of_lt before]
  · have both : (target.take offset ++ source).length = offset + source.length := by
      rw [List.length_append, front]
    rw [List.getElem?_append_right (by omega), both, List.getElem?_drop]
    congr 1
    omega

theorem get_free {blocks : Arena Block} {data : Option Nat} {other : Nat}
    (different : data ≠ some other) : (free blocks data).get other = blocks.get other := by
  cases data with
  | none => rfl
  | some block => exact Arena.get_erase_of_ne blocks fun same => different (by rw [same])

theorem next_free (blocks : Arena Block) (data : Option Nat) :
    (free blocks data).next = blocks.next := by
  cases data <;> rfl

theorem frame_free (blocks : Arena Block) {download changed : CachedFileDownload}
    (null : changed.data = none) :
    Frame blocks download (free blocks download.data) changed := by
  intro other bytes different live
  rw [get_free different, null]
  exact ⟨live, nofun⟩

/-- A larger allocation starts with what the smaller one held. -/
theorem Holds.newData {blocks : Arena Block} {download : CachedFileDownload} {capacity : Nat}
    (holds : Holds blocks download) (within : download.size ≤ capacity) :
    (download.newData blocks capacity).length = capacity ∧
      (download.newData blocks capacity).take download.size = download.appended := by
  unfold CachedFileDownload.newData
  dsimp only
  split
  · rw [holds.content]
    constructor
    · rw [length_memcpy, List.length_replicate]
      rw [Nat.zero_add, List.length_replicate, ← holds.length]
      exact within
    · have taken : (memcpy (List.replicate capacity 0) 0 download.appended).take
          (0 + download.appended.length) = _ :=
        take_memcpy (Nat.zero_le _)
      rwa [← holds.length, Nat.zero_add, List.take_zero, List.nil_append] at taken
  · rename_i empty
    have nothing : download.size = 0 := by omega
    have isNil := holds.length
    rw [nothing, eq_comm, List.length_eq_zero_iff] at isNil
    exact ⟨List.length_replicate, by rw [nothing, isNil, List.take_zero]⟩

theorem Holds.reserveInternal {blocks after : Arena Block} {download changed : CachedFileDownload}
    {capacity : Nat} {allocates : Bool} (holds : Holds blocks download)
    (word : capacity < modulus)
    (reserves : download.reserveInternal blocks capacity allocates = some (after, changed)) :
    Holds after changed ∧ Frame blocks download after changed ∧ capacity ≤ changed.capacity ∧
      changed.size = download.size ∧ changed.appended = download.appended ∧
      changed.active = download.active := by
  unfold CachedFileDownload.reserveInternal at reserves
  by_cases enough : capacity ≤ download.capacity
  · rw [if_pos enough] at reserves
    cases reserves
    exact ⟨holds, Frame.refl _ _, enough, rfl, rfl, rfl⟩
  · rw [if_neg enough] at reserves
    cases allocates with
    | false => cases reserves
    | true =>
        cases reserves
        have within : download.size ≤ capacity := by
          have := holds.size
          omega
        rcases holds.newData within with ⟨length, taken⟩
        refine ⟨⟨word, within, holds.length, .inr ⟨blocks.next, _, rfl, ?_, length, taken⟩⟩, ?_,
          le_rfl, rfl, rfl, rfl⟩
        · rw [← next_free blocks download.data, Arena.get_insert_next]
        · intro other bytes different live
          rw [Arena.get_insert_of_live _ ((get_free different).trans live)]
          refine ⟨rfl, fun same => ?_⟩
          cases same
          exact Nat.lt_irrefl _ (Arena.lt_next live)

theorem Holds.reserve {blocks : Arena Block} {download : CachedFileDownload} {capacity : Nat}
    (holds : Holds blocks download) (word : capacity < modulus) (allocates : Bool) :
    Holds (download.reserve blocks capacity allocates).1
        (download.reserve blocks capacity allocates).2 ∧
      Frame blocks download (download.reserve blocks capacity allocates).1
        (download.reserve blocks capacity allocates).2 ∧
      (download.reserve blocks capacity allocates).2.active = download.active := by
  unfold CachedFileDownload.reserve
  cases reserves : download.reserveInternal blocks capacity allocates with
  | none => exact ⟨holds, Frame.refl _ _, rfl⟩
  | some result =>
      rcases holds.reserveInternal word reserves with ⟨held, frame, -, -, -, active⟩
      exact ⟨held, frame, active⟩

theorem Holds.reset (blocks : Arena Block) (download : CachedFileDownload) :
    Holds (download.reset blocks).1 (download.reset blocks).2 ∧
      Frame blocks download (download.reset blocks).1 (download.reset blocks).2 :=
  ⟨⟨Nat.two_pow_pos 64, le_rfl, rfl, .inl ⟨rfl, rfl⟩⟩, frame_free blocks rfl⟩

/-- `Append` returns; the bytes are added, unless there is no room for them. -/
theorem Holds.append {blocks : Arena Block} {download : CachedFileDownload} {bytes : Block}
    (holds : Holds blocks download) (word : bytes.length < modulus) (allocates : Bool) :
    ∃ after changed, download.append blocks bytes allocates = some (after, changed) ∧
      Holds after changed ∧ Frame blocks download after changed ∧
      changed.active = download.active ∧
      (changed.appended = download.appended ++ bytes ∨
        changed.appended = download.appended) := by
  unfold CachedFileDownload.append
  by_cases empty : bytes.length = 0
  · rw [if_pos empty]
    exact ⟨_, _, rfl, holds, Frame.refl _ _, rfl, .inr rfl⟩
  · rw [if_neg empty]
    by_cases tooLong : modulus - 1 - download.size < bytes.length
    · rw [if_pos tooLong]
      exact ⟨_, _, rfl, holds, Frame.refl _ _, rfl, .inr rfl⟩
    · have sizeWord : download.size < modulus := lt_of_le_of_lt holds.size holds.capacity
      have fits : download.size + bytes.length < modulus := by omega
      rcases appendCapacity_spec holds.capacity (Nat.pos_of_ne_zero empty) word fits with
        ⟨newCapacity, grows, atLeast, -, small⟩
      rw [if_neg tooLong, grows]
      simp only [Machine.val_pure]
      cases reserves : download.reserveInternal blocks newCapacity allocates with
      | none => exact ⟨_, _, rfl, holds, Frame.refl _ _, rfl, .inr rfl⟩
      | some result =>
          rcases result with ⟨between, reserved⟩
          rcases holds.reserveInternal small reserves with
            ⟨held, frame, room, size, appended, active⟩
          have roomy : reserved.size + bytes.length ≤ reserved.capacity := by omega
          rcases held.stored with ⟨-, noRoom⟩ | ⟨block, stored, isBlock, live, length, taken⟩
          · omega
          refine ⟨_, _, rfl, ⟨held.capacity, ?_, ?_, .inr ⟨block, memcpy stored reserved.size bytes,
            isBlock, ?_, ?_, ?_⟩⟩, frame.trans ?_, active, .inl ?_⟩
          · rw [size, add_eq_pure fits, Machine.val_pure, ← size]
            exact roomy
          · rw [List.length_append, ← held.length, size, add_eq_pure fits, Machine.val_pure]
          · simp only [CachedFileDownload.store, isBlock, Arena.get_modify_self, live,
              Option.map_some]
          · rw [length_memcpy (by omega), length]
          · have here : reserved.size ≤ stored.length := by omega
            simp only [size, add_eq_pure fits, Machine.val_pure]
            rw [← size, take_memcpy here, taken]
          · intro other bytes' different liveOther
            refine ⟨?_, different⟩
            have isOther : other ≠ block := by
              rintro rfl
              exact different isBlock
            simp only [CachedFileDownload.store, isBlock]
            rw [Arena.get_modify_of_ne _ _ isOther, liveOther]
          · exact congrArg (· ++ bytes) appended

end Httpfs.Http.FullDownload
