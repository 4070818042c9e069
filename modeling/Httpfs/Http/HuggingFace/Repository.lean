import Httpfs.Text.Core
import Mathlib.Data.List.Nodup
import Mathlib.Data.List.Perm.Subperm

/-!
# Trees of files

A tree is given by its entries, each with the directory it is in and a name.  What
is below a directory is what is in it and what is below the directories in it.
-/

namespace Httpfs.Http.HuggingFace

open Text

/-- A file or a directory. -/
structure Entry where
  parent : Text
  name : Text
  plain : '/' ∉ name
  deriving DecidableEq, Repr

def Entry.path (entry : Entry) : Text :=
  entry.parent ++ '/' :: entry.name

theorem Entry.parent_length_lt (entry : Entry) : entry.parent.length < entry.path.length := by
  rw [path, List.length_append, List.length_cons]
  omega

/-- The directory at the root has the empty path and is no entry. -/
structure Repository where
  files : List Entry
  directories : List Entry
  nodup : ((files ++ directories).map Entry.path).Nodup
  located : ∀ entry ∈ files ++ directories,
    entry.parent = [] ∨ ∃ directory ∈ directories, directory.path = entry.parent

/-- The entries in a directory. -/
def inside (directory : Text) (entries : List Entry) : List Entry :=
  entries.filter fun entry => entry.parent = directory

/-- The entries below a directory. -/
def below (directory : Text) (entries : List Entry) : List Entry :=
  entries.filter fun entry => startsWith entry.path (directory ++ ['/'])

theorem mem_inside {directory : Text} {entries : List Entry} {entry : Entry} :
    entry ∈ inside directory entries ↔ entry ∈ entries ∧ entry.parent = directory := by
  rw [inside, List.mem_filter, decide_eq_true_iff]

theorem mem_below {directory : Text} {entries : List Entry} {entry : Entry} :
    entry ∈ below directory entries ↔
      entry ∈ entries ∧ directory ++ ['/'] <+: entry.path := by
  rw [below, List.mem_filter, startsWith_iff]

namespace Entry

/-- What is below a directory is in it or below it in another one. -/
theorem prefix_path_iff {directory : Text} {entry : Entry} :
    directory ++ ['/'] <+: entry.path ↔
      entry.parent = directory ∨ directory ++ ['/'] <+: entry.parent := by
  constructor
  · intro isPrefix
    rcases isPrefix with ⟨rest, whole⟩
    rw [path, List.append_assoc, List.singleton_append] at whole
    rcases List.append_eq_append_iff.mp whole with ⟨middle, parentEq, restEq⟩ |
      ⟨middle, directoryEq, nameEq⟩
    · cases middle with
      | nil => exact .inl (by rw [parentEq, List.append_nil])
      | cons byte middle =>
          right
          obtain ⟨isSlash, -⟩ := List.cons.inj restEq
          exact ⟨middle, by rw [parentEq, isSlash, List.append_assoc, List.singleton_append]⟩
    · cases middle with
      | nil => exact .inl (by rw [directoryEq, List.append_nil])
      | cons byte middle =>
          obtain ⟨-, nameEq⟩ := List.cons.inj nameEq
          exact absurd (nameEq ▸ List.mem_append_right _ List.mem_cons_self) entry.plain
  · rintro (rfl | isPrefix)
    · exact ⟨entry.name, by rw [path, List.append_assoc, List.singleton_append]⟩
    · exact isPrefix.trans (List.prefix_append _ _)

/-- Siblings with something below both are the same. -/
theorem path_eq_of_prefix {first second : Entry} (siblings : first.parent = second.parent)
    {text : Text} (isFirst : first.path ++ ['/'] <+: text) (isSecond : second.path ++ ['/'] <+: text) :
    first.path = second.path := by
  rcases isFirst with ⟨rest, rfl⟩
  rcases isSecond with ⟨other, same⟩
  rw [path, path, siblings] at same ⊢
  simp only [List.append_assoc, List.cons_append, List.append_cancel_left_eq,
    List.cons.injEq, true_and, List.nil_append] at same
  rw [((append_cons_inj second.plain first.plain).mp same).1]

end Entry

namespace Repository

variable (repository : Repository)

theorem path_injective {first second : Entry}
    (isFirst : first ∈ repository.files ++ repository.directories)
    (isSecond : second ∈ repository.files ++ repository.directories)
    (same : first.path = second.path) : first = second :=
  List.inj_on_of_nodup_map repository.nodup isFirst isSecond same

/-- Paths start with a slash. -/
theorem exists_path_eq_cons {entry : Entry}
    (isEntry : entry ∈ repository.files ++ repository.directories) :
    ∃ rest, entry.path = '/' :: rest := by
  induction length : entry.path.length using Nat.strong_induction_on generalizing entry with
  | _ size inductionHypothesis =>
      rcases repository.located entry isEntry with isRoot | ⟨directory, isDirectory, parentEq⟩
      · exact ⟨entry.name, by rw [Entry.path, isRoot, List.nil_append]⟩
      · have shorter : directory.path.length < size := by
          rw [← length, parentEq]
          exact entry.parent_length_lt
        rcases inductionHypothesis _ shorter (List.mem_append_right _ isDirectory) rfl with
          ⟨rest, isPath⟩
        exact ⟨rest ++ '/' :: entry.name, by
          rw [Entry.path, ← parentEq, isPath, List.cons_append]⟩

/-- Below a directory are the entries in it and those below the directories in it. -/
theorem prefix_path_iff {directory : Text} {entry : Entry}
    (isEntry : entry ∈ repository.files ++ repository.directories) :
    directory ++ ['/'] <+: entry.path ↔ entry.parent = directory ∨
      ∃ child ∈ inside directory repository.directories, child.path ++ ['/'] <+: entry.path := by
  induction length : entry.path.length using Nat.strong_induction_on generalizing entry with
  | _ size inductionHypothesis =>
      constructor
      · intro isPrefix
        rcases Entry.prefix_path_iff.mp isPrefix with isParent | deeper
        · exact .inl isParent
        · right
          rcases repository.located entry isEntry with isRoot | ⟨parent, isDirectory, parentEq⟩
          · rw [isRoot] at deeper
            exact absurd (List.prefix_nil.mp deeper) (by simp)
          · have shorter : parent.path.length < size := by
              rw [← length, parentEq]
              exact entry.parent_length_lt
            rw [← parentEq] at deeper
            have entryBelow : parent.path ++ ['/'] <+: entry.path :=
              Entry.prefix_path_iff.mpr (.inl parentEq.symm)
            rcases (inductionHypothesis _ shorter (List.mem_append_right _ isDirectory) rfl).mp
              deeper with isChild | ⟨child, isChild, parentBelow⟩
            · exact ⟨parent, mem_inside.mpr ⟨isDirectory, isChild⟩, entryBelow⟩
            · refine ⟨child, isChild, parentBelow.trans ?_⟩
              exact (List.prefix_append _ ['/']).trans entryBelow
      · rintro (isParent | ⟨child, isChild, isPrefix⟩)
        · exact Entry.prefix_path_iff.mpr (.inl isParent)
        · rw [← (mem_inside.mp isChild).2]
          have childBelow : child.parent ++ ['/'] <+: child.path :=
            Entry.prefix_path_iff.mpr (.inl rfl)
          exact childBelow.trans ((List.prefix_append _ ['/']).trans isPrefix)

/-- The entries below a directory, in the order of a walk. -/
theorem below_perm {entries : List Entry}
    (sublist : entries.Sublist (repository.files ++ repository.directories)) (directory : Text) :
    (below directory entries).Perm (inside directory entries ++
      (inside directory repository.directories).flatMap fun child => below child.path entries) := by
  have allNodup := repository.nodup.of_map
  have entriesNodup := allNodup.sublist sublist
  have directoriesNodup := allNodup.sublist (List.sublist_append_right _ _)
  have belowNodup : (below directory entries).Nodup := entriesNodup.filter _
  rw [List.perm_ext_iff_of_nodup belowNodup]
  · intro entry
    rw [List.mem_append, mem_inside, mem_below, List.mem_flatMap]
    constructor
    · rintro ⟨isEntry, isPrefix⟩
      rcases (repository.prefix_path_iff (sublist.subset isEntry)).mp isPrefix with
        isParent | ⟨child, isChild, childBelow⟩
      · exact .inl ⟨isEntry, isParent⟩
      · exact .inr ⟨child, isChild, mem_below.mpr ⟨isEntry, childBelow⟩⟩
    · rintro (⟨isEntry, isParent⟩ | ⟨child, isChild, isBelow⟩)
      · exact ⟨isEntry, (repository.prefix_path_iff (sublist.subset isEntry)).mpr (.inl isParent)⟩
      · obtain ⟨isEntry, isPrefix⟩ := mem_below.mp isBelow
        exact ⟨isEntry, (repository.prefix_path_iff (sublist.subset isEntry)).mpr
          (.inr ⟨child, isChild, isPrefix⟩)⟩
  · rw [List.nodup_append]
    refine ⟨entriesNodup.filter _, ?_, ?_⟩
    · rw [List.nodup_flatMap]
      constructor
      · intro child _
        exact entriesNodup.filter _
      · apply (directoriesNodup.filter _).imp_of_mem
        intro first second isFirst isSecond different entry inFirst inSecond
        have firstEntry := mem_inside.mp isFirst
        have secondEntry := mem_inside.mp isSecond
        apply different
        apply repository.path_injective (List.mem_append_right _ firstEntry.1)
          (List.mem_append_right _ secondEntry.1)
        exact Entry.path_eq_of_prefix (firstEntry.2.trans secondEntry.2.symm)
          (mem_below.mp inFirst).2 (mem_below.mp inSecond).2
    · rintro entry isInside other isOther rfl
      rcases List.mem_flatMap.mp isOther with ⟨child, isChild, isBelow⟩
      have childParent := (mem_inside.mp isChild).2
      have entryParent := (mem_inside.mp isInside).2
      have long : child.path.length ≤ entry.parent.length := by
        rcases Entry.prefix_path_iff.mp (mem_below.mp isBelow).2 with same | deeper
        · exact le_of_eq (congrArg List.length same.symm)
        · have bound := deeper.length_le
          rw [List.length_append] at bound
          omega
      rw [Entry.path, childParent, entryParent, List.length_append, List.length_cons] at long
      omega

/-- What holds of a directory if it holds of all directories in it, holds of all. -/
theorem directory_induction {motive : Text → Prop}
    (step : ∀ directory,
      (∀ child ∈ inside directory repository.directories, motive child.path) → motive directory)
    (directory : Text) : motive directory := by
  induction count : (below directory repository.directories).length using Nat.strong_induction_on
    generalizing directory with
  | _ size inductionHypothesis =>
      apply step
      intro child isChild
      apply inductionHypothesis _ _ child.path rfl
      have isBelow : child ∈ below directory repository.directories := by
        rw [mem_below]
        exact ⟨(mem_inside.mp isChild).1, Entry.prefix_path_iff.mpr (.inl (mem_inside.mp isChild).2)⟩
      have notBelowItself : child ∉ below child.path repository.directories := by
        intro isBelow
        have long := (mem_below.mp isBelow).2.length_le
        rw [List.length_append] at long
        exact absurd long (by simp)
      have nodup : (child :: below child.path repository.directories).Nodup :=
        List.nodup_cons.mpr ⟨notBelowItself,
          (repository.nodup.of_map.sublist (List.sublist_append_right _ _)).filter _⟩
      have subset : child :: below child.path repository.directories ⊆
          below directory repository.directories := by
        intro entry member
        rcases List.mem_cons.mp member with rfl | member
        · exact isBelow
        · obtain ⟨isEntry, isPrefix⟩ := mem_below.mp member
          exact mem_below.mpr ⟨isEntry, (mem_below.mp isBelow).2.trans
            ((List.prefix_append _ _).trans isPrefix)⟩
      have fewer := (List.Nodup.subperm nodup subset).length_le
      rw [List.length_cons, count] at fewer
      exact fewer

end Repository

end Httpfs.Http.HuggingFace
