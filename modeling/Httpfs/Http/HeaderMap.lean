import Httpfs.Text.Core
import Mathlib.Data.List.Nodup

/-!
# Header maps

Names are compared without regard to letter case, and a name keeps the spelling it
came with first.
-/

namespace Httpfs.Http

open Text

/-- The value that a name was first inserted with; names are compared without regard
to letter case. -/
structure HTTPHeaders where
  entries : List (Text × Text)
  distinct : (entries.map fun header => lower header.1).Nodup
  deriving DecidableEq

namespace HTTPHeaders

def empty : HTTPHeaders :=
  ⟨[], List.nodup_nil⟩

def names (headers : HTTPHeaders) : List Text :=
  headers.entries.map fun header => lower header.1

def insert (headers : HTTPHeaders) (name value : Text) : HTTPHeaders :=
  if present : lower name ∈ headers.names then headers
  else
    ⟨headers.entries ++ [(name, value)], by
      rw [List.map_append, List.map_singleton, List.nodup_append]
      refine ⟨headers.distinct, List.nodup_singleton _, ?_⟩
      rintro _ member _ inserted rfl
      exact present (List.mem_singleton.mp inserted ▸ member)⟩

def get? (headers : HTTPHeaders) (name : Text) : Option Text :=
  (headers.entries.find? fun header => lower header.1 = lower name).map Prod.snd

theorem insert_of_mem {headers : HTTPHeaders} {name : Text} (present : lower name ∈ headers.names)
    (value : Text) : headers.insert name value = headers := by
  rw [insert, dif_pos present]

theorem entries_insert {headers : HTTPHeaders} {name : Text} (absent : lower name ∉ headers.names)
    (value : Text) : (headers.insert name value).entries = headers.entries ++ [(name, value)] := by
  rw [insert, dif_neg absent]

theorem mem_names_insert (headers : HTTPHeaders) (name value other : Text) :
    other ∈ (headers.insert name value).names ↔ other = lower name ∨ other ∈ headers.names := by
  by_cases present : lower name ∈ headers.names
  · rw [insert_of_mem present]
    constructor
    · exact .inr
    · rintro (rfl | member)
      · exact present
      · exact member
  · rw [names, entries_insert present, List.map_append, List.mem_append, List.map_singleton,
      List.mem_singleton, or_comm]
    rfl

/-- `headers[name] = value`. -/
def set (headers : HTTPHeaders) (name value : Text) : HTTPHeaders :=
  if lower name ∈ headers.names then
    ⟨headers.entries.map fun header =>
        if lower header.1 = lower name then (header.1, value) else header, by
      have kept : (headers.entries.map fun header =>
          if lower header.1 = lower name then (header.1, value) else header).map
            (fun header => lower header.1) = headers.names := by
        rw [List.map_map, names]
        apply List.map_congr_left
        intro header _
        dsimp only [Function.comp_apply]
        split <;> rfl
      rw [kept]
      exact headers.distinct⟩
  else headers.insert name value

theorem names_set (headers : HTTPHeaders) (name value : Text) :
    (headers.set name value).names = (headers.insert name value).names := by
  rw [set]
  split
  · rename_i present
    rw [insert_of_mem present]
    change (headers.entries.map _).map _ = headers.entries.map _
    rw [List.map_map]
    apply List.map_congr_left
    intro header _
    dsimp only [Function.comp_apply]
    split <;> rfl
  · rfl

/-- A header that is set is there with its value, and the others are as they were. -/
theorem mem_set {headers : HTTPHeaders} {name value : Text} {header : Text × Text} :
    header ∈ (headers.set name value).entries →
      header ∈ headers.entries ∧ lower header.1 ≠ lower name ∨
        lower header.1 = lower name ∧ header.2 = value := by
  rw [set]
  split
  · rintro member
    obtain ⟨earlier, inside, rfl⟩ := List.mem_map.mp member
    by_cases same : lower earlier.1 = lower name
    · rw [if_pos same]
      exact .inr ⟨same, rfl⟩
    · rw [if_neg same]
      exact .inl ⟨inside, same⟩
  · rename_i absent
    rw [entries_insert absent, List.mem_append, List.mem_singleton]
    rintro (inside | rfl)
    · left
      refine ⟨inside, ?_⟩
      intro same
      exact absent (List.mem_map.mpr ⟨header, inside, same⟩)
    · exact .inr ⟨rfl, rfl⟩

/-- Setting a header leaves those of other names. -/
theorem mem_set_of_ne {headers : HTTPHeaders} {name : Text} {header : Text × Text}
    (member : header ∈ headers.entries) (other : lower header.1 ≠ lower name) (value : Text) :
    header ∈ (headers.set name value).entries := by
  rw [set]
  split
  · exact List.mem_map.mpr ⟨header, member, if_neg other⟩
  · rename_i absent
    rw [entries_insert absent]
    exact List.mem_append_left _ member

theorem entries_set {headers : HTTPHeaders} {name : Text} (absent : lower name ∉ headers.names)
    (value : Text) : (headers.set name value).entries = headers.entries ++ [(name, value)] := by
  rw [set, if_neg absent, entries_insert absent]

theorem exists_mem_set (headers : HTTPHeaders) (name value : Text) :
    ∃ header ∈ (headers.set name value).entries, lower header.1 = lower name ∧ header.2 = value := by
  have present : lower name ∈ (headers.set name value).names := by
    rw [names_set, mem_names_insert]
    exact .inl rfl
  obtain ⟨header, inside, same⟩ := List.mem_map.mp present
  rcases mem_set inside with ⟨-, other⟩ | ⟨-, isValue⟩
  · exact absurd same other
  · exact ⟨header, inside, same, isValue⟩

/-- Headers that are looked at by their names are not touched by setting another. -/
theorem filter_set {headers : HTTPHeaders} {name : Text} (value : Text) {test : Text → Bool}
    (ignores : ∀ other, lower other = lower name → test other = false) :
    (headers.set name value).entries.filter (fun header => test header.1) =
      headers.entries.filter fun header => test header.1 := by
  rw [set]
  split
  · change (headers.entries.map _).filter _ = _
    generalize headers.entries = entries
    induction entries with
    | nil => rfl
    | cons header entries inductionHypothesis =>
        rw [List.map_cons]
        by_cases same : lower header.1 = lower name
        · rw [if_pos same, List.filter_cons_of_neg (by simp [ignores header.1 same]),
            List.filter_cons_of_neg (by simp [ignores header.1 same])]
          exact inductionHypothesis
        · rw [if_neg same, List.filter_cons, List.filter_cons, inductionHypothesis]
  · rename_i absent
    rw [entries_insert absent, List.filter_append, List.filter_cons_of_neg (by simp [ignores name rfl]),
      List.filter_nil, List.append_nil]

end HTTPHeaders

end Httpfs.Http
