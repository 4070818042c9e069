import Httpfs.Text.Core

/-!
# Reading a text by position

A reader holds a position in its text.  It may reject the text; to read or to move behind
the end of the text, to look at the last of no entries or not to come to an end is a fault
instead.

A reader refines a parser that holds what is left of the text if it rejects the same texts
and otherwise returns what corresponds; then it has no fault.
-/

namespace Httpfs.Cursor

open Text

universe u

inductive Fault
  | outOfRange
  | noEntry
  | endless
  deriving DecidableEq, Repr

/-- Why a reader stops. -/
inductive Stop
  | rejected
  | fault (fault : Fault)
  deriving DecidableEq, Repr

section Results

variable {α β γ δ : Type u}

/-- A value, or none for a text that is rejected. -/
def outcome : Except Stop α → Except Fault (Option α)
  | .ok value => .ok (some value)
  | .error .rejected => .ok none
  | .error (.fault fault) => .error fault

def reject : Except Stop α :=
  .error .rejected

def fail (fault : Fault) : Except Stop α :=
  .error (.fault fault)

def require (condition : Bool) : Except Stop PUnit.{u + 1} :=
  if condition then .ok ⟨⟩ else reject

/-- The same rejections, and results that are related. -/
def Refines (Related : α → γ → Prop) (result : Except Stop α) (parsed : Option γ) : Prop :=
  match parsed with
  | none => result = reject
  | some specified => ∃ value, result = .ok value ∧ Related value specified

variable {Related : α → γ → Prop} {Next : β → δ → Prop}

theorem refines_reject : Refines Related reject none :=
  rfl

theorem refines_ok {value : α} {specified : γ} (related : Related value specified) :
    Refines Related (.ok value) (some specified) :=
  ⟨value, rfl, related⟩

theorem Refines.mono {Other : α → γ → Prop} {result : Except Stop α} {parsed : Option γ}
    (refines : Refines Related result parsed)
    (weaker : ∀ value specified, Related value specified → Other value specified) :
    Refines Other result parsed := by
  cases parsed with
  | none => exact refines
  | some specified =>
      obtain ⟨value, returns, related⟩ := refines
      exact ⟨value, returns, weaker value specified related⟩

theorem Refines.bind {result : Except Stop α} {parsed : Option γ} {next : α → Except Stop β}
    {after : γ → Option δ} (refines : Refines Related result parsed)
    (later : ∀ value specified, Related value specified →
      Refines Next (next value) (after specified)) :
    Refines Next (result >>= next) (parsed.bind after) := by
  cases parsed with
  | none =>
      have rejects : result = reject := refines
      rw [rejects]
      rfl
  | some specified =>
      obtain ⟨value, rfl, related⟩ := refines
      exact later value specified related

/-- A parser that makes something of its result. -/
theorem Refines.bind_some {Made : α → δ → Prop} {result : Except Stop α} {parsed : Option γ}
    {make : γ → δ} (refines : Refines Related result parsed)
    (made : ∀ value specified, Related value specified → Made value (make specified)) :
    Refines Made result (parsed.bind fun specified => some (make specified)) := by
  cases parsed with
  | none => exact refines
  | some specified =>
      obtain ⟨value, returns, related⟩ := refines
      exact ⟨value, returns, made value specified related⟩

/-- A requirement and the test that a parser makes in its place. -/
theorem Refines.require {condition : Bool} {next : PUnit.{u + 1} → Except Stop β}
    {parsed : Option δ} (rejects : condition = false → parsed = none)
    (later : condition = true → Refines Next (next ⟨⟩) parsed) :
    Refines Next (require condition >>= next) parsed := by
  cases condition with
  | false =>
      rw [rejects rfl]
      rfl
  | true => exact later rfl

/-- What refines a parser exactly has no fault. -/
theorem Refines.outcome_eq {result : Except Stop α} {parsed : Option α}
    (refines : Refines (fun value specified => value = specified) result parsed) :
    outcome result = .ok parsed := by
  cases parsed with
  | none =>
      have rejects : result = reject := refines
      rw [rejects]
      rfl
  | some specified =>
      obtain ⟨value, rfl, rfl⟩ := refines
      rfl

end Results

/-! ## Loops -/

/-- What an iteration of a loop does: it goes on, or the loop is done. -/
inductive Iteration (α β : Type u)
  | again (state : α)
  | done (result : β)

/-- A loop of iterations. -/
def iterate {α β : Type u} (body : α → Except Stop (Iteration α β)) : Nat → α → Except Stop β
  | 0, _ => fail .endless
  | fuel + 1, state => do
      match ← body state with
      | .again state => iterate body fuel state
      | .done result => pure result

/-! ## Operations -/

variable (input : Text)

/-- The byte at a position; behind the last one there is a zero byte. -/
def charAt (position : Nat) : Except Stop Char :=
  match input.drop position with
  | byte :: _ => .ok byte
  | [] => if position = input.length then .ok '\x00' else fail .outOfRange

/-- There is a byte at the position, and it is accepted. -/
def isAt (position : Nat) (accepts : Char → Bool) : Except Stop Bool :=
  if position < input.length then do pure (accepts (← charAt input position)) else .ok false

/-- The text has a string at the position. -/
def hasPrefixAt (needle : Text) (position : Nat) : Except Stop Bool :=
  if position ≤ input.length then .ok (needle.isPrefixOf (input.drop position))
  else fail .outOfRange

def substrAt (position count : Nat) : Except Stop Text :=
  if position ≤ input.length then .ok (substr input position count) else fail .outOfRange

/-- Where a string occurs at or after a position. -/
def findAt (needle : Text) (position : Nat) : Option Nat :=
  (find needle (input.drop position)).map (position + ·)

/-- A new position. -/
def moved (position : Nat) : Except Stop Nat :=
  if position ≤ input.length then .ok position else fail .outOfRange

/-- Past the bytes that are accepted. -/
def skipWhile (accepts : Char → Bool) : Nat → Nat → Except Stop Nat
  | 0, _ => fail .endless
  | fuel + 1, position => do
      if ← isAt input position accepts then skipWhile accepts fuel (← moved input (position + 1))
      else pure position

/-! ## What is left -/

variable {input}

/-- The position is in the text, with a part of it left. -/
structure Stands (input : Text) (position : Nat) (rest : Text) : Prop where
  inRange : position ≤ input.length
  left : input.drop position = rest

namespace Stands

variable {position : Nat} {rest : Text}

theorem start (input : Text) : Stands input 0 input :=
  ⟨Nat.zero_le _, rfl⟩

theorem length_eq (stands : Stands input position rest) :
    position + rest.length = input.length := by
  have inRange := stands.inRange
  rw [← stands.left, List.length_drop]
  omega

theorem lt_iff (stands : Stands input position rest) : position < input.length ↔ rest ≠ [] := by
  rw [← List.length_pos_iff, ← stands.length_eq]
  exact Nat.lt_add_right_iff_pos

theorem append {front : Text} (stands : Stands input position (front ++ rest)) :
    Stands input (position + front.length) rest := by
  have length := stands.length_eq
  rw [List.length_append] at length
  constructor
  · omega
  · rw [← List.drop_drop, stands.left, List.drop_left]

theorem tail {byte : Char} (stands : Stands input position (byte :: rest)) :
    Stands input (position + 1) rest :=
  @append input position rest [byte] stands

theorem drop (stands : Stands input position rest) {count : Nat} (enough : count ≤ rest.length) :
    Stands input (position + count) (rest.drop count) := by
  have length := stands.length_eq
  constructor
  · omega
  · rw [← List.drop_drop, stands.left]

theorem charAt_eq {byte : Char} (stands : Stands input position (byte :: rest)) :
    charAt input position = .ok byte := by
  rw [charAt, stands.left]

theorem isAt_eq (stands : Stands input position rest) (accepts : Char → Bool) :
    isAt input position accepts = .ok (rest.head?.any accepts) := by
  cases rest with
  | nil =>
      have atEnd : ¬ position < input.length := fun before => stands.lt_iff.mp before rfl
      rw [isAt, if_neg atEnd]
      rfl
  | cons byte rest =>
      rw [isAt, if_pos (stands.lt_iff.mpr (List.cons_ne_nil _ _)), stands.charAt_eq]
      rfl

theorem hasPrefixAt_eq (stands : Stands input position rest) (needle : Text) :
    hasPrefixAt input needle position = .ok (needle.isPrefixOf rest) := by
  rw [hasPrefixAt, if_pos stands.inRange, stands.left]

theorem substrAt_eq {front : Text} (stands : Stands input position (front ++ rest)) :
    substrAt input position front.length = .ok front := by
  rw [substrAt, if_pos stands.inRange, substr, stands.left, List.take_left]

theorem findAt_eq (stands : Stands input position rest) (needle : Text) :
    findAt input needle position = (find needle rest).map (position + ·) := by
  rw [findAt, stands.left]

theorem moved_eq (stands : Stands input position rest) : moved input position = .ok position :=
  if_pos stands.inRange

theorem skipWhile_eq (accepts : Char → Bool) {fuel : Nat} (enough : rest.length < fuel)
    (stands : Stands input position rest) :
    skipWhile input accepts fuel position =
        .ok (position + (rest.takeWhile accepts).length) ∧
      Stands input (position + (rest.takeWhile accepts).length) (rest.dropWhile accepts) := by
  constructor
  · induction fuel generalizing position rest with
    | zero => contradiction
    | succ fuel inductionHypothesis =>
        rw [skipWhile, stands.isAt_eq]
        cases rest with
        | nil => rfl
        | cons byte rest =>
            by_cases accepted : accepts byte = true
            · have later := inductionHypothesis (Nat.lt_of_succ_lt_succ enough) stands.tail
              change (if accepts byte = true then moved input (position + 1) >>= _ else _) = _
              rw [if_pos accepted, stands.tail.moved_eq, List.takeWhile_cons_of_pos accepted,
                List.length_cons]
              change skipWhile input accepts fuel (position + 1) = _
              rw [later, Nat.add_assoc, Nat.add_comm 1]
            · change (if accepts byte = true then _ else _) = _
              rw [if_neg accepted, List.takeWhile_cons_of_neg accepted]
              rfl
  · apply Stands.append
    rw [List.takeWhile_append_dropWhile]
    exact stands

end Stands

/-- A value and a position, and the same value and what is left there. -/
structure Reads {α : Type u} (input : Text) (least : Nat) (result : α × Nat)
    (parsed : α × Text) : Prop where
  value : result.1 = parsed.1
  advances : least ≤ result.2
  stands : Stands input result.2 parsed.2

/-- Text that is collected, after some that was before, and a position. -/
structure Collects (input : Text) (least : Nat) (before : Text) (result : Text × Nat)
    (parsed : Text × Text) : Prop where
  value : result.1 = before ++ parsed.1
  advances : least ≤ result.2
  stands : Stands input result.2 parsed.2

/-- Collected with a piece more before it. -/
theorem Collects.of_append {input before piece : Text} {least later : Nat}
    {result : Text × Nat} {parsed : Text × Text}
    (collects : Collects input later (before ++ piece) result parsed) (advances : least ≤ later) :
    Collects input least before result (piece ++ parsed.1, parsed.2) where
  value := collects.value.trans (List.append_assoc _ _ _)
  advances := advances.trans collects.advances
  stands := collects.stands

end Httpfs.Cursor
