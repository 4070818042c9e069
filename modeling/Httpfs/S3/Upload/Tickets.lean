import Httpfs.S3.Upload.Reachable

/-!
# Part numbers as tickets

A reserved part number belongs to one call until its etag is stored or the call
fails.  Its slot is empty for that long, so no stored etag is ever replaced.
-/

namespace Httpfs.S3.Upload

open Httpfs.Transition
open Httpfs.Transition.Monitor

universe u

/-- The parts behind the current one. -/
def After.parts : After → List PreparedPart
  | .write rest => rest
  | .finalize => []

namespace Pc

/-- The reserved parts whose etags a call has yet to store. -/
def pendingParts : Pc → List PreparedPart
  | .uploadParts parts => parts
  | .ensureUpload part after | .sendInitialize part after | .awaitInitialize part after
  | .publishUploadId part after _ | .checkPart part after _ | .sendPart part after _
  | .awaitPart part after _ | .storeETag part after _ => part :: after.parts
  | _ => []

def tickets (pc : Pc) : List Nat :=
  pc.pendingParts.map PreparedPart.partNumber

end Pc

section Steps

variable {env : Env} {call : Call} {session next : Session} {pc here : Pc}
  {events : List Event} {notify : Bool}

/-- A transition appends empty slots and takes their tickets, or stores an etag
in the slot of a ticket it gives up. -/
theorem Transition.tickets
    (transition : Transition env call session pc next here events notify) :
    (∃ count, next.partEtags = session.partEtags ++ List.replicate count "" ∧
      here.tickets.Sublist
        (pc.tickets ++ List.range' (session.partEtags.length + 1) count)) ∨
    ∃ number etag, next.partEtags = session.partEtags.set (number - 1) etag ∧
      pc.tickets = number :: here.tickets := by
  induction transition with
  | prepareFailed healthy due stopped => exact Or.inl ⟨_, rfl, List.nil_sublist _⟩
  | prepared healthy placed numbers split =>
      refine Or.inl ⟨_, rfl, ?_⟩
      rw [Pc.tickets, Pc.pendingParts, numbers]
      exact List.Sublist.refl _
  | reserveFinal => exact Or.inl ⟨1, rfl, List.Sublist.refl _⟩
  | storeETag healthy => exact Or.inr ⟨_, _, rfl, rfl⟩
  | storeFinalETag healthy => exact Or.inr ⟨_, _, rfl, rfl⟩
  | _ =>
      refine Or.inl ⟨0, by simp [latchFailureLocked], ?_⟩
      first
        | exact List.nil_sublist _
        | (rw [List.range'_zero, List.append_nil]
           exact List.Sublist.refl _)

theorem Transition.length_partEtags_le
    (transition : Transition env call session pc next here events notify) :
    session.partEtags.length ≤ next.partEtags.length := by
  rcases transition.tickets with ⟨count, appended, _⟩ | ⟨number, etag, stored, _⟩
  · simp [appended]
  · simp [stored]

/-- A reservation is visible only with its slot. -/
theorem Transition.reserved_of_mem
    (transition : Transition env call session pc next here events notify) {number : Nat}
    {data : Bytes} (member : .reserved number data ∈ events) :
    0 < number ∧ number ≤ next.partEtags.length := by
  induction transition with
  | prepared healthy placed numbers split =>
      rename_i location allocation count buffered offset parts
      have mapped : number ∈ parts.map PreparedPart.partNumber := by
        simp only [List.mem_cons, reduceCtorEq, false_or, List.mem_map,
          Event.reserved.injEq] at member
        obtain ⟨part, found, numberEq, _⟩ := member
        exact List.mem_map.mpr ⟨part, found, numberEq⟩
      rw [numbers, List.mem_range'_1] at mapped
      simp only [List.length_append, List.length_replicate]
      omega
  | reserveFinal =>
      simp at member
      simp [member.1]
  | _ => simp at member

end Steps

section Worlds

variable {ι : Type u} {env : Env} {calls : ι → Call} {world : UploadWorld ι}
  {thread : ι} {next : Session} {here : Pc} {events : List Event} {notify : Bool}

/-- Every ticket is held once, its slot is empty, and every reserved number has
a slot. -/
structure Tickets (world : UploadWorld ι) : Prop where
  nodup : ∀ thread, (world.control thread).tickets.Nodup
  disjoint : ∀ first second, first ≠ second →
    (world.control first).tickets.Disjoint (world.control second).tickets
  empty : ∀ thread number, number ∈ (world.control thread).tickets →
    0 < number ∧ world.shared.partEtags[number - 1]? = some ""
  reserved : ∀ number data, .reserved number data ∈ world.events →
    0 < number ∧ number ≤ world.shared.partEtags.length

theorem tickets_initial : Tickets (initialWorld : UploadWorld ι) where
  nodup := fun _ => List.nodup_nil
  disjoint := fun _ _ _ => List.disjoint_nil_left _
  empty := fun _ _ member => by contradiction
  reserved := fun _ _ member => by contradiction

/-- A held ticket is not beyond the last slot. -/
theorem Tickets.number_le (tickets : Tickets world) {number : Nat}
    (member : number ∈ (world.control thread).tickets) :
    number ≤ world.shared.partEtags.length := by
  obtain ⟨positive, slot⟩ := tickets.empty thread number member
  have bound := (List.getElem?_eq_some_iff.mp slot).1
  omega

/-- What a transition leaves to its call, and where the slots of it are. -/
private theorem taken (tickets : Tickets world) {count : Nat} {slots : List String}
    (appended : slots = world.shared.partEtags ++ List.replicate count "")
    (sublist : here.tickets.Sublist ((world.control thread).tickets ++
      List.range' (world.shared.partEtags.length + 1) count)) :
    here.tickets.Nodup ∧ ∀ number ∈ here.tickets,
      (number ∈ (world.control thread).tickets ∨
        world.shared.partEtags.length < number) ∧
      0 < number ∧ slots[number - 1]? = some "" := by
  constructor
  · refine sublist.nodup ?_
    refine List.Nodup.append (tickets.nodup thread) List.nodup_range' ?_
    intro number held fresh
    have bound := tickets.number_le held
    have above := (List.mem_range'_1.mp fresh).1
    omega
  · intro number member
    rcases List.mem_append.mp (sublist.subset member) with held | fresh
    · obtain ⟨positive, slot⟩ := tickets.empty thread number held
      refine ⟨Or.inl held, positive, ?_⟩
      rw [appended, List.getElem?_append_left (List.getElem?_eq_some_iff.mp slot).1]
      exact slot
    · obtain ⟨above, below⟩ := List.mem_range'_1.mp fresh
      refine ⟨Or.inr (by omega), by omega, ?_⟩
      rw [appended, List.getElem?_append_right (by omega), List.getElem?_replicate,
        if_pos (by omega)]

variable [DecidableEq ι]

private theorem tickets_update (tickets : Tickets world) {shared : Session}
    {events : List Event} {notify : Bool} (nodup : here.tickets.Nodup)
    (separate : ∀ number ∈ here.tickets, ∀ other, other ≠ thread →
      number ∉ (world.control other).tickets)
    (held : ∀ number ∈ here.tickets, 0 < number ∧ shared.partEtags[number - 1]? = some "")
    (kept : ∀ other, other ≠ thread → ∀ number ∈ (world.control other).tickets,
      shared.partEtags[number - 1]? = some "")
    (reserved : ∀ number data,
      .reserved number data ∈ (world.advance thread shared here events notify).events →
        0 < number ∧ number ≤ shared.partEtags.length) :
    Tickets (world.advance thread shared here events notify) := by
  constructor
  · intro other
    by_cases same : other = thread
    · subst same
      simpa [World.advance] using nodup
    · simpa [World.advance, same] using tickets.nodup other
  · intro first second different number firstHolds secondHolds
    by_cases firstMoved : first = thread
    · subst firstMoved
      have secondStayed := Ne.symm different
      exact separate number (by simpa [World.advance] using firstHolds) second secondStayed
        (by simpa [World.advance, secondStayed] using secondHolds)
    · have before : number ∈ (world.control first).tickets := by
        simpa [World.advance, firstMoved] using firstHolds
      by_cases secondMoved : second = thread
      · subst secondMoved
        exact separate number (by simpa [World.advance] using secondHolds) first firstMoved
          before
      · exact tickets.disjoint first second different before
          (by simpa [World.advance, secondMoved] using secondHolds)
  · intro other number member
    by_cases same : other = thread
    · subst same
      exact held number (by simpa [World.advance] using member)
    · have before : number ∈ (world.control other).tickets := by
        simpa [World.advance, same] using member
      exact ⟨(tickets.empty other number before).1, kept other same number before⟩
  · exact reserved

theorem Tickets.advance (tickets : Tickets world)
    (transition : Transition env (calls thread) world.shared (world.control thread)
      next here events notify) :
    Tickets (world.advance thread next here events notify) := by
  have reserved : ∀ number data,
      .reserved number data ∈ (world.advance thread next here events notify).events →
        0 < number ∧ number ≤ next.partEtags.length := by
    intro number data member
    rw [World.events_advance, List.mem_append] at member
    rcases member with earlier | now
    · obtain ⟨positive, bound⟩ := tickets.reserved number data earlier
      exact ⟨positive, bound.trans transition.length_partEtags_le⟩
    · exact transition.reserved_of_mem now
  rcases transition.tickets with ⟨count, appended, sublist⟩ | ⟨number, etag, stored, given⟩
  · obtain ⟨nodup, held⟩ := taken tickets appended sublist
    refine tickets_update tickets nodup ?_ (fun number member => (held number member).2) ?_
      reserved
    · intro number member other different
      rcases (held number member).1 with mine | fresh
      · exact tickets.disjoint thread other (Ne.symm different) mine
      · intro theirs
        have bound := tickets.number_le theirs
        omega
    · intro other different number member
      obtain ⟨positive, slot⟩ := tickets.empty other number member
      rw [appended, List.getElem?_append_left (List.getElem?_eq_some_iff.mp slot).1]
      exact slot
  · have nodup := tickets.nodup thread
    rw [given, List.nodup_cons] at nodup
    have mine (ticket : Nat) (member : ticket ∈ here.tickets) :
        ticket ∈ (world.control thread).tickets := by
      rw [given]
      exact List.mem_cons_of_mem _ member
    have own : number ∈ (world.control thread).tickets := by
      rw [given]
      exact List.mem_cons_self
    have elsewhere {holder : ι} {ticket : Nat} (different : ticket ≠ number)
        (member : ticket ∈ (world.control holder).tickets) :
        next.partEtags[ticket - 1]? = some "" := by
      obtain ⟨positive, slot⟩ := tickets.empty holder ticket member
      have ownPositive := (tickets.empty thread number own).1
      rw [stored, List.getElem?_set_ne (by omega)]
      exact slot
    refine tickets_update tickets nodup.2 ?_ ?_ ?_ reserved
    · intro ticket member other different
      exact tickets.disjoint thread other (Ne.symm different) (mine ticket member)
    · intro ticket member
      refine ⟨(tickets.empty thread ticket (mine ticket member)).1,
        elsewhere ?_ (mine ticket member)⟩
      rintro rfl
      exact nodup.1 member
    · intro other different ticket member
      refine elsewhere ?_ member
      rintro rfl
      exact tickets.disjoint thread other (Ne.symm different) own member

theorem Reachable.tickets (reachable : Reachable env calls world) : Tickets world :=
  reachable.invariant tickets_initial
    (fun _ _ _ _ _ _ _ tickets transition => Tickets.advance tickets transition)
    (fun _ _ tickets => { tickets with })

omit [DecidableEq ι] in
/-- No transition replaces a stored etag. -/
theorem Tickets.stored (tickets : Tickets world)
    (transition : Transition env (calls thread) world.shared (world.control thread)
      next here events notify) {slot : Nat} {etag : String} (nonempty : etag ≠ "")
    (stored : world.shared.partEtags[slot]? = some etag) :
    next.partEtags[slot]? = some etag := by
  rcases transition.tickets with ⟨count, appended, _⟩ | ⟨number, fresh, replaced, given⟩
  · rw [appended, List.getElem?_append_left (List.getElem?_eq_some_iff.mp stored).1]
    exact stored
  · have empty := (tickets.empty thread number (by simp [given])).2
    have different : number - 1 ≠ slot := by
      rintro rfl
      rw [stored] at empty
      exact nonempty (Option.some.inj empty)
    rw [replaced, List.getElem?_set_ne different]
    exact stored

end Worlds

end Httpfs.S3.Upload
