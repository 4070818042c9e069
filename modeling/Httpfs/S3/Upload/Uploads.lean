import Httpfs.S3.Upload.Tickets
import Httpfs.S3.Upload.Trace

/-!
# Reserved parts and their uploads

Whatever happens to a session, a part is sent with the bytes it was reserved
for, at most once, and a stored etag is the server's answer to that request.
-/

namespace Httpfs.S3.Upload

open Httpfs.Transition
open Httpfs.Transition.Monitor

universe u

namespace Event

def prepared? : Event → Option (Nat × Bytes)
  | .prepared location data => some (location, data)
  | _ => none

def reserved? : Event → Option PreparedPart
  | .reserved number data => some ⟨number, data⟩
  | _ => none

def part? : Event → Option PreparedPart
  | .partPut number _ body => some ⟨number, body⟩
  | _ => none

def single? : Event → Option Bytes
  | .singlePut body => some body
  | _ => none

def completion? : Event → Option (String × List String)
  | .completionPost uploadId etags => some (uploadId, etags)
  | _ => none

end Event

/-- The writes that passed `PrepareWrite`. -/
def preparedWrites (events : List Event) : List (Nat × Bytes) :=
  events.filterMap Event.prepared?

/-- The parts that were reserved. -/
def reservedParts (events : List Event) : List PreparedPart :=
  events.filterMap Event.reserved?

/-- The parts that were sent. -/
def sentParts (events : List Event) : List PreparedPart :=
  events.filterMap Event.part?

/-- The bodies of the PUTs of whole objects. -/
def singlePuts (events : List Event) : List Bytes :=
  events.filterMap Event.single?

/-- The upload ids and etags of the completions. -/
def completions (events : List Event) : List (String × List String) :=
  events.filterMap Event.completion?

section Append

variable (first second : List Event)

@[simp]
theorem preparedWrites_append :
    preparedWrites (first ++ second) = preparedWrites first ++ preparedWrites second :=
  List.filterMap_append

@[simp]
theorem reservedParts_append :
    reservedParts (first ++ second) = reservedParts first ++ reservedParts second :=
  List.filterMap_append

@[simp]
theorem sentParts_append :
    sentParts (first ++ second) = sentParts first ++ sentParts second :=
  List.filterMap_append

@[simp]
theorem singlePuts_append :
    singlePuts (first ++ second) = singlePuts first ++ singlePuts second :=
  List.filterMap_append

@[simp]
theorem completions_append :
    completions (first ++ second) = completions first ++ completions second :=
  List.filterMap_append

end Append

section Prepared

variable (location : Nat) (data : Bytes) (parts : List PreparedPart)

/-- The events of a write that passed `PrepareWrite` name its parts. -/
@[simp]
theorem reservedParts_prepared :
    reservedParts (.prepared location data ::
      parts.map fun part => .reserved part.partNumber part.data) = parts := by
  change (parts.map fun part => Event.reserved part.partNumber part.data).filterMap
    Event.reserved? = parts
  rw [List.filterMap_map]
  exact List.filterMap_some

private theorem filterMap_reserved {α : Type} {select : Event → Option α}
    (ignores : ∀ number data, select (.reserved number data) = none) :
    (parts.map fun part => Event.reserved part.partNumber part.data).filterMap select = [] := by
  rw [List.filterMap_map, List.filterMap_eq_nil_iff]
  exact fun part _ => ignores _ _

@[simp]
theorem preparedWrites_prepared :
    preparedWrites (.prepared location data ::
      parts.map fun part => .reserved part.partNumber part.data) = [(location, data)] :=
  congrArg (List.cons _) (filterMap_reserved parts fun _ _ => rfl)

@[simp]
theorem singlePuts_prepared :
    singlePuts (.prepared location data ::
      parts.map fun part => .reserved part.partNumber part.data) = [] :=
  filterMap_reserved parts fun _ _ => rfl

@[simp]
theorem completions_prepared :
    completions (.prepared location data ::
      parts.map fun part => .reserved part.partNumber part.data) = [] :=
  filterMap_reserved parts fun _ _ => rfl

end Prepared

namespace Pc

/-- The reserved parts a call has yet to send. -/
def unsentParts : Pc → List PreparedPart
  | .uploadParts parts => parts
  | .ensureUpload part after | .sendInitialize part after | .awaitInitialize part after
  | .publishUploadId part after _ | .checkPart part after _ | .sendPart part after _ =>
      part :: after.parts
  | .awaitPart _ after _ | .storeETag _ after _ => after.parts
  | _ => []

/-- The part on its way to the server. -/
def sentPart? : Pc → Option (PreparedPart × String)
  | .awaitPart part _ uploadId => some (part, uploadId)
  | _ => none

/-- The part whose etag is about to be stored. -/
def storing? : Pc → Option (PreparedPart × String)
  | .storeETag part _ etag => some (part, etag)
  | _ => none

theorem unsentParts_sublist (pc : Pc) : pc.unsentParts.Sublist pc.pendingParts := by
  cases pc <;> first
    | exact List.Sublist.refl _
    | exact List.sublist_cons_self _ _

theorem ticket_of_storing {pc : Pc} {part : PreparedPart} {etag : String}
    (storing : pc.storing? = some (part, etag)) : part.partNumber ∈ pc.tickets := by
  cases pc with
  | storeETag stored after fresh =>
      cases storing
      exact List.mem_cons_self
  | _ => contradiction

end Pc

section Steps

variable {env : Env} {call : Call} {session next : Session} {pc here : Pc}
  {events : List Event} {notify : Bool}

/-- A part is pending because it was, or because it is reserved now. -/
theorem Transition.pendingParts_of
    (transition : Transition env call session pc next here events notify)
    {part : PreparedPart} (pending : part ∈ here.pendingParts) :
    part ∈ pc.pendingParts ∨ part ∈ reservedParts events := by
  induction transition with
  | prepared healthy placed numbers split =>
      right
      rw [reservedParts_prepared]
      exact pending
  | reserveFinal =>
      right
      simpa [reservedParts, Event.reserved?, Pc.pendingParts, After.parts] using pending
  | startPart healthy => exact Or.inl pending
  | storeETag healthy => exact Or.inl (List.mem_cons_of_mem _ pending)
  | _ => first
      | exact Or.inl pending
      | contradiction

/-- A part is unsent because it was, or because it is reserved now. -/
theorem Transition.unsentParts_of
    (transition : Transition env call session pc next here events notify)
    {part : PreparedPart} (unsent : part ∈ here.unsentParts) :
    part ∈ pc.unsentParts ∨ part ∈ reservedParts events := by
  induction transition with
  | prepared healthy placed numbers split =>
      right
      rw [reservedParts_prepared]
      exact unsent
  | reserveFinal =>
      right
      simpa [reservedParts, Event.reserved?, Pc.unsentParts, After.parts] using unsent
  | startPart healthy => exact Or.inl unsent
  | sendPart => exact Or.inl (List.mem_cons_of_mem _ unsent)
  | _ => first
      | exact Or.inl unsent
      | contradiction

/-- A part is sent from its one control point. -/
theorem Transition.sentParts_eq
    (transition : Transition env call session pc next here events notify) :
    (sentParts events = [] ∧ here.sentPart? = none) ∨
      ∃ part after uploadId, pc = .sendPart part after uploadId ∧
        here = .awaitPart part after uploadId ∧
        events = [.partPut part.partNumber uploadId part.data] ∧ next = session := by
  induction transition with
  | sendPart => exact Or.inr ⟨_, _, _, rfl, rfl, rfl, rfl⟩
  | prepared healthy placed numbers split =>
      exact Or.inl ⟨by simp [sentParts, Event.part?], rfl⟩
  | _ => exact Or.inl ⟨rfl, rfl⟩

/-- The answer to a part is stored under the part that was sent. -/
theorem Transition.uploaded_of_mem
    (transition : Transition env call session pc next here events notify) {number : Nat}
    {uploadId etag : String} {body : Bytes}
    (member : .partUploaded number uploadId body etag ∈ events) :
    pc.sentPart? = some (⟨number, body⟩, uploadId) ∧ next = session := by
  induction transition with
  | partUploaded =>
      simp only [List.mem_singleton, Event.partUploaded.injEq] at member
      obtain ⟨rfl, rfl, rfl, rfl⟩ := member
      exact ⟨rfl, rfl⟩
  | prepared healthy placed numbers split => simp at member
  | _ => simp at member

theorem Transition.storing_of
    (transition : Transition env call session pc next here events notify)
    {part : PreparedPart} {etag : String} (storing : here.storing? = some (part, etag)) :
    ∃ uploadId, .partUploaded part.partNumber uploadId part.data etag ∈ events := by
  induction transition with
  | partUploaded =>
      cases storing
      exact ⟨_, List.mem_singleton_self _⟩
  | _ => contradiction

/-- A slot is filled with the etag of the part that is being stored. -/
theorem Transition.slot_of
    (transition : Transition env call session pc next here events notify) {slot : Nat}
    {etag : String} (filled : next.partEtags[slot]? = some etag) (nonempty : etag ≠ "") :
    session.partEtags[slot]? = some etag ∨
      ∃ part, pc.storing? = some (part, etag) ∧ part.partNumber - 1 = slot := by
  have unchanged (count : Nat)
      (appended : (session.partEtags ++ List.replicate count "")[slot]? = some etag) :
      session.partEtags[slot]? = some etag := by
    rcases Nat.lt_or_ge slot session.partEtags.length with inside | outside
    · rwa [List.getElem?_append_left inside] at appended
    · rw [List.getElem?_append_right outside, List.getElem?_replicate] at appended
      split at appended
      · exact absurd (Option.some.inj appended).symm nonempty
      · contradiction
  have replaced (part : PreparedPart) (fresh : String)
      (set : (session.partEtags.set (part.partNumber - 1) fresh)[slot]? = some etag) :
      session.partEtags[slot]? = some etag ∨ fresh = etag ∧ part.partNumber - 1 = slot := by
    rw [List.getElem?_set] at set
    split at set
    · rename_i same
      split at set
      · exact Or.inr ⟨Option.some.inj set, same⟩
      · contradiction
    · exact Or.inl set
  induction transition with
  | prepareFailed healthy due stopped => exact Or.inl (unchanged _ filled)
  | prepared healthy placed numbers split => exact Or.inl (unchanged _ filled)
  | reserveFinal => exact Or.inl (unchanged 1 filled)
  | storeETag healthy | storeFinalETag healthy =>
      rcases replaced _ _ filled with before | ⟨rfl, position⟩
      · exact Or.inl before
      · exact Or.inr ⟨_, rfl, position⟩
  | _ => exact Or.inl filled

/-- Reserved parts are numbered beyond every slot there was. -/
theorem Transition.reserved_fresh
    (transition : Transition env call session pc next here events notify)
    {part : PreparedPart} (reserved : part ∈ reservedParts events) :
    session.partEtags.length < part.partNumber := by
  induction transition with
  | prepared healthy placed numbers split =>
      rename_i location allocation count buffered offset parts
      rw [reservedParts_prepared] at reserved
      have mapped : part.partNumber ∈ parts.map PreparedPart.partNumber :=
        List.mem_map_of_mem reserved
      rw [numbers, List.mem_range'_1] at mapped
      omega
  | reserveFinal =>
      simp [reservedParts, Event.reserved?] at reserved
      simp [reserved]
  | _ => contradiction

end Steps

/-- How reserved parts travel to the server. -/
structure Uploads {ι : Type u} (world : UploadWorld ι) : Prop where
  reserved : ∀ thread, ∀ part ∈ (world.control thread).pendingParts,
    part ∈ reservedParts world.events
  put : ∀ part ∈ sentParts world.events, part ∈ reservedParts world.events
  once : ((sentParts world.events).map PreparedPart.partNumber).Nodup
  unsent : ∀ thread, ∀ part ∈ (world.control thread).unsentParts,
    part.partNumber ∉ (sentParts world.events).map PreparedPart.partNumber
  sent : ∀ thread part uploadId, (world.control thread).sentPart? = some (part, uploadId) →
    .partPut part.partNumber uploadId part.data ∈ world.events
  uploaded : ∀ number uploadId body etag,
    .partUploaded number uploadId body etag ∈ world.events →
      .partPut number uploadId body ∈ world.events
  storing : ∀ thread part etag, (world.control thread).storing? = some (part, etag) →
    ∃ uploadId, .partUploaded part.partNumber uploadId part.data etag ∈ world.events
  slots : ∀ slot etag, world.shared.partEtags[slot]? = some etag → etag ≠ "" →
    ∃ uploadId body, .partUploaded (slot + 1) uploadId body etag ∈ world.events

section Worlds

variable {ι : Type u} {env : Env} {calls : ι → Call} {world : UploadWorld ι}
  {thread : ι} {next : Session} {here : Pc} {events : List Event} {notify : Bool}

theorem uploads_initial : Uploads (initialWorld : UploadWorld ι) where
  reserved := fun _ _ member => by contradiction
  put := fun _ member => by contradiction
  once := List.nodup_nil
  unsent := fun _ _ member => by contradiction
  sent := fun _ _ _ sent => by contradiction
  uploaded := fun _ _ _ _ member => by contradiction
  storing := fun _ _ _ storing => by contradiction
  slots := fun _ _ filled => by contradiction

/-- A reserved part has a slot. -/
theorem Tickets.partNumber_le (tickets : Tickets world) {part : PreparedPart}
    (reserved : part ∈ reservedParts world.events) :
    part.partNumber ≤ world.shared.partEtags.length := by
  obtain ⟨event, member, found⟩ := List.mem_filterMap.mp reserved
  cases event with
  | reserved number data =>
      cases found
      exact (tickets.reserved number data member).2
  | _ => contradiction

variable [DecidableEq ι]

private theorem once_advance (uploads : Uploads world)
    (transition : Transition env (calls thread) world.shared (world.control thread)
      next here events notify) :
    ((sentParts (world.advance thread next here events notify).events).map
      PreparedPart.partNumber).Nodup := by
  rw [World.events_advance, sentParts_append, List.map_append]
  rcases transition.sentParts_eq with ⟨silent, _⟩ |
    ⟨part, after, uploadId, sender, _, rfl, _⟩
  · simpa [silent] using uploads.once
  · have unsent := uploads.unsent thread part (by rw [sender]; exact List.mem_cons_self)
    refine List.Nodup.append uploads.once (List.nodup_singleton _) ?_
    intro number earlier now
    have same : number = part.partNumber := List.mem_singleton.mp now
    exact unsent (same ▸ earlier)

private theorem unsent_advance (tickets : Tickets world) (uploads : Uploads world)
    (transition : Transition env (calls thread) world.shared (world.control thread)
      next here events notify) :
    ∀ other, ∀ part ∈ ((world.advance thread next here events notify).control other).unsentParts,
      part.partNumber ∉ (sentParts (world.advance thread next here events notify).events).map
        PreparedPart.partNumber := by
  intro other part unsent sent
  rw [World.events_advance, sentParts_append, List.map_append, List.mem_append] at sent
  have before (holder : ι) (held : part ∈ (world.control holder).unsentParts)
      (earlier : part.partNumber ∈ (sentParts world.events).map PreparedPart.partNumber) :
      False := uploads.unsent holder part held earlier
  have pending {holder : ι} (held : part ∈ (world.control holder).unsentParts) :
      part.partNumber ∈ (world.control holder).tickets :=
    List.mem_map_of_mem ((Pc.unsentParts_sublist _).subset held)
  rcases transition.sentParts_eq with ⟨silent, _⟩ |
    ⟨fresh, after, uploadId, sender, rfl, rfl, _⟩
  · have earlier : part.partNumber ∈ (sentParts world.events).map PreparedPart.partNumber := by
      simpa [silent] using sent
    by_cases same : other = thread
    · subst same
      rcases transition.unsentParts_of (by simpa [World.advance] using unsent) with
        held | reserved
      · exact before other held earlier
      · have above := transition.reserved_fresh reserved
        obtain ⟨past, pastSent, numberEq⟩ := List.mem_map.mp earlier
        have bound := tickets.partNumber_le (uploads.put past pastSent)
        omega
    · exact before other (by simpa [World.advance, same] using unsent) earlier
  · -- the part that is sent now is held by its sender alone
    have own : fresh.partNumber :: after.parts.map PreparedPart.partNumber =
        (world.control thread).tickets := by
      rw [sender]
      rfl
    have distinct := tickets.nodup thread
    rw [← own, List.nodup_cons] at distinct
    by_cases same : other = thread
    · subst same
      have rest : part ∈ after.parts := by
        simpa [World.advance, Pc.unsentParts] using unsent
      rcases sent with earlier | now
      · refine before other ?_ earlier
        rw [sender]
        exact List.mem_cons_of_mem _ rest
      · have sameNumber : part.partNumber = fresh.partNumber := List.mem_singleton.mp now
        exact distinct.1 (sameNumber ▸ List.mem_map_of_mem rest)
    · have held : part ∈ (world.control other).unsentParts := by
        simpa [World.advance, same] using unsent
      rcases sent with earlier | now
      · exact before other held earlier
      · have sameNumber : part.partNumber = fresh.partNumber := List.mem_singleton.mp now
        refine tickets.disjoint thread other (Ne.symm same) ?_ (pending held)
        rw [← own, sameNumber]
        exact List.mem_cons_self

theorem Uploads.advance (tickets : Tickets world) (uploads : Uploads world)
    (transition : Transition env (calls thread) world.shared (world.control thread)
      next here events notify) :
    Uploads (world.advance thread next here events notify) where
  reserved := fun other part pending => by
    rw [World.events_advance, reservedParts_append, List.mem_append]
    by_cases same : other = thread
    · subst same
      exact (transition.pendingParts_of (by simpa [World.advance] using pending)).imp
        (uploads.reserved other part) id
    · exact Or.inl (uploads.reserved other part (by simpa [World.advance, same] using pending))
  put := fun part sent => by
    rw [World.events_advance, sentParts_append, List.mem_append] at sent
    rw [World.events_advance, reservedParts_append, List.mem_append]
    left
    rcases transition.sentParts_eq with ⟨silent, _⟩ |
      ⟨fresh, after, uploadId, sender, _, rfl, _⟩
    · exact uploads.put part (by simpa [silent] using sent)
    · rcases sent with earlier | now
      · exact uploads.put part earlier
      · rw [List.mem_singleton.mp now]
        exact uploads.reserved thread fresh (by rw [sender]; exact List.mem_cons_self)
  once := once_advance uploads transition
  unsent := unsent_advance tickets uploads transition
  sent := fun other part uploadId sent => by
    rw [World.events_advance, List.mem_append]
    by_cases same : other = thread
    · subst same
      rcases transition.sentParts_eq with ⟨_, elsewhere⟩ |
        ⟨fresh, after, target, _, rfl, rfl, _⟩
      · simp [World.advance, elsewhere] at sent
      · right
        simp only [World.advance, Function.update_self, Pc.sentPart?, Option.some.injEq,
          Prod.mk.injEq] at sent
        obtain ⟨rfl, rfl⟩ := sent
        exact List.mem_singleton_self _
    · exact Or.inl (uploads.sent other part uploadId (by simpa [World.advance, same] using sent))
  uploaded := fun number uploadId body etag member => by
    rw [World.events_advance, List.mem_append] at member ⊢
    left
    rcases member with earlier | now
    · exact uploads.uploaded number uploadId body etag earlier
    · exact uploads.sent thread ⟨number, body⟩ uploadId (transition.uploaded_of_mem now).1
  storing := fun other part etag storing => by
    rw [World.events_advance]
    by_cases same : other = thread
    · subst same
      obtain ⟨uploadId, now⟩ := transition.storing_of (by simpa [World.advance] using storing)
      exact ⟨uploadId, List.mem_append_right _ now⟩
    · obtain ⟨uploadId, earlier⟩ := uploads.storing other part etag
        (by simpa [World.advance, same] using storing)
      exact ⟨uploadId, List.mem_append_left _ earlier⟩
  slots := fun slot etag filled nonempty => by
    rw [World.events_advance]
    rcases transition.slot_of filled nonempty with before | ⟨part, storing, position⟩
    · obtain ⟨uploadId, body, earlier⟩ := uploads.slots slot etag before nonempty
      exact ⟨uploadId, body, List.mem_append_left _ earlier⟩
    · obtain ⟨uploadId, earlier⟩ := uploads.storing thread part etag storing
      have ticket : part.partNumber ∈ (world.control thread).tickets :=
        Pc.ticket_of_storing storing
      have positive := (tickets.empty thread part.partNumber ticket).1
      have slotEq : slot + 1 = part.partNumber := by omega
      exact ⟨uploadId, part.data, List.mem_append_left _ (slotEq ▸ earlier)⟩

theorem Reachable.uploads (reachable : Reachable env calls world) : Uploads world :=
  (Reachable.invariant (motive := fun world => Tickets world ∧ Uploads world)
    ⟨tickets_initial, uploads_initial⟩
    (fun _ _ _ _ _ _ _ both transition =>
      ⟨Tickets.advance both.1 transition, Uploads.advance both.1 both.2 transition⟩)
    (fun _ _ both => ⟨{ both.1 with }, { both.2 with }⟩) reachable).2

end Worlds

end Httpfs.S3.Upload
