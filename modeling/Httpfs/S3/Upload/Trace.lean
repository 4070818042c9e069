import Httpfs.S3.Upload.Reachable
import Httpfs.Transition.Guarded

/-!
# Requests in the trace of an upload session

Every request is sent at one control point of its own and leaves the session
as it is, so what holds when a request is sent is read off from the control
point of its sender.
-/

namespace Httpfs.S3.Upload

open Httpfs.Transition
open Httpfs.Transition.Monitor

universe u

namespace Event

/-- A request to the server. -/
def isRequest : Event → Bool
  | .initializePost | .partPut _ _ _ | .singlePut _ | .completionPost _ _ | .abortDelete _ =>
      true
  | _ => false

/-- The request that aborts the multipart upload. -/
def isAbort : Event → Bool
  | .abortDelete _ => true
  | _ => false

/-- A request that uploads or publishes data. -/
def isUpload : Event → Bool
  | .partPut _ _ _ | .singlePut _ | .completionPost _ _ => true
  | _ => false

end Event

namespace Pc

/-- The request sent at a control point. -/
def request : Pc → Option Event
  | .sendInitialize _ _ => some .initializePost
  | .sendPart part _ uploadId => some (.partPut part.partNumber uploadId part.data)
  | .sendSingle body => some (.singlePut body)
  | .sendCompletion uploadId etags => some (.completionPost uploadId etags)
  | .sendAbort uploadId _ => some (.abortDelete uploadId)
  | _ => none

/-- The failure on its way to the shared state. -/
def pendingFailure : Pc → Option Failure
  | .publishFailure failure | .failOperation failure => some failure
  | _ => none

theorem eq_sendAbort {pc : Pc} {uploadId : String}
    (sends : pc.request = some (.abortDelete uploadId)) :
    ∃ owner, pc = .sendAbort uploadId owner := by
  cases pc <;> simp_all [Pc.request]

theorem eq_sendInitialize {pc : Pc} (sends : pc.request = some .initializePost) :
    ∃ part after, pc = .sendInitialize part after := by
  cases pc <;> simp_all [Pc.request]

theorem eq_sendCompletion {pc : Pc} {uploadId : String} {etags : List String}
    (sends : pc.request = some (.completionPost uploadId etags)) :
    pc = .sendCompletion uploadId etags := by
  cases pc <;> simp_all [Pc.request]

theorem active_of_request {pc : Pc} {event : Event} (sends : pc.request = some event)
    (uploads : event.isUpload = true) : pc.active = true := by
  cases pc with
  | sendAbort uploadId owner =>
      cases sends
      contradiction
  | _ => first
      | rfl
      | contradiction

end Pc

section Emissions

variable {env : Env} {call : Call} {session next : Session} {pc here : Pc}
  {events : List Event} {notify : Bool}

/-- Requests are sent alone, from their control point, and change nothing. -/
theorem Transition.request_of_mem
    (transition : Transition env call session pc next here events notify) {event : Event}
    (member : event ∈ events) (request : event.isRequest = true) :
    pc.request = some event ∧ events = [event] ∧ next = session := by
  induction transition with
  | prepared healthy placed numbers split =>
      rw [List.mem_cons, List.mem_map] at member
      rcases member with rfl | ⟨part, _, rfl⟩
      · contradiction
      · contradiction
  | sendInitialize | sendPart | sendSingle | sendCompletion | sendAbort =>
      rw [List.mem_singleton] at member
      subst member
      exact ⟨rfl, rfl, rfl⟩
  | _ => first
      | contradiction
      | (rw [List.mem_singleton] at member
         subst member
         contradiction)

/-- An exception being raised is on its way to the shared state. -/
theorem Transition.raised_of_mem
    (transition : Transition env call session pc next here events notify)
    {disposition : FailureDisposition} (member : .raised disposition ∈ events) :
    ∃ failure, here.pendingFailure = some failure ∧ failure.disposition = disposition := by
  induction transition with
  | prepared healthy placed numbers split => simp at member
  | raise | prepareFailed | initializeFailed | publishUploadIdLate =>
      exact ⟨_, rfl, (Event.raised.inj (List.mem_singleton.mp member)).symm⟩
  | _ => simp at member

/-- A pending ambiguous failure suppresses the abort when it arrives. -/
theorem Transition.suppressed_of_pending
    (transition : Transition env call session pc next here events notify) {failure : Failure}
    (pending : pc.pendingFailure = some failure)
    (ambiguous : failure.disposition = .ambiguous) : next.abortSuppressed = true := by
  induction transition with
  | publishFailure | failOperation =>
      cases pending
      simp [latchFailureLocked, ambiguous]
  | raise raises =>
      rename_i pc raised
      cases pc <;> contradiction
  | _ => contradiction

theorem Transition.published_of_mem
    (transition : Transition env call session pc next here events notify)
    (member : .published ∈ events) : here = .finishFinalize := by
  induction transition with
  | singleUploaded | completed => rfl
  | _ => simp at member

theorem Transition.finalized_of_finishing
    (transition : Transition env call session pc next here events notify)
    (finishing : pc = .finishFinalize) : next.lifecycleState = .finalized := by
  induction transition with
  | finishFinalize => rfl
  | raise raises =>
      subst finishing
      contradiction
  | _ => contradiction

/-- The cleanup request is prepared before anything was cleaned up. -/
theorem Transition.unclaimed_of_sendAbort (present : At call session pc)
    (transition : Transition env call session pc next here events notify)
    {uploadId : String} (sends : here.request = some (.abortDelete uploadId)) :
    session.cleanupState = .none := by
  obtain ⟨owner, heads⟩ := Pc.eq_sendAbort sends
  induction transition with
  | releaseOwner failed last unclaimed => exact unclaimed
  | abortOwner idle healthy => exact present.waiting rfl healthy
  | _ => contradiction

end Emissions

section Changes

variable {session next : Session} {pc : Pc}

theorem Change.suppressed_mono (change : Change pc session next)
    (suppressed : session.abortSuppressed = true) : next.abortSuppressed = true := by
  induction change with
  | publishFailure operating initializing failure => simp [latchFailureLocked, suppressed]
  | latch operating failure => simp [latchFailureLocked, suppressed]
  | _ => exact suppressed

theorem Change.cleanup_mono (change : Change pc session next)
    (started : session.cleanupState ≠ .none) : next.cleanupState ≠ .none := by
  induction change <;> first
    | exact started
    | simp

/-- A finalized session stays finalized. -/
theorem Change.finalized_mono (change : Change pc session next) (coherent : Coherent session)
    (counted : Counted session pc) (finalized : session.lifecycleState = .finalized) :
    next.lifecycleState = .finalized := by
  have idle := (coherent.finalized finalized).1
  have inactive : pc.active = false := by
    by_contra active
    have operating := counted.active (by simpa using active)
    omega
  have unaborted : pc.aborting = false := by
    by_contra aborts
    have aborting := counted.aborting (by simpa using aborts)
    rw [finalized] at aborting
    contradiction
  induction change <;> simp_all

end Changes

section Worlds

variable {ι : Type u} [DecidableEq ι] {env : Env} {calls : ι → Call} {world : UploadWorld ι}
  {thread : ι} {next : Session} {here : Pc} {events : List Event} {notify : Bool}

/-- A trace stays guarded if every request is allowed when it is sent. -/
theorem guarded_advance {allowed : List Event → Event → Prop}
    (others : ∀ before event, event.isRequest = false → allowed before event)
    (guarded : Guarded allowed world.events)
    (transition : Transition env (calls thread) world.shared (world.control thread)
      next here events notify)
    (issue : ∀ event, (world.control thread).request = some event →
      allowed world.events event) :
    Guarded allowed (world.advance thread next here events notify).events := by
  rw [World.events_advance]
  apply guarded.append
  intro before event after split
  cases request : event.isRequest with
  | false => exact others _ event request
  | true =>
      have member : event ∈ events := by simp [split]
      obtain ⟨sends, single, _⟩ := transition.request_of_mem member request
      have first : before = [] := by
        have lengths := congrArg List.length (split.symm.trans single)
        simp only [List.length_append, List.length_cons, List.length_nil] at lengths
        exact List.eq_nil_of_length_eq_zero (by omega)
      simpa [first] using issue event sends

/-- What a step that sends a request says about its sender. -/
theorem step_request {following : UploadWorld ι} {choice : Choice}
    (stepped : step (program env calls) world thread choice = some following)
    (emitted : following.events = world.events ++ events) {event : Event}
    (member : event ∈ events) (request : event.isRequest = true) :
    (world.control thread).request = some event := by
  obtain ⟨awake, ⟨waits, rfl⟩ | ⟨shared, control, new, notify, advances, rfl⟩⟩ :=
    step_cases stepped
  · simp at emitted
    simp [emitted] at member
  · rw [World.events_advance, List.append_cancel_left_eq] at emitted
    subst emitted
    cases advance_of_callStep advances with
    | once transition => exact (transition.request_of_mem member request).1
    | twice first second => exact absurd (second.request_of_mem member request).1 (by simp [Pc.request])

end Worlds

/-! ## A session to play -/

/-- One-byte parts on a server whose replies to the initialization all carry
one upload id. -/
def smallEnv : Env where
  config := ⟨10, 5, 1, 1⟩
  maxParts_lt := by decide
  displayUrl := "s3://bucket/key"
  displayPath := "s3://bucket/key"
  tryParse := fun body =>
    if body = "<InitiateMultipartUploadResult><UploadId>id</UploadId></InitiateMultipartUploadResult>"
    then some ⟨.multipartInitialization, "id", "", "", "", ""⟩
    else none
  getStatusError := fun _ operation => .io operation
  httpException := fun _ message => .io message

/-- The answer to a request, with memory to allocate and a claim to finish. -/
def answered (reply : Httpfs.Http.Reply) : Choice :=
  ⟨none, reply, true⟩

/-- The server created the multipart upload. -/
def initiated : Choice :=
  answered (.ok ⟨200, "", [],
    "<InitiateMultipartUploadResult><UploadId>id</UploadId></InitiateMultipartUploadResult>"⟩)

/-- The server refused the request. -/
def refused : Choice :=
  answered (.ok ⟨403, "", [], ""⟩)

end Httpfs.S3.Upload
