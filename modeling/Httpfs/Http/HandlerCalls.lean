import Httpfs.Http.CurlGet

/-!
# Calls that are made one after the other

What a client has for the handlers of a request is a list of calls.  They are made until
one is not answered with true.
-/

namespace Httpfs.Http.Curl

open GetTransferState

/-- The calls that are made of some behind others, and the last answer. -/
def GetRequest.handOver (request : GetRequest) :
    List Call → List Call → List Call × Except ErrorData Bool
  | made, [] => (made, .ok true)
  | made, call :: rest =>
      match request.answer (made ++ [call]) with
      | .ok true => request.handOver (made ++ [call]) rest
      | .ok false => (made ++ [call], .ok false)
      | .error error => (made ++ [call], .error error)

section

variable {request : GetRequest} {made : List Call} {call : Call}

theorem GetRequest.handOver_of_goesOn (answered : request.answer (made ++ [call]) = .ok true)
    (rest : List Call) :
    request.handOver made (call :: rest) = request.handOver (made ++ [call]) rest := by
  rw [GetRequest.handOver, answered]

theorem GetRequest.handOver_of_stops (stops : request.answer (made ++ [call]) ≠ .ok true)
    (rest : List Call) :
    request.handOver made (call :: rest) =
      (made ++ [call], request.answer (made ++ [call])) := by
  rw [GetRequest.handOver]
  split <;> simp_all

end

/-- All calls were made, or the last one has ended them. -/
inductive HandedOver (request : GetRequest) (made planned : List Call) :
    List Call × Except ErrorData Bool → Prop
  | whole (goesOn : GoesOn request (made ++ planned)) :
      HandedOver request made planned (made ++ planned, .ok true)
  | ended {given : List Call} (isFront : given <+: planned)
      (ends : Ends request (made ++ given)) :
      HandedOver request made planned (made ++ given, request.answer (made ++ given))

theorem GetRequest.handedOver (request : GetRequest) {made : List Call}
    (goesOn : GoesOn request made) (planned : List Call) :
    HandedOver request made planned (request.handOver made planned) := by
  induction planned generalizing made with
  | nil =>
      have whole : HandedOver request made [] (made ++ [], .ok true) := by
        apply HandedOver.whole
        rw [List.append_nil]
        exact goesOn
      rw [List.append_nil] at whole
      exact whole
  | cons call rest inductionHypothesis =>
      by_cases answered : request.answer (made ++ [call]) = .ok true
      · rw [GetRequest.handOver_of_goesOn answered]
        have cut : made ++ call :: rest = (made ++ [call]) ++ rest := by
          rw [List.append_assoc]
          rfl
        have continued := inductionHypothesis (goesOn.concat answered)
        generalize request.handOver (made ++ [call]) rest = handed at continued ⊢
        cases continued with
        | whole goesOn =>
            rw [← cut] at goesOn ⊢
            exact .whole goesOn
        | @ended given isFront ends =>
            have moved : (made ++ [call]) ++ given = made ++ call :: given := by
              rw [List.append_assoc]
              rfl
            rw [moved] at ends ⊢
            exact .ended ((List.prefix_cons_inj call).mpr isFront) ends
      · rw [GetRequest.handOver_of_stops answered]
        exact .ended (List.prefix_append [call] rest) ⟨made, call, rfl, goesOn, answered⟩

/-- The call that ends the others is one of those that were planned. -/
theorem GetRequest.getLast?_handOver (request : GetRequest) {made planned : List Call}
    (ended : (request.handOver made planned).2 ≠ .ok true) :
    ∃ call ∈ planned, (request.handOver made planned).1.getLast? = some call := by
  induction planned generalizing made with
  | nil => exact absurd rfl ended
  | cons call rest inductionHypothesis =>
      by_cases answered : request.answer (made ++ [call]) = .ok true
      · rw [GetRequest.handOver_of_goesOn answered] at ended ⊢
        obtain ⟨last, member, isLast⟩ := inductionHypothesis ended
        exact ⟨last, List.mem_cons_of_mem call member, isLast⟩
      · rw [GetRequest.handOver_of_stops answered]
        exact ⟨call, List.mem_cons_self, List.getLast?_concat⟩

end Httpfs.Http.Curl
