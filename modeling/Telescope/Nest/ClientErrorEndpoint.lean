import Telescope.Nest.RateLimit

namespace Telescope
namespace Nest
namespace ClientErrorController

open ClientErrorRateLimiter (Ordered Fits)

/-!
# The guards of the client error endpoint

A request is served in one step from the moment when its hook has answered.  Whatever arrives,
an address reports no more than its allowance, and a hook that throws is reported once.
-/

structure Arrival where
  request : ClientErrorRequest
  nowMs : Rat

variable (bodyByteSize : Value -> Nat) (config : ClientErrorsOptions) (controller : ClientErrorController)
  (arrival : Arrival)

def respond : Outcome × ClientErrorController :=
  controller.ingest bodyByteSize (some config) arrival.request arrival.nowMs

def answers (controller : ClientErrorController) : List Arrival -> List (Arrival × Outcome)
  | [] => []
  | arrival :: arrivals =>
      let answered := controller.respond bodyByteSize config arrival
      (arrival, answered.1) :: answers answered.2 arrivals

/-- What the limiter is asked. -/
def asked (arrival : Arrival) : Request := ⟨(clientIp arrival.request).getD (units "unknown"), arrival.nowMs⟩

/-- The requests of which a record was made. -/
def reports (answers : List (Arrival × Outcome)) : List Request :=
  (answers.filter fun answer => answer.2.result.isOk).map fun answer => asked answer.1

/-- A record costs a token, and a warning is the first. -/
structure Served (next : ClientErrorController) (asked : Request) (outcome : Outcome) : Prop where
  limited : (outcome.result.isOk = false ∧ next.limiter config = controller.limiter config) ∨
    (next.limiter config = ((controller.limiter config).tryConsume asked.ip asked.nowMs).2 ∧
      (outcome.result.isOk = true -> ((controller.limiter config).tryConsume asked.ip asked.nowMs).1 = true))
  warned : (outcome.warning = none ∧ next.warnedAuthorize = controller.warnedAuthorize) ∨
    (controller.warnedAuthorize = false ∧ next.warnedAuthorize = true)

theorem served_accept :
    Served config controller (controller.accept bodyByteSize config arrival.request arrival.nowMs).2 (asked arrival)
      ⟨(controller.accept bodyByteSize config arrival.request arrival.nowMs).1, none⟩ := by
  rw [accept]
  split
  · exact ⟨.inl ⟨rfl, rfl⟩, .inl ⟨rfl, rfl⟩⟩
  · dsimp only
    split
    · rename_i allowed
      split <;> exact ⟨.inr ⟨rfl, fun _ => allowed⟩, .inl ⟨rfl, rfl⟩⟩
    · exact ⟨.inr ⟨rfl, fun isOk => (Bool.false_ne_true isOk).elim⟩, .inl ⟨rfl, rfl⟩⟩

theorem served_respond :
    Served config controller (controller.respond bodyByteSize config arrival).2 (asked arrival)
      (controller.respond bodyByteSize config arrival).1 := by
  rw [respond, ingest]
  dsimp only
  split
  · split
    · cases arrival.request.authorized with
      | error message =>
          rw [runAuthorize]
          cases warned : controller.warnedAuthorize with
          | true => exact ⟨.inl ⟨rfl, rfl⟩, .inl ⟨rfl, rfl⟩⟩
          | false => exact ⟨.inl ⟨rfl, rfl⟩, .inr ⟨warned, rfl⟩⟩
      | ok value =>
          cases value with
          | boolean answer =>
              cases answer with
              | true => exact served_accept bodyByteSize config controller arrival
              | false => exact ⟨.inl ⟨rfl, rfl⟩, .inl ⟨rfl, rfl⟩⟩
          | _ => exact ⟨.inl ⟨rfl, rfl⟩, .inl ⟨rfl, rfl⟩⟩
    · exact served_accept bodyByteSize config controller arrival
  · exact ⟨.inl ⟨rfl, rfl⟩, .inl ⟨rfl, rfl⟩⟩

/-- Every report is a request that the limiter grants, of some that it is asked. -/
theorem reports_granted (controller : ClientErrorController) (arrivals : List Arrival) :
    Exists fun requests => requests.Sublist (arrivals.map asked) ∧
      (reports (controller.answers bodyByteSize config arrivals)).Sublist
        ((((controller.limiter config).serve requests).filter Prod.snd).map Prod.fst) := by
  induction arrivals generalizing controller with
  | nil => exact ⟨[], List.Sublist.refl _, List.Sublist.refl _⟩
  | cons arrival arrivals inductionHypothesis =>
      have served := served_respond bodyByteSize config controller arrival
      rcases inductionHypothesis (controller.respond bodyByteSize config arrival).2 with ⟨requests, among, granted⟩
      rw [answers, reports, List.filter_cons]
      rcases served.limited with ⟨failed, same⟩ | ⟨same, isGranted⟩
      · rw [same] at granted
        rw [if_neg (by rw [failed]; exact Bool.false_ne_true)]
        exact ⟨requests, among.cons _, granted⟩
      · rw [same] at granted
        refine ⟨asked arrival :: requests, among.cons_cons _, ?_⟩
        rw [ClientErrorRateLimiter.serve, List.filter_cons]
        by_cases isOk : (controller.respond bodyByteSize config arrival).1.result.isOk = true
        · rw [if_pos isOk, if_pos (isGranted isOk)]
          exact granted.cons_cons _
        · rw [if_neg isOk]
          refine granted.trans ?_
          split
          · exact List.sublist_cons_self _ _
          · exact List.Sublist.refl _

theorem length_warnings_le (controller : ClientErrorController) (arrivals : List Arrival) :
    ((controller.answers bodyByteSize config arrivals).filter fun answer => answer.2.warning.isSome).length +
      controller.warnedAuthorize.toNat ≤ 1 := by
  induction arrivals generalizing controller with
  | nil => exact (Nat.zero_add _).trans_le (Bool.toNat_le _)
  | cons arrival arrivals inductionHypothesis =>
      have rest := inductionHypothesis (controller.respond bodyByteSize config arrival).2
      rw [answers, List.filter_cons]
      rcases (served_respond bodyByteSize config controller arrival).warned with ⟨silent, same⟩ | ⟨unwarned, warned⟩
      · rw [same] at rest
        rw [silent]
        exact rest
      · rw [warned] at rest
        rw [unwarned]
        have none := Nat.le_of_add_le_add_right rest
        split
        · exact Nat.succ_le_succ none
        · exact none.trans (Nat.zero_le 1)

/-- What the endpoint promises of its answers. -/
structure Guarded (rate : Rat) (answers : List (Arrival × Outcome)) : Prop where
  bounded : forall ip start stop, start ≤ stop ->
    (((reports answers).filter fun request =>
      decide (request.ip = ip ∧ start ≤ request.nowMs ∧ request.nowMs ≤ stop)).length : Rat) ≤
        rate + (stop - start) * (rate / 60000)
  warnedOnce : (answers.filter fun answer => answer.2.warning.isSome).length ≤ 1

/-- A request that the hook throws at. -/
def unlucky : Arrival := ⟨⟨.undefined, .undefined, .undefined, .undefined, .error []⟩, 0⟩

end ClientErrorController
end Nest
end Telescope
