import TraceGuard.EmbeddedLogs
import TraceGuard.Serial

/-! Complete mediation: in every run of a boundary nothing is dispatched that the authority, the policy and the
supervisor did not allow with exactly what had been executed before, or that was not reserved. -/
namespace TraceGuard
open Raising Stateful Dialogue ExecutionLedger

/-- A call, as the agent's code requests it. -/
structure CallRequest where
  userTask : String
  call : ToolCall
  observations : List Observation
  observationId : String

namespace GuardedExecution
section
variable {crypto : Crypto} (self : GuardedExecution crypto) (platform : Platform) (around : Surroundings)

def execute (request : CallRequest) : Act RuntimeResult :=
  self.executeCall platform around request.userTask request.call request.observations request.observationId

/-- The session that a run of a new boundary ends in; a call that raises is followed by others. -/
def serve (database : Database) (requests : List CallRequest) : Session BoundaryState Exchange :=
  (serial (self.execute platform around) requests ⟨.new database, []⟩).2

end

/-- What was checked and asked for a call before it is dispatched, in a session that had executed what its log says. -/
structure Mediated {crypto : Crypto} (boundary : GuardedExecution crypto) (platform : Platform) (request : CallRequest)
    (s : Session BoundaryState Exchange) (now : List Exchange) (call : ToolCall) : Prop where
  bound : request.call.taskId=boundary.boundTaskId
  free : request.call.taskId∉s.state.escalatedTasks
  keeps : SupervisionGateway.Keeps request.call call (·∈request.call.requestedResources)
  single : ∀ e∈now, e.isDispatched = false
  allowed : ∃ normalized granted deterministic, Cleared boundary platform request.userTask request.observations
    (s.log.filterMap Exchange.executed) call normalized granted deterministic ∧ deterministic.decision=.allow ∧
      (boundary.config.llmSupervisor = true → ∃ rewritten verdict, verdict.output.decision=.allow ∧
        .consulted ⟨request.userTask, normalized, request.observations,
          boundary.context (s.log.filterMap Exchange.executed) rewritten⟩ (.ok verdict)∈now)
  reserved : ∀ ledger, boundary.effectLedger=some ledger → consequential call = .ok true → ∃ policy r scan next,
    boundary.resultPolicy = .ok policy ∧ Reserves boundary request.call call policy r ∧
      ledger.reserve scan r s.state.database = .ok (none, next) ∧ .ledger (.reserve r) (.ok (.reserved none))∈now

/-- Each dispatch of a log is that of one request, whose call is mediated in the session that the earlier ones left. -/
def Mediates {crypto : Crypto} (boundary : GuardedExecution crypto) (platform : Platform) (around : Surroundings)
    (database : Database) (requests : List CallRequest) (log : List Exchange) : Prop :=
  ∀ before d after call, log=before++d :: after → d.dispatched=some call →
    ∃ earlier request later, requests=earlier++request :: later ∧
      ∃ now, before=(boundary.serve platform around database earlier).log++now ∧
        boundary.Mediated platform request (boundary.serve platform around database earlier) now call ∧
        ((∃ answer, d=.handled call answer ∧ call.toolName≠"restricted_command") ∨
          ∃ plan answer, d=.contained plan answer ∧ plan.target=.container)

section
variable {crypto : Crypto} {self : GuardedExecution crypto} {platform : Platform} {around : Surroundings}
  {s t : Session BoundaryState Exchange} {call : ToolCall} {a : Approval} {plan : ExecutionPlan}
  {userTask : String} {observations : List Observation} {news before after : List Exchange} {d : Exchange}
  {database : Database} {requests : List CallRequest}

/-- What the safeguards let pass, all of them allow. -/
theorem Evaluated.allowed {rewritten : Bool} {history : List ToolCall} {outputs : List Verdict}
    {consults : List Exchange} {merged : SupervisorOutput}
    (h : Evaluated self platform userTask observations history rewritten call outputs consults)
    (hm : mergeOutputs (outputs.map Verdict.output) = some merged) (ha : merged.decision=.allow) :
    ∃ normalized granted deterministic,
      Cleared self platform userTask observations history call normalized granted deterministic ∧
      deterministic.decision=.allow ∧ (self.config.llmSupervisor = true → ∃ verdict, verdict.output.decision=.allow ∧
        .consulted ⟨userTask, normalized, observations, self.context history rewritten⟩ (.ok verdict)∈consults) := by
  obtain ⟨-, hall⟩ := mergeOutputs_allow hm ha
  cases h with
  | withheld h =>
    have hd := hall _ (List.mem_singleton_self _)
    rw [hd] at h
    cases h
  | decided cleared h =>
    have hd := hall _ (List.mem_cons_of_mem _ (List.mem_singleton_self _))
    refine ⟨_, _, _, cleared, hd, fun hsupervised => ?_⟩
    rcases h with h | h
    · rw [hd] at h
      cases h
    · rw [hsupervised] at h
      cases h
  | supervised cleared =>
    refine ⟨_, _, _, cleared, hall _ (by simp), fun _ => ?_⟩
    exact ⟨_, hall _ (by simp), List.mem_singleton_self _⟩

/-- With a ledger, a dispatch that has an effect was reserved by its call. -/
theorem Dispatched.reserved {state : BoundaryState} {ledger : ExecutionLedger}
    (h : Dispatched self platform around userTask call observations state before d a plan)
    (hledger : self.effectLedger=some ledger) (heffect : consequential a.effective = .ok true) :
    ∃ policy r scan next, self.resultPolicy = .ok policy ∧ Reserves self call a.effective policy r ∧
      ledger.reserve scan r state.database = .ok (none, next) ∧ .ledger (.reserve r) (.ok (.reserved none))∈before := by
  obtain ⟨policy, claims, reserved, mid, hdecided, hclaimed, hclaims⟩ := h.claimed
  generalize hresult : (.ok (.inl reserved) : Except BoundaryError (Option ExecutionLedger ⊕ RuntimeResult))=result
    at hclaimed
  have hne : ∀ x : Except BoundaryError RuntimeResult,
      (x.map .inr : Except BoundaryError (Option ExecutionLedger ⊕ RuntimeResult))≠.ok (.inl reserved) := by
    intro x hx
    cases x <;> cases hx
  cases hclaimed with
  | free h =>
    rcases h with h | h
    · rw [hledger] at h
      cases h
    · rw [heffect] at h
      cases h
  | reserved configured effect request inserted =>
    rw [hledger] at configured
    cases configured
    exact ⟨policy, _, _, _, hdecided, reservation_ok request, inserted, hclaims (List.mem_singleton_self _)⟩
  | replayed => exact absurd hresult.symm (hne _)
  | unreadable _ => cases hresult
  | kept => exact absurd hresult.symm (hne _)
  | refused => exact absurd hresult.symm (hne _)
  | raised _ => cases hresult

theorem Dispatched.mediated {request : CallRequest} (h : Dispatched self platform around request.userTask request.call
      request.observations s.state before d a plan) (hquiet : ∀ e∈before, e.isDispatched = false)
    (hhistory : s.state.executedCalls self.boundTaskId=s.log.filterMap Exchange.executed) :
    self.Mediated platform request s before a.effective := by
  obtain ⟨consults, happroved, hconsults⟩ := h.approved
  obtain ⟨rewritten, outputs, asked, merged, hevaluated, hmerged, hallow, -, hasked⟩ := happroved.safe
  obtain ⟨normalized, granted, deterministic, hcleared, hpolicy, hsupervised⟩ := hevaluated.allowed hmerged hallow
  rw [h.bound, hhistory] at hcleared hsupervised
  refine {
    bound := h.bound
    free := h.free
    keeps := happroved.keeps
    single := hquiet
    allowed := ⟨normalized, granted, deterministic, hcleared, hpolicy, fun hs => ?_⟩
    reserved := fun ledger => h.reserved }
  obtain ⟨verdict, hv, hmem⟩ := hsupervised hs
  exact ⟨rewritten, verdict, hv, hconsults (hasked.subset hmem)⟩

/-- The record of the bound task is what the log says was executed. -/
theorem serve_history (self : GuardedExecution crypto) (platform : Platform) (around : Surroundings)
    (database : Database) (requests : List CallRequest) :
    (self.serve platform around database requests).state.executedCalls self.boundTaskId=
      (self.serve platform around database requests).log.filterMap Exchange.executed := by
  refine serial_induction (p := fun _ (s : Session BoundaryState Exchange) =>
    s.state.executedCalls self.boundTaskId=s.log.filterMap Exchange.executed) rfl (fun earlier request s hs _ => ?_) requests
  refine executeCall_ends.mono ?_
  rintro r t ⟨news, hlog, hcourse⟩
  rw [hlog, List.filterMap_append, ← hs]
  by_cases hbound : request.call.taskId=self.boundTaskId
  · rw [← hbound]
    exact hcourse.executed
  · obtain ⟨hnews, hstate⟩ := hcourse.foreign_unchanged hbound
    rw [hnews, hstate, List.filterMap_nil, List.append_nil]

theorem execute_ends (boundary : GuardedExecution crypto) (platform : Platform) (around : Surroundings)
    (request : CallRequest) (s : Session BoundaryState Exchange) : Ends (boundary.execute platform around request) s
      fun r t => ∃ news, t.log=s.log++news ∧ Course boundary platform around request.userTask request.call
        request.observations request.observationId s.state news r t.state :=
  executeCall_ends

/-- Each dispatch of a run is that of one request, in the session that the earlier ones left. -/
theorem serve_dispatched (self : GuardedExecution crypto) (platform : Platform) (around : Surroundings)
    (database : Database) (requests : List CallRequest) : ∀ before d after,
      (self.serve platform around database requests).log=before++d :: after → d.isDispatched = true →
      ∃ earlier request later, requests=earlier++request :: later ∧ ∃ now a plan,
        before=(self.serve platform around database earlier).log++now ∧ (∀ e∈now, e.isDispatched = false) ∧
          Dispatched self platform around request.userTask request.call request.observations
            (self.serve platform around database earlier).state now d a plan := by
  refine serial_induction (p := fun requests (s : Session BoundaryState Exchange) => ∀ before d after,
      s.log=before++d :: after → d.isDispatched = true →
      ∃ earlier request later, requests=earlier++request :: later ∧ ∃ now a plan,
        before=(self.serve platform around database earlier).log++now ∧ (∀ e∈now, e.isDispatched = false) ∧
          Dispatched self platform around request.userTask request.call request.observations
            (self.serve platform around database earlier).state now d a plan)
    ?_ (fun earlier request s hs heq => ?_) requests
  · intro before d after h
    exact absurd h (by simp)
  have hserved : s=self.serve platform around database earlier := heq
  refine executeCall_ends.mono ?_
  rintro r t ⟨news, hlog, hcourse⟩ before d after hsplit hd
  rw [hlog] at hsplit
  rcases append_split hsplit with ⟨now, rfl, hnews⟩ | ⟨mid, hpast, rfl⟩
  · rcases hcourse.dispatches with hnone | ⟨now', d', after', a, plan, hnews', hbefore, hafter, -, hdispatched⟩
    · have hquiet := hnone d (hnews ▸ by simp)
      rw [hd] at hquiet
      cases hquiet
    · obtain ⟨rfl, rfl, -⟩ := marked_unique (hnews'.symm.trans hnews) hbefore hafter hd
      rw [hserved] at hdispatched ⊢
      exact ⟨earlier, request, [], rfl, now, a, plan, rfl, hbefore, hdispatched⟩
  · obtain ⟨first, asked, later, rfl, hrest⟩ := hs before d mid hpast hd
    exact ⟨first, asked, later++[request], by simp, hrest⟩

/-- What the dispatched call is, and how it was run. -/
theorem Dispatched.placement {state : BoundaryState} {c : ToolCall}
    (h : Dispatched self platform around userTask call observations state before d a plan)
    (hd : d.dispatched=some c) : c=a.effective ∧
      ((a.target=.default ∧ c.toolName≠"restricted_command" ∧ ∃ answer, d=.handled c answer) ∨
        plan.target=.container ∧ ∃ answer, d=.contained plan answer) := by
  obtain ⟨hcall, htarget, -⟩ := Approval.plan_ok h.planned
  rcases h.placed with ⟨hdefault, htool, answer, rfl⟩ | ⟨hcontainer, answer, rfl⟩
  · cases hd
    exact ⟨rfl, .inl ⟨hdefault, htool, answer, rfl⟩⟩
  · cases hd
    exact ⟨hcall, .inr ⟨htarget.trans hcontainer, answer, rfl⟩⟩

/-- Nothing is dispatched in a run that was not mediated by the call that asked for it. -/
theorem serve_mediates (self : GuardedExecution crypto) (platform : Platform) (around : Surroundings)
    (database : Database) (requests : List CallRequest) :
    self.Mediates platform around database requests (self.serve platform around database requests).log := by
  intro before d after call hsplit hd
  obtain ⟨earlier, request, later, hrequests, now, a, plan, hbefore, hquiet, hdispatched⟩ :=
    serve_dispatched self platform around database requests before d after hsplit (Exchange.isDispatched_of_dispatched hd)
  have hmediated := hdispatched.mediated hquiet (serve_history self platform around database earlier)
  obtain ⟨rfl, hplaced⟩ := hdispatched.placement hd
  refine ⟨earlier, request, later, hrequests, now, hbefore, hmediated, ?_⟩
  rcases hplaced with ⟨-, htool, answer, rfl⟩ | ⟨hcontainer, answer, rfl⟩
  · exact .inl ⟨answer, rfl, htool⟩
  · exact .inr ⟨plan, answer, rfl, hcontainer⟩

end
end GuardedExecution
end TraceGuard
