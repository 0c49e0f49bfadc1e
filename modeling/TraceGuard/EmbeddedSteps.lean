import TraceGuard.EmbeddedBoundary
import TraceGuard.GatewaySupervision

/-! What the safeguards of the embedded boundary let pass, and what is reported of a call that they stop. -/
namespace TraceGuard
open Raising Stateful Dialogue

def Exchange.isConsulted : Exchange → Bool
  | .consulted _ _ => true
  | _ => false

/-! Traces. -/

/-- What a trace leaves: an escalated task stays escalated. -/
def BoundaryState.told (s : BoundaryState) (taskId : String) (outcome : EpisodeOutcome) : BoundaryState :=
  if outcome=.escalate then s.escalate taskId else s

/-- Outcomes with which an observation goes to the agent. -/
def EpisodeOutcome.shows (outcome : EpisodeOutcome) : Bool :=
  outcome.released || outcome=.toolError || outcome=.executionUnknown

/-- What a result says. -/
structure Reports (outcome : EpisodeOutcome) (status : ExecutionStatus) (observation : Option Observation)
    (result : RuntimeResult) : Prop where
  ended : result.trace.episodeOutcome=outcome
  dispatched : result.trace.executionStatus=status
  released : result.trace.resultReleased=outcome.released
  shown : result.observation=observation
  judged : ∀ postRun, result.postRun=some postRun → (postRun.disposition=.acceptResult ↔ outcome.shows = true)

/-- An exception, or a result that says so. -/
def Tells (outcome : EpisodeOutcome) (status : ExecutionStatus) (observation : Option Observation)
    (r : Except BoundaryError RuntimeResult) : Prop :=
  ∀ result, r = .ok result → Reports outcome status observation result

theorem tells_error {outcome : EpisodeOutcome} {status : ExecutionStatus} {observation : Option Observation}
    (e : BoundaryError) : Tells outcome status observation (.error e) := by
  rintro result ⟨⟩

namespace GuardedExecution
section
variable {crypto : Crypto} {self : GuardedExecution crypto} {platform : Platform} {around : Surroundings}
  {s : Session BoundaryState Exchange} {proposed effective call : ToolCall} {outputs : List Verdict}
  {plan : Option ExecutionPlan} {observation shown : Option Observation} {outcome : EpisodeOutcome}
  {status : Option ExecutionStatus} {postRun : Option PostRunAssessment} {userTask : String}
  {observations : List Observation} {rewritten : Bool}

theorem statusOf_escalate (plan : Option ExecutionPlan) : statusOf .escalate plan none=.notDispatched := by
  simp [statusOf]

theorem trace_ends : Ends (self.trace proposed effective outputs plan observation outcome status) s fun r t =>
    t=⟨s.state.told proposed.taskId outcome, s.log⟩ ∧ ∀ event, r = .ok event →
      event.episodeOutcome=outcome ∧ event.executionStatus=status.getD (statusOf outcome plan observation) ∧
        event.resultReleased=outcome.released := by
  have hrest : ∀ u : Session BoundaryState Exchange, Ends (do
      let usage ← checked (tokens outputs)
      if usage<0 then throw (.policy (.value "token_usage is negative"))
      return ({
        taskId := proposed.taskId
        stepId := proposed.stepId
        proposedCall := proposed
        effectiveCall := effective
        safeguardOutputs := outputs
        executionPlan := plan
        resultObservationId := observation.map Observation.observationId
        resultDigest := observation.map fun observation => crypto.sha256 observation.content
        tokenUsage := usage
        policyVersion := self.policy.version
        episodeOutcome := outcome
        executionStatus := status.getD (statusOf outcome plan observation)
        resultReleased := outcome.released } : TraceEvent)) u fun r t =>
      t=u ∧ ∀ event, r = .ok event → event.episodeOutcome=outcome ∧
        event.executionStatus=status.getD (statusOf outcome plan observation) ∧
          event.resultReleased=outcome.released := by
    intro u
    refine ends_lift_bind (fun usage _ => ?_) fun e _ => ⟨rfl, fun _ h => (by cases h)⟩
    dsimp only
    split
    · exact ⟨rfl, fun _ h => (by cases h)⟩
    · refine ⟨rfl, fun event h => ?_⟩
      cases h
      exact ⟨rfl, rfl, rfl⟩
  unfold trace BoundaryState.told
  dsimp only
  split
  · exact hrest _
  · exact hrest _

theorem report_ends (hjudged : ∀ p, postRun=some p → (p.disposition=.acceptResult ↔ outcome.shows = true)) :
    Ends (self.report proposed effective outputs plan observation outcome shown postRun status) s fun r t =>
      t=⟨s.state.told proposed.taskId outcome, s.log⟩ ∧
        Tells outcome (status.getD (statusOf outcome plan observation)) shown r := by
  unfold report
  refine trace_ends.bind ?_ ?_
  · rintro event t ⟨ht, hevent⟩
    obtain ⟨houtcome, hstatus, hreleased⟩ := hevent event rfl
    refine ends_pure ⟨ht, ?_⟩
    rintro result ⟨⟩
    exact ⟨houtcome, hstatus, hreleased, rfl, hjudged⟩
  · rintro e t ⟨ht, -⟩
    exact ⟨ht, tells_error e⟩

theorem unjudged (p : PostRunAssessment) (h : (none : Option PostRunAssessment)=some p) :
    p.disposition=.acceptResult ↔ outcome.shows = true := by
  cases h

theorem withhold_ends : Ends (self.withhold proposed effective outputs plan outcome status) s fun r t =>
    t=⟨s.state.told proposed.taskId outcome, s.log⟩ ∧
      Tells outcome (status.getD (statusOf outcome plan none)) none r :=
  report_ends unjudged

/-- The boundary's own refusals are always reported. -/
theorem refusal_ends {out : SupervisorOutput} (h : outcome=.block ∨ outcome=.escalate) :
    Ends (self.withhold proposed effective [⟨out, .ok 0⟩] none outcome) s fun r t =>
      t=⟨s.state.told proposed.taskId outcome, s.log⟩ ∧ ∃ result, r = .ok result ∧
        Reports outcome .notDispatched none result := by
  have hreturns : Ends (self.withhold proposed effective [⟨out, .ok 0⟩] none outcome) s fun r _ =>
      ∃ result, r = .ok result := by
    unfold withhold report trace
    by_cases hesc : outcome=.escalate
    · rw [if_pos hesc]
      exact ⟨_, rfl⟩
    · rw [if_neg hesc]
      exact ⟨_, rfl⟩
  have hstatus : (none : Option ExecutionStatus).getD (statusOf outcome none none)=.notDispatched := by
    rcases h with rfl | rfl <;> rfl
  have hwithheld : Ends (self.withhold proposed effective [⟨out, .ok 0⟩] none outcome) s _ := withhold_ends
  obtain ⟨ht, htells⟩ := hwithheld
  obtain ⟨result, hresult⟩ := hreturns
  rw [hstatus] at htells
  exact ⟨ht, result, hresult, htells result hresult⟩

/-! The safeguards. -/

/-- What a call passed before the supervisor is asked, with the history of the boundary. -/
structure Cleared (boundary : GuardedExecution crypto) (platform : Platform) (userTask : String)
    (observations : List Observation) (history : List ToolCall) (call normalized : ToolCall)
    (granted deterministic : SupervisorOutput) : Prop where
  authority : boundary.compiled.evaluate platform crypto userTask call observations history = .ok granted
  allowed : granted.decision=.allow
  normal : boundary.compiled.normalizeRead crypto call = .ok normalized
  fresh : duplicateMutation normalized history boundary.taskAuthority = Check.pass
  schema : boundary.validate platform normalized = .ok ()
  policy : (⟨boundary.policy, boundary.taskAuthority, history⟩ : DeterministicPolicy).evaluate platform userTask normalized
    observations = .ok deterministic

/-- The outputs of the safeguards, with what was asked of the supervisor. -/
inductive Evaluated (self : GuardedExecution crypto) (platform : Platform) (userTask : String)
    (observations : List Observation) (history : List ToolCall) (rewritten : Bool) (call : ToolCall) :
    List Verdict → List Exchange → Prop where
  | withheld {verdict : Verdict} (h : verdict.output.decision.withholds = true) :
      Evaluated self platform userTask observations history rewritten call [verdict] []
  | decided {normalized : ToolCall} {granted deterministic : SupervisorOutput}
      (cleared : Cleared self platform userTask observations history call normalized granted deterministic)
      (h : deterministic.decision.withholds = true ∨ self.config.llmSupervisor = false) :
      Evaluated self platform userTask observations history rewritten call
        [⟨granted, .ok 0⟩, ⟨deterministic, .ok 0⟩] []
  | supervised {normalized : ToolCall} {granted deterministic : SupervisorOutput} {verdict : Verdict}
      (cleared : Cleared self platform userTask observations history call normalized granted deterministic) :
      Evaluated self platform userTask observations history rewritten call
        [⟨granted, .ok 0⟩, ⟨deterministic, .ok 0⟩, verdict]
        [.consulted ⟨userTask, normalized, observations, self.context history rewritten⟩ (.ok verdict)]

theorem evaluate_ends : Ends (self.evaluate platform around userTask call observations rewritten) s fun r t =>
    ∃ news, t=⟨s.state, s.log++news⟩ ∧ (∀ e∈news, e.isConsulted = true) ∧ ∀ outputs, r = .ok outputs →
      Evaluated self platform userTask observations (s.state.executedCalls call.taskId) rewritten call outputs news := by
  have hquiet : ∀ {r : Except BoundaryError (List Verdict)}, (∀ outputs, r = .ok outputs →
      Evaluated self platform userTask observations (s.state.executedCalls call.taskId) rewritten call outputs []) →
      ∃ news, s=(⟨s.state, s.log++news⟩ : Session BoundaryState Exchange) ∧ (∀ e∈news, e.isConsulted = true) ∧
        ∀ outputs, r = .ok outputs → Evaluated self platform userTask observations
          (s.state.executedCalls call.taskId) rewritten call outputs news := by
    intro r h
    exact ⟨[], by rw [List.append_nil], List.forall_mem_nil _, h⟩
  have hone : ∀ {v : Verdict}, v.output.decision.withholds = true → ∀ outputs,
      (Except.ok [v] : Except BoundaryError (List Verdict)) = .ok outputs → Evaluated self platform userTask observations
        (s.state.executedCalls call.taskId) rewritten call outputs [] := by
    rintro v hv outputs ⟨⟩
    exact .withheld hv
  unfold evaluate
  refine ends_state_bind ?_
  refine ends_lift_bind (fun granted hgranted => ?_) fun e _ => hquiet fun _ h => (by cases h)
  split
  · rename_i hwithheld
    exact hquiet (hone hwithheld)
  rename_i hpass
  refine ends_lift_bind (fun normalized hnormal => ?_) fun e _ => hquiet fun _ h => (by cases h)
  refine ends_lift_bind (fun repeated hfresh => ?_) fun e _ => hquiet fun _ h => (by cases h)
  cases repeated with
  | some denial =>
    refine hquiet (hone ?_)
    rcases denial.denies with h | h <;> simp [h, Decision.withholds]
  | none =>
    dsimp only
    split
    · exact hquiet (hone rfl)
    · exact hquiet fun _ h => (by cases h)
    · rename_i hschema
      refine ends_lift_bind (fun deterministic hpolicy => ?_) fun e _ => hquiet fun _ h => (by cases h)
      have hcleared : Cleared self platform userTask observations (s.state.executedCalls call.taskId) call normalized
          granted deterministic := {
        authority := mapError_ok hgranted
        allowed := (Decision.proceeds_cases.mp (Bool.not_eq_true _ ▸ hpass)).resolve_right
          (CompiledAuthority.evaluate_not_rewrite (mapError_ok hgranted))
        normal := mapError_ok hnormal
        fresh := mapError_ok hfresh
        schema := hschema
        policy := mapError_ok hpolicy }
      split
      · rename_i hdecided
        refine hquiet ?_
        rintro outputs ⟨⟩
        exact .decided hcleared (by simpa using hdecided)
      · refine Ends.bind (p := fun r t => ∃ answer, t=⟨s.state, s.log++[.consulted ⟨userTask, normalized, observations,
            self.context (s.state.executedCalls call.taskId) rewritten⟩ answer]⟩ ∧ ∀ v, r = .ok v → answer = .ok v) ?_ ?_ ?_
        · refine ends_inquire_bind ?_
          cases hanswer : around.supervisor s.log ⟨userTask, normalized, observations,
            self.context (s.state.executedCalls call.taskId) rewritten⟩ with
          | ok verdict => exact ⟨_, rfl, fun v h => by cases h; rfl⟩
          | error e => exact ⟨_, rfl, fun v h => by cases h⟩
        · rintro verdict t ⟨answer, rfl, hanswer⟩
          refine ⟨_, rfl, by simp [Exchange.isConsulted], ?_⟩
          rintro outputs ⟨⟩
          rw [hanswer verdict rfl]
          exact .supervised hcleared
        · rintro e t ⟨answer, rfl, -⟩
          exact ⟨_, rfl, by simp [Exchange.isConsulted], fun _ h => (by cases h)⟩

theorem Evaluated.merges {history : List ToolCall} {news : List Exchange}
    (h : Evaluated self platform userTask observations history rewritten call outputs news) :
    ∃ merged, mergeOutputs (outputs.map Verdict.output) = some merged := by
  refine mergeOutputs_isSome ?_
  cases h <;> simp

/-- What an approved call is: the proposed one or a valid replacement, which all safeguards allow. -/
structure Approved (boundary : GuardedExecution crypto) (platform : Platform) (userTask : String)
    (observations : List Observation) (history : List ToolCall) (call : ToolCall) (a : Approval)
    (news : List Exchange) : Prop where
  safe : ∃ rewritten outputs consults merged,
    Evaluated boundary platform userTask observations history rewritten a.effective outputs consults ∧
      mergeOutputs (outputs.map Verdict.output) = some merged ∧ merged.decision=.allow ∧ a.merged=some merged ∧
        consults<:+news
  keeps : SupervisionGateway.Keeps call a.effective (·∈call.requestedResources)
  proposed : a.originalRewrite=none → a.effective=call

/-- How the safeguards' part of a call ends. -/
inductive Considered (self : GuardedExecution crypto) (platform : Platform) (userTask : String)
    (observations : List Observation) (call : ToolCall) (s : BoundaryState) (news : List Exchange) :
    Except BoundaryError (Approval ⊕ RuntimeResult) → BoundaryState → Prop where
  | approved {a : Approval}
      (h : Approved self platform userTask observations (s.executedCalls call.taskId) call a news) :
      Considered self platform userTask observations call s news (.ok (.inl a)) s
  | stopped {r : Except BoundaryError RuntimeResult} {outcome : EpisodeOutcome}
      (h : outcome=.block ∨ outcome=.escalate) (tells : Tells outcome .notDispatched none r) :
      Considered self platform userTask observations call s news (r.map .inr) (s.told call.taskId outcome)
  | raised {e : BoundaryError} : Considered self platform userTask observations call s news (.error e) s

theorem stop_ends {news : List Exchange} {u : Session BoundaryState Exchange} (hu : u=⟨s.state, s.log++news⟩)
    (hquiet : ∀ e∈news, e.isConsulted = true) (h : outcome=.block ∨ outcome=.escalate) :
    Ends (do return (.inr (← self.withhold call effective outputs none outcome) : Approval ⊕ RuntimeResult)) u
      fun r t => ∃ news, t.log=s.log++news ∧ (∀ e∈news, e.isConsulted = true) ∧
        Considered self platform userTask observations call s.state news r t.state := by
  subst hu
  have hstatus : (none : Option ExecutionStatus).getD (statusOf outcome none none)=.notDispatched := by
    rcases h with rfl | rfl <;> rfl
  refine withhold_ends.bind ?_ ?_
  · rintro result t ⟨rfl, htells⟩
    rw [hstatus] at htells
    exact ends_pure ⟨news, rfl, hquiet, .stopped (r := .ok result) h htells⟩
  · rintro e t ⟨rfl, htells⟩
    rw [hstatus] at htells
    exact ⟨news, rfl, hquiet, .stopped (r := .error e) h htells⟩

theorem approve_ends : Ends (self.approve platform around userTask call observations) s fun r t =>
    ∃ news, t.log=s.log++news ∧ (∀ e∈news, e.isConsulted = true) ∧
      Considered self platform userTask observations call s.state news r t.state := by
  unfold approve
  refine evaluate_ends.bind ?_ ?_
  · rintro outputs u ⟨news, hu, hquiet, houtputs⟩
    have hevaluated := houtputs outputs rfl
    obtain ⟨first, hfirst⟩ := hevaluated.merges
    dsimp only
    rw [hfirst]
    dsimp only
    split
    · exact stop_ends hu hquiet (.inl rfl)
    · exact stop_ends hu hquiet (.inr rfl)
    · rename_i hallow
      subst hu
      refine ends_pure ⟨news, rfl, hquiet, .approved ?_⟩
      have hsame : (if first.decision=.rewrite then first.rewrittenCall.getD call else call)=call := by
        rw [hallow]
        rfl
      rw [hsame]
      exact ⟨⟨false, outputs, news, first, hevaluated, hfirst, hallow, rfl, List.suffix_refl news⟩,
        SupervisionGateway.keeps_self call, fun _ => rfl⟩
    · rename_i hrewrite
      rw [if_pos hrewrite]
      split
      · exact stop_ends hu hquiet (.inr rfl)
      · subst hu
        exact ends_throw ⟨news, rfl, hquiet, .raised⟩
      · rename_i hvalid
        have hreplaces := validateReplacement_ok hvalid
        subst hu
        refine evaluate_ends.bind ?_ ?_
        · rintro reevaluated t ⟨more, rfl, hmore, hre⟩
          have hagain := hre reevaluated rfl
          have hall : ∀ e∈news++more, e.isConsulted = true := fun e he =>
            (List.mem_append.mp he).elim (hquiet e) (hmore e)
          have hlog : (⟨s.state, s.log++news++more⟩ : Session BoundaryState Exchange)=⟨s.state, s.log++(news++more)⟩ := by
            rw [List.append_assoc]
          obtain ⟨second, hsecond⟩ := hagain.merges
          dsimp only
          rw [hsecond]
          dsimp only
          split
          · exact stop_ends hlog hall (.inl rfl)
          · exact stop_ends hlog hall (.inr rfl)
          · exact stop_ends hlog hall (.inr rfl)
          · rename_i hallow
            rw [hlog]
            have htask : (first.rewrittenCall.getD call).taskId=call.taskId := hreplaces.taskId
            rw [htask] at hagain
            refine ends_pure ⟨news++more, rfl, hall, .approved ⟨?_, ?_, fun h => (by cases h)⟩⟩
            · exact ⟨true, reevaluated, more, second, hagain, hsecond, hallow, rfl, List.suffix_append news more⟩
            · exact ⟨hreplaces.callId, hreplaces.observed, htask, hreplaces.stepId, hreplaces.resources⟩
        · rintro e t ⟨more, rfl, hmore, -⟩
          refine ⟨news++more, (List.append_assoc ..), fun e he => ?_, .raised⟩
          exact (List.mem_append.mp he).elim (hquiet e) (hmore e)
  · rintro e u ⟨news, rfl, hquiet, -⟩
    exact ⟨news, rfl, hquiet, .raised⟩

end
end GuardedExecution
end TraceGuard
