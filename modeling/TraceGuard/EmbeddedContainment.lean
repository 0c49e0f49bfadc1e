import TraceGuard.EmbeddedMediation
import TraceGuard.Merging
import TraceGuard.PolicyPlacement

/-! What the policy contains is run nowhere but in its container: its profile survives the merge with whatever a
supervisor answers, since an ALLOW is of medium risk at most and the policy's output stands first. -/
namespace TraceGuard
open Raising Stateful Dialogue

theorem firstMax_head {α : Type} (key : α → Nat) (best : α) (items : List α)
    (h : ∀ item∈items, key item≤key best) : firstMax key best items=best := by
  induction items with
  | nil => rfl
  | cons item items ih =>
    have hitem := h item (by simp)
    rw [firstMax, if_neg (by omega)]
    exact ih fun other hm => h other (List.mem_cons_of_mem _ hm)

/-- An output of medium risk that stands before all others with a profile places an ALLOW. -/
theorem mergeOutputs_places {first contained merged : SupervisorOutput} {rest : List SupervisorOutput}
    (hm : mergeOutputs (first :: contained :: rest) = some merged) (ha : merged.decision=.allow)
    (hfirst : first.contains = false) (hc : contained.executionTarget=some .container)
    (hrisk : contained.risk=.medium) :
    merged.executionTarget=some .container ∧ merged.containerProfile=contained.containerProfile := by
  obtain ⟨out, hcombined, hout⟩ := mergeOutputs_combined (List.cons_ne_nil first (contained :: rest))
  obtain rfl : merged=out.enforceAllowInvariants := Option.some.inj (hm.symm.trans hout)
  have hproceeds : out.enforceAllowInvariants.decision.withholds = false := by
    rw [ha]
    rfl
  obtain ⟨hsame, hconsistent⟩ := SupervisorOutput.enforceAllowInvariants_proceeds hproceeds
  rw [hsame] at ha hproceeds ⊢
  obtain ⟨hlow, -⟩ := SupervisorOutput.consistent_iff.mp (hconsistent ha)
  have hbound : ∀ other∈rest.filter SupervisorOutput.contains, other.risk.rank ≤ contained.risk.rank := by
    intro other hother
    have hle := hcombined.risk other (by simp [List.mem_of_mem_filter hother])
    rw [hrisk]
    exact hle.trans hlow
  have hriskiest : riskiestContained (first :: contained :: rest)=some contained := by
    rw [riskiestContained, List.filter_cons_of_neg (by simp [hfirst]),
      List.filter_cons_of_pos (SupervisorOutput.contains_of_container hc), firstMax_argmax, firstMax_head _ _ _ hbound]
  obtain ⟨htarget, hprofile⟩ := hcombined.placed hproceeds contained hriskiest
  exact ⟨htarget.trans hc, hprofile⟩

namespace GuardedExecution

/-- Each dispatch of a log whose call the policy contains is one to the sandbox, under the policy's profile. -/
def Contains {crypto : Crypto} (boundary : GuardedExecution crypto) (platform : Platform)
    (requests : List CallRequest) (log : List Exchange) : Prop :=
  ∀ before d after call, log=before++d :: after → d.dispatched=some call → ∃ request∈requests,
    ∃ normalized deterministic, boundary.compiled.normalizeRead crypto call = .ok normalized ∧
      (⟨boundary.policy, boundary.taskAuthority, before.filterMap Exchange.executed⟩ : DeterministicPolicy).evaluate
        platform request.userTask normalized request.observations = .ok deterministic ∧
      (deterministic.executionTarget=some .container → ∃ plan answer, d=.contained plan answer ∧
        plan.target=.container ∧ plan.sandboxProfile=deterministic.containerProfile)

section
variable {crypto : Crypto} {self : GuardedExecution crypto} {platform : Platform} {call : ToolCall}
  {userTask : String} {observations : List Observation}

/-- The policy's container is that of what all safeguards allow. -/
theorem Evaluated.contained {rewritten : Bool} {history : List ToolCall} {outputs : List Verdict}
    {consults : List Exchange} {merged : SupervisorOutput}
    (h : Evaluated self platform userTask observations history rewritten call outputs consults)
    (hm : mergeOutputs (outputs.map Verdict.output) = some merged) (ha : merged.decision=.allow) :
    ∃ normalized deterministic, self.compiled.normalizeRead crypto call = .ok normalized ∧
      (⟨self.policy, self.taskAuthority, history⟩ : DeterministicPolicy).evaluate platform userTask normalized
        observations = .ok deterministic ∧ (deterministic.executionTarget=some .container →
          merged.executionTarget=some .container ∧ merged.containerProfile=deterministic.containerProfile) := by
  obtain ⟨-, hall⟩ := mergeOutputs_allow hm ha
  have hplaces : ∀ {normalized : ToolCall} {granted deterministic : SupervisorOutput} {rest : List SupervisorOutput},
      Cleared self platform userTask observations history call normalized granted deterministic →
      deterministic.decision=.allow → mergeOutputs (granted :: deterministic :: rest) = some merged →
      deterministic.executionTarget=some .container →
        merged.executionTarget=some .container ∧ merged.containerProfile=deterministic.containerProfile := by
    intro normalized granted deterministic rest hcleared hd hmerged hc
    obtain ⟨rfl, -⟩ := CompiledAuthority.evaluate_allow hcleared.authority hcleared.allowed
    exact mergeOutputs_places hmerged ha rfl hc (DeterministicPolicy.evaluate_placed hcleared.policy hd hc)
  cases h with
  | withheld h =>
    have hd := hall _ (List.mem_singleton_self _)
    rw [hd] at h
    cases h
  | decided cleared _ => exact ⟨_, _, cleared.normal, cleared.policy, hplaces cleared (hall _ (by simp)) hm⟩
  | supervised cleared => exact ⟨_, _, cleared.normal, cleared.policy, hplaces cleared (hall _ (by simp)) hm⟩

/-- A call that the merged output places is planned so. -/
theorem Approval.placed {a : Approval} {merged : SupervisorOutput} (hm : a.merged=some merged)
    (hc : merged.executionTarget=some .container) : a.target=.container ∧ a.profile=merged.containerProfile := by
  obtain ⟨profile, hne, hp⟩ := merged.profiled hc
  constructor
  · simp [target, hm, hc]
  · simp [Approval.profile, hm, hp, hne]

/-- In a run, what the policy wants in a container is given to nothing but the sandbox. -/
theorem serve_contains (self : GuardedExecution crypto) (platform : Platform) (around : Surroundings)
    (database : Database) (requests : List CallRequest) :
    self.Contains platform requests (self.serve platform around database requests).log := by
  intro before d after call hsplit hd
  obtain ⟨earlier, request, later, rfl, now, a, plan, rfl, hquiet, hdispatched⟩ :=
    serve_dispatched self platform around database requests before d after hsplit (Exchange.isDispatched_of_dispatched hd)
  obtain ⟨consults, happroved, -⟩ := hdispatched.approved
  obtain ⟨rewritten, outputs, asked, merged, hevaluated, hmerged, hallow, hm, -⟩ := happroved.safe
  obtain ⟨normalized, deterministic, hnormal, hpolicy, hplaces⟩ := hevaluated.contained hmerged hallow
  rw [hdispatched.bound, serve_history] at hpolicy
  obtain ⟨rfl, hplaced⟩ := hdispatched.placement hd
  refine ⟨request, by simp, normalized, deterministic, hnormal, ?_, fun hc => ?_⟩
  · rwa [List.filterMap_append, executed_nil hquiet, List.append_nil]
  · obtain ⟨htarget, hprofile⟩ := hplaces hc
    obtain ⟨hcontainer, hplanned⟩ := Approval.placed hm htarget
    rcases hplaced with ⟨hdefault, -⟩ | ⟨hplan, answer, rfl⟩
    · rw [hcontainer] at hdefault
      cases hdefault
    · exact ⟨plan, answer, rfl, hplan, (Approval.plan_ok hdispatched.planned).2.2.trans (hplanned.trans hprofile)⟩

end
end GuardedExecution
end TraceGuard
