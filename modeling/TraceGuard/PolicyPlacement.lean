import TraceGuard.Policy

/-! What the policy allows in a container is of medium risk, so nothing that merges to an ALLOW is riskier. -/
namespace TraceGuard
open Raising

/-- A container is for a call of medium risk. -/
def Placed (out : SupervisorOutput) : Prop := out.executionTarget=some .container → out.risk=.medium

theorem placed_none {out : SupervisorOutput} (h : out.executionTarget=none) : Placed out := by
  intro hc
  rw [h] at hc
  cases hc

namespace DeterministicPolicy
variable {self : DeterministicPolicy} {platform : Platform} {userTask : String} {call : ToolCall}
  {observations : List Observation} {out : SupervisorOutput}

theorem evaluateResource_placed {resource : String}
    (h : self.evaluateResource platform userTask call resource = some out) : Placed out := by
  unfold evaluateResource at h
  dsimp only at h
  split_ifs at h <;> cases h <;> exact placed_none rfl

theorem evaluateRequestedResources_placed (h : self.evaluateRequestedResources platform userTask call = some out) :
    Placed out := by
  unfold evaluateRequestedResources at h
  split_ifs at h
  · cases h
    exact placed_none rfl
  · cases h
    exact placed_none rfl
  · obtain ⟨resource, -, hresource⟩ := List.exists_of_findSome?_eq_some h
    exact evaluateResource_placed hresource

theorem evaluateGoalRelevance_placed (h : self.evaluateGoalRelevance platform userTask call = some out) :
    Placed out := by
  unfold evaluateGoalRelevance at h
  dsimp only at h
  split_ifs at h <;> cases h <;> exact placed_none rfl

theorem evaluateReadScope_placed {path : String} (h : self.evaluateReadScope platform userTask path = some out) :
    Placed out := by
  unfold evaluateReadScope at h
  dsimp only at h
  split_ifs at h <;> cases h <;> exact placed_none rfl

theorem evaluatePath_placed : Placed (self.evaluatePath platform userTask call) := by
  unfold evaluatePath
  dsimp only
  generalize (if decide (call.toolName="read_file") = true then self.config.allowedReadRoots
    else self.config.allowedWriteRoots)=roots
  generalize decide (call.toolName="read_file")=reads
  split
  · exact placed_none rfl
  split
  · exact placed_none rfl
  split
  · rename_i denied hdenied
    cases reads with
    | true => exact evaluateReadScope_placed hdenied
    | false => cases hdenied
  · split_ifs <;> exact placed_none rfl

theorem evaluateCommand_placed : Placed (self.evaluateCommand platform call observations) := by
  have hhead : ∀ head, Placed (self.evaluateHead platform call head) := by
    intro head
    unfold evaluateHead
    split
    · exact placed_none rfl
    split
    · exact fun _ => rfl
    split
    · intro h
      cases h
    · exact placed_none rfl
  have huntrusted : ∀ untrusted, Placed (self.evaluateUntrusted platform call untrusted) := by
    intro untrusted
    unfold evaluateUntrusted
    split
    · exact placed_none rfl
    · exact fun _ => rfl
  unfold evaluateCommand
  split
  · exact placed_none rfl
  · exact placed_none rfl
  · split
    · exact placed_none rfl
    split
    · exact placed_none rfl
    split
    · exact placed_none rfl
    split
    · exact hhead _
    · exact huntrusted _

theorem evaluateTool_placed (h : self.evaluateTool platform call observations = .ok out) : Placed out := by
  unfold evaluateTool at h
  split at h
  · cases h
    exact evaluateCommand_placed
  split at h
  · cases h
    unfold evaluateSearch
    dsimp only
    split <;> exact placed_none rfl
  split at h
  · cases h
    exact placed_none rfl
  split at h
  · obtain ⟨effect, -, h⟩ := bind_ok h
    split at h <;> cases h <;> exact placed_none rfl
  · cases h
    exact placed_none rfl

/-- What the policy allows in a container is of medium risk. -/
theorem evaluate_placed (h : self.evaluate platform userTask call observations = .ok out)
    (ha : out.decision=.allow) : Placed out := by
  have hdenied : ∀ denied : Denial, denied.toSupervisorOutput=out → Placed out := by
    rintro denied rfl
    rcases denied.denies with hd | hd
    · rw [hd] at ha
      cases ha
    · rw [hd] at ha
      cases ha
  unfold evaluate at h
  split at h
  · cases h
    exact evaluateRequestedResources_placed ‹_›
  split at h
  · rename_i denied hrelevance
    cases h
    split at hrelevance
    · exact evaluateGoalRelevance_placed hrelevance
    · cases hrelevance
  split at h
  · dsimp only at h
    split at h
    · obtain ⟨denied, -, h⟩ := bind_ok h
      split at h
      · cases h
        exact hdenied _ rfl
      · cases h
        exact evaluatePath_placed
    · cases h
      exact evaluatePath_placed
  · obtain ⟨denied, -, h⟩ := bind_ok h
    split at h
    · cases h
      exact hdenied _ rfl
    · exact evaluateTool_placed h

end DeterministicPolicy
end TraceGuard
