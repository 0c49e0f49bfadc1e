import TraceGuard.Noninterference
import TraceGuard.Policy

/-! Whether untrusted observations can only withhold. The command branch asks for the first
word of a command only when no untrusted observation is there; otherwise every command that is
not blocked goes to a container. -/
namespace TraceGuard
open Raising

/-- The second list is the first with untrusted observations added. -/
inductive AddsUntrusted : List Observation → List Observation → Prop where
  | nil : AddsUntrusted [] []
  | keep {obs : Observation} {xs ys : List Observation} (h : AddsUntrusted xs ys) :
      AddsUntrusted (obs :: xs) (obs :: ys)
  | add {obs : Observation} {xs ys : List Observation} (hu : obs.untrusted = true)
      (h : AddsUntrusted xs ys) : AddsUntrusted xs (obs :: ys)

theorem AddsUntrusted.sublist {xs ys : List Observation} (h : AddsUntrusted xs ys) :
    xs.Sublist ys := by
  induction h with
  | nil => exact List.Sublist.slnil
  | keep _ ih => exact ih.cons_cons _
  | add _ _ ih => exact ih.cons _

theorem AddsUntrusted.eq_of_none {xs ys : List Observation} (h : AddsUntrusted xs ys)
    (hnone : ys.filter Observation.untrusted = []) : xs=ys := by
  induction h with
  | nil => rfl
  | @keep obs _ _ _ ih =>
    rw [List.filter_cons] at hnone
    split at hnone
    · cases hnone
    · rw [ih hnone]
  | add hu =>
    rw [List.filter_cons, if_pos hu] at hnone
    cases hnone

namespace DeterministicPolicy
variable {policy : DeterministicPolicy} {platform : Platform} {userTask : String} {call : ToolCall}
  {observations observations' : List Observation} {out : SupervisorOutput}

/-- The first word of the command is one that the policy knows to contain or to simulate. -/
def KnownHead (policy : DeterministicPolicy) (platform : Platform) (call : ToolCall) : Prop :=
  ∃ head words, commandWords ((call.arguments.get "command").getD (.arr [])) = some (head :: words) ∧
    (folded platform policy.config.sandboxCommandTokens head = true ∨
      folded platform policy.config.benignCommandTokens head = true)

/-- The added observations are not what moves an unknown command to the container. -/
def Routed (policy : DeterministicPolicy) (platform : Platform) (call : ToolCall)
    (observations observations' : List Observation) : Prop :=
  call.toolName="restricted_command" → observations'.filter Observation.untrusted≠[] →
    observations.filter Observation.untrusted=[] → KnownHead policy platform call

theorem block_allow {rule : String} {risk : RiskLevel} : (policy.block rule risk).decision≠.allow := by
  simp [block]

theorem evaluateHead_allow {head : String}
    (hb : folded platform policy.config.blockedCommandTokens head = false) :
    (policy.evaluateHead platform call head).decision=.allow ↔
      folded platform policy.config.sandboxCommandTokens head = true ∨
        folded platform policy.config.benignCommandTokens head = true := by
  unfold evaluateHead
  rw [hb, if_neg (by decide)]
  split
  · rename_i hs
    simp [contained, hs]
  · rename_i hs
    split
    · rename_i hbenign
      simp [helpful, hbenign]
    · rename_i hbenign
      simp [helpful, hs, hbenign]

theorem evaluateUntrusted_allow {untrusted : List Observation} :
    (policy.evaluateUntrusted platform call untrusted).decision=.allow ↔
      ∀ obs∈untrusted, looksLikeInstruction platform obs.content = false := by
  unfold evaluateUntrusted
  split
  · rename_i h
    simpa [irrelevant] using h
  · rename_i h
    simpa [contained] using h

/-- An allowed command has passed the checks that do not look at the observations. -/
theorem evaluateCommand_allow
    (h : (policy.evaluateCommand platform call observations').decision=.allow) :
    ∃ head words, commandWords ((call.arguments.get "command").getD (.arr [])) = some (head :: words) ∧
      folded platform policy.config.blockedCommandTokens head = false ∧
      ∀ observations, policy.evaluateCommand platform call observations =
        match observations.filter Observation.untrusted with
        | [] => policy.evaluateHead platform call head
        | untrusted => policy.evaluateUntrusted platform call untrusted := by
  unfold evaluateCommand at h ⊢
  cases hw : commandWords ((call.arguments.get "command").getD (.arr [])) with
  | none =>
    rw [hw] at h
    exact absurd h block_allow
  | some words =>
    rw [hw] at h
    cases words with
    | nil => exact absurd h block_allow
    | cons head words =>
      dsimp only at h ⊢
      split at h
      · exact absurd h block_allow
      rename_i hlength
      split at h
      · exact absurd h block_allow
      rename_i hblocked
      split at h
      · exact absurd h block_allow
      rename_i hshell
      refine ⟨head, words, rfl, ?_, fun observations => ?_⟩
      · simp only [List.any_cons, Bool.or_eq_true, not_or] at hblocked
        simpa using hblocked.1
      · rw [if_neg hlength, if_neg hblocked]
        exact if_neg hshell

theorem evaluateCommand_withheld (ha : AddsUntrusted observations observations')
    (h : (policy.evaluateCommand platform call observations').decision=.allow) :
    (policy.evaluateCommand platform call observations).decision=.allow ↔
      (observations'.filter Observation.untrusted≠[] →
        observations.filter Observation.untrusted=[] → KnownHead policy platform call) := by
  obtain ⟨head, words, hwords, hblocked, heval⟩ := evaluateCommand_allow h
  have hknown : KnownHead policy platform call ↔
      folded platform policy.config.sandboxCommandTokens head = true ∨
        folded platform policy.config.benignCommandTokens head = true := by
    constructor
    · rintro ⟨head', words', hwords', hk⟩
      cases hwords.symm.trans hwords'
      exact hk
    · exact fun hk => ⟨head, words, hwords, hk⟩
  by_cases hnone : observations'.filter Observation.untrusted = []
  · rw [ha.eq_of_none hnone]
    simp [h, hnone]
  rw [heval] at h ⊢
  cases hobs : observations.filter Observation.untrusted with
  | nil =>
    dsimp only
    rw [evaluateHead_allow hblocked, hknown]
    simp [hnone]
  | cons obs rest =>
    cases hobs' : observations'.filter Observation.untrusted with
    | nil => exact absurd hobs' hnone
    | cons obs' rest' =>
      rw [hobs'] at h
      have hsub := (ha.sublist.filter Observation.untrusted).subset
      rw [hobs, hobs'] at hsub
      have hclean := evaluateUntrusted_allow.mp h
      simpa using evaluateUntrusted_allow.mpr fun o ho => hclean o (hsub ho)

/-- Without delegated fields the authority check does not look at the observations. -/
theorem checkTask_congr (hs : policy.taskAuthority.enforcementMode=.strict)
    (hd : (policy.taskAuthority.delegatedOf call.toolName).entries=[]) :
    policy.checkTask platform userTask call observations =
      policy.checkTask platform userTask call observations' := by
  refine congrArg firstDenial (Authority.checks_congr hs ?_)
  have hsources : policy.taskAuthority.delegatedSources call.toolName = [] := by
    simp [TaskAuthority.delegatedSources, SortedMap.values, hd]
  simp [hsources, contentsFrom]

/-- A call that is not a command is judged without the observations. -/
theorem evaluate_congr (hs : policy.taskAuthority.enforcementMode=.strict)
    (hd : (policy.taskAuthority.delegatedOf call.toolName).entries=[])
    (hc : call.toolName≠"restricted_command") :
    policy.evaluate platform userTask call observations =
      policy.evaluate platform userTask call observations' := by
  have htool : policy.evaluateTool platform call observations =
      policy.evaluateTool platform call observations' := by
    unfold evaluateTool
    rw [if_neg hc, if_neg hc]
  unfold evaluate
  rw [checkTask_congr hs hd, htool]

theorem evaluate_command (hc : call.toolName="restricted_command")
    (hs : policy.taskAuthority.enforcementMode=.strict)
    (hr : policy.evaluateRequestedResources platform userTask call = none)
    (hp : policy.checkTask platform userTask call observations = Check.pass) :
    policy.evaluate platform userTask call observations =
      .ok (policy.evaluateCommand platform call observations) := by
  have hmode : policy.taskAuthority.enforcementMode≠.research := by simp [hs]
  have htool : call.toolName∉["read_file", "write_report"] := by simp [hc]
  unfold evaluate evaluateTool
  rw [hr]
  dsimp only
  rw [if_neg hmode]
  dsimp only
  rw [if_neg htool, hp, if_pos hc]
  rfl

theorem evaluateResource_denies {resource : String}
    (h : policy.evaluateResource platform userTask call resource = some out) :
    out.decision≠.allow := by
  unfold evaluateResource at h
  dsimp only at h
  split at h
  · cases h
  split at h
  · cases h
    exact block_allow
  split at h
  · cases h
    exact block_allow
  split at h
  · cases h
    exact block_allow
  split at h
  · cases h
  split at h
  · cases h
    simp [escalate]
  split at h
  · cases h
    exact block_allow
  · cases h

theorem evaluateRequestedResources_denies
    (h : policy.evaluateRequestedResources platform userTask call = some out) :
    out.decision≠.allow := by
  unfold evaluateRequestedResources at h
  split at h
  · cases h
    exact block_allow
  split at h
  · cases h
    exact block_allow
  · obtain ⟨resource, -, hr⟩ := List.exists_of_findSome?_eq_some h
    exact evaluateResource_denies hr

theorem evaluate_command_allow (hc : call.toolName="restricted_command")
    (hs : policy.taskAuthority.enforcementMode=.strict)
    (h : policy.evaluate platform userTask call observations = .ok out) (ha : out.decision=.allow) :
    policy.evaluateRequestedResources platform userTask call = none ∧
      policy.checkTask platform userTask call observations = Check.pass ∧
      policy.evaluateCommand platform call observations = out := by
  have hr : policy.evaluateRequestedResources platform userTask call = none := by
    cases hr : policy.evaluateRequestedResources platform userTask call with
    | none => rfl
    | some denied =>
      unfold evaluate at h
      rw [hr] at h
      cases h
      exact absurd ha (evaluateRequestedResources_denies hr)
  have hp : policy.checkTask platform userTask call observations = Check.pass := by
    have hmode : policy.taskAuthority.enforcementMode≠.research := by simp [hs]
    have htool : call.toolName∉["read_file", "write_report"] := by simp [hc]
    unfold evaluate at h
    rw [hr] at h
    dsimp only at h
    rw [if_neg hmode] at h
    dsimp only at h
    rw [if_neg htool] at h
    obtain ⟨denied, hcheck, h⟩ := bind_ok h
    cases denied with
    | none => exact hcheck
    | some denial =>
      cases h
      rcases denial.denies with hd | hd <;> exact absurd (ha.symm.trans hd) (by decide)
  refine ⟨hr, hp, ?_⟩
  rw [evaluate_command hc hs hr hp] at h
  exact Except.ok.inj h

/-- Taking untrusted observations away from an allowed call leaves it allowed, except for a
command with an unknown first word when none remain. -/
theorem evaluate_untrusted_withheld (hs : policy.taskAuthority.enforcementMode=.strict)
    (hd : (policy.taskAuthority.delegatedOf call.toolName).entries=[])
    (hadds : AddsUntrusted observations observations')
    (h : policy.evaluate platform userTask call observations' = .ok out) (ha : out.decision=.allow) :
    (∃ out, policy.evaluate platform userTask call observations = .ok out ∧ out.decision=.allow) ↔
      Routed policy platform call observations observations' := by
  by_cases hc : call.toolName="restricted_command"
  · obtain ⟨hr, hp, hcommand⟩ := evaluate_command_allow hc hs h ha
    rw [checkTask_congr hs hd] at hp
    rw [evaluate_command hc hs hr hp]
    have hallow : (policy.evaluateCommand platform call observations').decision=.allow :=
      hcommand ▸ ha
    have hiff := evaluateCommand_withheld hadds hallow
    constructor
    · rintro ⟨out', hout, hallow'⟩
      cases hout
      exact fun _ => hiff.mp hallow'
    · exact fun hrouted => ⟨_, rfl, hiff.mpr (hrouted hc)⟩
  · rw [evaluate_congr hs hd hc]
    exact ⟨fun _ hc' => absurd hc' hc, fun _ => ⟨out, h, ha⟩⟩

/-! A command that the policy escalates, and allows once a web page has been read. -/

def sampleConfig : PolicyConfig where
  version := "2.0.0"
  allowedReadRoots := ["workspace", "inputs", "documents"]
  allowedWriteRoots := ["artifacts"]
  blockedCommandTokens := ["sudo", "rm"]
  blockedShellOperators := [">", "|", ";"]
  sandboxCommandTokens := ["python", "bash"]
  benignCommandTokens := ["echo", "date"]
  maxCommandLength := 500

def samplePolicy (program : String) : DeterministicPolicy where
  config := sampleConfig
  taskAuthority := {
    allowedTools := some ["restricted_command"]
    argumentValues := SortedMap.empty.insert "restricted_command"
      (SortedMap.empty.insert "command" (Json.Doc.of (.arr [.str program])))
    enforcementMode := .strict }
  previousCalls := []

def sampleCommand (program : String) : ToolCall where
  taskId := "task"
  stepId := 0
  toolName := "restricted_command"
  arguments := ⟨[("command", .arr [.str program])], by
    show ["command"].Nodup
    decide⟩
  callId := "call"

def samplePage : Observation where
  content := "The weather is fine."
  sourceType := "document"
  sourceId := "web"
  trust := .untrustedDocument
  observationId := "observation"

theorem evaluate_untrusted_unlocks : ∃ allowed escalated,
    AddsUntrusted [] [samplePage] ∧
    (samplePolicy "obscuretool").evaluate CompiledAuthority.samplePlatform "Run obscuretool"
      (sampleCommand "obscuretool") [samplePage] = .ok allowed ∧ allowed.decision=.allow ∧
    (samplePolicy "obscuretool").evaluate CompiledAuthority.samplePlatform "Run obscuretool"
      (sampleCommand "obscuretool") [] = .ok escalated ∧ escalated.decision=.escalate :=
  ⟨_, _, .add rfl .nil, rfl, rfl, rfl, rfl⟩

theorem evaluate_untrusted_withheld_sample : ∃ out,
    (samplePolicy "echo").evaluate CompiledAuthority.samplePlatform "Say hi" (sampleCommand "echo") [] =
      .ok out ∧ out.decision=.allow := by
  have hadds : AddsUntrusted [] [samplePage] := .add rfl .nil
  refine (evaluate_untrusted_withheld rfl rfl hadds rfl rfl).mpr ?_
  exact fun _ _ _ => ⟨"echo", [], rfl, Or.inr rfl⟩

end DeterministicPolicy
end TraceGuard
