import TraceGuard.CompiledAuthority

/-! Decisions of several safeguards: how they are combined, and what a rewritten call may
change of the call it replaces. -/
namespace TraceGuard
open Raising

def Decision.precedence : Decision → Nat
  | allow => 0
  | rewrite => 1
  | escalate => 2
  | block => 3

def RiskLevel.rank : RiskLevel → Nat
  | low => 0
  | medium => 1
  | high => 2
  | critical => 3

def Decision.withholds (decision : Decision) : Bool := decision=.block || decision=.escalate

/-- `max(items, key=key)`: the first of the greatest. -/
def firstMax {α : Type} (key : α → Nat) : α → List α → α
  | best, [] => best
  | best, item :: items => firstMax key (if key best<key item then item else best) items

/-- `max(enumerate(items), key=…)` with the index in the key: the last of the greatest. -/
def lastMax {α : Type} (key : α → Nat) : α → List α → α
  | best, [] => best
  | best, item :: items => lastMax key (if key item<key best then best else item) items

theorem firstMax_mem {α : Type} (key : α → Nat) (best : α) (items : List α) :
    firstMax key best items∈best :: items := by
  induction items generalizing best with
  | nil => simp [firstMax]
  | cons item items ih =>
    unfold firstMax
    split
    · exact List.mem_cons_of_mem _ (ih item)
    · exact (List.mem_cons.mp (ih best)).elim (fun he => List.mem_cons.mpr (Or.inl he))
        fun hm => List.mem_cons_of_mem _ (List.mem_cons_of_mem _ hm)

theorem lastMax_mem {α : Type} (key : α → Nat) (best : α) (items : List α) :
    lastMax key best items∈best :: items := by
  induction items generalizing best with
  | nil => simp [lastMax]
  | cons item items ih =>
    unfold lastMax
    split
    · exact (List.mem_cons.mp (ih best)).elim (fun he => List.mem_cons.mpr (Or.inl he))
        fun hm => List.mem_cons_of_mem _ (List.mem_cons_of_mem _ hm)
    · exact List.mem_cons_of_mem _ (ih item)

theorem le_lastMax {α : Type} (key : α → Nat) (best : α) (items : List α) :
    ∀ item∈best :: items, key item≤key (lastMax key best items) := by
  induction items generalizing best with
  | nil => simp [lastMax]
  | cons item items ih =>
    intro other hm
    unfold lastMax
    have h := ih (if key item<key best then best else item)
    simp only [List.mem_cons] at hm h
    rcases hm with rfl | rfl | hm
    · refine le_trans ?_ (h _ (Or.inl rfl))
      split <;> omega
    · refine le_trans ?_ (h _ (Or.inl rfl))
      split <;> omega
    · exact h other (Or.inr hm)

namespace SupervisorOutput

/-- An ALLOW that contradicts the rest of its output. -/
def inconsistent (out : SupervisorOutput) : Bool :=
  out.risk=.high || out.risk=.critical || out.policyViolation ||
    out.goalRelevance=.irrelevant || out.goalNecessity=.unnecessary

def enforceAllowInvariants (out : SupervisorOutput) : SupervisorOutput :=
  if out.decision=.allow && out.inconsistent then
    { out with
      decision := .escalate
      reason := "Inconsistent ALLOW requires review before execution."
      executionTarget := none
      containerProfile := none
      matchedRules := out.matchedRules++["execution-allow-invariant"]
      rewrites := by simp
      profiled := SupervisorOutput.unprofiled }
  else out

/-- `output.execution_target and output.container_profile`. -/
def contains (out : SupervisorOutput) : Bool :=
  out.executionTarget.isSome && (out.containerProfile.getD "")≠""

theorem enforceAllowInvariants_cases (out : SupervisorOutput) :
    (out.enforceAllowInvariants=out ∧ (out.decision=.allow → out.inconsistent = false)) ∨
      (out.decision=.allow ∧ out.enforceAllowInvariants.decision=.escalate) := by
  unfold enforceAllowInvariants
  split
  · rename_i h
    simp only [Bool.and_eq_true, decide_eq_true_eq] at h
    exact Or.inr ⟨h.1, rfl⟩
  · rename_i h
    refine Or.inl ⟨rfl, fun ha => ?_⟩
    simpa [ha] using h

end SupervisorOutput

/-- The strictest decision wins, the latest of equally strict ones; the risk is the greatest. -/
def mergeOutputs : List SupervisorOutput → Option SupervisorOutput
  | [] => none
  | first :: outputs =>
    let strictest := lastMax (fun out : SupervisorOutput => out.decision.precedence) first outputs
    let winner := { strictest with
      risk := (firstMax (fun out : SupervisorOutput => out.risk.rank) first outputs).risk }
    match (first :: outputs).filter SupervisorOutput.contains with
    | [] => some winner.enforceAllowInvariants
    | contained :: others =>
      if winner.decision.withholds then some winner.enforceAllowInvariants
      else
        let riskiest := firstMax (fun out : SupervisorOutput => out.risk.rank) contained others
        let placed := { winner with
          executionTarget := riskiest.executionTarget
          containerProfile := riskiest.containerProfile
          profiled := riskiest.profiled }
        some placed.enforceAllowInvariants

/-- A merged output follows one of the outputs, than which none is stricter; only an
inconsistent ALLOW becomes an ESCALATE. -/
theorem mergeOutputs_some {outputs : List SupervisorOutput} {merged : SupervisorOutput}
    (h : mergeOutputs outputs = some merged) : ∃ winner∈outputs,
      (∀ out∈outputs, out.decision.precedence≤winner.decision.precedence) ∧
      ((merged.decision=winner.decision ∧ merged.rewrittenCall=winner.rewrittenCall ∧
          (winner.decision=.allow → merged.inconsistent = false)) ∨
        (winner.decision=.allow ∧ merged.decision=.escalate)) := by
  cases outputs with
  | nil => cases h
  | cons first outputs =>
    refine ⟨_, lastMax_mem (fun out => out.decision.precedence) first outputs,
      le_lastMax (fun out : SupervisorOutput => out.decision.precedence) first outputs, ?_⟩
    -- whatever target and risk the winner is given, its decision is the strictest one's
    have follow (out : SupervisorOutput) (he : some out.enforceAllowInvariants = some merged)
        (hd : out.decision=(lastMax (fun out : SupervisorOutput => out.decision.precedence) first outputs).decision)
        (hr : out.rewrittenCall=
          (lastMax (fun out : SupervisorOutput => out.decision.precedence) first outputs).rewrittenCall) :
        (merged.decision=(lastMax (fun out : SupervisorOutput => out.decision.precedence) first outputs).decision ∧
            merged.rewrittenCall=
              (lastMax (fun out : SupervisorOutput => out.decision.precedence) first outputs).rewrittenCall ∧
            ((lastMax (fun out : SupervisorOutput => out.decision.precedence) first outputs).decision=.allow →
              merged.inconsistent = false)) ∨
          ((lastMax (fun out : SupervisorOutput => out.decision.precedence) first outputs).decision=.allow ∧
            merged.decision=.escalate) := by
      obtain rfl := Option.some.inj he
      rcases out.enforceAllowInvariants_cases with ⟨hsame, hok⟩ | ⟨ha, hesc⟩
      · rw [hsame]
        exact Or.inl ⟨hd, hr, fun ha => hok (hd.trans ha)⟩
      · exact Or.inr ⟨hd.symm.trans ha, hesc⟩
    unfold mergeOutputs at h
    dsimp only at h
    split at h
    · exact follow _ h rfl rfl
    · split at h
      · exact follow _ h rfl rfl
      · exact follow _ h rfl rfl

theorem mergeOutputs_isSome {outputs : List SupervisorOutput} (h : outputs≠[]) :
    ∃ merged, mergeOutputs outputs = some merged := by
  cases outputs with
  | nil => exact absurd rfl h
  | cons first outputs =>
    unfold mergeOutputs
    dsimp only
    split
    · exact ⟨_, rfl⟩
    · split <;> exact ⟨_, rfl⟩

theorem mergeOutputs_allow {outputs : List SupervisorOutput} {merged : SupervisorOutput}
    (h : mergeOutputs outputs = some merged) (ha : merged.decision=.allow) :
    merged.inconsistent = false ∧ ∀ out∈outputs, out.decision=.allow := by
  obtain ⟨winner, -, hmax, ⟨hd, -, hok⟩ | ⟨-, hesc⟩⟩ := mergeOutputs_some h
  · have hw : winner.decision=.allow := hd.symm.trans ha
    refine ⟨hok hw, fun out hm => ?_⟩
    have := hmax out hm
    rw [hw] at this
    cases hdec : out.decision with
    | allow => rfl
    | rewrite | escalate | block => simp [hdec, Decision.precedence] at this
  · rw [ha] at hesc
    cases hesc

theorem mergeOutputs_rewrite {outputs : List SupervisorOutput} {merged : SupervisorOutput}
    (h : mergeOutputs outputs = some merged) (hr : merged.decision=.rewrite) :
    ∃ out∈outputs, out.decision=.rewrite ∧ merged.rewrittenCall=out.rewrittenCall := by
  obtain ⟨winner, hm, -, ⟨hd, hc, -⟩ | ⟨-, hesc⟩⟩ := mergeOutputs_some h
  · exact ⟨winner, hm, hd.symm.trans hr, hc⟩
  · rw [hr] at hesc
    cases hesc

/-! Rewritten calls. -/

structure RewrittenToolCall where
  toolName : String
  arguments : Dict Json

/-- A response carries a call exactly when it rewrites. -/
structure SupervisorResponse where
  decision : Decision
  rewrittenCall : Option RewrittenToolCall
  payload : decision=.rewrite ↔ rewrittenCall.isSome = true

structure SupervisorRequest where
  userGoal : String
  proposedCall : ToolCall
  availableTools : Schemas := .empty
  taskAuthority : TaskAuthority
  observations : List Observation := []
  stepAlreadyRewritten : Bool := false
  enableRewrite : Bool := true

/-- `set(value if isinstance(value, list) else [value])`; lists and objects do not hash. -/
def hashedItems (value : Json) : Except PyError (List Json) :=
  let items := match value with
    | .arr items => items
    | value => [value]
  if items.any fun item => item matches .arr _ | .obj _ then .error .type else .ok items

/-- `new.issubset(old)`. -/
def subsetItems (new old : List Json) : Bool :=
  new.all fun item => old.any fun other => other.pyEq item

def ToolCall.argument (call : ToolCall) (field : String) : Option Json :=
  match call.arguments.get field with
  | none | some .null => none
  | some value => some value

def recipientFields : List String :=
  ["recipients", "to", "recipient", "participants", "requested_resources"]

/-- No field that names recipients gets one that it did not have. -/
def narrowsRecipients (proposed replacement : ToolCall) : List String → Except PyError Unit
  | [] => .ok ()
  | field :: fields => do
    match proposed.argument field, replacement.argument field with
    | some old, some new =>
      let old ← hashedItems old
      let new ← hashedItems new
      if !subsetItems new old then throw (.schema ("rewrite expands "++field))
    | _, _ => pure ()
    narrowsRecipients proposed replacement fields

/-- A read stays a read, and only a read may come from another tool. -/
def keepsEffects (proposed replacement : ToolCall) : Except PyError Unit := do
  if (← toolEffect proposed)=.read then
    if (← toolEffect replacement)≠.read then throw (.schema "rewrite expands tool effects")
  if replacement.toolName≠proposed.toolName then
    if (← toolEffect replacement)≠.read then
      throw (.schema "mutating rewrite cannot change tool family")

/-- `validate_rewrite_against_request`; a `SupervisorSchemaError` names what is wrong. -/
def validateRewriteAgainstRequest (platform : Platform) (response : SupervisorResponse)
    (request : SupervisorRequest) : Except PyError Unit := do
  if response.decision≠.rewrite then return
  match response.rewrittenCall with
  | none => throw (.schema "REWRITE response missing rewritten_call")
  | some rewritten =>
    if !request.enableRewrite then
      throw (.schema "REWRITE returned while rewriting is disabled")
    if request.stepAlreadyRewritten then
      throw (.schema "second rewrite for same logical step")
    match request.availableTools.get? rewritten.toolName with
    | none => throw (.schema ("rewritten tool does not exist: "++rewritten.toolName))
    | some schema =>
      let replacement := { request.proposedCall with
        toolName := rewritten.toolName
        arguments := rewritten.arguments }
      keepsEffects request.proposedCall replacement
      narrowsRecipients request.proposedCall replacement recipientFields
      match ← checkAuthority platform request.userGoal replacement request.observations
          request.taskAuthority [] with
      | some denied => throw (.schema ("rewrite violates authority: "++denied.reason))
      | none =>
        if !replacement.requestedResources.all (·∈request.proposedCall.requestedResources) then
          throw (.schema "rewrite expands requested resources")
        platform.validateArguments rewritten.arguments schema

/-- `validate_replacement`: what a proposal of any supervisor must satisfy. -/
def validateReplacement (platform : Platform) (original replacement : ToolCall) (goal : String)
    (observations : List Observation) (authority : TaskAuthority) (schemas : Schemas) :
    Except PyError Unit := do
  if replacement.callId≠original.callId ∨
      replacement.consumedObservationIds≠original.consumedObservationIds then
    throw (.schema "rewrite changes call identity or observation context")
  if replacement.taskId≠original.taskId ∨ replacement.stepId≠original.stepId then
    throw (.schema "rewrite changes task or logical step")
  if !replacement.requestedResources.all (·∈original.requestedResources) then
    throw (.schema "rewrite expands requested resources")
  validateRewriteAgainstRequest platform
    { decision := .rewrite
      rewrittenCall := some ⟨replacement.toolName, replacement.arguments⟩
      payload := by simp }
    { userGoal := goal
      proposedCall := original
      availableTools := schemas
      observations := observations
      taskAuthority := authority }

/-- The proposed call with another tool or other arguments. -/
def SupervisorRequest.replacement (request : SupervisorRequest) (rewritten : RewrittenToolCall) : ToolCall :=
  { request.proposedCall with
    toolName := rewritten.toolName
    arguments := rewritten.arguments }

/-- What a rewrite that a request admits has passed. -/
structure SupervisorRequest.Admits (platform : Platform) (request : SupervisorRequest)
    (rewritten : RewrittenToolCall) : Prop where
  enabled : request.enableRewrite = true
  first : request.stepAlreadyRewritten = false
  authority : checkAuthority platform request.userGoal (request.replacement rewritten)
    request.observations request.taskAuthority [] = Check.pass
  schema : ∃ schema, request.availableTools.get? rewritten.toolName = some schema ∧
    platform.validateArguments rewritten.arguments schema = .ok ()

theorem validateRewriteAgainstRequest_ok {platform : Platform} {response : SupervisorResponse}
    {request : SupervisorRequest} {rewritten : RewrittenToolCall}
    (h : validateRewriteAgainstRequest platform response request = .ok ())
    (hr : response.decision=.rewrite) (hw : response.rewrittenCall=some rewritten) :
    request.Admits platform rewritten := by
  unfold validateRewriteAgainstRequest at h
  rw [if_neg (not_not.mpr hr), hw] at h
  dsimp only at h
  obtain ⟨henabled, h⟩ := guard_ok h
  obtain ⟨hfirst, h⟩ := guard_ok h
  split at h
  · cases h
  rename_i schema hknown
  obtain ⟨_, -, h⟩ := bind_ok h
  obtain ⟨_, -, h⟩ := bind_ok h
  obtain ⟨denied, hdenied, h⟩ := bind_ok h
  split at h
  · cases h
  · exact ⟨by simpa using henabled, by simpa using hfirst, hdenied,
      schema, hknown, (guard_ok h).2⟩

/-- What an accepted replacement keeps of the call it replaces. -/
structure Replaces (platform : Platform) (schemas : Schemas) (original replacement : ToolCall) :
    Prop where
  callId : replacement.callId=original.callId
  observed : replacement.consumedObservationIds=original.consumedObservationIds
  taskId : replacement.taskId=original.taskId
  stepId : replacement.stepId=original.stepId
  resources : ∀ resource∈replacement.requestedResources, resource∈original.requestedResources
  schema : ∃ schema, schemas.get? replacement.toolName = some schema ∧
    platform.validateArguments replacement.arguments schema = .ok ()

theorem validateReplacement_ok {platform : Platform} {original replacement : ToolCall}
    {goal : String} {observations : List Observation} {authority : TaskAuthority}
    {schemas : Schemas} (h : validateReplacement platform original replacement goal observations
      authority schemas = .ok ()) : Replaces platform schemas original replacement := by
  unfold validateReplacement at h
  obtain ⟨hid, h⟩ := guard_ok h
  obtain ⟨htask, h⟩ := guard_ok h
  obtain ⟨hres, h⟩ := guard_ok h
  simp only [not_or, not_not, ne_eq] at hid htask
  simp only [Bool.not_eq_true, Bool.not_eq_false', List.all_eq_true, decide_eq_true_eq] at hres
  exact ⟨hid.1, hid.2, htask.1, htask.2, hres, (validateRewriteAgainstRequest_ok h rfl rfl).schema⟩

end TraceGuard
