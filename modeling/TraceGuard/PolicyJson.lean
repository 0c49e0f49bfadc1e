import TraceGuard.ControlJson

/-! The JSON of policies: their rules, drafts and versions. -/
namespace TraceGuard
open Json (Codec)

def PolicyStatus.value : PolicyStatus → String
  | draft => "draft"
  | pendingApproval => "pending_approval"
  | active => "active"
  | rolledBack => "rolled_back"

def PolicyStatus.codec : Codec PolicyStatus :=
  .named value [draft, pendingApproval, active, rolledBack] (by rintro ⟨⟩ <;> rfl)

def Decision.codec : Codec Decision :=
  .named value [allow, block, escalate, rewrite] (by rintro ⟨⟩ <;> rfl)

def ActionKind.codec : Codec ActionKind :=
  .named value [modelRequest, modelResponse, tool, memoryRead, memoryWrite, filesystem, executor, http]
    (by rintro ⟨⟩ <;> rfl)

/-- A `dict[str, Any]`. -/
def anyCodec : Codec (SortedMap String Json.Doc) := .map .doc

def optionalAny : Codec (Option (SortedMap String Json.Doc)) := anyCodec.option (by intro m h; cases h)

def optionalInstant : Codec (Option Instant) := instantCodec.option (by intro t h; cases h)

def optionalNat : Codec (Option Nat) := Codec.nat.option (by intro n h; cases h)

def optionalBool : Codec (Option Bool) := Codec.bool.option (by intro b h; cases h)

namespace RuleMatch

def optionalKind : Codec (Option ActionKind) := ActionKind.codec.option (by intro kind h; cases h)

def members (r : RuleMatch) : List (String × Json) :=
  [("kind", optionalKind.enc r.kind), ("operation", optionalText.enc r.operation),
    ("target_prefix", optionalText.enc r.targetPrefix),
    ("argument_equals", anyCodec.enc r.argumentEquals),
    ("contains_untrusted_instructions", optionalBool.enc r.containsUntrustedInstructions)]

def ofJson (v : Json) : Option RuleMatch := do
  let kind ← Codec.field "kind" optionalKind v
  let operation ← Codec.field "operation" optionalText v
  let targetPrefix ← Codec.field "target_prefix" optionalText v
  let argumentEquals ← Codec.field "argument_equals" anyCodec v
  let containsUntrustedInstructions ← Codec.field "contains_untrusted_instructions" optionalBool v
  some { kind, operation, targetPrefix, argumentEquals, containsUntrustedInstructions }

theorem ofJson_members (r : RuleMatch) : ofJson (Json.obj r.members).sorted = some r := by
  have hn : (r.members.map Prod.fst).Nodup := by
    simp only [members, List.map_cons, List.map_nil]
    decide
  unfold ofJson
  rw [Codec.field_read (a := r.kind) hn rfl, Codec.field_read (a := r.operation) hn rfl,
    Codec.field_read (a := r.targetPrefix) hn rfl, Codec.field_read (a := r.argumentEquals) hn rfl,
    Codec.field_read (a := r.containsUntrustedInstructions) hn rfl]
  rfl

def codec : Codec RuleMatch := ⟨fun r => .obj r.members, ofJson, ofJson_members⟩

end RuleMatch

namespace PolicyRule

/-- The payload that a rewrite rule needs. -/
instance (decision : Decision) (rewrite : Option (SortedMap String Json.Doc)) :
    Decidable (decision=.rewrite → ∃ payload, rewrite=some payload ∧ payload.entries≠[]) :=
  decidable_of_iff (decision=.rewrite → (rewrite.any fun payload => !payload.entries.isEmpty) = true)
    (by cases rewrite <;> simp)

/-- The scope that a rule needs whose decision can be cached. -/
instance (decision : Decision) (criteria : RuleMatch) (cacheEligible : Bool) :
    Decidable (cacheEligible = true → decision=.allow ∧ criteria.kind=some .http ∧
      (criteria.operation=some "GET" ∨ criteria.operation=some "HEAD") ∧
      ∃ scope≠"", criteria.targetPrefix=some scope) :=
  decidable_of_iff (cacheEligible = true → decision=.allow ∧ criteria.kind=some .http ∧
      (criteria.operation=some "GET" ∨ criteria.operation=some "HEAD") ∧
      (criteria.targetPrefix.any fun scope => scope≠"") = true)
    (by cases criteria.targetPrefix <;> simp)

def members (r : PolicyRule) : List (String × Json) :=
  [("rule_id", .str r.ruleId), ("name", .str r.name), ("priority", .int r.priority),
    ("match", RuleMatch.codec.enc r.criteria), ("decision", Decision.codec.enc r.decision),
    ("reason", .str r.reason), ("rewrite", optionalAny.enc r.rewrite),
    ("cache_eligible", .bool r.cacheEligible)]

def ofJson (v : Json) : Option PolicyRule := do
  let ruleId ← Codec.field "rule_id" .text v
  let name ← Codec.field "name" .text v
  let priority ← Codec.field "priority" .nat v
  let criteria ← Codec.field "match" RuleMatch.codec v
  let decision ← Codec.field "decision" Decision.codec v
  let reason ← Codec.field "reason" .text v
  let rewrite ← Codec.field "rewrite" optionalAny v
  let cacheEligible ← Codec.field "cache_eligible" .bool v
  if rewrites : decision=.rewrite → ∃ payload, rewrite=some payload ∧ payload.entries≠[] then
    if eligible : cacheEligible = true → decision=.allow ∧ criteria.kind=some .http ∧
        (criteria.operation=some "GET" ∨ criteria.operation=some "HEAD") ∧
        ∃ scope≠"", criteria.targetPrefix=some scope then
      some { ruleId, name, priority, criteria, decision, reason, rewrite, cacheEligible, rewrites, eligible }
    else none
  else none

theorem ofJson_members (r : PolicyRule) : ofJson (Json.obj r.members).sorted = some r := by
  have hn : (r.members.map Prod.fst).Nodup := by
    simp only [members, List.map_cons, List.map_nil]
    decide
  unfold ofJson
  rw [Codec.field_read (a := r.ruleId) hn rfl, Codec.field_read (a := r.name) hn rfl,
    Codec.field_read (a := r.priority) hn rfl, Codec.field_read (a := r.criteria) hn rfl,
    Codec.field_read (a := r.decision) hn rfl, Codec.field_read (a := r.reason) hn rfl,
    Codec.field_read (a := r.rewrite) hn rfl, Codec.field_read (a := r.cacheEligible) hn rfl]
  simp only [Option.bind_eq_bind, Option.bind_some]
  rw [dif_pos r.rewrites, dif_pos r.eligible]

def codec : Codec PolicyRule := ⟨fun r => .obj r.members, ofJson, ofJson_members⟩

end PolicyRule

namespace PolicyDraft

def members (d : PolicyDraft) : List (String × Json) :=
  [("name", .str d.name), ("rules", (Codec.list PolicyRule.codec).enc d.rules),
    ("default_decision", Decision.codec.enc d.defaultDecision)]

def ofJson (v : Json) : Option PolicyDraft := do
  let name ← Codec.field "name" .text v
  let rules ← Codec.field "rules" (.list PolicyRule.codec) v
  let defaultDecision ← Codec.field "default_decision" Decision.codec v
  if h : rules≠[] ∧ (rules.map PolicyRule.ruleId).Nodup ∧
      (defaultDecision=.block ∨ defaultDecision=.escalate) then
    some ⟨name, rules, defaultDecision, h.1, h.2.1, h.2.2⟩
  else none

theorem ofJson_members (d : PolicyDraft) : ofJson (Json.obj d.members).sorted = some d := by
  have hn : (d.members.map Prod.fst).Nodup := by
    simp only [members, List.map_cons, List.map_nil]
    decide
  unfold ofJson
  rw [Codec.field_read (a := d.name) hn rfl, Codec.field_read (a := d.rules) hn rfl,
    Codec.field_read (a := d.defaultDecision) hn rfl]
  simp only [Option.bind_eq_bind, Option.bind_some]
  rw [dif_pos ⟨d.nonempty, d.distinct, d.withholds⟩]

def codec : Codec PolicyDraft := ⟨fun d => .obj d.members, ofJson, ofJson_members⟩

end PolicyDraft

namespace PolicyVersion

def members (p : PolicyVersion) : List (String × Json) :=
  [("policy_id", .str p.policyId), ("tenant_id", .str p.tenantId), ("version", .int p.version),
    ("draft", PolicyDraft.codec.enc p.draft), ("status", PolicyStatus.codec.enc p.status),
    ("created_by", .str p.createdBy), ("approved_by", optionalText.enc p.approvedBy),
    ("activated_at", optionalInstant.enc p.activatedAt), ("created_at", instantCodec.enc p.createdAt)]

def ofJson (v : Json) : Option PolicyVersion := do
  let policyId ← Codec.field "policy_id" .text v
  let tenantId ← Codec.field "tenant_id" .text v
  let version ← Codec.field "version" .nat v
  let draft ← Codec.field "draft" PolicyDraft.codec v
  let status ← Codec.field "status" PolicyStatus.codec v
  let createdBy ← Codec.field "created_by" .text v
  let approvedBy ← Codec.field "approved_by" optionalText v
  let activatedAt ← Codec.field "activated_at" optionalInstant v
  let createdAt ← Codec.field "created_at" instantCodec v
  some { policyId, tenantId, version, draft, status, createdBy, approvedBy, activatedAt, createdAt }

theorem ofJson_members (p : PolicyVersion) : ofJson (Json.obj p.members).sorted = some p := by
  have hn : (p.members.map Prod.fst).Nodup := by
    simp only [members, List.map_cons, List.map_nil]
    decide
  unfold ofJson
  rw [Codec.field_read (a := p.policyId) hn rfl, Codec.field_read (a := p.tenantId) hn rfl,
    Codec.field_read (a := p.version) hn rfl, Codec.field_read (a := p.draft) hn rfl,
    Codec.field_read (a := p.status) hn rfl, Codec.field_read (a := p.createdBy) hn rfl,
    Codec.field_read (a := p.approvedBy) hn rfl, Codec.field_read (a := p.activatedAt) hn rfl,
    Codec.field_read (a := p.createdAt) hn rfl]
  rfl

def codec : Codec PolicyVersion := ⟨fun p => .obj p.members, ofJson, ofJson_members⟩

end PolicyVersion
end TraceGuard
