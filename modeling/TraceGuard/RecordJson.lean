import TraceGuard.PolicyJson

/-! The JSON of the other records of a control plane, as its storage writes and reads them. -/
namespace TraceGuard
open Json (Codec)

/-- An instant as `isoformat()` writes it and `fromisoformat` reads it. -/
def isoCodec : Codec Instant where
  enc t := .str ((Datetime.utc t).text false)
  dec
    | .str s => (Datetime.ofText s).bind Datetime.instant
    | _ => none
  read t := by
    simp only [Json.sorted, Datetime.ofText_text, Option.bind_some]
    exact Datetime.instant_utc t

namespace DecisionResponse

def members (d : DecisionResponse) : List (String × Json) :=
  [("decision", Decision.codec.enc d.decision), ("reason", .str d.reason),
    ("policy_id", optionalText.enc d.policyId), ("policy_version", optionalNat.enc d.policyVersion),
    ("audit_id", .str d.auditId), ("review_id", optionalText.enc d.reviewId),
    ("rewritten_arguments", optionalAny.enc d.rewrittenArguments),
    ("from_cache", .bool d.fromCache), ("action_digest", optionalText.enc d.actionDigest)]

def ofJson (v : Json) : Option DecisionResponse := do
  let decision ← Codec.field "decision" Decision.codec v
  let reason ← Codec.field "reason" .text v
  let policyId ← Codec.field "policy_id" optionalText v
  let policyVersion ← Codec.field "policy_version" optionalNat v
  let auditId ← Codec.field "audit_id" .text v
  let reviewId ← Codec.field "review_id" optionalText v
  let rewrittenArguments ← Codec.field "rewritten_arguments" optionalAny v
  let fromCache ← Codec.field "from_cache" .bool v
  let actionDigest ← Codec.field "action_digest" optionalText v
  some { decision, reason, policyId, policyVersion, auditId, reviewId, rewrittenArguments, fromCache,
         actionDigest }

theorem ofJson_members (d : DecisionResponse) : ofJson (Json.obj d.members).sorted = some d := by
  have hn : (d.members.map Prod.fst).Nodup := by
    simp only [members, List.map_cons, List.map_nil]
    decide
  unfold ofJson
  rw [Codec.field_read (a := d.decision) hn rfl, Codec.field_read (a := d.reason) hn rfl,
    Codec.field_read (a := d.policyId) hn rfl, Codec.field_read (a := d.policyVersion) hn rfl,
    Codec.field_read (a := d.auditId) hn rfl, Codec.field_read (a := d.reviewId) hn rfl,
    Codec.field_read (a := d.rewrittenArguments) hn rfl, Codec.field_read (a := d.fromCache) hn rfl,
    Codec.field_read (a := d.actionDigest) hn rfl]
  rfl

def codec : Codec DecisionResponse := ⟨fun d => .obj d.members, ofJson, ofJson_members⟩

end DecisionResponse

namespace Review

def statusCodec : Codec ReviewStatus :=
  .named ReviewStatus.value [.pending, .resolved, .expired] (by rintro ⟨⟩ <;> rfl)

def optionalResolution : Codec (Option ReviewResolution) :=
  optionalText.via (fun r => r.map ReviewResolution.value) (fun
    | some "ALLOW" => some (some .allow)
    | some "DENY" => some (some .deny)
    | some _ => none
    | none => some none) (by rintro (_ | ⟨⟨⟩⟩) <;> rfl)

def ofJson (v : Json) : Option Review := do
  let reviewId ← Codec.field "review_id" .text v
  let tenantId ← Codec.field "tenant_id" .text v
  let actionId ← Codec.field "action_id" .text v
  let auditId ← Codec.field "audit_id" .text v
  let expiresAt ← Codec.field "expires_at" instantCodec v
  let status ← Codec.field "status" statusCodec v
  let resolution ← Codec.field "resolution" optionalResolution v
  let resolvedBy ← Codec.field "resolved_by" optionalText v
  let reason ← Codec.field "reason" optionalText v
  let actionDigest ← Codec.field "action_digest" .text v
  let agentSubject ← Codec.field "agent_subject" .text v
  let serviceKeyId ← Codec.field "service_key_id" .text v
  let taskId ← Codec.field "task_id" .text v
  let policyEpoch ← Codec.field "policy_epoch" .nat v
  let grantNonce ← Codec.field "grant_nonce" optionalText v
  if positive : 1≤policyEpoch then
    some { reviewId, tenantId, actionId, auditId, expiresAt, status, resolution, resolvedBy, reason,
           actionDigest, agentSubject, serviceKeyId, taskId, policyEpoch, positive, grantNonce }
  else none

theorem ofJson_members (r : Review) : ofJson (Json.obj r.members).sorted = some r := by
  have hn : (r.members.map Prod.fst).Nodup := by
    simp only [members, List.map_cons, List.map_nil]
    decide
  unfold ofJson
  rw [Codec.field_read (a := r.reviewId) hn rfl, Codec.field_read (a := r.tenantId) hn rfl,
    Codec.field_read (a := r.actionId) hn rfl, Codec.field_read (a := r.auditId) hn rfl,
    Codec.field_read (a := r.expiresAt) hn rfl, Codec.field_read (a := r.status) hn rfl,
    Codec.field_read (a := r.resolution) hn rfl, Codec.field_read (a := r.resolvedBy) hn rfl,
    Codec.field_read (a := r.reason) hn rfl, Codec.field_read (a := r.actionDigest) hn rfl,
    Codec.field_read (a := r.agentSubject) hn rfl, Codec.field_read (a := r.serviceKeyId) hn rfl,
    Codec.field_read (a := r.taskId) hn rfl, Codec.field_read (a := r.policyEpoch) hn rfl,
    Codec.field_read (a := r.grantNonce) hn rfl]
  simp only [Option.bind_eq_bind, Option.bind_some]
  rw [dif_pos r.positive]

def codec : Codec Review := ⟨fun r => .obj r.members, ofJson, ofJson_members⟩

end Review

namespace AuditEvent

def members (e : AuditEvent) : List (String × Json) := ("event_hash", .str e.eventHash) :: e.bodyMembers

def ofJson (v : Json) : Option AuditEvent := do
  let eventHash ← Codec.field "event_hash" .text v
  ofBody eventHash v

theorem ofJson_members (e : AuditEvent) : ofJson (Json.obj e.members).sorted = some e := by
  have hn : (e.members.map Prod.fst).Nodup := by
    simp only [members, bodyMembers, List.map_cons, List.map_nil]
    decide
  have hhash : e.members.lookup "event_hash" = some (Codec.text.enc e.eventHash) := by
    rw [members, List.lookup_cons_self]
    rfl
  have hrest : ∀ key≠"event_hash", e.members.lookup key = e.bodyMembers.lookup key := fun key hkey => by
    rw [members, List.lookup_cons, beq_false_of_ne hkey]
  unfold ofJson
  rw [Codec.field_read hn hhash]
  simp only [Option.bind_eq_bind, Option.bind_some]
  exact e.ofBody_members hn hrest

def codec : Codec AuditEvent := ⟨fun e => .obj e.members, ofJson, ofJson_members⟩

end AuditEvent

/-- A receipt with its key, as an array. -/
def receiptCodec : Codec (List String × DecisionReceipt) where
  enc e := .arr [texts.enc e.1, .str e.2.digest, .int e.2.epoch, isoCodec.enc e.2.expiresAt,
    DecisionResponse.codec.enc e.2.result]
  dec
    | .arr [key, digest, epoch, expires, result] => do
      let key ← texts.dec key
      let digest ← Codec.text.dec digest
      let epoch ← Codec.nat.dec epoch
      let expiresAt ← isoCodec.dec expires
      let result ← DecisionResponse.codec.dec result
      some (key, { digest, epoch, expiresAt, result })
    | _ => none
  read e := by
    have hepoch := Codec.nat.read e.2.epoch
    simp only [Json.sorted, Json.sortedItems] at hepoch ⊢
    rw [texts.read, isoCodec.read, DecisionResponse.codec.read]
    simp only [Codec.text, Option.bind_eq_bind, Option.bind_some]
    rw [show Codec.nat.dec (.int e.2.epoch) = some e.2.epoch from hepoch]
    rfl

namespace CompiledAuthority

def members (c : CompiledAuthority) : List (String × Json) :=
  [("scope_json", .str c.scopeJson), ("schemas_json", .str c.schemasJson), ("digest", .str c.digest)]

def ofJson (v : Json) : Option CompiledAuthority := do
  let scopeJson ← Codec.field "scope_json" .text v
  let schemasJson ← Codec.field "schemas_json" .text v
  let digest ← Codec.field "digest" .text v
  some { scopeJson, schemasJson, digest }

theorem ofJson_members (c : CompiledAuthority) : ofJson (Json.obj c.members).sorted = some c := by
  have hn : (c.members.map Prod.fst).Nodup := by
    simp only [members, List.map_cons, List.map_nil]
    decide
  unfold ofJson
  rw [Codec.field_read (a := c.scopeJson) hn rfl, Codec.field_read (a := c.schemasJson) hn rfl,
    Codec.field_read (a := c.digest) hn rfl]
  rfl

def codec : Codec CompiledAuthority := ⟨fun c => .obj c.members, ofJson, ofJson_members⟩

end CompiledAuthority

namespace RegisteredTask

def members (t : RegisteredTask) : List (String × Json) :=
  [("principal", .str t.principal), ("credential", .str t.credential),
    ("compiled", CompiledAuthority.codec.enc t.compiled), ("adapter_digest", .str t.adapterDigest),
    ("execution_domain", .str t.executionDomain)]

/-- A task stored before there were domains has none. -/
def ofJson (v : Json) : Option RegisteredTask := do
  let principal ← Codec.field "principal" .text v
  let credential ← Codec.field "credential" .text v
  let compiled ← Codec.field "compiled" CompiledAuthority.codec v
  let adapterDigest ← Codec.field "adapter_digest" .text v
  let executionDomain ← match v.member "execution_domain" with
    | some domain => Codec.text.dec domain
    | none => some ""
  some { principal, credential, compiled, adapterDigest, executionDomain }

theorem ofJson_members (t : RegisteredTask) : ofJson (Json.obj t.members).sorted = some t := by
  have hn : (t.members.map Prod.fst).Nodup := by
    simp only [members, List.map_cons, List.map_nil]
    decide
  have hdomain : (Json.obj t.members).sorted.member "execution_domain" = some (.str t.executionDomain) :=
    (Json.member_sorted hn _).trans rfl
  unfold ofJson
  rw [Codec.field_read (a := t.principal) hn rfl, Codec.field_read (a := t.credential) hn rfl,
    Codec.field_read (a := t.compiled) hn rfl, Codec.field_read (a := t.adapterDigest) hn rfl, hdomain]
  rfl

def codec : Codec RegisteredTask := ⟨fun t => .obj t.members, ofJson, ofJson_members⟩

/-- A task with its key, as an array. -/
def entryCodec : Codec (List String × RegisteredTask) where
  enc e := .arr [texts.enc e.1, codec.enc e.2]
  dec
    | .arr [key, task] => do
      let key ← texts.dec key
      let task ← codec.dec task
      some (key, task)
    | _ => none
  read e := by
    simp only [Json.sorted, Json.sortedItems]
    rw [texts.read, codec.read]
    rfl

end RegisteredTask
end TraceGuard
