import TraceGuard.ExecutionAuthority
import TraceGuard.PolicyJson

/-! Signed policy bundles: what the control plane signs for an agent, and the cache in which the
agent keeps one for the time that the service cannot be reached. -/
namespace TraceGuard
open Json (Codec)
open Stateful

def Datetime.codec : Codec Datetime :=
  Codec.text.via (Datetime.text true) Datetime.ofText (Datetime.ofText_text true)

structure SignedPolicyBundle where
  tenantId : String
  policy : PolicyVersion
  issuedAt : Datetime
  expiresAt : Datetime
  keyId : String
  signature : String
  audience : String
  serviceKeyId : String
  policyEpoch : Nat
  positive : 1≤policyEpoch

namespace SignedPolicyBundle

/-- `model_dump(mode="json", exclude={"signature"})`. -/
def unsignedMembers (b : SignedPolicyBundle) : List (String × Json) :=
  [("tenant_id", .str b.tenantId), ("policy", PolicyVersion.codec.enc b.policy),
    ("issued_at", Datetime.codec.enc b.issuedAt), ("expires_at", Datetime.codec.enc b.expiresAt),
    ("key_id", .str b.keyId), ("algorithm", .str "Ed25519"), ("audience", .str b.audience),
    ("service_key_id", .str b.serviceKeyId), ("policy_epoch", .int b.policyEpoch)]

def unsigned (b : SignedPolicyBundle) : Json := .obj b.unsignedMembers

def members (b : SignedPolicyBundle) : List (String × Json) :=
  b.unsignedMembers++[("signature", .str b.signature)]

def ofJson (v : Json) : Option SignedPolicyBundle := do
  let tenantId ← Codec.field "tenant_id" .text v
  let policy ← Codec.field "policy" PolicyVersion.codec v
  let issuedAt ← Codec.field "issued_at" Datetime.codec v
  let expiresAt ← Codec.field "expires_at" Datetime.codec v
  let keyId ← Codec.field "key_id" .text v
  let signature ← Codec.field "signature" .text v
  let algorithm ← Codec.field "algorithm" .text v
  let audience ← Codec.field "audience" .text v
  let serviceKeyId ← Codec.field "service_key_id" .text v
  let policyEpoch ← Codec.field "policy_epoch" .nat v
  if h : algorithm="Ed25519" ∧ 1≤policyEpoch then
    some { tenantId, policy, issuedAt, expiresAt, keyId, signature, audience, serviceKeyId,
           policyEpoch, positive := h.2 }
  else none

theorem ofJson_members (b : SignedPolicyBundle) : ofJson (Json.obj b.members).sorted = some b := by
  have hn : (b.members.map Prod.fst).Nodup := by
    simp only [members, unsignedMembers, List.cons_append, List.nil_append, List.map_cons,
      List.map_nil]
    decide
  unfold ofJson
  rw [Codec.field_read (a := b.tenantId) hn rfl, Codec.field_read (a := b.policy) hn rfl,
    Codec.field_read (a := b.issuedAt) hn rfl, Codec.field_read (a := b.expiresAt) hn rfl,
    Codec.field_read (a := b.keyId) hn rfl, Codec.field_read (a := b.signature) hn rfl,
    Codec.field_read (a := "Ed25519") hn rfl, Codec.field_read (a := b.audience) hn rfl,
    Codec.field_read (a := b.serviceKeyId) hn rfl, Codec.field_read (a := b.policyEpoch) hn rfl]
  simp only [Option.bind_eq_bind, Option.bind_some]
  rw [dif_pos ⟨trivial, b.positive⟩]

def codec : Codec SignedPolicyBundle := ⟨fun b => .obj b.members, ofJson, ofJson_members⟩

/-- What is written and signed can also be written with its signature. -/
theorem plain_members {b : SignedPolicyBundle} (h : b.unsigned.plain = true) :
    (codec.enc b).plain = true := by
  show Json.plainMembers b.members = true
  refine Json.plainMembers_iff.mpr fun m hm => ?_
  rcases List.mem_append.mp hm with hm | hm
  · exact Json.plainMembers_iff.mp h m hm
  · obtain rfl := List.mem_singleton.mp hm
    rfl

end SignedPolicyBundle

/-- The rules that a credential with these operations may cache: permissions for other operations
are left out. -/
def permitted (operations : List String) (rule : PolicyRule) : Bool :=
  rule.decision≠.allow || (match rule.criteria.operation with
    | some operation => operation∈operations
    | none => false)

/-- `policy.draft.rules = permitted`. -/
def PolicyDraft.restrict (d : PolicyDraft) (operations : List String) :
    Except ServiceError PolicyDraft :=
  if h : d.rules.filter (permitted operations) = [] then
    .error (.value "no policy within credential operation scope")
  else .ok { d with
    rules := d.rules.filter (permitted operations)
    nonempty := h
    distinct := d.distinct.sublist (List.filter_sublist.map _) }

/-- The policy that an agent's bundle holds. -/
def bundlePolicy (s : ControlState) (tenant : String) (actor : Actor) :
    Except ServiceError PolicyVersion :=
  match s.activePolicy tenant with
  | none => .error (.value "no active policy")
  | some policy =>
    match actor.allowedOperations with
    | none => .ok policy
    | some operations => do
      let draft ← policy.draft.restrict operations
      .ok { policy with draft := draft }

/-- The key of a control plane's policies. -/
structure PolicySigner where
  seed : String
  keyId : String

namespace ControlPlane
variable (world : World)

def draftBundle (s : ControlState) (signer : PolicySigner) (tenant : String) (actor : Actor)
    (credential : String) (ttl : Nat) (policy : PolicyVersion) (issuedAt : Instant) :
    Except ServiceError SignedPolicyBundle :=
  match s.epochs.get? tenant with
  | none => .error (.key tenant)
  | some epoch =>
    if h : 1≤epoch then .ok {
      tenantId := tenant
      policy := policy
      issuedAt := .utc issuedAt
      expiresAt := .utc (issuedAt.later ttl)
      keyId := signer.keyId
      signature := ""
      audience := actor.subject
      serviceKeyId := credential
      policyEpoch := epoch
      positive := h }
    else .error (.value "policy_epoch must be at least 1")

/-- `sign(unsigned)`. -/
def signBundle (signer : PolicySigner) (bundle : SignedPolicyBundle) :
    Except ServiceError SignedPolicyBundle :=
  match canonical bundle.unsigned with
  | none => .error (.value "Out of range float values are not JSON compliant")
  | some message => .ok { bundle with signature := world.crypto.sign signer.seed message }

/-- `signed_bundle`; the lifetime in microseconds. -/
def signedBundle (signer : PolicySigner) (tenant : String) (actor : Actor) (ttl : Int) :
    Operation SignedPolicyBundle := do
  let (credential, policy) ← inspect fun s => do
    s.require actor .agent tenant
    match actor.serviceKeyId with
    | none => throw (.authorization "bundle requires a scoped service credential")
    | some credential =>
      if ¬(0<ttl ∧ ttl ≤ seconds 300) then
        throw (.value "offline bundle TTL must be within five minutes")
      let policy ← bundlePolicy s tenant actor
      return (credential, policy)
  let issuedAt ← now world
  inspect fun s => do
    let bundle ← draftBundle s signer tenant actor credential ttl.toNat policy issuedAt
    signBundle world signer bundle

end ControlPlane

/-- `SignedPolicyCache`; the bundle is kept as text. -/
structure SignedPolicyCache where
  publicKey : String
  tenantId : String
  audience : String
  serviceKeyId : String
  keyId : String := "development-ed25519-v1"
  minimumEpoch : Int := 0
  bundleJson : Option String := none

/-- `PolicyUnavailable`. -/
structure PolicyUnavailable where
  message : String
  deriving DecidableEq, Repr

namespace SignedPolicyCache
variable (world : World) (self : SignedPolicyCache)

/-- The bundle is for this cache, and not older than one that it had. -/
def addressed (bundle : SignedPolicyBundle) : Bool :=
  bundle.tenantId=self.tenantId && bundle.policy.tenantId=self.tenantId &&
  bundle.audience=self.audience && bundle.serviceKeyId=self.serviceKeyId &&
  bundle.policy.status=.active && decide (self.minimumEpoch ≤ bundle.policyEpoch)

/-- The bundle has begun, up to thirty seconds early, has not ended and lasts five minutes at most. -/
def lively (t : Instant) (bundle : SignedPolicyBundle) : Bool :=
  match bundle.issuedAt.moment, bundle.expiresAt.moment with
  | some issued, some expires =>
    decide ((t.micros : Int)<expires) && decide (issued ≤ (t.later (seconds 30)).micros) &&
      decide (0<expires-issued) && decide (expires-issued ≤ seconds 300)
  | _, _ => false

def install (t : Instant) (bundle : SignedPolicyBundle) :
    Except PolicyUnavailable SignedPolicyCache :=
  if bundle.keyId≠self.keyId ∨
      world.crypto.verifyValue self.publicKey bundle.unsigned bundle.signature = false then
    .error ⟨"policy bundle signature or key is invalid"⟩
  else if self.addressed bundle = false then
    .error ⟨"policy bundle audience, scope or epoch is invalid"⟩
  else if lively t bundle = false then
    .error ⟨"policy bundle lifetime is invalid or expired"⟩
  else .ok { self with
    bundleJson := Json.dumps modelStyle (SignedPolicyBundle.codec.enc bundle)
    minimumEpoch := bundle.policyEpoch }

/-- `SignedPolicyBundle.model_validate_json(self._bundle_json)`. -/
def bundle : Option SignedPolicyBundle := do
  let text ← self.bundleJson
  let value ← Json.loads text
  SignedPolicyBundle.codec.dec value

/-- A read without a body. -/
def readOnly (action : ActionRequest) : Bool :=
  action.kind=.http && action.operation∈["GET", "HEAD"] &&
    match action.arguments.get "json" with
    | none | some .null => true
    | some _ => false

def evaluate (t : Instant) (action : ActionRequest) : Except PolicyUnavailable DecisionResponse :=
  match self.bundle with
  | none => .error ⟨"no signed bundle is installed"⟩
  | some bundle =>
    if bundle.expiresAt.after t = false ∨ action.tenantId≠self.tenantId then
      .error ⟨"policy bundle has expired or tenant mismatches"⟩
    else if readOnly action = false then
      .error ⟨"offline authorization supports read-only HTTP only"⟩
    else match ControlPlane.selectRule world bundle.policy action with
    | some rule =>
      if rule.decision=.allow ∧ rule.cacheEligible = true then
        .ok {
          decision := .allow
          reason := "cached policy: "++rule.reason
          policyId := some bundle.policy.policyId
          policyVersion := some bundle.policy.version
          auditId := "cache-pending-reconciliation"
          fromCache := true
          actionDigest := some (world.crypto.actionDigest action) }
      else .error ⟨"cached policy cannot authorize this action"⟩
    | none => .error ⟨"cached policy cannot authorize this action"⟩

end SignedPolicyCache
end TraceGuard
