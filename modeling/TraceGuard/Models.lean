import TraceGuard.Calendar
import TraceGuard.JsonCodec
import TraceGuard.Signing
import TraceGuard.Types

/-! The control plane's public contracts: actors, actions and execution grants, with the JSON
that digests and signatures are taken over. -/
namespace TraceGuard

inductive Role where
  | admin
  | approver
  | reviewer
  | auditor
  | agent
  | executor
  deriving DecidableEq, Repr

def Role.value : Role → String
  | admin => "admin"
  | approver => "approver"
  | reviewer => "reviewer"
  | auditor => "auditor"
  | agent => "agent"
  | executor => "executor"

inductive ActionKind where
  | modelRequest
  | modelResponse
  | tool
  | memoryRead
  | memoryWrite
  | filesystem
  | executor
  | http
  deriving DecidableEq, Repr

def ActionKind.value : ActionKind → String
  | modelRequest => "model_request"
  | modelResponse => "model_response"
  | tool => "tool"
  | memoryRead => "memory_read"
  | memoryWrite => "memory_write"
  | filesystem => "filesystem"
  | executor => "executor"
  | http => "http"

structure Actor where
  subject : String
  roles : List Role
  serviceKeyId : Option String := none
  tenantIds : List String := []
  allowedOperations : Option (List String) := none
  deriving DecidableEq, Repr

/-- Evidence is always untrusted. -/
structure Evidence where
  content : String := ""
  source : String
  containsInstructions : Bool := false
  deriving DecidableEq, Repr

def Evidence.dump (e : Evidence) : Json :=
  .obj [("content", .str e.content), ("source", .str e.source), ("untrusted", .bool true),
    ("contains_instructions", .bool e.containsInstructions)]

/-- A `dict[str, Any]` that `json.dumps(allow_nan=False)` accepts. -/
structure Arguments where
  members : List (String × Json)
  distinct : (members.map Prod.fst).Nodup
  plain : Json.plainMembers members = true

def Arguments.get (a : Arguments) (field : String) : Option Json := a.members.lookup field

def Arguments.json (a : Arguments) : Json := .obj a.members

def Arguments.empty : Arguments := ⟨[], List.nodup_nil, rfl⟩

structure ActionRequest where
  tenantId : String
  idempotencyKey : String
  taskId : String := "default"
  actionId : String
  kind : ActionKind
  operation : String
  target : Option String := none
  arguments : Arguments := .empty
  provenance : List String := []
  evidence : List Evidence := []

/-- An optional text in JSON. -/
def optional : Option String → Json
  | some text => .str text
  | none => .null

theorem optional_plain (text : Option String) : (optional text).plain = true := by
  cases text <;> rfl

namespace ActionRequest

/-- The dump without the action id, the request time and the idempotency key. -/
def payload (a : ActionRequest) : Json :=
  .obj [("tenant_id", .str a.tenantId), ("task_id", .str a.taskId), ("kind", .str a.kind.value),
    ("operation", .str a.operation), ("target", optional a.target),
    ("arguments", a.arguments.json), ("provenance", .arr (a.provenance.map .str)),
    ("evidence", .arr (a.evidence.map Evidence.dump))]

theorem payload_plain (a : ActionRequest) : a.payload.plain = true := by
  have hp : Json.plainItems (a.provenance.map Json.str) = true := by
    simp [Json.plainItems_iff, Json.plain]
  have he : Json.plainItems (a.evidence.map Evidence.dump) = true := by
    simp [Json.plainItems_iff, Json.plain, Json.plainMembers, Evidence.dump]
  simp [payload, Json.plain, Json.plainMembers, optional_plain, Arguments.json, a.arguments.plain,
    hp, he]

/-- `{"tool": …, "arguments": …, "target": …}`, what a reservation counts as one effect. -/
def effect (a : ActionRequest) : Json :=
  .obj [("tool", .str a.operation), ("arguments", a.arguments.json), ("target", optional a.target)]

theorem effect_plain (a : ActionRequest) : a.effect.plain = true := by
  simp [effect, Json.plain, Json.plainMembers, optional_plain, Arguments.json, a.arguments.plain]

end ActionRequest

/-- `hashlib.sha256(canonical(value)).hexdigest()` of a value that can be written. -/
def Crypto.digest (crypto : Crypto) (value : Json) : String :=
  crypto.sha256 (Json.text Json.compact value)

def Crypto.actionDigest (crypto : Crypto) (a : ActionRequest) : String := crypto.digest a.payload

def Crypto.effectDigest (crypto : Crypto) (a : ActionRequest) : String := crypto.digest a.effect

structure ExecutionGrant where
  nonce : String
  tenantId : String
  taskId : String
  agentSubject : String
  serviceKeyId : String
  audience : String
  executionDomain : String
  actionDigest : String
  authorityDigest : String
  adapterDigest : String
  policyId : String
  policyEpoch : Nat
  issuedAt : Datetime
  expiresAt : Datetime
  repeatable : Bool := false
  amount : String := "0"
  budgetLimit : Option String := none
  keyId : String
  signature : String
  deriving DecidableEq

namespace ExecutionGrant

/-- `model_dump(mode="json", exclude={"signature"})`. -/
def unsignedMembers (g : ExecutionGrant) : List (String × Json) :=
  [("nonce", .str g.nonce), ("tenant_id", .str g.tenantId), ("task_id", .str g.taskId),
    ("agent_subject", .str g.agentSubject), ("service_key_id", .str g.serviceKeyId),
    ("audience", .str g.audience), ("execution_domain", .str g.executionDomain),
    ("action_digest", .str g.actionDigest), ("authority_digest", .str g.authorityDigest),
    ("adapter_digest", .str g.adapterDigest), ("policy_id", .str g.policyId),
    ("policy_epoch", .int g.policyEpoch), ("issued_at", .str (g.issuedAt.text true)),
    ("expires_at", .str (g.expiresAt.text true)), ("repeatable", .bool g.repeatable),
    ("amount", .str g.amount), ("budget_limit", optional g.budgetLimit), ("key_id", .str g.keyId)]

def unsigned (g : ExecutionGrant) : Json := .obj g.unsignedMembers

def dump (g : ExecutionGrant) : Json := .obj (g.unsignedMembers++[("signature", .str g.signature)])

end ExecutionGrant
end TraceGuard
