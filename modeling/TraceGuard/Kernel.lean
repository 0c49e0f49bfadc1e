import TraceGuard.AuthorityJson
import TraceGuard.Research
import TraceGuard.Signing

/-! Strict grants: what makes one valid, which fields of a call it leaves open, and the
compiled form in which every call is evaluated. -/
namespace TraceGuard
open SecurityDescriptors (fieldsOf generatableFields)

instance elements_lawful : LawfulBEq (Option String) := inferInstance

/-- `set(value)` of a JSON value; `none` stands for an element that is no text. -/
def elementsOf : Json → Except PyError (List (Option String))
  | .obj members => .ok (members.map fun m => some m.1)
  | .arr items =>
    if items.any fun item => item matches .arr _ | .obj _ then .error .type
    else .ok (items.map fun
      | .str text => some text
      | _ => none)
  | .str text => .ok (text.toList.map fun c => some (String.ofList [c]))
  | _ => .error .type

def Schema.properties (schema : Schema) : Option Json :=
  match schema.get? "properties" with
  | some ⟨.null, _⟩ | none => none
  | some doc => some doc.val

namespace TaskAuthority
variable (a : TaskAuthority) (tool : String)

/-- The fields that each kind of grant names for a tool. -/
def groups : List (List String) :=
  [(a.valuesOf tool).keys, (a.resourcesOf tool).keys, (a.delegatedOf tool).keys, a.generatedOf tool]

/-- No two kinds of grant name one field. -/
def disjoint : Bool :=
  (a.groups tool).Pairwise fun fields fields' => ∀ field∈fields, field∉fields'

/-- The fields a grant names are fields of the tool's schema. -/
def covered (schemas : Option Schemas) : Except PyError Bool :=
  match ((schemas.bind fun s => s.get? tool).bind Schema.properties) with
  | none => .ok true
  | some properties => do
    let names ← elementsOf properties
    .ok ((a.groups tool).flatten.all fun field =>
      field="requested_resources" || some field∈names)

def configured : List String :=
  a.argumentValues.keys++a.resourceValues.keys++a.delegatedFields.keys++a.generatedFields.keys

def validateTools (schemas : Option Schemas) : List String → Except PyError Unit
  | [] => .ok ()
  | tool :: tools => do
    if !a.disjoint tool then
      throw (.value "a field cannot have conflicting authority definitions")
    if !(← a.covered tool schemas) then
      throw (.value "grant names fields absent from the tool schema")
    validateTools schemas tools

/-- `validate_authority`; a `ValueError` names what is wrong. -/
def validate (schemas : Option Schemas) : Except PyError Unit := do
  if a.enforcementMode≠.strict then
    throw (.value "strict authority must explicitly select strict enforcement")
  match a.allowedTools with
  | none => throw (.value "strict authority requires an explicit tool allowlist")
  | some tools =>
    if !a.configured.all (·∈tools) then
      throw (.value "constraints refer to tools outside the grant")
    if !(match schemas with
        | some schemas => tools.all (·∈schemas.keys)
        | none => true) then
      throw (.value "grant refers to unavailable tool schemas")
    if !a.repeatableTools.all (·∈tools) then
      throw (.value "repeat exceptions refer to tools outside the grant")
    if !a.generatedFields.entries.all fun e =>
        e.2.all fun field => field∈fieldsOf generatableFields e.1 then
      throw (.value "generated fields cannot carry recipients, objects, commands or budgets")
    validateTools a schemas tools

end TaskAuthority

/-- The optional email fields whose empty values have no effect. -/
def emailOptional (call : ToolCall) (field : String) : Bool :=
  call.toolName="send_email" && field∈["cc", "bcc", "attachments"] &&
    match (call.arguments.get field).getD .null with
    | .null | .arr [] | .obj [] => true
    | _ => false

/-- The consequential fields of a call that no grant names. -/
def ungrantedFields (call : ToolCall) (authority : TaskAuthority) (effect : Effect) : List String :=
  let explicit := (authority.groups call.toolName).flatten++
    (if authority.maxAmount.isSome && call.toolName∈paymentTools then ["amount"] else [])
  let fields := (if effect=.mutate ∨ effect=.command then call.arguments.keys else [])++
    (if call.requestedResources=[] then [] else ["requested_resources"])
  fields.filter fun field => !emailOptional call field && field∉explicit

namespace Authority
variable (platform : Platform) (goal : String) (call : ToolCall) (observations : List Observation)
  (authority : TaskAuthority) (previousCalls : List ToolCall)

def strictGrant : Check :=
  if authority.enforcementMode=.strict then
    match authority.validate none with
    | .ok () => Check.pass
    | .error (.value _) => Check.deny (output .escalate "invalid-strict-grant"
        "Strict grant is incomplete or invalid.")
    | .error e => .error e
  else Check.pass

/-- The last check: under a strict grant nothing is left open; otherwise the research rules. -/
def strictFields : Check :=
  if authority.enforcementMode=.strict then do
    let missing := ungrantedFields call authority (← toolEffect call)
    if missing≠[] then
      Check.deny (output .escalate "strict-ungranted-fields"
        ("Consequential fields lack explicit authority: "++", ".intercalate (sortedSet missing)))
    else if unresolvedAmount call authority then
      Check.deny (output .escalate "unresolved-amount" "Payment amount needs explicit scope.")
    else Check.pass
  else research platform goal call authority

/-- The checks in the order in which they are made. -/
def checks : List Check :=
  [duplicateMutation call previousCalls authority, effectKnown call, harmless call,
    allowed call authority, strictGrant authority, argumentsMatch call authority]++
  (authority.delegatedOf call.toolName).entries.map (fun e => delegated call observations e.1 e.2)++
  (resourceFields call authority).map (resource call authority)++
  [sensitiveRead call authority, payment call, budget platform call authority previousCalls,
    disclosure call authority, email platform call authority, paths platform call,
    strictFields platform goal call authority]

end Authority

/-- `check_authority`: the first denial, or nothing when the call is within the authority. -/
def checkAuthority (platform : Platform) (goal : String) (call : ToolCall)
    (observations : List Observation) (authority : TaskAuthority)
    (previousCalls : List ToolCall) : Check :=
  firstDenial (Authority.checks platform goal call observations authority previousCalls)

end TraceGuard
