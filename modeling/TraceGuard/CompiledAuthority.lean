import TraceGuard.Raising
import TraceGuard.ReadResources

/-! The compiled authority: the texts of a valid strict scope and of its schemas. Evaluation
reads the texts back, so later changes of the scope object do not reach it. -/
namespace TraceGuard
open Raising

/-! Validation of arguments under a tool's schema. -/
namespace Platform
variable (platform : Platform)

def referenceKeywords : List String := ["$ref", "$dynamicRef", "$recursiveRef"]

mutual
/-- A reference that does not point into the schema itself. -/
def remoteRefs : Json → Bool
  | .obj members => (referenceKeywords.any fun keyword =>
      match members.lookup keyword with
      | some value => (platform.text value).toList.head? ≠ some '#'
      | none => false) || memberRefs members
  | .arr items => itemRefs items
  | _ => false
def itemRefs : List Json → Bool
  | [] => false
  | item :: items => remoteRefs item || itemRefs items
def memberRefs : List (String × Json) → Bool
  | [] => false
  | (_, item) :: members => remoteRefs item || memberRefs members
end

/-- `_validate_arguments_against_json_schema`. -/
def validateArguments (arguments : Dict Json) (schema : Schema) : Except PyError Unit := do
  let json : Json := .obj (schema.map Json.Doc.val).entries
  if platform.remoteRefs json then
    throw (.schema "external schema references are not supported")
  if !(← platform.validates json (.obj arguments.items)) then
    throw (.schema "tool arguments failed JSON schema validation")
  match schema.get? "properties" with
  | none => return
  | some doc =>
    if truthy doc.val then
      let names ← elementsOf doc.val
      if !arguments.keys.all fun key => some key∈names then
        throw (.schema "tool arguments contain unknown keys")

end Platform

structure CompiledAuthority where
  scopeJson : String
  schemasJson : String
  digest : String
  deriving DecidableEq, Repr

namespace CompiledAuthority

/-- `json.dumps` where a value that cannot be written raises. -/
def write (style : Json.Style) (value : Json) : Except PyError String :=
  match Json.dumps style value with
  | some text => .ok text
  | none => .error (.value "not a JSON value")

def compile (crypto : Crypto) (authority : TaskAuthority) (schemas : Schemas) :
    Except PyError CompiledAuthority := do
  authority.validate (some schemas)
  let scope ← write Json.compact (TaskAuthority.codec.enc authority)
  let schema ← write Json.spaced (Schemas.codec.enc schemas)
  let descriptors ← write Json.spaced SecurityDescriptors.json
  .ok ⟨scope, schema, crypto.sha256 (scope++schema++descriptors)⟩

/-- Read a text that a codec wrote. -/
def parse {α : Type} (codec : Json.Codec α) (text : String) : Except PyError α :=
  match (Json.loads text).bind codec.dec with
  | some value => .ok value
  | none => .error (.value "not a JSON value")

section
variable (self : CompiledAuthority)

def schemas : Except PyError Schemas := parse Schemas.codec self.schemasJson

def scope : Except PyError TaskAuthority := parse TaskAuthority.codec self.scopeJson

/-- A read call in its adapter's form; other calls as they are. -/
def normalizeRead (crypto : Crypto) (call : ToolCall) : Except PyError ToolCall := do
  match ← toolEffect call with
  | .read =>
    match (← self.schemas).get? call.toolName with
    | some schema => scopedReadCall crypto call schema
    | none => throw .key
  | _ => return call

def granted : SupervisorOutput :=
  output .allow "strict-compiled-grant" "Explicit field-complete grant permits this call." .low

def unreviewedRead : SupervisorOutput :=
  output .escalate "strict-unreviewed-read-adapter"
    "Read adapter/schema needs a reviewed resource mapping."

/-- A read call is checked in its adapter's form; `none` is an unreviewed one. -/
def readForm (crypto : Crypto) (call : ToolCall) (schema : Schema) :
    Except PyError (Option ToolCall) := do
  match ← toolEffect call with
  | .read =>
    match scopedReadCall crypto call schema with
    | .ok normalized => return some normalized
    | .error (.value _) => return none
    | .error e => throw e
  | _ => return some call

def evaluate (platform : Platform) (crypto : Crypto) (goal : String) (call : ToolCall)
    (observations : List Observation) (previousCalls : List ToolCall := []) :
    Except PyError SupervisorOutput := do
  match (← self.schemas).get? call.toolName with
  | none => return output .escalate "strict-unknown-schema" "Tool schema is unavailable."
  | some schema =>
    match platform.validateArguments call.arguments schema with
    | .error (.schema _) =>
      return output .escalate "strict-invalid-schema" "Arguments fail tool schema."
    | .error e => throw e
    | .ok () =>
      match ← readForm crypto call schema with
      | none => return unreviewedRead
      | some call =>
        let denied ← checkAuthority platform goal call observations (← self.scope) previousCalls
        return (denied.map Denial.toSupervisorOutput).getD granted

end

/-! Inversions. -/

theorem parse_write {α : Type} {codec : Json.Codec α} {style : Json.Style} {a : α} {text : String}
    (h : write style (codec.enc a) = .ok text) : parse codec text = .ok a := by
  unfold write at h
  split at h
  · rename_i written hd
    cases h
    rw [parse, Json.loads_dumps hd, Option.bind_some, codec.read]
  · cases h

/-- A compiled authority reads back as what was compiled. -/
theorem compile_ok {crypto : Crypto} {authority : TaskAuthority} {schemas : Schemas}
    {compiled : CompiledAuthority} (h : compile crypto authority schemas = .ok compiled) :
    authority.validate (some schemas) = .ok () ∧ compiled.scope = .ok authority ∧
      compiled.schemas = .ok schemas := by
  unfold compile at h
  obtain ⟨_, hvalid, h⟩ := bind_ok h
  obtain ⟨scope, hscope, h⟩ := bind_ok h
  obtain ⟨schema, hschema, h⟩ := bind_ok h
  obtain ⟨descriptors, -, h⟩ := bind_ok h
  cases h
  exact ⟨hvalid, parse_write hscope, parse_write hschema⟩

variable {platform : Platform} {crypto : Crypto} {goal : String} {call : ToolCall}
  {observations : List Observation} {previousCalls : List ToolCall}

/-- What an allowed call went through. -/
structure Allowed (compiled : CompiledAuthority) (platform : Platform) (crypto : Crypto)
    (goal : String) (call : ToolCall) (observations : List Observation)
    (previousCalls : List ToolCall) (schemas : Schemas) (schema : Schema) (normalized : ToolCall)
    (authority : TaskAuthority) : Prop where
  parsed : compiled.schemas = .ok schemas
  known : schemas.get? call.toolName = some schema
  valid : platform.validateArguments call.arguments schema = .ok ()
  form : readForm crypto call schema = .ok (some normalized)
  grant : compiled.scope = .ok authority
  pass : checkAuthority platform goal normalized observations authority previousCalls = Check.pass

theorem evaluate_allow {self : CompiledAuthority} {out : SupervisorOutput}
    (h : self.evaluate platform crypto goal call observations previousCalls = .ok out)
    (ha : out.decision=.allow) :
    out=granted ∧ ∃ schemas schema normalized authority,
      self.Allowed platform crypto goal call observations previousCalls schemas schema normalized
        authority := by
  unfold evaluate at h
  obtain ⟨schemas, hschemas, h⟩ := bind_ok h
  split at h
  · cases h
    cases ha
  rename_i schema hknown
  split at h
  · cases h
    cases ha
  · cases h
  rename_i hvalid
  obtain ⟨form, hform, h⟩ := bind_ok h
  split at h
  · cases h
    cases ha
  rename_i normalized
  obtain ⟨authority, hscope, h⟩ := bind_ok h
  obtain ⟨denied, hpass, h⟩ := bind_ok h
  cases denied with
  | none =>
    cases h
    exact ⟨rfl, schemas, schema, normalized, authority, hschemas, hknown, hvalid, hform, hscope, hpass⟩
  | some denial =>
    cases h
    rcases denial.denies with hd | hd <;> exact absurd (ha.symm.trans hd) (by decide)

/-- Reading the checks back: an allowed call is evaluated to the grant. -/
theorem evaluate_granted {self : CompiledAuthority} {schemas : Schemas} {schema : Schema}
    {normalized : ToolCall} {authority : TaskAuthority}
    (h : self.Allowed platform crypto goal call observations previousCalls schemas schema normalized
      authority) :
    self.evaluate platform crypto goal call observations previousCalls = .ok granted := by
  simp only [CompiledAuthority.evaluate, h.parsed, h.known, h.valid, h.form, h.grant, h.pass,
    Check.pass, bind, Except.bind, pure, Except.pure, Option.map_none, Option.getD_none]

theorem readForm_effect {schema : Schema} {effect : Effect} (h : toolEffect call = .ok effect)
    (he : effect≠.read) : readForm crypto call schema = .ok (some call) := by
  unfold readForm
  rw [h]
  cases effect with
  | read => exact absurd rfl he
  | mutate | command | unknown => rfl

end CompiledAuthority
end TraceGuard
