import TraceGuard.Kernel

/-! Read calls in the form their reviewed adapter gives them: defaults filled in and implicit
resources requested. -/
namespace TraceGuard

/-- The schema keyword that binds a reviewed adapter. -/
def extension : String := "x-traceguard-read-adapter"

/-- `bound.get("properties", {})`; schema validation leaves objects only. -/
def propertiesOf (schema : Schema) : Except PyError (List (String × Json)) :=
  match schema.get? "properties" with
  | none => .ok []
  | some doc =>
    match doc.val with
    | .obj members => .ok members
    | _ => .error .type

/-- `bound.get("required") or []`. -/
def requiredOf (schema : Schema) : Except PyError (List String) :=
  match schema.get? "required" with
  | none => .ok []
  | some doc =>
    match doc.val with
    | .null => .ok []
    | .arr items => .ok (items.filterMap fun
      | .str text => some text
      | _ => none)
    | _ => .error .type

/-- `properties[field].get("default")`. -/
def defaultOf : Json → Except PyError Json
  | .obj members => .ok ((members.lookup "default").getD .null)
  | _ => .error .attribute

/-- The reviewed mapping of an adapter for a tool. -/
def reviewedAdapter (adapterId : Json) (tool : String) : Except PyError (Option ReadAdapter) :=
  match adapterId with
  | .str id => .ok ((SecurityDescriptors.readAdapters.lookup id).bind fun tools => tools.lookup tool)
  | .arr _ | .obj _ => .error .type
  | _ => .ok none

def ReadAdapter.defaultFor (a : ReadAdapter) (field : String) : Option String :=
  (a.defaults.getD []).lookup field

/-- A resource selector is a property of the schema, and its default the reviewed one. -/
def checkSelector (reviewed : ReadAdapter) (properties : List (String × Json))
    (required : List String) (field : String) : Except PyError Unit :=
  match properties.lookup field with
  | none => .error (.value "read schema is missing a reviewed resource selector")
  | some property => do
    let known (value : Json) : Bool := match reviewed.defaultFor field with
      | some text => isText text value
      | none => false
    if field∉required then
      if (reviewed.defaultFor field).isNone then
        throw (.value "unreviewed implicit read resource")
      if !known (← defaultOf property) then
        throw (.value "unreviewed implicit read resource")
    let value ← defaultOf property
    if !(value matches .null) && !known value then
      throw (.value "read resource default differs from reviewed adapter")

def checkSelectors (reviewed : ReadAdapter) (properties : List (String × Json))
    (required : List String) : List String → Except PyError Unit
  | [] => .ok ()
  | field :: fields => do
    checkSelector reviewed properties required field
    checkSelectors reviewed properties required fields

/-- `bind_read_schema`: the reviewed mapping and the binding of the schema to it. -/
def bindReadSchema (crypto : Crypto) (schema : Schema) (adapterId : Json) (tool : String) :
    Except PyError (ReadAdapter × Json) := do
  match ← reviewedAdapter adapterId tool with
  | none => throw (.value "unsupported read adapter mapping")
  | some reviewed =>
    let bound := schema.erase extension
    let properties ← propertiesOf bound
    if !properties.all fun p => p.1∈reviewed.fields then
      throw (.value "read schema has unreviewed selectors or options")
    checkSelectors reviewed properties (← requiredOf bound) reviewed.resources
    match canonical (.obj (bound.map Json.Doc.val).entries) with
    | none => throw (.value "not a JSON value")
    | some text =>
      return (reviewed, .obj [("id", adapterId), ("schema_digest", .str (crypto.sha256 text))])

/-- Fill in the reviewed defaults; every resource must then have a value. -/
def fillResources (reviewed : ReadAdapter) : List String → Dict Json → Except PyError (Dict Json)
  | [], arguments => .ok arguments
  | field :: fields, arguments =>
    let filled := match reviewed.defaultFor field with
      | some text => arguments.setDefault field (.str text)
      | none => arguments
    match filled.get field with
    | none | some .null => .error (.value "read resource is missing")
    | some _ => fillResources reviewed fields filled

def bindingOf (schema : Schema) : Except PyError (Json × Json) :=
  match schema.get? extension with
  | none => .ok (.obj [], .str "")
  | some doc =>
    match doc.val with
    | .obj members => .ok (.obj members, (members.lookup "id").getD (.str ""))
    | _ => .error .attribute

def ReadAdapter.normalize (reviewed : ReadAdapter) (call : ToolCall) : Except PyError ToolCall := do
  let arguments ← fillResources reviewed reviewed.resources call.arguments
  .ok { call with
    arguments := arguments
    requestedResources := sortedSet (call.requestedResources++reviewed.implicit.getD []) }

def scopedReadCall (crypto : Crypto) (call : ToolCall) (schema : Schema) :
    Except PyError ToolCall := do
  let (binding, adapterId) ← bindingOf schema
  let (reviewed, verified) ← bindReadSchema crypto schema adapterId call.toolName
  if !verified.pyEq binding then
    throw (.value "read adapter binding does not match the approved schema")
  reviewed.normalize call

end TraceGuard
