import TraceGuard.Effects
import TraceGuard.JsonCodec

/-! The deterministic authority check of one call: a list of checks, of which the first that
denies decides. -/
namespace TraceGuard

def sensitivePathPattern : Pattern where
  text := "(^|[./_\\-])(secrets?|credentials?|passwords?|canary|private[_-]?key)([./_\\-]|$)"
  ignoreCase := true

/-- `PurePosixPath(path).parts`. -/
def pathParts (path : String) : List String :=
  let comps := (path.splitOn "/").filter fun part => part≠"" && part≠"."
  match path.toList with
  | '/' :: '/' :: '/' :: _ => "/" :: comps
  | '/' :: '/' :: _ => "//" :: comps
  | '/' :: _ => "/" :: comps
  | _ => comps

/-- No segments at all stand for the default ones. -/
def sensitivePath (platform : Platform) (path : String) (blockedSegments : List String := []) : Bool :=
  let denied := if blockedSegments=[] then [".ssh", ".aws"] else blockedSegments
  (pathParts path).any fun part =>
    platform.casefold part∈denied.map platform.casefold || platform.search sensitivePathPattern part

/-- A verdict of the deterministic policy; its reason and rule name the check. -/
def output (decision : Decision) (rule reason : String) (risk : RiskLevel := .high)
    (h : decision≠.rewrite := by first | exact Decision.allow_ne | exact Decision.block_ne | exact Decision.escalate_ne) :
    SupervisorOutput where
  decision := decision
  risk := risk
  policyViolation := decision=.block
  goalRelevance := .uncertain
  goalNecessity := .uncertain
  reason := reason
  matchedRules := ["AUTHORITY_VERSION="++EffectRegistry.version, rule]
  rewrites := SupervisorOutput.unrewritten decision h
  profiled := SupervisorOutput.unprofiled

/-- Exact JSON values: equal when they are written the same. -/
def sameValue (actual expected : Json) : Bool :=
  match Json.dumps Json.spaced actual, Json.dumps Json.spaced expected with
  | some a, some b => a=b
  | _, _ => false

mutual
def argumentStrings : Json → List String
  | .str text => [text]
  | .obj members => memberStrings members
  | .arr items => itemStrings items
  | _ => []
def itemStrings : List Json → List String
  | [] => []
  | item :: items => argumentStrings item++itemStrings items
def memberStrings : List (String × Json) → List String
  | [] => []
  | (key, item) :: members => key :: argumentStrings item++memberStrings members
end

def isText (text : String) : Json → Bool
  | .str s => s=text
  | _ => false

/-- `value in text`. -/
def occursIn (value text : String) : Bool := text.toList.tails.any (value.toList.isPrefixOf ·)

/-- What a check says: nothing, a denial, or an exception. -/
abbrev Check := Except PyError (Option Denial)

def Check.pass : Check := .ok none

def Check.deny (out : SupervisorOutput)
    (h : out.decision=.block ∨ out.decision=.escalate := by simp [output]) : Check :=
  .ok (some { out with denies := h })

/-- The first check that does not pass. -/
def firstDenial : List Check → Check
  | [] => Check.pass
  | .ok none :: checks => firstDenial checks
  | check :: _ => check

theorem firstDenial_pass {checks : List Check} :
    firstDenial checks = Check.pass ↔ ∀ check∈checks, check=Check.pass := by
  induction checks with
  | nil => simp [firstDenial]
  | cons check checks ih =>
    match check with
    | .ok none => simpa [firstDenial, Check.pass] using ih
    | .ok (some _) => simp [firstDenial, Check.pass]
    | .error _ => simp [firstDenial, Check.pass]

/-- The value of a call's field; the requested resources stand beside the arguments. -/
def ToolCall.actual (call : ToolCall) (field : String) : Json :=
  if field="requested_resources" then .arr (call.requestedResources.map .str)
  else (call.arguments.get field).getD .null

namespace TaskAuthority
variable (authority : TaskAuthority) (tool : String)

/-! `mapping.get(tool, {})` of each kind of grant. -/

def valuesOf : SortedMap String Json.Doc := (authority.argumentValues.get? tool).getD .empty
def resourcesOf : SortedMap String (List Json.Doc) := (authority.resourceValues.get? tool).getD .empty
def delegatedOf : SortedMap String (List String) := (authority.delegatedFields.get? tool).getD .empty
def generatedOf : List String := (authority.generatedFields.get? tool).getD []

/-- The tool has a fixed value or a delegated source for the field. -/
def pinned (field : String) : Bool :=
  field∈(authority.valuesOf tool).keys || field∈(authority.delegatedOf tool).keys

end TaskAuthority

/-- `previous.arguments == call.arguments`. -/
def sameArguments (previous call : ToolCall) : Bool :=
  (Json.obj previous.arguments.items).pyEq (.obj call.arguments.items)

def duplicateMutation (call : ToolCall) (previousCalls : List ToolCall)
    (authority : TaskAuthority) : Check := do
  if call.toolName∈authority.repeatableTools then Check.pass
  else
    match ← toolEffect call with
    | .mutate | .command =>
      if previousCalls.any fun previous =>
          previous.toolName=call.toolName && sameArguments previous call then
        Check.deny (output .block "duplicate-mutation"
          "An identical mutating call already executed or is reserved in this task.")
      else Check.pass
    | .read | .unknown => Check.pass

namespace Authority
variable (platform : Platform) (goal : String) (call : ToolCall) (observations : List Observation)
  (authority : TaskAuthority) (previousCalls : List ToolCall)

def effectKnown : Check := do
  match ← toolEffect call with
  | .unknown => Check.deny (output .escalate "unknown-tool-effect" "Tool effect is not registered.")
  | _ => Check.pass

def harmless : Check :=
  if call.toolName="harmful_action_simulator" then Check.deny (output .block "prohibited-effect"
    "Trusted policy prohibits the simulated harmful effect.")
  else Check.pass

def allowed : Check :=
  match authority.allowedTools with
  | some tools => if call.toolName∈tools then Check.pass
    else Check.deny (output .block "unauthorized-tool" "Tool is outside the trusted task scope.")
  | none => Check.pass

def argumentsMatch : Check :=
  match (authority.valuesOf call.toolName).entries.find?
      fun e => !sameValue (call.actual e.1) e.2.val with
  | some e => Check.deny (output .block "argument-mismatch"
      ("Argument "++e.1++" differs from trusted task scope."))
  | none => Check.pass

/-- The values that the observations of the declared sources give for a field. -/
def candidates (field : String) (sources : List String) : List Json :=
  (observations.filter fun obs => obs.sourceId∈sources).filterMap fun obs =>
    match Json.loads obs.content with
    | some (.obj members) => members.lookup field
    | _ => none

def delegated (field : String) (sources : List String) : Check :=
  if observations.filter (fun obs => obs.sourceId∈sources) = [] then
    Check.deny (output .escalate "missing-delegated-source"
      ("Authorized source for "++field++" is unavailable."))
  else match candidates observations field sources with
  | [value] =>
    if sameValue (call.actual field) value then Check.pass
    else Check.deny (output .block "argument-mismatch"
      ("Argument "++field++" differs from the authorized source."))
  | _ => Check.deny (output .escalate "ambiguous-delegated-value"
      ("Cannot uniquely resolve authorized "++field++"."))

/-- The elements of a list, or the value itself. -/
def valuesIn : Json → List Json
  | .arr items => items
  | value => [value]

/-- The fields that need a resource grant, in the order in which they are checked. -/
def resourceFields : List String :=
  let selectors := if authority.enforcementMode≠.strict &&
    call.toolName∈["read_file", "list_files", "grep"] then [] else scopedFields call
  sortedSet (selectors++(authority.resourcesOf call.toolName).keys)

def permitted (actual : Json) (values : List Json.Doc) : Bool :=
  valuesIn actual≠[] &&
    (valuesIn actual).all fun value => values.any fun p => sameValue value p.val

def resource (field : String) : Check :=
  if authority.pinned call.toolName field then Check.pass
  else match (authority.resourcesOf call.toolName).get? field with
  | none => Check.deny (output .escalate "resource-authority-missing"
      (field++" needs explicit trusted object or network scope."))
  | some values =>
    if permitted (call.actual field) values then Check.pass
    else Check.deny (output .block "resource-out-of-scope" "Resource exceeds task scope.")

def sensitiveRead : Check :=
  if call.toolName∈SecurityDescriptors.sensitiveReads &&
      (match authority.allowedTools with
        | some tools => call.toolName∉tools
        | none => true) then
    Check.deny (output .escalate "sensitive-read-authority" "Sensitive reads require an explicit grant.")
  else Check.pass

/-- `isinstance(value, (int, float))` without booleans, finite and not below zero. -/
def validAmount : Json → Except PyError Bool
  | .bool _ => .ok false
  | value =>
    match PyNumber.ofJson value with
    | none => .ok false
    | some n =>
      match n.isFinite with
      | none => .error .overflow
      | some finite => .ok (finite && PyNumber.zero.le n)

/-- `call.arguments.get("amount")` where `None` counts as absent. -/
def amountOf : Option Json :=
  match call.arguments.get "amount" with
  | some .null | none => none
  | some value => some value

def payment : Check :=
  if call.toolName∈paymentTools then
    match amountOf call with
    | none => Check.pass
    | some amount => do
      if ← validAmount amount then Check.pass
      else Check.deny (output .block "invalid-amount" "Payment amount is invalid.")
  else Check.pass

def unresolvedAmount : Bool :=
  call.toolName∈paymentTools && (amountOf call = none ||
    (authority.maxAmount.isNone && !authority.pinned call.toolName "amount"))

/-- The amounts of the payments made before. -/
def spent : List PyNumber :=
  (previousCalls.filter fun previous => previous.toolName∈paymentTools).filterMap fun previous =>
    PyNumber.ofJson ((previous.arguments.get "amount").getD (.int 0))

/-- The amount is valid and `spent + amount <= max_amount`. -/
def withinBudget (max : Budget) (value : Json) : Except PyError Bool :=
  match platform.sum (spent previousCalls) with
  | none => .error .overflow
  | some total =>
    match validAmount value, PyNumber.ofJson value with
    | .error e, _ => .error e
    | .ok true, some amount =>
      match total.add amount with
      | none => .error .overflow
      | some total => .ok (total.le (.float max.value))
    | .ok _, _ => .ok false

def budget : Check :=
  match authority.maxAmount, call.arguments.get "amount" with
  | some max, some value =>
    match withinBudget platform previousCalls max value with
    | .error e => .error e
    | .ok true => Check.pass
    | .ok false => Check.deny (output .block "amount-out-of-scope"
        "Amount exceeds the remaining trusted task budget.")
  | _, _ => Check.pass

/-- An empty entry prohibits nothing. -/
def discloses : Bool :=
  authority.prohibitedContent.any fun value => value≠"" &&
    (argumentStrings (.obj call.arguments.items)).any (occursIn value)

def disclosure : Check :=
  if discloses call authority then
    Check.deny (output .block "prohibited-disclosure" "Proposed arguments disclose protected content.")
  else Check.pass

def email : Check :=
  if call.toolName="send_email" then
    match emailEffects platform call with
    | .error (.value _) =>
      Check.deny (output .block "invalid-email-effect" "Invalid email destinations.")
    | .error e => .error e
    | .ok effects =>
      if effects.referencedObjects.all fun field => authority.pinned call.toolName field then Check.pass
      else Check.deny (output .escalate "unscoped-email-attachment"
        "Email attachments require explicit trusted object authorization.")
  else Check.pass

def paths : Check :=
  if ["path", "file_path"].any fun field => match call.arguments.get field with
      | some value => sensitivePath platform (platform.text value)
      | none => false then
    Check.deny (output .block "sensitive-data" "Protected filesystem object requested.")
  else Check.pass

end Authority
end TraceGuard
