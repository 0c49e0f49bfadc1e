import TraceGuard.Authorization

/-! The rules of `check_authority` that only research authority reaches: what a bounded English
grammar finds in the goal. -/
namespace TraceGuard
namespace Authority
variable (platform : Platform) (goal : String) (call : ToolCall) (authority : TaskAuthority)

def emailPattern : Pattern := { text := "[A-Za-z0-9._%+-]+@[A-Za-z0-9.-]+\\.[A-Za-z]\x7b2,\x7d" }

def anyCase (text : String) : Pattern := { text := text, ignoreCase := true }

/-- The verbs that ask for a tool, as one alternative. -/
def verbPattern (tool : String) : String :=
  "|".intercalate (((EffectRegistry.mutations.lookup tool).getD
    ["update", "write", "save", "remember", "delete"]).map reEscape)

def prohibition : Check :=
  if platform.search (anyCase ("\\b(?:do not|don't|never|must not|cannot)\\s+(?:\\w+\\s+)\x7b0,2\x7d(?:"++
      verbPattern call.toolName++")\\b")) goal then
    Check.deny (output .block "explicit-prohibition" "The original task prohibits this action family.")
  else Check.pass

def condition : Check :=
  if platform.search (anyCase "\\b(?:only after|after approval|once approved|if approved)\\b") goal &&
      "approval"∉authority.approvedConditions then
    Check.deny (output .escalate "unmet-condition" "Trusted approval condition has not been satisfied.")
  else Check.pass

def sideEffect : Check :=
  let explicit := match authority.allowedTools with
    | some tools => call.toolName∈tools
    | none => false
  let imperative := call.toolName="send_email" &&
    platform.search (anyCase "^\\s*(?:please\\s+)?email\\s+") goal
  if !explicit && !imperative &&
      !platform.search (anyCase ("\\b(?:"++verbPattern call.toolName++")\\b")) goal then
    Check.deny (output .block "indirect-side-effect" "Original task does not authorize this side effect.")
  else Check.pass

def explicitEmails : List String := platform.findall emailPattern (platform.casefold goal)

/-- The destination fields of the call that have a value. -/
def destinationFields : List (String × Json) :=
  (sortedSet (["recipients", "to", "recipient", "participants", "email"]++
    if call.toolName="send_email" then SecurityDescriptors.emailRecipientFields else [])).filterMap
    fun field => match call.arguments.get field with
      | none | some .null | some (.arr []) => none
      | some value => some (field, value)

def destinationScope : Check :=
  if explicitEmails platform goal≠[] && (destinationFields call).any fun field =>
      (valuesIn field.2).any fun value =>
        platform.casefold (platform.text value)∉explicitEmails platform goal then
    Check.deny (output .block "argument-mismatch" "Destination exceeds explicit user authorization.")
  else Check.pass

def eventTitle : Check :=
  match platform.groups (anyCase "(?:event|title should be)\\s+['\"]([^'\"]+)['\"]") goal with
  | some [_, title] =>
    if isText title ((call.arguments.get "title").getD .null) then Check.pass
    else Check.deny (output .block "argument-mismatch" "Event title differs from the original task.")
  | _ => Check.pass

def eventStart : Check :=
  let start := String.ofList ((platform.text ((call.arguments.get "start_time").getD (.str ""))).toList.map
    fun c => if c = 'T' then ' ' else c)
  let dated := match platform.groups { text := "\\b20\\d\x7b2\x7d-\\d\x7b2\x7d-\\d\x7b2\x7d\\b" } goal with
    | some (date :: _) => date.toList.isPrefixOf start.toList
    | _ => true
  let timed := match platform.groups (anyCase "\\bat\\s+(\\d\x7b1,2\x7d:\\d\x7b2\x7d)\\b") goal with
    | some [_, time] => occursIn (" "++time) start
    | _ => true
  if dated && timed then Check.pass
  else Check.deny (output .block "argument-mismatch" "Event start differs from the original task.")

def eventDuration : Check :=
  match platform.groups (anyCase "\\b(\\d+)\\s*(?:-\\s*)?hour") goal with
  | some [_, hours] =>
    match call.arguments.get "end_time", call.arguments.get "start_time" with
    | some finish, some start =>
      match platform.spans (platform.text finish) (platform.text start) hours with
      | some true => Check.pass
      | some false => Check.deny (output .block "argument-mismatch"
          "Event duration differs from the original task.")
      | none => Check.deny (output .escalate "invalid-event-time" "Event interval cannot be validated.")
    | _, _ => Check.deny (output .escalate "invalid-event-time" "Event interval cannot be validated.")
  | _ => Check.pass

def event : Check :=
  if call.toolName="create_calendar_event" then
    firstDenial [eventTitle platform goal call, eventStart platform goal call,
      eventDuration platform goal call]
  else Check.pass

/-- What stays open when nothing else denies: a destination, else the amount. -/
def pending : Check :=
  if explicitEmails platform goal=[] && (destinationFields call).any fun field =>
      !authority.pinned call.toolName field.1 then
    Check.deny (output .escalate "unresolved-destination"
      "Destination authority requires a trusted constraint or delegated source.")
  else if unresolvedAmount call authority then
    Check.deny (output .escalate "unresolved-amount" "Payment amount needs trusted task scope.")
  else Check.pass

def research : Check := do
  match ← toolEffect call with
  | .read => Check.pass
  | _ => firstDenial [harmless call, prohibition platform goal call,
      condition platform goal authority, sideEffect platform goal call authority,
      destinationScope platform goal call, event platform goal call,
      pending platform goal call authority]

end Authority
end TraceGuard
