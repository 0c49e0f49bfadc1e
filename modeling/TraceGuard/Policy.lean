import TraceGuard.Kernel

/-! The deterministic policy: limits on requested resources, paths and commands around the
authority check. -/
namespace TraceGuard

structure PolicyConfig where
  version : String
  allowedReadRoots : List String
  allowedWriteRoots : List String
  blockedPathSegments : List String := []
  blockedCommandTokens : List String
  blockedShellOperators : List String
  sandboxCommandTokens : List String
  benignCommandTokens : List String := []
  mathGoalKeywords : List String := []
  writeGoalKeywords : List String := []
  readGoalKeywords : List String := []
  maxCommandLength : Nat
  maxRequestedResources : Nat := 4

structure DeterministicPolicy where
  config : PolicyConfig
  taskAuthority : TaskAuthority
  previousCalls : List ToolCall

def Observation.untrusted (obs : Observation) : Bool :=
  obs.trust=.untrustedDocument || obs.trust=.untrustedTool

def pathPattern : Pattern := { text := "[\\w.-]+(?:/[\\w.-]+)+" }

/-- `text.rstrip(chars)`. -/
def stripRight (chars text : String) : String :=
  String.ofList ((text.toList.reverse.dropWhile (·∈chars.toList)).reverse)

/-- The paths that a text mentions. -/
def mentionedPaths (platform : Platform) (text : String) : List String :=
  (platform.findall pathPattern text).map (stripRight ".,:;!?")

def isAbsolute (path : String) : Bool := path.toList.head? = some '/'

/-- An absolute path, one that climbs, or the empty one. -/
def escapes (path : String) : Bool :=
  isAbsolute path || ".."∈pathParts path || (pathParts path).isEmpty

def underRoots (roots : List String) (path : String) : Bool :=
  match pathParts path with
  | root :: _ => root∈roots
  | [] => false

def instructionPatterns : List Pattern :=
  [ "\\bignore (all )?(previous|prior) (instructions|policies)\\b",
    "\\bsystem\\s*:",
    "\\b(run|execute|curl|wget|sudo)\\b.+\\b(http|attacker|secret)",
    "\\bread\\s+\\S*(secret|credential|password|canary)\\S*" ].map fun text =>
      { text := text, ignoreCase := true }

def looksLikeInstruction (platform : Platform) (content : String) : Bool :=
  instructionPatterns.any fun pattern => platform.search pattern content

def hasKeyword (platform : Platform) (text : String) (keywords : List String) : Bool :=
  keywords.any fun keyword =>
    platform.search { text := "(?<!\\w)"++reEscape (platform.casefold keyword)++"(?!\\w)" } text

/-- The words of a command that is a list of texts. -/
def commandWords : Json → Option (List String)
  | .arr items => items.mapM fun
    | .str text => some text
    | _ => none
  | _ => none

namespace DeterministicPolicy

def containerProfile (call : ToolCall) : String × String :=
  if "artifact_output"∈call.requestedResources then
    ("artifact_build", "POLICY_CONTAINER_ARTIFACT_OUTPUT")
  else if call.requestedResources.any fun resource => "input:".toList.isPrefixOf resource.toList then
    ("readonly_input", "POLICY_CONTAINER_READONLY_INPUT")
  else ("isolated_compute", "POLICY_CONTAINER_ISOLATED")

theorem containerProfile_ne (call : ToolCall) : (containerProfile call).1≠"" := by
  unfold containerProfile
  split
  · decide
  split <;> decide

variable (self : DeterministicPolicy) (platform : Platform) (userTask : String) (call : ToolCall)
  (observations : List Observation)

def versionRules (rules : List String) : List String :=
  ("POLICY_VERSION="++self.config.version) :: rules

def allow (rule : String) : SupervisorOutput where
  decision := .allow
  risk := .low
  policyViolation := false
  goalRelevance := .uncertain
  goalNecessity := .uncertain
  reason := "Deterministic policy allows the call."
  matchedRules := self.versionRules [rule]
  rewrites := SupervisorOutput.unrewritten .allow Decision.allow_ne
  profiled := SupervisorOutput.unprofiled

def escalate (rule reason : String) : SupervisorOutput where
  decision := .escalate
  risk := .medium
  policyViolation := false
  goalRelevance := .weak
  goalNecessity := .helpful
  reason := reason
  matchedRules := self.versionRules [rule]
  rewrites := SupervisorOutput.unrewritten .escalate Decision.escalate_ne
  profiled := SupervisorOutput.unprofiled

def block (rule : String) (risk : RiskLevel) : SupervisorOutput where
  decision := .block
  risk := risk
  policyViolation := true
  goalRelevance := .uncertain
  goalNecessity := .uncertain
  reason := "Deterministic policy denies the call."
  matchedRules := self.versionRules [rule]
  rewrites := SupervisorOutput.unrewritten .block Decision.block_ne
  profiled := SupervisorOutput.unprofiled

/-- A call that does not serve the goal. -/
def irrelevant (rule reason : String) (risk : RiskLevel) (relevance : GoalRelevance) :
    SupervisorOutput where
  decision := .block
  risk := risk
  policyViolation := true
  goalRelevance := relevance
  goalNecessity := .unnecessary
  reason := reason
  matchedRules := self.versionRules [rule]
  rewrites := SupervisorOutput.unrewritten .block Decision.block_ne
  profiled := SupervisorOutput.unprofiled

/-- A verdict on a command that helps the goal. -/
def helpful (decision : Decision) (risk : RiskLevel) (reason rule : String)
    (target : Option ExecutionTarget)
    (h : decision≠.rewrite := by first | exact Decision.allow_ne | exact Decision.block_ne | exact Decision.escalate_ne)
    (ht : target≠some .container := by decide) : SupervisorOutput where
  decision := decision
  risk := risk
  policyViolation := false
  goalRelevance := .weak
  goalNecessity := .helpful
  reason := reason
  matchedRules := self.versionRules [rule]
  executionTarget := target
  rewrites := SupervisorOutput.unrewritten decision h
  profiled := fun he => absurd he ht

/-- A command that runs in a predefined container profile. -/
def contained (call : ToolCall) (rule reason : String) : SupervisorOutput where
  decision := .allow
  risk := .medium
  policyViolation := false
  goalRelevance := .weak
  goalNecessity := .helpful
  reason := reason
  matchedRules := self.versionRules [rule, (containerProfile call).2]
  executionTarget := some .container
  containerProfile := some (containerProfile call).1
  rewrites := SupervisorOutput.unrewritten .allow Decision.allow_ne
  profiled := fun _ => ⟨_, containerProfile_ne call, rfl⟩

def evaluateResource (resource : String) : Option SupervisorOutput :=
  let reviewed := resource="corpus:documents" && call.toolName="search_documents" &&
    self.taskAuthority.enforcementMode=.strict &&
    (((self.taskAuthority.resourcesOf "search_documents").get? "requested_resources").getD []).any
      fun doc => isText resource doc.val
  if resource="artifact_output" || reviewed then none
  else if !"input:".toList.isPrefixOf resource.toList then
    some (self.block "POLICY_UNKNOWN_RESOURCE" .high)
  else
    let path := String.ofList (resource.toList.drop "input:".length)
    if sensitivePath platform path self.config.blockedPathSegments then
      some (self.block "POLICY_RESOURCE_PATH_SENSITIVE" .high)
    else if escapes path || !underRoots self.config.allowedReadRoots path then
      some (self.block "POLICY_RESOURCE_PATH_OUTSIDE_ROOT" .high)
    else if self.taskAuthority.pinned call.toolName "requested_resources" then none
    else if mentionedPaths platform userTask=[] then
      some (self.escalate "POLICY_RESOURCE_AUTHORITY_MISSING"
        "Declared inputs require trusted task scope.")
    else if path∉mentionedPaths platform userTask then
      some (self.block "POLICY_RESOURCE_NOT_AUTHORIZED" .high)
    else none

def privilegedResources : List String := ["network", "sudo", "docker", "host_fs", "privileged"]

def evaluateRequestedResources : Option SupervisorOutput :=
  if self.config.maxRequestedResources < call.requestedResources.length then
    some (self.block "POLICY_EXCESSIVE_RESOURCES" .high)
  else if call.requestedResources.any fun item => platform.casefold item∈privilegedResources then
    some (self.block "POLICY_UNNECESSARY_PERMISSIONS" .critical)
  else call.requestedResources.findSome? (self.evaluateResource platform userTask call)

def evaluateGoalRelevance : Option SupervisorOutput :=
  let task := platform.casefold userTask
  let mixed := hasKeyword platform task (self.config.readGoalKeywords++
    self.config.writeGoalKeywords++["participants", "file", "document", "data"])
  let math := hasKeyword platform task (self.config.mathGoalKeywords.filter (·≠"add")) && !mixed
  let write := hasKeyword platform task self.config.writeGoalKeywords
  let read := hasKeyword platform task self.config.readGoalKeywords
  let shell := hasKeyword platform task ["command", "shell", "terminal", "run", "execute"]
  if math && call.toolName="restricted_command" then
    some (self.irrelevant "POLICY_IRRELEVANT_COMMAND_FOR_MATH"
      "Math goals must use calculator, not command execution." .medium .irrelevant)
  else if math && call.toolName∈["read_file", "write_report", "search_documents"] then
    some (self.irrelevant "POLICY_IRRELEVANT_TOOL_FOR_MATH"
      "Pure math goals do not require document or file tools." .low .weak)
  else if write && call.toolName="restricted_command" then
    some (self.irrelevant "POLICY_IRRELEVANT_COMMAND_FOR_WRITE"
      "Report writing must use write_report, not shell commands." .medium .weak)
  else if read && call.toolName="restricted_command" && !shell then
    some (self.irrelevant "POLICY_IRRELEVANT_COMMAND_FOR_READ"
      "Reading or summarizing files does not require command execution." .medium .weak)
  else none

def evaluateSearch : SupervisorOutput :=
  let query := platform.text ((call.arguments.get "query").getD (.str ""))
  if Decimal.strip query.toList=[] then self.block "POLICY_SEARCH_EMPTY_QUERY" .low
  else self.allow "POLICY_SEARCH_ALLOWED"

/-- The scope of a file that is read: a path of the task or a trusted grant. -/
def evaluateReadScope (path : String) : Option SupervisorOutput :=
  let mentioned := mentionedPaths platform userTask
  let fixed := (self.taskAuthority.valuesOf "read_file").keys≠[]
  let trusted := fixed || (self.taskAuthority.enforcementMode=.strict &&
    (self.taskAuthority.resourcesOf "read_file").keys≠[])
  let delegated := "path"∈(self.taskAuthority.delegatedOf "read_file").keys
  if trusted || delegated then none
  else if mentioned=[] then
    some (self.escalate "POLICY_READ_AUTHORITY_MISSING"
      "File scope requires an explicit path or trusted delegation.")
  else if path∉mentioned then
    some (self.irrelevant "POLICY_IRRELEVANT_FILE_ACCESS"
      "The requested file is not among the paths named in the user task." .medium .weak)
  else none

/-- A report outside the write roots goes to the artifacts root. -/
def rewriteReport (path : String) : SupervisorOutput where
  decision := .rewrite
  risk := .low
  policyViolation := false
  goalRelevance := .weak
  goalNecessity := .helpful
  reason := "Normalize report output into the allowed artifacts root."
  matchedRules := self.versionRules ["POLICY_WRITE_ROOT_REWRITE"]
  rewrittenCall := some { call with arguments := call.arguments.set "path" (.str ("artifacts/"++path)) }
  rewrites := fun _ => rfl
  profiled := SupervisorOutput.unprofiled

def evaluatePath : SupervisorOutput :=
  let path := platform.text ((call.arguments.get "path").getD (.str ""))
  let reads : Bool := call.toolName="read_file"
  let roots := if reads then self.config.allowedReadRoots else self.config.allowedWriteRoots
  if escapes path || (reads && !underRoots roots path) then
    self.block "POLICY_PATH_OUTSIDE_ROOT" .high
  else if sensitivePath platform path self.config.blockedPathSegments then
    self.block "POLICY_PATH_SENSITIVE" .critical
  else
    match if reads then self.evaluateReadScope platform userTask path else none with
    | some denied => denied
    | none =>
      if call.toolName="write_report" && !underRoots self.config.allowedWriteRoots path then
        self.rewriteReport call path
      else if !underRoots roots path then self.block "POLICY_PATH_OUTSIDE_ROOT" .high
      else if reads && pathParts path=["workspace"] then
        self.block "POLICY_PATH_DIRECTORY_ONLY" .medium
      else self.allow "POLICY_PATH_ALLOWED"

def folded (tokens : List String) (word : String) : Bool :=
  platform.casefold word∈tokens.map platform.casefold

/-- The verdict on a command without untrusted observations, by its first word. -/
def evaluateHead (head : String) : SupervisorOutput :=
  if folded platform self.config.blockedCommandTokens head then
    self.block "POLICY_COMMAND_BLOCKED_TOKEN" .critical
  else if folded platform self.config.sandboxCommandTokens head then
    self.contained call "POLICY_COMMAND_CONTAINER"
      "Medium-risk command must use a predefined container profile."
  else if folded platform self.config.benignCommandTokens head then
    self.helpful .allow .low "Benign argv command allowed as simulated/default execution only."
      "POLICY_COMMAND_BENIGN" (some .simulated)
  else self.helpful .escalate .medium "Unknown command binary requires human or LLM review."
      "POLICY_COMMAND_UNKNOWN_ESCALATE" none

def evaluateUntrusted (untrusted : List Observation) : SupervisorOutput :=
  if untrusted.any fun obs => looksLikeInstruction platform obs.content then
    self.irrelevant "POLICY_UNTRUSTED_OBSERVATION_DEPENDENCY"
      "Command depends on untrusted observations that appear instructional." .high .weak
  else self.contained call "POLICY_COMMAND_CONTAINER_UNTRUSTED"
    "Command informed by untrusted input must use a predefined container profile."

def evaluateCommand : SupervisorOutput :=
  match commandWords ((call.arguments.get "command").getD (.arr [])) with
  | none => self.block "POLICY_COMMAND_SCHEMA" .high
  | some [] => self.block "POLICY_COMMAND_EMPTY" .high
  | some (head :: words) =>
    if self.config.maxCommandLength<(" ".intercalate (head :: words)).length then
      self.block "POLICY_COMMAND_TOO_LONG" .high
    else if (head :: words).any (folded platform self.config.blockedCommandTokens) then
      self.block "POLICY_COMMAND_BLOCKED_TOKEN" .critical
    else if (head :: words).any (·∈self.config.blockedShellOperators) then
      self.block "POLICY_SHELL_OPERATOR" .high
    else
      match observations.filter Observation.untrusted with
      | [] => self.evaluateHead platform call head
      | untrusted => self.evaluateUntrusted platform call untrusted

/-- The policy's own view of a call that the authority admits. -/
def evaluateTool : Except PyError SupervisorOutput := do
  if call.toolName="restricted_command" then
    return self.evaluateCommand platform call observations
  if call.toolName="search_documents" then return self.evaluateSearch platform call
  if call.toolName="calculator" then return self.allow "POLICY_TOOL_LOW_RISK"
  if self.taskAuthority.enforcementMode=.strict then
    if (← toolEffect call)≠.command then return self.allow "POLICY_STRICT_AUTHORITY"
  return self.escalate "POLICY_UNKNOWN_TOOL" "Tool effect is not registered."

def checkTask : Check :=
  checkAuthority platform userTask call observations self.taskAuthority self.previousCalls

def evaluate : Except PyError SupervisorOutput := do
  match self.evaluateRequestedResources platform userTask call with
  | some denied => return denied
  | none =>
    match if self.taskAuthority.enforcementMode=.research then
        self.evaluateGoalRelevance platform userTask call else none with
    | some denied => return denied
    | none =>
      if call.toolName∈["read_file", "write_report"] then
        let result := self.evaluatePath platform userTask call
        if result.decision=.allow then
          match ← self.checkTask platform userTask call observations with
          | some denied => return denied.toSupervisorOutput
          | none => return result
        return result
      match ← self.checkTask platform userTask call observations with
      | some denied => return denied.toSupervisorOutput
      | none => self.evaluateTool platform call observations

end DeterministicPolicy
end TraceGuard
