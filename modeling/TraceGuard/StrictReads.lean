import TraceGuard.FieldComplete
import TraceGuard.ReadBinding

/-! Strict reads: an allowed read went through a reviewed adapter that is bound to the whole
schema, and every object that the adapter selects is one that a grant names. -/
namespace TraceGuard
open Raising

/-- What gives a read its objects: a fixed value, permitted elements, or the one delegated value. -/
inductive Scoped (call : ToolCall) (observations : List Observation) (authority : TaskAuthority)
    (field : String) (value : Json) : Prop where
  | fixed {expected : Json.Doc}
      (grant : (authority.valuesOf call.toolName).get? field = some expected)
      (same : value.Same expected.val)
  | resource {values : List Json.Doc}
      (grant : (authority.resourcesOf call.toolName).get? field = some values)
      (nonempty : Authority.valuesIn value≠[])
      (same : ∀ v∈Authority.valuesIn value, ∃ p∈values, v.Same p.val)
  | delegated {sources : List String} {candidate : Json}
      (grant : (authority.delegatedOf call.toolName).get? field = some sources)
      (single : Authority.candidates observations field sources = [candidate])
      (same : value.Same candidate)

/-- A field whose value must come from a grant of objects. -/
def Selector (tool field : String) : Prop :=
  field≠"amount" ∧ field∉["cc", "bcc", "attachments"] ∧
    field∉SecurityDescriptors.fieldsOf SecurityDescriptors.generatableFields tool

variable {platform : Platform} {goal : String} {call : ToolCall} {observations : List Observation}
  {authority : TaskAuthority} {previousCalls : List ToolCall} {tools : List String}

theorem Justified.of_selector {field : String} {value : Json} (hs : Selector call.toolName field)
    (h : Justified platform call observations authority previousCalls field value) :
    Scoped call observations authority field value := by
  obtain ⟨hamount, hoptional, hgenerated⟩ := hs
  cases h with
  | fixed grant same => exact .fixed grant same
  | resource grant nonempty same => exact .resource grant nonempty same
  | delegated grant single same => exact .delegated grant single same
  | generated grant reviewed => exact absurd reviewed hgenerated
  | amount named => exact absurd named hamount
  | emptyEmail email optional => exact absurd optional hoptional

/-- An object that a call selects passes the resource check on a grant that names it. -/
theorem scoped_granted
    (h : checkAuthority platform goal call observations authority previousCalls = Check.pass)
    (hstrict : authority.enforcementMode=.strict) {field : String} (hf : field∈scopedFields call) :
    field∈(authority.groups call.toolName).flatten := by
  have hmem : field∈Authority.resourceFields call authority := by
    refine mem_sortedSet.mpr (List.mem_append_left _ ?_)
    rw [if_neg (by simp [hstrict])]
    exact hf
  have hcheck := (Authority.passed h).within _ hmem
  simp only [TaskAuthority.groups, List.flatten_cons, List.flatten_nil, List.mem_append,
    List.not_mem_nil, or_false]
  unfold Authority.resource TaskAuthority.pinned at hcheck
  split at hcheck
  · rename_i hpinned
    simp only [Bool.or_eq_true, decide_eq_true_eq] at hpinned
    rcases hpinned with hv | hd
    · exact Or.inl hv
    · exact Or.inr (Or.inr (Or.inl hd))
  split at hcheck
  · cases hcheck
  · rename_i values hv
    exact Or.inr (Or.inl (List.mem_map.mpr ⟨_, SortedMap.mem_entries.mpr hv, rfl⟩))

theorem selector_granted
    (h : checkAuthority platform goal call observations authority previousCalls = Check.pass)
    (hstrict : authority.enforcementMode=.strict) {field : String}
    (hf : field∈SecurityDescriptors.fieldsOf SecurityDescriptors.objectFields call.toolName)
    (hk : field∈call.arguments.keys) : field∈(authority.groups call.toolName).flatten :=
  scoped_granted h hstrict (mem_sortedSet.mpr (List.mem_filter.mpr ⟨by simp [hf], by simpa using hk⟩))

/-- Requested resources are granted whatever the effect of the call. -/
theorem requested_granted {effect : Effect} (h : ungrantedFields call authority effect = [])
    (hne : call.requestedResources≠[]) :
    "requested_resources"∈(authority.groups call.toolName).flatten := by
  have hnot := List.filter_eq_nil_iff.mp h "requested_resources" (by simp [hne])
  by_contra hg
  refine hnot ?_
  simp only [emailOptional, Bool.and_eq_true, Bool.not_eq_true', decide_eq_true_eq,
    List.mem_append, hg, false_or]
  refine ⟨by simp, ?_⟩
  split <;> simp

/-- The reviewed selectors of a tool are its object fields, and the tool is a read. -/
theorem adapters_select : ∀ a∈SecurityDescriptors.readAdapters, ∀ row∈a.2,
    row.1∈EffectRegistry.read ∧ ∀ field∈row.2.resources,
      field∈SecurityDescriptors.fieldsOf SecurityDescriptors.objectFields row.1 ∧
      field≠"amount" ∧ field∉["cc", "bcc", "attachments"] ∧ field≠"requested_resources" ∧
      field∉SecurityDescriptors.fieldsOf SecurityDescriptors.generatableFields row.1 := by
  decide

namespace CompiledAuthority

/-- No read of the tool is allowed under the schema. -/
def Withholds (crypto : Crypto) (tool : String) (schema : Schema) : Prop :=
  ∀ {platform : Platform} {authority : TaskAuthority} {schemas : Schemas}
    {compiled : CompiledAuthority} {goal : String} {call : ToolCall}
    {observations : List Observation} {previousCalls : List ToolCall} {out : SupervisorOutput},
    compile crypto authority schemas = .ok compiled → schemas.get? tool = some schema →
    call.toolName=tool → toolEffect call = .ok .read →
    compiled.evaluate platform crypto goal call observations previousCalls = .ok out →
    out.decision≠.allow

/-- An allowed read: its adapter, its normal form and what grants its objects. -/
structure ReadsApproved (crypto : Crypto) (call : ToolCall) (observations : List Observation)
    (authority : TaskAuthority) (schema : Schema) (reviewed : ReadAdapter) (normalized : ToolCall) :
    Prop where
  bound : schema.Bound crypto call.toolName reviewed
  whole : Function.Injective crypto.sha256 → ∀ other≠schema,
    (other.get? extension = schema.get? extension ∨
      other.erase extension = schema.erase extension) → Withholds crypto call.toolName other
  reads : reviewed.Reads call normalized
  selectors : ∀ field∈reviewed.resources, ∃ value,
    normalized.arguments.get field = some value ∧
      Scoped normalized observations authority field value
  implicit : ∀ resource∈reviewed.implicit.getD [], resource∈normalized.requestedResources ∧
    Scoped normalized observations authority "requested_resources" normalized.resources

theorem evaluate_bound {crypto : Crypto} {schemas : Schemas} {compiled : CompiledAuthority}
    {out : SupervisorOutput} {schema : Schema}
    (hc : compile crypto authority schemas = .ok compiled)
    (hs : schemas.get? call.toolName = some schema) (he : toolEffect call = .ok .read)
    (h : compiled.evaluate platform crypto goal call observations previousCalls = .ok out)
    (ha : out.decision=.allow) :
    ∃ reviewed normalized, schema.Bound crypto call.toolName reviewed ∧
      reviewed.Reads call normalized ∧
      checkAuthority platform goal normalized observations authority previousCalls = Check.pass := by
  obtain ⟨-, hscope, hschemas⟩ := compile_ok hc
  obtain ⟨-, schemas', schema', normalized, authority', hallowed⟩ := evaluate_allow h ha
  cases hscope.symm.trans hallowed.grant
  cases hschemas.symm.trans hallowed.parsed
  cases hs.symm.trans hallowed.known
  have hform := hallowed.form
  unfold readForm at hform
  rw [he] at hform
  dsimp only [bind, Except.bind] at hform
  split at hform
  · rename_i found hcall
    cases hform
    obtain ⟨reviewed, hbound, hreads⟩ := scopedReadCall_ok hcall
    exact ⟨reviewed, normalized, hbound, hreads, hallowed.pass⟩
  all_goals cases hform

/-- Strict reads reach only approved objects. -/
theorem evaluate_reads_approved {crypto : Crypto} {schemas : Schemas}
    {compiled : CompiledAuthority} {out : SupervisorOutput}
    (hc : compile crypto authority schemas = .ok compiled)
    (h : compiled.evaluate platform crypto goal call observations previousCalls = .ok out)
    (ha : out.decision=.allow) (he : toolEffect call = .ok .read) :
    ∃ schema reviewed normalized, schemas.get? call.toolName = some schema ∧
      ReadsApproved crypto call observations authority schema reviewed normalized := by
  obtain ⟨hvalid, -, hschemas⟩ := compile_ok hc
  obtain ⟨tools, hv⟩ := TaskAuthority.validate_ok hvalid
  obtain ⟨-, schemas', schema, _, _, hallowed⟩ := evaluate_allow h ha
  cases hschemas.symm.trans hallowed.parsed
  have hknown := hallowed.known
  obtain ⟨reviewed, normalized, hbound, hreads, hpass⟩ := evaluate_bound hc hknown he h ha
  obtain ⟨id, digest, -, hbind⟩ := hbound.binding
  obtain ⟨hadapter, -, -⟩ := bindReadSchema_ok hbind
  obtain ⟨_, rows, -, hrows, hrow⟩ := reviewedAdapter_some hadapter
  obtain ⟨hread, hselectors⟩ := adapters_select _ hrows _ hrow
  refine ⟨schema, reviewed, normalized, hknown, hbound, ?_, hreads, ?_, ?_⟩
  · intro collisionFree other hne hsame _ _ _ _ _ _ _ _ _ hc hs ht he h ha
    rw [← ht] at hs
    obtain ⟨reviewed', normalized', hbound', -, -⟩ := evaluate_bound hc hs he h ha
    rw [ht] at hbound'
    exact hne (hbound.unique collisionFree hbound' hsame)
  · intro field hf
    obtain ⟨value, hsel⟩ := hreads.selectors field hf
    obtain ⟨hobject, hamount, hoptional, hname, hgenerated⟩ := hselectors field hf
    have hkey : field∈normalized.arguments.keys :=
      (normalized.arguments.get_isSome field).mp (by simp [hsel.present])
    have hgrant := selector_granted hpass hv.strict (hreads.tool ▸ hobject) hkey
    have hj := granted_justified hv hpass hgrant
    have hactual : normalized.actual field = value := by
      simp [ToolCall.actual, hname, hsel.present]
    exact ⟨value, hsel.present,
      hactual ▸ hj.of_selector ⟨hamount, hoptional, hreads.tool ▸ hgenerated⟩⟩
  · intro resource hr
    have hmem := (hreads.requested resource).mpr (Or.inr hr)
    have heffect : toolEffect normalized = .ok .read := by
      unfold toolEffect
      rw [if_pos (hreads.tool ▸ hread)]
      rfl
    have hopen := Authority.strictFields_pass hv.strict heffect (Authority.passed hpass).complete
    have hgrant := requested_granted hopen (List.ne_nil_of_mem hmem)
    exact ⟨hmem, (granted_justified hv hpass hgrant).of_selector
      ⟨by decide, by decide, resources_not_generated _⟩⟩

/-! A search of the documents under the embedded adapter, with the corpus granted. -/

def searchDigest : String := "1dc63095e8672403bbe40fa26719d175e695c0167f6daad6b9655f6506491f01"

/-- The digest of the schema's text, and that of the compiled texts. -/
def searchCrypto : Crypto where
  sha256 text := if text.toList.length=79 then searchDigest else
    "5e1db421f47bd646521526573fa83831cd036516de2b6609e645c79a2a6877f4"
  publicKey := id
  sign _ text := text
  verify _ text signature := text=signature

def searchAuthority : TaskAuthority where
  allowedTools := some ["search_documents"]
  resourceValues := SortedMap.empty.insert "search_documents"
    (SortedMap.empty.insert "requested_resources" [Json.Doc.of (.str "corpus:documents")])
  enforcementMode := .strict

def searchSchema : Schema :=
  (((SortedMap.empty.insert "type" (Json.Doc.of (.str "object"))).insert "properties"
    (Json.Doc.of (.obj [("query", .obj [("type", .str "string")])]))).insert "required"
    (Json.Doc.of (.arr [.str "query"]))).insert extension
    (Json.Doc.of (adapterBinding "embedded-v1" searchDigest))

def searchSchemas : Schemas := SortedMap.empty.insert "search_documents" searchSchema

def searchCall (resources : List String) : ToolCall where
  taskId := "task"
  stepId := 0
  toolName := "search_documents"
  arguments := ⟨[("query", .str "report")], by simp⟩
  requestedResources := resources
  callId := "call"

theorem evaluate_reads_approved_sample : ∃ schema reviewed normalized,
    searchSchemas.get? "search_documents" = some schema ∧
      ReadsApproved searchCrypto (searchCall []) [] searchAuthority schema reviewed normalized := by
  obtain ⟨compiled, hc⟩ : ∃ compiled,
      compile searchCrypto searchAuthority searchSchemas = .ok compiled :=
    compile_plain (by decide +kernel) (by decide +kernel) (by decide +kernel)
  obtain ⟨-, hscope, hschemas⟩ := compile_ok hc
  have hallowed : compiled.Allowed samplePlatform searchCrypto "" (searchCall []) [] []
      searchSchemas searchSchema (searchCall ["corpus:documents"]) searchAuthority :=
    ⟨hschemas, rfl, rfl, rfl, hscope, rfl⟩
  exact evaluate_reads_approved hc (evaluate_granted hallowed) rfl rfl

end CompiledAuthority
end TraceGuard
