import TraceGuard.GatewayRoutes

/-! The arguments that an allowed read passes on. A bound schema that declares a property admits reviewed names
only; one that declares none leaves the names to the schema validator. -/
namespace TraceGuard
open Raising
open Json (Codec)

/-- What `bind_read_schema` returns: the schema with its binding. -/
def Schema.bind (schema : Schema) (binding : Json) : Schema :=
  (schema.erase extension).insert extension (Json.Doc.of binding)

theorem Schema.bind_get? (schema : Schema) (binding : Json) (key : String) :
    (schema.bind binding).get? key =
      if key=extension then some (Json.Doc.of binding) else schema.get? key := by
  unfold bind
  rw [SortedMap.get?_insert, SortedMap.get?_erase]
  split <;> rfl

theorem Schema.bind_erase (schema : Schema) (binding : Json) :
    (schema.bind binding).erase extension = schema.erase extension := by
  refine SortedMap.ext_get? fun key => ?_
  rw [SortedMap.get?_erase, SortedMap.get?_erase, Schema.bind_get?]
  split <;> rfl

theorem bindReadSchema_bind (crypto : Crypto) (schema : Schema) (binding adapterId : Json)
    (tool : String) : bindReadSchema crypto (schema.bind binding) adapterId tool =
      bindReadSchema crypto schema adapterId tool := by
  unfold bindReadSchema
  rw [Schema.bind_erase]

/-- The schema has a property. -/
def Schema.Declares (schema : Schema) : Prop :=
  ∃ member members, (schema.get? "properties").map Json.Doc.val = some (.obj (member :: members))

/-- A name that stands for an object whatever the tool is. -/
def objectName (name : String) : Bool := endsWith name "_id" || endsWith name "_ids"

/-- Arguments that the schema accepts and that some strict authority can grant a read: the paths are not
protected, and what stands for an object can be written into a grant. -/
structure Admissible (platform : Platform) (schema : Schema) (arguments : Dict Json) : Prop where
  valid : platform.validateArguments arguments schema = .ok ()
  unprotected : ∀ name∈["path", "file_path"], ∀ value, arguments.get name = some value →
    sensitivePath platform (platform.text value) = false
  grantable : ∀ name value, arguments.get name = some value → objectName name = true →
    schema.get? "properties" = none ∧ value.plain = true

/-- Every read that any strict authority over the schema allows has reviewed argument names only. -/
def InventoryComplete (platform : Platform) (crypto : Crypto) (tool : String) (schema : Schema)
    (reviewed : ReadAdapter) : Prop :=
  ∀ (authority : TaskAuthority) (schemas : Schemas) (compiled : CompiledAuthority) (goal : String)
    (call : ToolCall) (observations : List Observation) (previousCalls : List ToolCall),
    CompiledAuthority.compile crypto authority schemas = .ok compiled →
    schemas.get? tool = some schema → call.toolName=tool → toolEffect call = .ok .read →
    Allows (compiled.evaluate platform crypto goal call observations previousCalls) →
    ∀ name∈call.arguments.keys, name∈reviewed.fields

section
variable {platform : Platform} {crypto : Crypto} {schema : Schema} {adapterId : Json} {tool : String}
  {reviewed : ReadAdapter} {binding : Json} {arguments : Dict Json}

theorem propertiesOf_erase (schema : Schema) :
    propertiesOf (schema.erase extension) = propertiesOf schema := by
  unfold propertiesOf
  rw [SortedMap.get?_erase, if_neg (by decide)]

theorem bind_properties (schema : Schema) (binding : Json) :
    (schema.bind binding).get? "properties" = schema.get? "properties" := by
  rw [Schema.bind_get?, if_neg (by decide)]

/-- The properties of a bound schema are reviewed. -/
theorem bound_properties (h : bindReadSchema crypto schema adapterId tool = .ok (reviewed, binding)) :
    (schema.get? "properties" = none ∧ reviewed.resources = []) ∨
      ∃ members, (schema.get? "properties").map Json.Doc.val = some (.obj members) ∧
        (∀ m∈members, m.1∈reviewed.fields) ∧ ∀ field∈reviewed.resources, field∈members.map Prod.fst := by
  obtain ⟨-, ⟨properties, hproperties, hfields, hresources⟩, -⟩ := bindReadSchema_ok h
  rw [propertiesOf_erase] at hproperties
  unfold propertiesOf at hproperties
  split at hproperties
  · rename_i hnone
    cases hproperties
    exact Or.inl ⟨hnone, List.eq_nil_iff_forall_not_mem.mpr fun f hf => by simpa using hresources f hf⟩
  · rename_i doc hdoc
    split at hproperties
    · rename_i members hmembers
      cases hproperties
      exact Or.inr ⟨properties, by rw [hdoc, Option.map_some, hmembers], hfields, hresources⟩
    · cases hproperties

/-- A declared property makes the validator check every name. -/
theorem declared_names (hd : schema.Declares) (h : platform.validateArguments arguments schema = .ok ())
    {members : List (String × Json)}
    (hm : (schema.get? "properties").map Json.Doc.val = some (.obj members)) :
    ∀ name∈arguments.keys, name∈members.map Prod.fst := by
  obtain ⟨member, rest, hd⟩ := hd
  cases hd.symm.trans hm
  obtain ⟨doc, hdoc, hval⟩ := Option.map_eq_some_iff.mp hm
  unfold Platform.validateArguments at h
  obtain ⟨-, h⟩ := guard_ok h
  obtain ⟨accepted, -, h⟩ := bind_ok h
  obtain ⟨-, h⟩ := guard_ok h
  rw [hdoc] at h
  dsimp only at h
  have htruthy : truthy (.obj (member :: rest)) = true := rfl
  rw [hval, if_pos htruthy] at h
  obtain ⟨names, hnames, h⟩ := bind_ok h
  cases hnames
  split at h
  · cases h
  rename_i hall
  intro name hn
  simp only [Bool.not_eq_true, Bool.not_eq_false', List.all_eq_true, decide_eq_true_eq] at hall
  simpa using hall name hn

/-! What an allowed read has passed under a schema that declares nothing. -/

theorem objectName_facts : objectName "requested_resources" = false ∧ objectName "amount" = false ∧
    (∀ name∈["cc", "bcc", "attachments"], objectName name = false) ∧
    ∀ row∈SecurityDescriptors.generatableFields, ∀ name∈row.2, objectName name = false := by
  decide

theorem objectName_selector {name : String} (tool : String) (h : objectName name = true) :
    name≠"requested_resources" ∧ Selector tool name := by
  obtain ⟨hrequested, hamount, hoptional, hgenerated⟩ := objectName_facts
  refine ⟨?_, ?_, ?_, ?_⟩
  · rintro rfl
    rw [hrequested] at h
    cases h
  · rintro rfl
    rw [hamount] at h
    cases h
  · intro hm
    rw [hoptional name hm] at h
    cases h
  · intro hm
    unfold SecurityDescriptors.fieldsOf at hm
    cases hl : SecurityDescriptors.generatableFields.lookup tool with
    | none => simp [hl] at hm
    | some fields =>
      obtain ⟨before, after, he, -⟩ := List.lookup_eq_some_iff.mp hl
      rw [hl] at hm
      rw [hgenerated (tool, fields) (he ▸ by simp) name hm] at h
      cases h

theorem Scoped.plain {call : ToolCall} {observations : List Observation} {authority : TaskAuthority}
    {field : String} {value : Json} (h : Scoped call observations authority field value) :
    value.plain = true := by
  cases h with
  | fixed grant same => exact same.1
  | delegated grant single same => exact same.1
  | resource grant nonempty same =>
    cases value with
    | arr items => exact Json.plainItems_iff.mpr fun v hv => (same v hv).elim fun _ hp => hp.2.1
    | obj | null | bool | int | float | str =>
      exact (same _ (List.mem_singleton.mpr rfl)).elim fun _ hp => hp.2.1

theorem TaskAuthority.validateTools_covered {a : TaskAuthority} {schemas : Option Schemas}
    {tools : List String} (h : a.validateTools schemas tools = .ok ()) :
    ∀ tool∈tools, a.covered tool schemas = .ok true := by
  induction tools with
  | nil => simp
  | cons tool tools ih =>
    unfold validateTools at h
    obtain ⟨-, h⟩ := guard_ok h
    obtain ⟨covered, hcovered, h⟩ := bind_ok h
    obtain ⟨hc, h⟩ := guard_ok h
    refine List.forall_mem_cons.mpr ⟨?_, ih h⟩
    rw [hcovered]
    simpa using hc

theorem TaskAuthority.validate_covered {a : TaskAuthority} {schemas : Option Schemas}
    {tools : List String} (h : a.validate schemas = .ok ()) (ht : a.allowedTools = some tools) :
    ∀ tool∈tools, a.covered tool schemas = .ok true := by
  unfold validate at h
  obtain ⟨-, h⟩ := guard_ok h
  rw [ht] at h
  dsimp only at h
  obtain ⟨-, h⟩ := guard_ok h
  obtain ⟨-, h⟩ := guard_ok h
  obtain ⟨-, h⟩ := guard_ok h
  obtain ⟨-, h⟩ := guard_ok h
  exact validateTools_covered h

theorem Schema.properties_empty (h : (schema.get? "properties").map Json.Doc.val = some (.obj [])) :
    schema.properties = some (.obj []) := by
  obtain ⟨doc, hdoc, hval⟩ := Option.map_eq_some_iff.mp h
  unfold Schema.properties
  rw [hdoc]
  obtain ⟨val, canonical⟩ := doc
  cases hval
  rfl

/-- Under a schema without properties only what no schema checks can be granted. -/
theorem covered_open {a : TaskAuthority} {schemas : Schemas} {name : String}
    (h : a.covered tool (some schemas) = .ok true) (hs : schemas.get? tool = some schema)
    (hd : (schema.get? "properties").map Json.Doc.val = some (.obj []))
    (hn : name∈(a.groups tool).flatten) : name="requested_resources" := by
  unfold TaskAuthority.covered at h
  rw [Option.bind_some, hs, Option.bind_some, Schema.properties_empty hd] at h
  dsimp only at h
  obtain ⟨names, hnames, h⟩ := bind_ok h
  cases hnames
  have hall := List.all_eq_true.mp (Except.ok.inj h) name hn
  simpa using hall

theorem allowed_admissible {schemas : Schemas} {compiled : CompiledAuthority} {goal : String}
    {call : ToolCall} {observations : List Observation} {previousCalls : List ToolCall}
    {authority : TaskAuthority} (hbind : bindReadSchema crypto schema adapterId tool = .ok (reviewed, binding))
    (hd : ¬ (schema.bind binding).Declares)
    (hc : CompiledAuthority.compile crypto authority schemas = .ok compiled)
    (hs : schemas.get? tool = some (schema.bind binding)) (ht : call.toolName=tool)
    (he : toolEffect call = .ok .read)
    (h : Allows (compiled.evaluate platform crypto goal call observations previousCalls)) :
    Admissible platform (schema.bind binding) call.arguments := by
  subst ht
  obtain ⟨out, hout, ha⟩ := h
  obtain ⟨hvalid, hscope, hschemas⟩ := CompiledAuthority.compile_ok hc
  obtain ⟨tools, hv⟩ := TaskAuthority.validate_ok hvalid
  obtain ⟨-, schemas', schema', normalized', authority', hallowed⟩ := CompiledAuthority.evaluate_allow hout ha
  obtain ⟨reviewed', normalized, -, hreads, hpass⟩ := CompiledAuthority.evaluate_bound hc hs he hout ha
  cases hschemas.symm.trans hallowed.parsed
  cases hs.symm.trans hallowed.known
  refine ⟨hallowed.valid, fun name hname value hvalue => ?_, fun name value hvalue hobject => ?_⟩
  · have hpaths : Authority.paths platform normalized = Check.pass :=
      firstDenial_pass.mp hpass _ (by simp [Authority.checks])
    unfold Authority.paths at hpaths
    split at hpaths
    · cases hpaths
    rename_i hany
    rw [Bool.not_eq_true, List.any_eq_false] at hany
    have := hany name hname
    rwa [hreads.kept name value hvalue, Bool.not_eq_true] at this
  · have hkept := hreads.kept name value hvalue
    obtain ⟨hrequested, hselector⟩ := objectName_selector normalized.toolName hobject
    have hkey : name∈normalized.arguments.keys := (normalized.arguments.get_isSome name).mp (by simp [hkept])
    have hscoped : name∈scopedFields normalized := by
      refine mem_sortedSet.mpr (List.mem_filter.mpr ⟨?_, by simpa using hkey⟩)
      refine List.mem_append_right _ (List.mem_filter.mpr ⟨hkey, ?_⟩)
      simpa [objectName] using hobject
    have hgrant := scoped_granted hpass hv.strict hscoped
    have hjustified := (granted_justified hv hpass hgrant).of_selector hselector
    have hactual : normalized.actual name = value := by simp [ToolCall.actual, hrequested, hkept]
    refine ⟨?_, hactual ▸ hjustified.plain⟩
    rcases bound_properties hbind with ⟨hnone, -⟩ | ⟨members, hmembers, -⟩
    · rw [bind_properties, hnone]
    · cases members with
      | cons member members => exact absurd ⟨member, members, by rw [bind_properties, hmembers]⟩ hd
      | nil =>
        have htool := Authority.allowed_pass (Authority.passed hpass).listed hv.listed
        have hcovered := TaskAuthority.validate_covered hvalid hv.listed _ htool
        rw [hreads.tool] at hcovered hgrant
        exact absurd (covered_open hcovered hs (by rw [bind_properties, hmembers]) hgrant) hrequested

/-! An authority that grants a read whatever its schema accepts. -/

theorem TaskAuthority.validate_intro {a : TaskAuthority} {schemas : Option Schemas} {tools : List String}
    (hmode : a.enforcementMode=.strict) (hlisted : a.allowedTools=some tools)
    (hconfigured : ∀ name∈a.configured, name∈tools)
    (hknown : ∀ m, schemas=some m → ∀ name∈tools, name∈m.keys)
    (hrepeat : ∀ name∈a.repeatableTools, name∈tools)
    (hgenerated : ∀ e∈a.generatedFields.entries, ∀ field∈e.2,
      field∈SecurityDescriptors.fieldsOf SecurityDescriptors.generatableFields e.1)
    (htools : a.validateTools schemas tools = .ok ()) : a.validate schemas = .ok () := by
  have hconfigured : a.configured.all (·∈tools) = true := by simpa using hconfigured
  have hrepeat : a.repeatableTools.all (·∈tools) = true := by simpa using hrepeat
  have hgenerated : (a.generatedFields.entries.all fun e => e.2.all fun field =>
      field∈SecurityDescriptors.fieldsOf SecurityDescriptors.generatableFields e.1) = true := by
    simpa using hgenerated
  unfold validate
  cases schemas with
  | none => simp [hmode, hlisted, hconfigured, hrepeat, hgenerated, htools]
  | some m =>
    have hknown : (tools.all (·∈m.keys)) = true := by simpa using hknown m rfl
    simp [hmode, hlisted, hconfigured, hrepeat, hgenerated, hknown, htools]

/-- Every object that the arguments name, with the value they have. -/
def namedObjects (arguments : Dict Json) : SortedMap String Json.Doc :=
  (SortedMap.ofList (arguments.items.map fun m => (m.1, Json.Doc.of m.2))).filter fun name _ =>
    objectName name

/-- The tool, the objects that the arguments name and what its adapter reads implicitly. -/
def openAuthority (tool : String) (reviewed : ReadAdapter) (arguments : Dict Json) : TaskAuthority where
  allowedTools := some [tool]
  argumentValues := SortedMap.empty.insert tool (namedObjects arguments)
  resourceValues :=
    if reviewed.implicit.getD [] = [] then .empty
    else SortedMap.empty.insert tool (SortedMap.empty.insert "requested_resources"
      ((reviewed.implicit.getD []).map fun resource => Json.Doc.of (.str resource)))
  enforcementMode := .strict

theorem namedObjects_get? {name : String} {doc : Json.Doc} :
    (namedObjects arguments).get? name = some doc ↔
      objectName name = true ∧ ∃ value, arguments.get name = some value ∧ doc=Json.Doc.of value := by
  have hkeys : ((arguments.items.map fun m => (m.1, Json.Doc.of m.2)).map Prod.fst).Nodup := by
    rw [List.map_map]
    exact arguments.distinct
  unfold namedObjects
  rw [SortedMap.get?_filter, SortedMap.get?_ofList hkeys, SortedMap.lookup_map]
  cases hg : arguments.items.lookup name with
  | none => simp [Dict.get, hg]
  | some value =>
    simp only [Option.map_some, Option.filter_some, Dict.get, hg, Option.some.injEq, exists_eq_left']
    cases objectName name <;> simp [eq_comm]

theorem mem_namedObjects {name : String} : name∈(namedObjects arguments).keys ↔
    objectName name = true ∧ name∈arguments.keys := by
  constructor
  · intro h
    obtain ⟨⟨_, doc⟩, hm, rfl⟩ := List.mem_map.mp h
    obtain ⟨hobject, value, hvalue, -⟩ := namedObjects_get?.mp (SortedMap.mem_entries.mp hm)
    exact ⟨hobject, (arguments.get_isSome _).mp (by simp [hvalue])⟩
  · rintro ⟨hobject, hk⟩
    obtain ⟨value, hvalue⟩ := Option.isSome_iff_exists.mp ((arguments.get_isSome name).mpr hk)
    exact List.mem_map.mpr ⟨(name, Json.Doc.of value),
      SortedMap.mem_entries.mpr (namedObjects_get?.mpr ⟨hobject, value, hvalue, rfl⟩), rfl⟩

/-- The grants of the authority for its tool. -/
theorem open_grants (tool : String) (reviewed : ReadAdapter) (arguments : Dict Json) :
    (openAuthority tool reviewed arguments).valuesOf tool = namedObjects arguments ∧
    (openAuthority tool reviewed arguments).resourcesOf tool =
      (if reviewed.implicit.getD [] = [] then .empty else SortedMap.empty.insert "requested_resources"
        ((reviewed.implicit.getD []).map fun resource => Json.Doc.of (.str resource))) ∧
    (openAuthority tool reviewed arguments).delegatedOf tool = .empty ∧
    (openAuthority tool reviewed arguments).generatedOf tool = [] := by
  refine ⟨?_, ?_, rfl, rfl⟩
  · simp [openAuthority, TaskAuthority.valuesOf]
  · unfold openAuthority TaskAuthority.resourcesOf
    dsimp only
    split <;> simp

theorem open_resource_keys : ∀ name∈((openAuthority tool reviewed arguments).resourcesOf tool).keys,
    name="requested_resources" ∧ reviewed.implicit.getD []≠[] := by
  intro name h
  rw [(open_grants _ _ _).2.1] at h
  split at h
  · cases h
  · rename_i hne
    exact ⟨List.mem_singleton.mp h, hne⟩

theorem open_groups {name : String}
    (h : name∈((openAuthority tool reviewed arguments).groups tool).flatten) :
    name="requested_resources" ∨ objectName name = true ∧ name∈arguments.keys := by
  obtain ⟨hvalues, -, hdelegated, hgenerated⟩ := open_grants tool reviewed arguments
  simp only [TaskAuthority.groups, hvalues, hdelegated, hgenerated, List.flatten_cons, List.flatten_nil,
    List.mem_append, List.not_mem_nil, or_false] at h
  rcases h with h | h | h
  · exact Or.inr (mem_namedObjects.mp h)
  · exact Or.inl (open_resource_keys _ h).1
  · cases h

theorem open_disjoint : (openAuthority tool reviewed arguments).disjoint tool = true := by
  obtain ⟨hvalues, -, hdelegated, hgenerated⟩ := open_grants tool reviewed arguments
  have hempty : (SortedMap.empty : SortedMap String (List String)).keys=[] := rfl
  refine decide_eq_true ?_
  rw [TaskAuthority.groups, hvalues, hdelegated, hgenerated, hempty]
  have hapart : ∀ name∈(namedObjects arguments).keys,
      name∉((openAuthority tool reviewed arguments).resourcesOf tool).keys := by
    intro name hm hr
    have hobject := (mem_namedObjects.mp hm).1
    rw [(open_resource_keys _ hr).1, objectName_facts.1] at hobject
    cases hobject
  simpa using hapart

/-- The authority is valid under a schema that declares nothing, if no schema names the objects it grants. -/
theorem open_valid {schemas : Option Schemas} (hs : ∀ m, schemas=some m → m.get? tool = some schema)
    (hd : schema.properties = none ∨ schema.properties = some (.obj []) ∧
      ∀ name∈arguments.keys, objectName name = false) :
    (openAuthority tool reviewed arguments).validate schemas = .ok () := by
  have hcovered : (openAuthority tool reviewed arguments).covered tool schemas = .ok true := by
    unfold TaskAuthority.covered
    cases schemas with
    | none => rfl
    | some m =>
      rw [Option.bind_some, hs m rfl, Option.bind_some]
      rcases hd with hd | ⟨hd, hnone⟩
      · rw [hd]
      · rw [hd]
        dsimp only [elementsOf, bind, Except.bind]
        refine congrArg Except.ok (List.all_eq_true.mpr fun name hm => ?_)
        rcases open_groups hm with rfl | ⟨hobject, hk⟩
        · rfl
        · rw [hnone name hk] at hobject
          cases hobject
  have hconfigured : ∀ name∈(openAuthority tool reviewed arguments).configured, name=tool := by
    intro name hm
    simp only [TaskAuthority.configured, List.mem_append] at hm
    rcases hm with ((hm | hm) | hm) | hm
    · exact List.mem_singleton.mp hm
    · unfold openAuthority at hm
      dsimp only at hm
      split at hm
      · cases hm
      · exact List.mem_singleton.mp hm
    · cases hm
    · cases hm
  have hknown : ∀ m, schemas=some m → ∀ name∈[tool], name∈m.keys := by
    intro m hm name hname
    rw [List.mem_singleton.mp hname]
    exact List.mem_map.mpr ⟨(tool, schema), SortedMap.mem_entries.mpr (hs m hm), rfl⟩
  have htools : (openAuthority tool reviewed arguments).validateTools schemas [tool] = .ok () := by
    simp [TaskAuthority.validateTools, open_disjoint, hcovered, bind, Except.bind]
  exact TaskAuthority.validate_intro rfl rfl (fun name hm => by simp [hconfigured name hm]) hknown
    (fun _ hm => nomatch hm) (fun _ hm => nomatch hm) htools

/-! The reads that need no resource selector. -/

theorem selectorless : ∀ row∈SecurityDescriptors.readAdapters, ∀ adapter∈row.2, adapter.2.resources=[] →
    adapter.1∈EffectRegistry.read ∧ adapter.1≠"harmful_action_simulator" ∧
      SecurityDescriptors.fieldsOf SecurityDescriptors.objectFields adapter.1 = [] ∧
      SecurityDescriptors.fieldsOf SecurityDescriptors.networkFields adapter.1 = [] ∧
      adapter.1∉SecurityDescriptors.sensitiveReads ∧ adapter.1∉paymentTools ∧ adapter.1≠"send_email" := by
  decide

/-- The call with the arguments, and in its adapter's form. -/
def openCall (tool : String) (arguments : Dict Json) : ToolCall where
  taskId := "task"
  stepId := 0
  toolName := tool
  arguments := arguments
  callId := "call"

def openForm (tool : String) (reviewed : ReadAdapter) (arguments : Dict Json) : ToolCall :=
  { openCall tool arguments with requestedResources := sortedSet (reviewed.implicit.getD []) }

theorem adapterBinding_same (id digest : String) :
    (adapterBinding id digest).pyEq (adapterBinding id digest) = true := by
  have hl : [("id", Json.str id), ("schema_digest", Json.str digest)].lookup "schema_digest" =
      some (.str digest) := rfl
  simp [adapterBinding, Json.pyEq, Json.eqMembers, hl]

theorem scopedReadCall_open
    (h : bindReadSchema crypto schema adapterId tool = .ok (reviewed, binding))
    (hr : reviewed.resources=[]) :
    scopedReadCall crypto (openCall tool arguments) (schema.bind binding) =
      .ok (openForm tool reviewed arguments) := by
  obtain ⟨-, -, id, text, rfl, -, hb⟩ := bindReadSchema_ok h
  have hbinding : bindingOf (schema.bind binding) = .ok (binding, .str id) := by
    unfold bindingOf
    rw [Schema.bind_get?, if_pos rfl]
    dsimp only [Json.Doc.of]
    rw [hb, (adapterBinding_canonical id (crypto.sha256 text)).sorted_eq]
    rfl
  have hsame : binding.pyEq binding = true := hb ▸ adapterBinding_same id _
  have hform : reviewed.normalize (openCall tool arguments) = .ok (openForm tool reviewed arguments) := by
    unfold ReadAdapter.normalize
    rw [hr]
    rfl
  unfold scopedReadCall
  rw [hbinding]
  have htool : (openCall tool arguments).toolName=tool := rfl
  simp [htool, bindReadSchema_bind, h, hsame, hform, bind, Except.bind]

/-! The checks of such a read. -/

theorem sameValue_of {value : Json} (h : value.plain = true) :
    sameValue value (Json.Doc.of value).val = true :=
  sameValue_iff.mpr ⟨h, Json.plain_sorted value h, (Json.canonical_sorted value).sorted_eq.symm⟩

theorem open_match
    (hg : ∀ name value, arguments.get name = some value → objectName name = true → value.plain = true) :
    Authority.argumentsMatch (openForm tool reviewed arguments) (openAuthority tool reviewed arguments) =
      Check.pass := by
  unfold Authority.argumentsMatch
  have hnone : ((openAuthority tool reviewed arguments).valuesOf tool).entries.find?
      (fun e => !sameValue ((openForm tool reviewed arguments).actual e.1) e.2.val) = none := by
    refine List.find?_eq_none.mpr fun e he => ?_
    rw [(open_grants _ _ _).1] at he
    obtain ⟨hobject, value, hvalue, hdoc⟩ := namedObjects_get?.mp (SortedMap.mem_entries.mp he)
    have hactual : (openForm tool reviewed arguments).actual e.1 = value := by
      have hne := (objectName_selector tool hobject).1
      simp [ToolCall.actual, hne, openForm, openCall, hvalue]
    rw [hactual, hdoc, sameValue_of (hg _ _ hvalue hobject)]
    decide
  have htool : (openForm tool reviewed arguments).toolName=tool := rfl
  rw [htool, hnone]

theorem open_resource
    (hfields : SecurityDescriptors.fieldsOf SecurityDescriptors.objectFields tool = [] ∧
      SecurityDescriptors.fieldsOf SecurityDescriptors.networkFields tool = []) :
    ∀ field∈Authority.resourceFields (openForm tool reviewed arguments)
        (openAuthority tool reviewed arguments),
      Authority.resource (openForm tool reviewed arguments) (openAuthority tool reviewed arguments) field =
        Check.pass := by
  obtain ⟨hvalues, hresources, hdelegated, -⟩ := open_grants tool reviewed arguments
  intro field hf
  have htool : (openForm tool reviewed arguments).toolName=tool := rfl
  have hpinned : objectName field = true → field∈arguments.keys →
      (openAuthority tool reviewed arguments).pinned tool field = true := by
    intro hobject hk
    simp [TaskAuthority.pinned, hvalues, mem_namedObjects, hobject, hk]
  unfold Authority.resource
  rw [htool]
  unfold Authority.resourceFields at hf
  rcases List.mem_append.mp (mem_sortedSet.mp hf) with hf | hf
  · have hscoped : objectName field = true ∧ field∈arguments.keys := by
      have hf : field∈scopedFields (openForm tool reviewed arguments) := by
        split at hf
        · cases hf
        · exact hf
      have hm := List.mem_filter.mp (mem_sortedSet.mp hf)
      rw [htool, hfields.1, hfields.2] at hm
      simpa [objectName, openForm, openCall, and_comm] using hm.1
    rw [if_pos (hpinned hscoped.1 hscoped.2)]
  · obtain ⟨rfl, hne⟩ := open_resource_keys field hf
    have hunpinned : (openAuthority tool reviewed arguments).pinned tool "requested_resources" = false := by
      simp only [TaskAuthority.pinned, hvalues, hdelegated, Bool.or_eq_false_iff, decide_eq_false_iff_not,
        mem_namedObjects, objectName_facts.1]
      exact ⟨fun hm => Bool.false_ne_true hm.1, List.not_mem_nil⟩
    rw [hunpinned, hresources, if_neg hne, SortedMap.get?_insert_self]
    have hpermitted : Authority.permitted
        ((openForm tool reviewed arguments).actual "requested_resources")
        ((reviewed.implicit.getD []).map fun resource => Json.Doc.of (.str resource)) = true := by
      simp only [Authority.permitted_iff, ToolCall.actual, if_pos, openForm, Authority.valuesIn]
      refine ⟨fun hnil => hne ?_, fun value hv => ?_⟩
      · refine List.eq_nil_iff_forall_not_mem.mpr fun resource hm => ?_
        have := List.mem_map_of_mem (f := Json.str) (mem_sortedSet.mpr hm)
        rw [hnil] at this
        cases this
      · obtain ⟨resource, hm, rfl⟩ := List.mem_map.mp hv
        exact ⟨_, List.mem_map_of_mem (mem_sortedSet.mp hm), rfl, rfl, rfl⟩
    simp [hpermitted]

theorem open_complete (reviewed : ReadAdapter) (arguments : Dict Json) (hpay : tool∉paymentTools) :
    ungrantedFields (openForm tool reviewed arguments) (openAuthority tool reviewed arguments) .read = [] ∧
      Authority.unresolvedAmount (openForm tool reviewed arguments)
        (openAuthority tool reviewed arguments) = false := by
  obtain ⟨-, hresources, -, -⟩ := open_grants tool reviewed arguments
  have htool : (openForm tool reviewed arguments).toolName=tool := rfl
  refine ⟨List.filter_eq_nil_iff.mpr fun field hf => ?_, by simp [Authority.unresolvedAmount, htool, hpay]⟩
  have hfield : field="requested_resources" ∧ reviewed.implicit.getD []≠[] := by
    simp only [reduceCtorEq, or_self, if_false, List.nil_append] at hf
    split at hf
    · cases hf
    · rename_i hne
      refine ⟨List.mem_singleton.mp hf, fun hnil => hne ?_⟩
      show sortedSet (reviewed.implicit.getD []) = []
      rw [hnil]
      rfl
  have hgroup : field∈((openAuthority tool reviewed arguments).groups tool).flatten := by
    rw [hfield.1, TaskAuthority.groups, hresources, if_neg hfield.2]
    simp only [List.flatten_cons, List.mem_append]
    exact Or.inr (Or.inl (by simp [SortedMap.keys, SortedMap.insert, SortedMap.empty, SortedMap.insertEntry]))
  simp [htool, hgroup]

/-- Every check of the call passes. -/
theorem open_passes (platform : Platform) (goal : String)
    (hr : toolEffect (openForm tool reviewed arguments) = .ok .read)
    (hvalid : (openAuthority tool reviewed arguments).validate none = .ok ())
    (hharmless : tool≠"harmful_action_simulator")
    (hfields : SecurityDescriptors.fieldsOf SecurityDescriptors.objectFields tool = [] ∧
      SecurityDescriptors.fieldsOf SecurityDescriptors.networkFields tool = [])
    (hsensitive : tool∉SecurityDescriptors.sensitiveReads) (hpay : tool∉paymentTools)
    (hemail : tool≠"send_email")
    (hg : ∀ name value, arguments.get name = some value → objectName name = true → value.plain = true)
    (hp : ∀ name∈["path", "file_path"], ∀ value, arguments.get name = some value →
      sensitivePath platform (platform.text value) = false) :
    checkAuthority platform goal (openForm tool reviewed arguments) []
      (openAuthority tool reviewed arguments) [] = Check.pass := by
  have htool : (openForm tool reviewed arguments).toolName=tool := rfl
  have hallowed : (openAuthority tool reviewed arguments).allowedTools=some [tool] := rfl
  obtain ⟨hopen, hamount⟩ := open_complete reviewed arguments hpay
  refine firstDenial_pass.mpr fun check hcheck => ?_
  simp only [Authority.checks, List.mem_append, List.mem_cons, List.not_mem_nil, or_false,
    List.mem_map] at hcheck
  rcases hcheck with (((rfl | rfl | rfl | rfl | rfl | rfl) | ⟨e, he, rfl⟩) | ⟨field, hf, rfl⟩) |
    rfl | rfl | rfl | rfl | rfl | rfl | rfl
  · simp [duplicateMutation, openAuthority, hr, bind, Except.bind]
  · simp [Authority.effectKnown, hr, bind, Except.bind]
  · simp [Authority.harmless, htool, hharmless]
  · simp [Authority.allowed, hallowed, htool]
  · simp [Authority.strictGrant, hvalid]
  · exact open_match hg
  · rw [htool, (open_grants _ _ _).2.2.1] at he
    cases he
  · exact open_resource hfields field hf
  · simp [Authority.sensitiveRead, htool, hsensitive]
  · simp [Authority.payment, htool, hpay]
  · rfl
  · rfl
  · simp [Authority.email, htool, hemail]
  · refine if_neg ?_
    rw [Bool.not_eq_true, List.any_eq_false]
    intro name hname
    cases hv : (openForm tool reviewed arguments).arguments.get name with
    | none => simp
    | some value => simpa using hp name hname value hv
  · have hmode : (openAuthority tool reviewed arguments).enforcementMode=.strict := rfl
    simp [Authority.strictFields, hmode, hr, hopen, hamount, bind, Except.bind]

theorem plain_docs (h : bindReadSchema crypto schema adapterId tool = .ok (reviewed, binding)) :
    ∀ e∈(schema.bind binding).entries, e.2.val.plain = true := by
  obtain ⟨-, -, id, text, rfl, htext, rfl⟩ := bindReadSchema_ok h
  intro ⟨key, doc⟩ he
  have hget := SortedMap.mem_entries.mp he
  rw [Schema.bind_get?] at hget
  split at hget
  · cases hget
    exact Json.plain_sorted _ rfl
  · rename_i hne
    have herased : (schema.erase extension).get? key = some doc := by
      rw [SortedMap.get?_erase, if_neg hne]
      exact hget
    have hplain := Json.plainMembers_iff.mp (Json.plain_of_dumps htext)
    refine hplain (key, doc.val) (List.mem_map.mpr ⟨(key, doc), SortedMap.mem_entries.mpr herased, rfl⟩)

theorem open_plain
    (hg : ∀ name value, arguments.get name = some value → objectName name = true → value.plain = true) :
    (TaskAuthority.codec.enc (openAuthority tool reviewed arguments)).plain = true := by
  have hvalues : ((Codec.map (.map .doc)).enc
      (openAuthority tool reviewed arguments).argumentValues).plain = true := by
    refine Codec.map_plain.mpr fun e he => Codec.map_plain.mpr fun m hm => ?_
    cases List.mem_singleton.mp he
    obtain ⟨hobject, value, hvalue, hdoc⟩ := namedObjects_get?.mp (SortedMap.mem_entries.mp hm)
    rw [hdoc]
    exact Json.plain_sorted value (hg _ _ hvalue hobject)
  have hresources : ((Codec.map (.map (.list .doc))).enc
      (openAuthority tool reviewed arguments).resourceValues).plain = true := by
    refine Codec.map_plain.mpr fun e he => Codec.map_plain.mpr fun m hm =>
      Codec.list_plain.mpr fun doc hdoc => ?_
    unfold openAuthority at he
    dsimp only at he
    split at he
    · cases he
    · cases List.mem_singleton.mp he
      cases List.mem_singleton.mp hm
      obtain ⟨resource, -, rfl⟩ := List.mem_map.mp hdoc
      rfl
  show Json.plainMembers (openAuthority tool reviewed arguments).members = true
  simp only [TaskAuthority.members, Json.plainMembers, hvalues, hresources, Bool.true_and]
  rfl

theorem schemas_plain (h : bindReadSchema crypto schema adapterId tool = .ok (reviewed, binding)) :
    (Schemas.codec.enc (SortedMap.empty.insert tool (schema.bind binding))).plain = true := by
  refine Codec.map_plain.mpr fun e he => Codec.map_plain.mpr fun m hm => ?_
  cases List.mem_singleton.mp he
  exact plain_docs h m hm

/-- What is admissible under a schema that declares nothing, some authority allows. -/
theorem admissible_allowed
    (h : bindReadSchema crypto schema adapterId tool = .ok (reviewed, binding))
    (hd : ¬ (schema.bind binding).Declares)
    (ha : Admissible platform (schema.bind binding) arguments) :
    ∃ (authority : TaskAuthority) (schemas : Schemas) (compiled : CompiledAuthority),
      CompiledAuthority.compile crypto authority schemas = .ok compiled ∧
        schemas.get? tool = some (schema.bind binding) ∧
        toolEffect (openCall tool arguments) = .ok .read ∧
        Allows (compiled.evaluate platform crypto "" (openCall tool arguments) []) := by
  obtain ⟨valid, unprotected, grantable⟩ := ha
  obtain ⟨hresources, hopen⟩ : reviewed.resources=[] ∧ ((schema.bind binding).properties=none ∨
      (schema.bind binding).properties=some (.obj []) ∧ ∀ name∈arguments.keys, objectName name = false) := by
    rcases bound_properties h with ⟨hnone, hnil⟩ | ⟨members, hmembers, -, hselectors⟩
    · exact ⟨hnil, Or.inl (by simp [Schema.properties, bind_properties, hnone])⟩
    · rw [← bind_properties schema binding] at hmembers
      cases members with
      | cons member members => exact absurd ⟨member, members, hmembers⟩ hd
      | nil =>
        refine ⟨List.eq_nil_iff_forall_not_mem.mpr fun f hf => List.not_mem_nil (hselectors f hf),
          Or.inr ⟨Schema.properties_empty hmembers, fun name hk => ?_⟩⟩
        obtain ⟨value, hvalue⟩ := Option.isSome_iff_exists.mp ((arguments.get_isSome name).mpr hk)
        refine Bool.eq_false_iff.mpr fun hobject => ?_
        rw [(grantable name value hvalue hobject).1] at hmembers
        cases hmembers
  have hplain name value hv hobject := (grantable name value hv hobject).2
  obtain ⟨id, tools, rfl, htools, hrow⟩ := reviewedAdapter_some (bindReadSchema_ok h).1
  obtain ⟨hread, hharmless, hobject, hnetwork, hsensitive, hpay, hemail⟩ :=
    selectorless _ htools _ hrow hresources
  have heffect : ∀ call : ToolCall, call.toolName=tool → toolEffect call = .ok .read := by
    intro call ht
    unfold toolEffect
    rw [ht, if_pos hread]
    rfl
  have hknown : (SortedMap.empty.insert tool (schema.bind binding) : Schemas).get? tool =
      some (schema.bind binding) := SortedMap.get?_insert_self _ _ _
  have hvalid : ∀ schemas : Option Schemas, (∀ m, schemas=some m → m.get? tool = some (schema.bind binding)) →
      (openAuthority tool reviewed arguments).validate schemas = .ok () := fun _ hs => open_valid hs hopen
  obtain ⟨compiled, hc⟩ := @CompiledAuthority.compile_plain crypto _ _
    (hvalid (some (SortedMap.empty.insert tool (schema.bind binding))) (by rintro _ ⟨⟩; exact hknown))
    (open_plain hplain) (schemas_plain h)
  obtain ⟨-, hscope, hschemas⟩ := CompiledAuthority.compile_ok hc
  have hform : CompiledAuthority.readForm crypto (openCall tool arguments) (schema.bind binding) =
      .ok (some (openForm tool reviewed arguments)) := by
    unfold CompiledAuthority.readForm
    rw [heffect (openCall tool arguments) rfl]
    simp [scopedReadCall_open h hresources, bind, Except.bind, pure, Except.pure]
  have hpass := open_passes platform "" (heffect _ rfl)
    (hvalid none fun _ hs => nomatch hs) hharmless ⟨hobject, hnetwork⟩ hsensitive hpay hemail hplain unprotected
  exact ⟨_, _, compiled, hc, hknown, heffect _ rfl, _,
    CompiledAuthority.evaluate_granted ⟨hschemas, hknown, valid, hform, hscope, hpass⟩, rfl⟩

/-- A bound schema keeps the read inventory complete exactly when it declares a property or when the arguments
that it admits are reviewed already. -/
theorem bindReadSchema_inventory
    (h : bindReadSchema crypto schema adapterId tool = .ok (reviewed, binding)) :
    InventoryComplete platform crypto tool (schema.bind binding) reviewed ↔
      (schema.bind binding).Declares ∨
        ∀ arguments, Admissible platform (schema.bind binding) arguments →
          ∀ name∈arguments.keys, name∈reviewed.fields := by
  constructor
  · intro hcomplete
    by_cases hd : (schema.bind binding).Declares
    · exact Or.inl hd
    · refine Or.inr fun arguments ha => ?_
      obtain ⟨authority, schemas, compiled, hc, hs, he, hallows⟩ := admissible_allowed h hd ha
      exact hcomplete authority schemas compiled "" (openCall tool arguments) [] [] hc hs rfl he hallows
  · intro hcond authority schemas compiled goal call observations previousCalls hc hs ht he hallows
    by_cases hd : (schema.bind binding).Declares
    · obtain ⟨out, hout, ha⟩ := hallows
      obtain ⟨-, -, hschemas⟩ := CompiledAuthority.compile_ok hc
      obtain ⟨-, schemas', schema', normalized, authority', hallowed⟩ :=
        CompiledAuthority.evaluate_allow hout ha
      cases hschemas.symm.trans hallowed.parsed
      rw [← ht] at hs
      cases hs.symm.trans hallowed.known
      rcases bound_properties h with ⟨hnone, -⟩ | ⟨members, hmembers, hfields, -⟩
      · obtain ⟨member, members, hd⟩ := hd
        rw [bind_properties, hnone] at hd
        cases hd
      · rw [← bind_properties schema binding] at hmembers
        intro name hn
        obtain ⟨m, hm, rfl⟩ := List.mem_map.mp (declared_names hd hallowed.valid hmembers name hn)
        exact hfields m hm
    · rcases hcond with hcond | hcond
      · exact absurd hcond hd
      · exact hcond _ (allowed_admissible h hd hc hs ht he hallows)

end

/-! A calculator whose schema declares no property. -/

def typedSchema : Schema := SortedMap.empty.insert "type" (Json.Doc.of (.str "object"))

def calculatorSchema : Schema := typedSchema.insert "properties"
  (Json.Doc.of (.obj [("expression", .obj [("type", .str "string")])]))

def calculatorAdapter : ReadAdapter := ⟨["expression"], [], none, none⟩

def calculatorBinding : Json :=
  adapterBinding "embedded-v1" (CompiledAuthority.sampleCrypto.sha256 "")

/-- Its calls carry whatever the validator accepts. -/
theorem bindReadSchema_unreviewed :
    bindReadSchema CompiledAuthority.sampleCrypto typedSchema (.str "embedded-v1") "calculator" =
        .ok (calculatorAdapter, calculatorBinding) ∧
      ¬ InventoryComplete CompiledAuthority.samplePlatform CompiledAuthority.sampleCrypto "calculator"
        (typedSchema.bind calculatorBinding) calculatorAdapter := by
  have hbind : bindReadSchema CompiledAuthority.sampleCrypto typedSchema (.str "embedded-v1") "calculator" =
      .ok (calculatorAdapter, calculatorBinding) := rfl
  refine ⟨hbind, fun hcomplete => ?_⟩
  have hd : ¬ (typedSchema.bind calculatorBinding).Declares := by
    rintro ⟨member, members, h⟩
    cases h
  let arguments : Dict Json := ⟨[("command", .str "ls")], by simp⟩
  have ha : Admissible CompiledAuthority.samplePlatform (typedSchema.bind calculatorBinding) arguments := by
    refine ⟨rfl, fun name hn value hv => ?_, fun name value hv _ => ⟨rfl, ?_⟩⟩
    · rcases List.mem_pair.mp hn with rfl | rfl <;> cases hv
    · have hm := Dict.mem_items.mpr hv
      cases List.mem_singleton.mp hm
      rfl
  obtain ⟨authority, schemas, compiled, hc, hs, he, hallows⟩ := admissible_allowed hbind hd ha
  have hfield := hcomplete authority schemas compiled "" _ [] [] hc hs rfl he hallows "command" (by decide)
  exact absurd hfield (by decide)

theorem bindReadSchema_inventory_sample :
    InventoryComplete CompiledAuthority.samplePlatform CompiledAuthority.sampleCrypto "calculator"
      (calculatorSchema.bind calculatorBinding) calculatorAdapter :=
  (@bindReadSchema_inventory _ _ calculatorSchema (.str "embedded-v1") _ _ _ rfl).mpr (Or.inl ⟨_, _, rfl⟩)

end TraceGuard
