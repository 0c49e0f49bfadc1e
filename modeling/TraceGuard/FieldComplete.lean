import TraceGuard.CompiledAuthority

/-! Field-complete authority: under a compiled strict grant every field of an allowed mutation
is justified by a grant. One name escapes: `requested_resources` stands for the resources of the
call, so an argument of that name is allowed on what is granted to the resources. -/

namespace Json

/-- Two documents that are the same up to the order of object members. -/
def Same (a b : Json) : Prop := a.plain = true ∧ b.plain = true ∧ a.sorted = b.sorted

/-- A text or an object key anywhere in a value. -/
inductive Nested : Json → String → Prop where
  | text (s : String) : Nested (.str s) s
  | item {items : List Json} {item : Json} {s : String} (mem : item∈items)
      (nested : Nested item s) : Nested (.arr items) s
  | key {members : List (String × Json)} {member : String × Json} (mem : member∈members) :
      Nested (.obj members) member.1
  | member {members : List (String × Json)} {member : String × Json} {s : String}
      (mem : member∈members) (nested : Nested member.2 s) : Nested (.obj members) s

theorem sorted_eq_str {v : Json} {s : String} : v.sorted = .str s ↔ v = .str s := by
  cases v <;> simp [sorted]

theorem sortedItems_eq_texts {items : List Json} {texts : List String}
    (h : sortedItems items = texts.map .str) : items=texts.map .str := by
  induction texts generalizing items with
  | nil => cases items with
    | nil => rfl
    | cons item items => cases h
  | cons text texts ih => cases items with
    | nil => cases h
    | cons item items =>
      obtain ⟨hitem, hitems⟩ := List.cons.inj h
      rw [List.map_cons, sorted_eq_str.mp hitem, ih hitems]

/-- A list of texts is the same document as no other value. -/
theorem Same.eq_texts {v : Json} {texts : List String} (h : v.Same (.arr (texts.map .str))) :
    v=.arr (texts.map .str) := by
  have hs : (Json.arr (texts.map .str)).sorted = .arr (texts.map .str) := by
    rw [sorted, sortedItems_map]
    simp [sorted, Function.comp_def]
  have he := h.2.2.trans hs
  cases v with
  | arr items =>
    rw [sorted] at he
    rw [sortedItems_eq_texts (Json.arr.inj he)]
  | _ => simp [sorted] at he

end Json

namespace TraceGuard
open Raising

/-! Exact JSON values, nested texts and substrings, as the checks compute them. -/

theorem sameValue_iff {a b : Json} : sameValue a b = true ↔ a.Same b := by
  unfold sameValue Json.Same
  by_cases ha : a.plain = true
  · by_cases hb : b.plain = true
    · rw [Json.dumps_plain ha, Json.dumps_plain hb]
      simp only [ha, hb, true_and, decide_eq_true_eq]
      exact ⟨Json.text_inj ha hb, fun he => congrArg (fun v => String.ofList (Json.chars _ v)) he⟩
    · simp [Json.dumps, hb]
  · simp [Json.dumps, ha]

theorem mem_itemStrings {items : List Json} {s : String} :
    s∈itemStrings items ↔ ∃ item∈items, s∈argumentStrings item := by
  induction items with
  | nil => simp [itemStrings]
  | cons item items ih => simp [itemStrings, ih]

theorem mem_memberStrings {members : List (String × Json)} {s : String} :
    s∈memberStrings members ↔ ∃ m∈members, s=m.1 ∨ s∈argumentStrings m.2 := by
  induction members with
  | nil => simp [memberStrings]
  | cons m members ih => simp [memberStrings, ih, or_assoc]

theorem nested_argumentStrings {v : Json} {s : String} (h : v.Nested s) : s∈argumentStrings v := by
  induction h with
  | text s => simp [argumentStrings]
  | item mem _ ih => exact mem_itemStrings.mpr ⟨_, mem, ih⟩
  | key mem => exact mem_memberStrings.mpr ⟨_, mem, Or.inl rfl⟩
  | member mem _ ih => exact mem_memberStrings.mpr ⟨_, mem, Or.inr ih⟩

theorem occursIn_iff {value text : String} :
    occursIn value text = true ↔ value.toList <:+: text.toList := by
  simp [occursIn, List.infix_iff_prefix_suffix, and_comm]

/-! The specification. -/

/-- A payment that is finite, not negative and within the budget together with what was spent;
the additions are Python's. -/
structure WithinBudget (platform : Platform) (previousCalls : List ToolCall) (max : Budget)
    (value : Json) (amount spent total : PyNumber) : Prop where
  number : PyNumber.ofJson value = some amount
  not_bool : ∀ b, value≠.bool b
  finite : amount.isFinite = some true
  nonnegative : PyNumber.zero.le amount = true
  history : platform.sum (Authority.spent previousCalls) = some spent
  sum : spent.add amount = some total
  within : total.le (.float max.value) = true

/-- What a trusted grant justifies in a field. -/
inductive Justified (platform : Platform) (call : ToolCall) (observations : List Observation)
    (authority : TaskAuthority) (previousCalls : List ToolCall) (field : String) (value : Json) :
    Prop where
  | fixed {expected : Json.Doc}
      (grant : (authority.valuesOf call.toolName).get? field = some expected)
      (same : value.Same expected.val)
  | resource {values : List Json.Doc}
      (grant : (authority.resourcesOf call.toolName).get? field = some values)
      (nonempty : Authority.valuesIn value≠[])
      (same : ∀ v∈Authority.valuesIn value, ∃ p∈values, v.Same p.val)
  | delegated {sources : List String} {candidate : Json}
      (grant : (authority.delegatedOf call.toolName).get? field = some sources)
      (single : Authority.candidates observations field sources = [candidate])
      (same : value.Same candidate)
  | generated (grant : field∈authority.generatedOf call.toolName)
      (reviewed : field∈SecurityDescriptors.fieldsOf SecurityDescriptors.generatableFields
        call.toolName)
  | amount {max : Budget} {amount spent total : PyNumber} (named : field="amount")
      (payment : call.toolName∈paymentTools) (grant : authority.maxAmount = some max)
      (within : WithinBudget platform previousCalls max value amount spent total)
  | emptyEmail (email : call.toolName="send_email")
      (optional : field∈["cc", "bcc", "attachments"])
      (empty : value=.null ∨ value=.arr [] ∨ value=.obj [])

/-- What the authority gives of the call's requested resources, as one value. -/
def ToolCall.resources (call : ToolCall) : Json := .arr (call.requestedResources.map .str)

structure FieldComplete (platform : Platform) (call : ToolCall) (observations : List Observation)
    (authority : TaskAuthority) (previousCalls : List ToolCall) : Prop where
  listed : ∃ tools, authority.allowedTools = some tools ∧ call.toolName∈tools
  arguments : ∀ field value, call.arguments.get field = some value →
    Justified platform call observations authority previousCalls field value
  resources : call.requestedResources≠[] →
    Justified platform call observations authority previousCalls "requested_resources"
      call.resources
  exact : ∀ field expected, (authority.valuesOf call.toolName).get? field = some expected →
    (call.actual field).Same expected.val
  undisclosed : ∀ entry∈authority.prohibitedContent, entry≠"" →
    ∀ s, (Json.obj call.arguments.items).Nested s → ¬ entry.toList <:+: s.toList

/-! What each check admits. -/

/-- What a valid strict authority is. -/
structure TaskAuthority.Valid (a : TaskAuthority) (tools : List String) : Prop where
  strict : a.enforcementMode=.strict
  listed : a.allowedTools = some tools
  generated : ∀ e∈a.generatedFields.entries, ∀ field∈e.2,
    field∈SecurityDescriptors.fieldsOf SecurityDescriptors.generatableFields e.1
  disjoint : ∀ tool∈tools, a.disjoint tool = true

theorem TaskAuthority.validateTools_ok {a : TaskAuthority} {schemas : Option Schemas}
    {tools : List String} (h : a.validateTools schemas tools = .ok ()) :
    ∀ tool∈tools, a.disjoint tool = true := by
  induction tools with
  | nil => simp
  | cons tool tools ih =>
    unfold validateTools at h
    obtain ⟨hd, h⟩ := guard_ok h
    obtain ⟨_, -, h⟩ := bind_ok h
    obtain ⟨-, h⟩ := guard_ok h
    exact List.forall_mem_cons.mpr ⟨by simpa using hd, ih h⟩

theorem TaskAuthority.validate_ok {a : TaskAuthority} {schemas : Option Schemas}
    (h : a.validate schemas = .ok ()) : ∃ tools, a.Valid tools := by
  unfold validate at h
  obtain ⟨hs, h⟩ := guard_ok h
  dsimp only at h
  split at h
  · cases h
  rename_i tools htools
  obtain ⟨-, h⟩ := guard_ok h
  obtain ⟨-, h⟩ := guard_ok h
  obtain ⟨-, h⟩ := guard_ok h
  obtain ⟨hg, h⟩ := guard_ok h
  refine ⟨tools, by simpa using hs, htools, ?_, validateTools_ok h⟩
  simpa using hg

theorem TaskAuthority.disjoint_pinned {a : TaskAuthority} {tool field : String}
    (h : a.disjoint tool = true) (hf : field∈(a.resourcesOf tool).keys) :
    a.pinned tool field = false := by
  have hp := of_decide_eq_true h
  simp only [groups, List.pairwise_cons, List.mem_cons] at hp
  have hv : field∉(a.valuesOf tool).keys := fun hm => hp.1 _ (Or.inl rfl) field hm hf
  have hd := hp.2.1 _ (Or.inl rfl) field hf
  simp [pinned, hv, hd]

namespace Authority
variable {platform : Platform} {goal : String} {call : ToolCall} {observations : List Observation}
  {authority : TaskAuthority} {previousCalls : List ToolCall}

theorem allowed_pass {tools : List String} (h : allowed call authority = Check.pass)
    (ha : authority.allowedTools = some tools) : call.toolName∈tools := by
  unfold allowed at h
  rw [ha] at h
  dsimp only at h
  split at h
  · assumption
  · cases h

theorem argumentsMatch_pass (h : argumentsMatch call authority = Check.pass) {field : String}
    {expected : Json.Doc} (he : (authority.valuesOf call.toolName).get? field = some expected) :
    (call.actual field).Same expected.val := by
  unfold argumentsMatch at h
  split at h
  · cases h
  rename_i hnone
  have hmem := SortedMap.mem_entries.mpr he
  have hsame := List.find?_eq_none.mp hnone _ hmem
  exact sameValue_iff.mp (by simpa using hsame)

theorem delegated_pass {field : String} {sources : List String}
    (h : delegated call observations field sources = Check.pass) :
    ∃ candidate, candidates observations field sources = [candidate] ∧
      (call.actual field).Same candidate := by
  unfold delegated at h
  split at h
  · cases h
  split at h
  · rename_i candidate hsingle
    split at h
    · exact ⟨candidate, hsingle, sameValue_iff.mp ‹_›⟩
    · cases h
  · cases h

theorem resource_pass {field : String} {values : List Json.Doc}
    (hp : authority.pinned call.toolName field = false)
    (hv : (authority.resourcesOf call.toolName).get? field = some values)
    (h : resource call authority field = Check.pass) :
    permitted (call.actual field) values = true := by
  unfold resource at h
  rw [hp, hv] at h
  dsimp only at h
  split at h
  · contradiction
  split at h
  · assumption
  · cases h

theorem permitted_iff {value : Json} {values : List Json.Doc} : permitted value values = true ↔
    valuesIn value≠[] ∧ ∀ v∈valuesIn value, ∃ p∈values, v.Same p.val := by
  simp [permitted, sameValue_iff]

theorem validAmount_ok {value : Json} (h : validAmount value = .ok true) :
    (∀ b, value≠.bool b) ∧ ∃ n, PyNumber.ofJson value = some n ∧ n.isFinite = some true ∧
      PyNumber.zero.le n = true := by
  unfold validAmount at h
  split at h
  · cases h
  rename_i hbool
  split at h
  · cases h
  rename_i n hn
  split at h
  · cases h
  rename_i finite hfinite
  have hb := Bool.and_eq_true_iff.mp (Except.ok.inj h)
  rw [hb.1] at hfinite
  exact ⟨hbool, n, hn, hfinite, hb.2⟩

theorem withinBudget_ok {max : Budget} {value : Json}
    (h : withinBudget platform previousCalls max value = .ok true) :
    ∃ amount spent total, WithinBudget platform previousCalls max value amount spent total := by
  unfold withinBudget at h
  split at h
  · cases h
  rename_i spent hspent
  split at h
  · cases h
  · rename_i amount hvalid hamount
    split at h
    · cases h
    rename_i total htotal
    obtain ⟨hbool, n, hn, hfinite, hle⟩ := validAmount_ok hvalid
    rw [hamount] at hn
    cases hn
    exact ⟨amount, spent, total, hamount, hbool, hfinite, hle, hspent, htotal, Except.ok.inj h⟩
  · cases h

theorem budget_pass (h : budget platform call authority previousCalls = Check.pass) {max : Budget}
    {value : Json} (hm : authority.maxAmount = some max)
    (hv : call.arguments.get "amount" = some value) :
    ∃ amount spent total, WithinBudget platform previousCalls max value amount spent total := by
  unfold budget at h
  rw [hm, hv] at h
  dsimp only at h
  split at h
  · cases h
  · exact withinBudget_ok ‹_›
  · cases h

theorem disclosure_pass (h : disclosure call authority = Check.pass) {entry s : String}
    (hmem : entry∈authority.prohibitedContent) (hne : entry≠"")
    (hs : (Json.obj call.arguments.items).Nested s) : ¬ entry.toList <:+: s.toList := by
  intro hin
  have hd : discloses call authority = true :=
    List.any_eq_true.mpr ⟨entry, hmem, by
      simpa [hne] using ⟨s, nested_argumentStrings hs, occursIn_iff.mpr hin⟩⟩
  unfold disclosure at h
  rw [if_pos hd] at h
  cases h

theorem strictFields_pass (hs : authority.enforcementMode=.strict) {effect : Effect}
    (he : toolEffect call = .ok effect)
    (h : strictFields platform goal call authority = Check.pass) :
    ungrantedFields call authority effect = [] := by
  unfold strictFields at h
  rw [if_pos hs, he] at h
  by_contra hne
  exact absurd h (by simp [bind, Except.bind, hne, Check.deny, Check.pass])

end Authority

/-- The checks a call within the authority has passed. -/
structure Authority.Passed (platform : Platform) (goal : String) (call : ToolCall)
    (observations : List Observation) (authority : TaskAuthority) (previousCalls : List ToolCall) :
    Prop where
  duplicate : duplicateMutation call previousCalls authority = Check.pass
  listed : allowed call authority = Check.pass
  fixed : argumentsMatch call authority = Check.pass
  sourced : ∀ e∈(authority.delegatedOf call.toolName).entries,
    delegated call observations e.1 e.2 = Check.pass
  within : ∀ field∈resourceFields call authority, resource call authority field = Check.pass
  paid : budget platform call authority previousCalls = Check.pass
  undisclosed : disclosure call authority = Check.pass
  complete : strictFields platform goal call authority = Check.pass

theorem Authority.passed {platform : Platform} {goal : String} {call : ToolCall}
    {observations : List Observation} {authority : TaskAuthority} {previousCalls : List ToolCall}
    (h : checkAuthority platform goal call observations authority previousCalls = Check.pass) :
    Passed platform goal call observations authority previousCalls := by
  have hpass := firstDenial_pass.mp h
  simp only [checks, List.forall_mem_append, List.forall_mem_cons, List.forall_mem_map] at hpass
  obtain ⟨⟨⟨⟨hdup, -, -, hallowed, -, hfixed, -⟩, hsourced⟩, hwithin⟩, -, -, hpaid, hclosed, -, -,
    hcomplete, -⟩ := hpass
  exact ⟨hdup, hallowed, hfixed, hsourced, hwithin, hpaid, hclosed, hcomplete⟩

/-! The theorem: one value per field, and the one name that has two. -/

section
variable {platform : Platform} {goal : String} {call : ToolCall} {observations : List Observation}
  {authority : TaskAuthority} {previousCalls : List ToolCall} {tools : List String} {effect : Effect}

/-- A field that a grant names is justified in the value that the checks look at. -/
theorem granted_justified (hv : authority.Valid tools)
    (h : checkAuthority platform goal call observations authority previousCalls = Check.pass)
    {field : String} (hf : field∈(authority.groups call.toolName).flatten) :
    Justified platform call observations authority previousCalls field (call.actual field) := by
  have hp := Authority.passed h
  have htool := Authority.allowed_pass hp.listed hv.listed
  simp only [TaskAuthority.groups, List.flatten_cons, List.flatten_nil, List.mem_append,
    List.not_mem_nil, or_false] at hf
  rcases hf with hf | hf | hf | hf
  · obtain ⟨⟨_, expected⟩, hmem, rfl⟩ := List.mem_map.mp hf
    have hg := SortedMap.mem_entries.mp hmem
    exact .fixed hg (Authority.argumentsMatch_pass hp.fixed hg)
  · obtain ⟨⟨_, values⟩, hmem, rfl⟩ := List.mem_map.mp hf
    have hg := SortedMap.mem_entries.mp hmem
    have hcheck := hp.within _ (mem_sortedSet.mpr (List.mem_append_right _ hf))
    have hperm := Authority.resource_pass
      (TaskAuthority.disjoint_pinned (hv.disjoint _ htool) hf) hg hcheck
    obtain ⟨hne, hall⟩ := Authority.permitted_iff.mp hperm
    exact .resource hg hne hall
  · obtain ⟨⟨_, sources⟩, hmem, rfl⟩ := List.mem_map.mp hf
    obtain ⟨candidate, hsingle, hsame⟩ := Authority.delegated_pass (hp.sourced _ hmem)
    exact .delegated (SortedMap.mem_entries.mp hmem) hsingle hsame
  · refine .generated hf ?_
    unfold TaskAuthority.generatedOf at hf
    cases hg : authority.generatedFields.get? call.toolName with
    | none => simp [hg] at hf
    | some fields =>
      rw [hg] at hf
      exact hv.generated _ (SortedMap.mem_entries.mpr hg) _ hf

/-- A field that is not open is an empty optional of an email, granted, or a payment's amount. -/
theorem granted_of_ungranted (h : ungrantedFields call authority effect = [])
    (hm : effect=.mutate ∨ effect=.command) {field : String}
    (hf : field∈call.arguments.keys ∨
      call.requestedResources≠[] ∧ field="requested_resources") :
    emailOptional call field = true ∨ field∈(authority.groups call.toolName).flatten ∨
      field="amount" ∧ authority.maxAmount.isSome = true ∧ call.toolName∈paymentTools := by
  have hnot := List.filter_eq_nil_iff.mp h field (by
    rw [if_pos hm, List.mem_append]
    rcases hf with hf | ⟨hne, rfl⟩
    · exact Or.inl hf
    · simp [hne])
  by_cases he : emailOptional call field = true
  · exact Or.inl he
  refine Or.inr ?_
  by_cases hg : field∈(authority.groups call.toolName).flatten
  · exact Or.inl hg
  · refine Or.inr ?_
    simp only [he, Bool.not_false, Bool.true_and, List.mem_append, hg, false_or,
      decide_eq_true_eq, not_not] at hnot
    split at hnot
    · rename_i hc
      simpa [and_assoc] using And.intro (List.mem_singleton.mp hnot) (Bool.and_eq_true_iff.mp hc)
    · cases hnot

theorem resources_not_generated (tool : String) : "requested_resources"∉
    SecurityDescriptors.fieldsOf SecurityDescriptors.generatableFields tool := by
  have hall : ∀ row∈SecurityDescriptors.generatableFields, "requested_resources"∉row.2 := by decide
  unfold SecurityDescriptors.fieldsOf
  cases hl : SecurityDescriptors.generatableFields.lookup tool with
  | none => simp
  | some fields =>
    obtain ⟨before, after, he, -⟩ := List.lookup_eq_some_iff.mp hl
    exact hall (tool, fields) (he ▸ by simp)

/-- The argument called `requested_resources` holds what the call requests, or what the tool's
resource grant permits. -/
def ResourcesMeant (call : ToolCall) (authority : TaskAuthority) : Prop :=
  ∀ value, call.arguments.get "requested_resources" = some value → value=call.resources ∨
    ∃ values, (authority.resourcesOf call.toolName).get? "requested_resources" = some values ∧
      Authority.permitted value values = true

/-- The condition follows from justification: the grant that justifies the argument is the one
that the requested resources were compared with. -/
theorem resources_meant
    (h : checkAuthority platform goal call observations authority previousCalls = Check.pass)
    {value : Json}
    (hj : Justified platform call observations authority previousCalls "requested_resources" value) :
    value=call.resources ∨
      ∃ values, (authority.resourcesOf call.toolName).get? "requested_resources" = some values ∧
        Authority.permitted value values = true := by
  have hp := Authority.passed h
  have hsame : ∀ {expected : Json}, value.Same expected →
      (call.actual "requested_resources").Same expected → value=call.resources := by
    intro expected he ha
    exact Json.Same.eq_texts ⟨he.1, ha.1, he.2.2.trans ha.2.2.symm⟩
  cases hj with
  | fixed grant same =>
    exact Or.inl (hsame same (Authority.argumentsMatch_pass hp.fixed grant))
  | resource grant nonempty same =>
    exact Or.inr ⟨_, grant, Authority.permitted_iff.mpr ⟨nonempty, same⟩⟩
  | delegated grant single same =>
    obtain ⟨candidate, hsingle, ha⟩ :=
      Authority.delegated_pass (hp.sourced _ (SortedMap.mem_entries.mpr grant))
    cases hsingle.symm.trans single
    exact Or.inl (hsame same ha)
  | generated grant reviewed => exact absurd reviewed (resources_not_generated _)
  | amount named => exact absurd named (by decide)
  | emptyEmail email optional => exact absurd optional (by decide)

theorem resources_justified (hv : authority.Valid tools)
    (h : checkAuthority platform goal call observations authority previousCalls = Check.pass)
    (he : toolEffect call = .ok effect) (hm : effect=.mutate ∨ effect=.command)
    (hf : "requested_resources"∈call.arguments.keys ∨ call.requestedResources≠[]) :
    Justified platform call observations authority previousCalls "requested_resources"
      call.resources := by
  have hopen := Authority.strictFields_pass hv.strict he (Authority.passed h).complete
  have hgrant : emailOptional call "requested_resources" = true ∨
      "requested_resources"∈(authority.groups call.toolName).flatten ∨
      "requested_resources"="amount" ∧ authority.maxAmount.isSome = true ∧
        call.toolName∈paymentTools := granted_of_ungranted hopen hm (by simpa using hf)
  rcases hgrant with hopt | hgrant | ⟨hname, -⟩
  · simp [emailOptional] at hopt
  · exact granted_justified hv h hgrant
  · exact absurd hname (by decide)

theorem argument_justified (hv : authority.Valid tools)
    (h : checkAuthority platform goal call observations authority previousCalls = Check.pass)
    (he : toolEffect call = .ok effect) (hm : effect=.mutate ∨ effect=.command)
    {field : String} {value : Json} (hne : field≠"requested_resources")
    (hf : call.arguments.get field = some value) :
    Justified platform call observations authority previousCalls field value := by
  have hp := Authority.passed h
  have hopen := Authority.strictFields_pass hv.strict he hp.complete
  have hkey : field∈call.arguments.keys := (call.arguments.get_isSome field).mp (by simp [hf])
  have hactual : call.actual field = value := by simp [ToolCall.actual, hne, hf]
  rcases granted_of_ungranted hopen hm (Or.inl hkey) with hopt | hgrant | ⟨rfl, hmax, htool⟩
  · rw [emailOptional, hf, Option.getD_some] at hopt
    simp only [Bool.and_eq_true, decide_eq_true_eq] at hopt
    refine .emptyEmail hopt.1.1 hopt.1.2 ?_
    have hempty := hopt.2
    split at hempty <;> simp_all
  · exact hactual ▸ granted_justified hv h hgrant
  · obtain ⟨max, hmax⟩ := Option.isSome_iff_exists.mp hmax
    obtain ⟨amount, spent, total, hwithin⟩ := Authority.budget_pass hp.paid hmax hf
    exact .amount rfl htool hmax hwithin

end

namespace CompiledAuthority

/-- An allowed mutation or command is field-complete exactly when an argument that is called
`requested_resources` holds what the grant was checked for. -/
theorem evaluate_field_complete {platform : Platform} {crypto : Crypto} {goal : String}
    {call : ToolCall} {observations : List Observation} {previousCalls : List ToolCall}
    {authority : TaskAuthority} {schemas : Schemas} {compiled : CompiledAuthority}
    {out : SupervisorOutput} {effect : Effect}
    (hc : compile crypto authority schemas = .ok compiled)
    (h : compiled.evaluate platform crypto goal call observations previousCalls = .ok out)
    (ha : out.decision=.allow) (he : toolEffect call = .ok effect)
    (hm : effect=.mutate ∨ effect=.command) :
    FieldComplete platform call observations authority previousCalls ↔
      ResourcesMeant call authority := by
  obtain ⟨hvalid, hscope, hschemas⟩ := compile_ok hc
  obtain ⟨tools, hv⟩ := TaskAuthority.validate_ok hvalid
  obtain ⟨-, schemas', schema, normalized, authority', hallowed⟩ := evaluate_allow h ha
  cases hscope.symm.trans hallowed.grant
  have hread : effect≠.read := by rcases hm with rfl | rfl <;> decide
  cases (readForm_effect he hread).symm.trans hallowed.form
  have hpass := hallowed.pass
  have hp := Authority.passed hpass
  constructor
  · exact fun complete value hvalue => resources_meant hpass (complete.arguments _ _ hvalue)
  · intro hmeant
    refine ⟨⟨tools, hv.listed, Authority.allowed_pass hp.listed hv.listed⟩, ?_, ?_, ?_, ?_⟩
    · intro field value hf
      by_cases hne : field="requested_resources"
      · subst hne
        rcases hmeant value hf with rfl | ⟨values, hgrant, hperm⟩
        · exact resources_justified hv hpass he hm
            (Or.inl ((call.arguments.get_isSome _).mp (by simp [hf])))
        · obtain ⟨hnil, hall⟩ := Authority.permitted_iff.mp hperm
          exact .resource hgrant hnil hall
      · exact argument_justified hv hpass he hm hne hf
    · exact fun hne => resources_justified hv hpass he hm (Or.inr hne)
    · exact fun field expected hg => Authority.argumentsMatch_pass hp.fixed hg
    · exact fun entry hmem hne s hs => Authority.disclosure_pass hp.undisclosed hmem hne hs

/-! A tool whose schema has a property of that name. -/

theorem descriptors_plain : SecurityDescriptors.json.plain = true := by decide +kernel

theorem compile_plain {crypto : Crypto} {authority : TaskAuthority} {schemas : Schemas}
    (hvalid : authority.validate (some schemas) = .ok ())
    (ha : (TaskAuthority.codec.enc authority).plain = true)
    (hs : (Schemas.codec.enc schemas).plain = true) :
    ∃ compiled, compile crypto authority schemas = .ok compiled := by
  unfold compile
  rw [hvalid]
  simp only [write, Json.dumps_plain ha, Json.dumps_plain hs, Json.dumps_plain descriptors_plain]
  exact ⟨_, rfl⟩

def sampleAuthority : TaskAuthority where
  allowedTools := some ["send_channel_message"]
  argumentValues := SortedMap.empty.insert "send_channel_message"
    ((SortedMap.empty.insert "body" (Json.Doc.of (.str "hi"))).insert "requested_resources"
      (Json.Doc.of (.arr [.str "general"])))
  enforcementMode := .strict

def sampleSchema : Schema :=
  (SortedMap.empty.insert "type" (Json.Doc.of (.str "object"))).insert "properties"
    (Json.Doc.of (.obj [("body", .obj [("type", .str "string")]),
      ("requested_resources", .obj [("type", .str "array")])]))

def sampleSchemas : Schemas := SortedMap.empty.insert "send_channel_message" sampleSchema

/-- A message with the requested resource `general` and an argument that names a resource. -/
def sampleMessage (resource : String) : ToolCall where
  taskId := "task"
  stepId := 0
  toolName := "send_channel_message"
  arguments := ⟨[("body", .str "hi"), ("requested_resources", .arr [.str resource])], by
    show ["body", "requested_resources"].Nodup
    decide⟩
  requestedResources := ["general"]
  callId := "call"

def sampleCrypto : Crypto where
  sha256 _ := "434e7c6172ecca0c915043059c96033e1d3770bd0a400df01dfa8558b99ae6c6"
  publicKey := id
  sign _ text := text
  verify _ text signature := text=signature

/-- The validator accepts the sample calls under their schemas; their texts are case-folded. -/
def samplePlatform : Platform where
  search _ _ := false
  sub _ _ text := text
  casefold := id
  str _ := ""
  sum _ := some .zero
  validates _ _ := .ok true
  findall _ _ := []
  groups _ _ := none
  spans _ _ _ := none
  fullmatch _ _ := false
  urlsplit _ := none
  idna _ := none
  ipv6 _ := false
  unquote := id

theorem sample_compiled : ∃ compiled, compile sampleCrypto sampleAuthority sampleSchemas = .ok compiled :=
  compile_plain (by decide +kernel) (by decide +kernel) (by decide +kernel)

theorem sample_allowed {compiled : CompiledAuthority} {resource : String}
    (hc : compile sampleCrypto sampleAuthority sampleSchemas = .ok compiled)
    (hpass : checkAuthority samplePlatform "" (sampleMessage resource) [] sampleAuthority [] = Check.pass) :
    compiled.evaluate samplePlatform sampleCrypto "" (sampleMessage resource) [] = .ok granted := by
  obtain ⟨-, hscope, hschemas⟩ := compile_ok hc
  exact evaluate_granted ⟨hschemas, rfl, rfl, rfl, hscope, hpass⟩

/-- A field that no grant justifies: the fixed value is compared with the requested resources. -/
theorem evaluate_field_incomplete : ∃ compiled,
    compile sampleCrypto sampleAuthority sampleSchemas = .ok compiled ∧
    compiled.evaluate samplePlatform sampleCrypto "" (sampleMessage "other") [] = .ok granted ∧
    granted.decision=.allow ∧ toolEffect (sampleMessage "other") = .ok .mutate ∧
    ¬ FieldComplete samplePlatform (sampleMessage "other") [] sampleAuthority [] := by
  obtain ⟨compiled, hc⟩ := sample_compiled
  have hpass : checkAuthority samplePlatform "" (sampleMessage "other") [] sampleAuthority [] =
      Check.pass := rfl
  refine ⟨compiled, hc, sample_allowed hc hpass, rfl, rfl, fun complete => ?_⟩
  rcases resources_meant hpass (complete.arguments "requested_resources" _ rfl) with he | ⟨_, hg, -⟩
  · exact absurd (Json.arr.inj he) (by simp [sampleMessage])
  · cases hg

theorem evaluate_field_complete_sample :
    FieldComplete samplePlatform (sampleMessage "general") [] sampleAuthority [] := by
  obtain ⟨compiled, hc⟩ := sample_compiled
  have hpass : checkAuthority samplePlatform "" (sampleMessage "general") [] sampleAuthority [] =
      Check.pass := rfl
  refine (evaluate_field_complete hc (sample_allowed hc hpass) rfl rfl (Or.inl rfl)).mpr ?_
  intro value hvalue
  cases hvalue
  exact Or.inl rfl

end CompiledAuthority

end TraceGuard
