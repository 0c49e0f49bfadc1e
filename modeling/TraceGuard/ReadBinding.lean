import TraceGuard.Raising
import TraceGuard.ReadResources

/-! The binding of a read schema to its reviewed adapter, and what the adapter makes of a call.
A binding fits one schema only: the digest is that of everything else in it. -/
namespace TraceGuard
open Raising

/-! The binding of a schema. -/

/-- The extension's value for an adapter and the digest of the rest of the schema. -/
def adapterBinding (id digest : String) : Json :=
  .obj [("id", .str id), ("schema_digest", .str digest)]

theorem adapterBinding_canonical (id digest : String) : (adapterBinding id digest).Canonical := by
  refine .obj ?_ ?_
  · simp only [List.pairwise_cons, List.mem_singleton, forall_eq, List.not_mem_nil,
      IsEmpty.forall_iff, implies_true, List.Pairwise.nil, and_true]
    decide
  · simpa using ⟨Json.Canonical.str id, Json.Canonical.str digest⟩

theorem pyEq_str {s : String} {v : Json} (h : (Json.str s).pyEq v = true) : v=.str s := by
  cases v with
  | str t =>
    have he : s=t := by simpa [Json.pyEq] using h
    rw [he]
  | _ => simp [Json.pyEq, Json.number] at h

theorem eqMembers_cons {k : String} {v : Json} {ms ns : List (String × Json)}
    (h : Json.eqMembers ((k, v) :: ms) ns = true) :
    (∃ w, (k, w)∈ns ∧ v.pyEq w = true) ∧ Json.eqMembers ms ns = true := by
  rw [Json.eqMembers, Bool.and_eq_true] at h
  refine ⟨?_, h.2⟩
  cases hl : ns.lookup k with
  | none => simp [hl] at h
  | some w =>
    obtain ⟨before, after, he, -⟩ := List.lookup_eq_some_iff.mp hl
    exact ⟨w, by simp [he], by simpa [hl] using h.1⟩

/-- A document that is equal to a binding has its members and no other. -/
theorem adapterBinding_pyEq {id digest : String} {doc : Json.Doc}
    (h : (adapterBinding id digest).pyEq doc.val = true) : doc.val=adapterBinding id digest := by
  obtain ⟨v, hv⟩ := doc
  unfold adapterBinding at h ⊢
  cases hv with
  | @obj members order _ =>
    rw [Json.pyEq, Bool.and_eq_true] at h
    obtain ⟨⟨v, hid, hv⟩, h'⟩ := eqMembers_cons h.2
    obtain ⟨⟨w, hdigest, hw⟩, -⟩ := eqMembers_cons h'
    cases pyEq_str hv
    cases pyEq_str hw
    match members, of_decide_eq_true h.1 with
    | [a, b], _ =>
      have hab : a.1<b.1 := (List.pairwise_cons.mp order).1 _ (by simp)
      have hlt : "id"<"schema_digest" := by decide
      rw [List.mem_pair] at hid hdigest
      rcases hid with rfl | rfl <;> rcases hdigest with hd | hd
      · exact absurd (congrArg Prod.fst hd) (by simp)
      · rw [hd]
      · subst hd
        exact absurd hab (lt_asymm hlt)
      · exact absurd (congrArg Prod.fst hd) (by simp)
  | _ => simp [Json.pyEq, Json.number] at h

/-- The schema's adapter, and its binding over the rest of the schema. -/
structure Schema.Bound (schema : Schema) (crypto : Crypto) (tool : String)
    (reviewed : ReadAdapter) : Prop where
  binding : ∃ id digest, schema.get? extension = some (Json.Doc.of (adapterBinding id digest)) ∧
    bindReadSchema crypto schema (.str id) tool = .ok (reviewed, adapterBinding id digest)

theorem reviewedAdapter_some {adapterId : Json} {tool : String} {reviewed : ReadAdapter}
    (h : reviewedAdapter adapterId tool = .ok (some reviewed)) :
    ∃ id tools, adapterId=.str id ∧ (id, tools)∈SecurityDescriptors.readAdapters ∧
      (tool, reviewed)∈tools := by
  unfold reviewedAdapter at h
  split at h
  · rename_i id
    obtain ⟨tools, htools, htool⟩ := Option.bind_eq_some_iff.mp (Except.ok.inj h)
    obtain ⟨_, _, he, -⟩ := List.lookup_eq_some_iff.mp htools
    obtain ⟨_, _, he', -⟩ := List.lookup_eq_some_iff.mp htool
    exact ⟨id, tools, rfl, by simp [he], by simp [he']⟩
  all_goals cases h

theorem checkSelectors_ok {reviewed : ReadAdapter} {properties : List (String × Json)}
    {required fields : List String} (h : checkSelectors reviewed properties required fields = .ok ()) :
    ∀ field∈fields, field∈properties.map Prod.fst := by
  induction fields with
  | nil => simp
  | cons field fields ih =>
    unfold checkSelectors at h
    obtain ⟨_, hfield, h⟩ := bind_ok h
    refine List.forall_mem_cons.mpr ⟨?_, ih h⟩
    unfold checkSelector at hfield
    cases hl : properties.lookup field with
    | none => simp [hl] at hfield
    | some property =>
      obtain ⟨_, _, he, -⟩ := List.lookup_eq_some_iff.mp hl
      simp [he]

/-- What a recomputed binding says about the schema. -/
theorem bindReadSchema_ok {crypto : Crypto} {schema : Schema} {adapterId : Json} {tool : String}
    {reviewed : ReadAdapter} {verified : Json}
    (h : bindReadSchema crypto schema adapterId tool = .ok (reviewed, verified)) :
    reviewedAdapter adapterId tool = .ok (some reviewed) ∧
    (∃ properties, propertiesOf (schema.erase extension) = .ok properties ∧
      (∀ p∈properties, p.1∈reviewed.fields) ∧
      ∀ field∈reviewed.resources, field∈properties.map Prod.fst) ∧
    ∃ id text, adapterId=.str id ∧
      canonical (.obj ((schema.erase extension).map Json.Doc.val).entries) = some text ∧
      verified=adapterBinding id (crypto.sha256 text) := by
  unfold bindReadSchema at h
  obtain ⟨found, hfound, h⟩ := bind_ok h
  cases found with
  | none => cases h
  | some found =>
    obtain ⟨properties, hproperties, h⟩ := bind_ok h
    obtain ⟨hfields, h⟩ := guard_ok h
    obtain ⟨required, -, h⟩ := bind_ok h
    obtain ⟨_, hselectors, h⟩ := bind_ok h
    split at h
    · cases h
    rename_i text htext
    cases h
    obtain ⟨id, -, rfl, -⟩ := reviewedAdapter_some hfound
    exact ⟨hfound, ⟨properties, hproperties, by simpa using hfields, checkSelectors_ok hselectors⟩,
      id, text, rfl, htext, rfl⟩

/-! The normal form of a read. -/

/-- A selector of a read and where its value comes from. -/
structure ReadAdapter.Selects (reviewed : ReadAdapter) (arguments filled : Dict Json)
    (field : String) (value : Json) : Prop where
  present : filled.get field = some value
  not_null : value≠.null
  origin : arguments.get field = some value ∨
    (arguments.get field = none ∧ ∃ text, reviewed.defaultFor field = some text ∧ value=.str text)

/-- The arguments with a selector's default. -/
def ReadAdapter.withDefault (reviewed : ReadAdapter) (field : String) (arguments : Dict Json) :
    Dict Json :=
  match reviewed.defaultFor field with
  | some text => arguments.setDefault field (.str text)
  | none => arguments

theorem ReadAdapter.withDefault_get (reviewed : ReadAdapter) (f : String) (arguments : Dict Json)
    (field : String) : (reviewed.withDefault f arguments).get field =
      (arguments.get field).or
        (if field=f then (reviewed.defaultFor f).map Json.str else none) := by
  unfold withDefault
  cases reviewed.defaultFor f with
  | none => simp
  | some text => simp [Dict.get_setDefault]

theorem fillResources_cons {reviewed : ReadAdapter} {f : String} {fields : List String}
    {arguments filled : Dict Json} (h : fillResources reviewed (f :: fields) arguments = .ok filled) :
    (∃ value, (reviewed.withDefault f arguments).get f = some value ∧ value≠.null) ∧
      fillResources reviewed fields (reviewed.withDefault f arguments) = .ok filled := by
  rw [fillResources] at h
  split at h
  · cases h
  · cases h
  rename_i value hnull hvalue
  exact ⟨⟨value, hvalue, hnull⟩, h⟩

theorem fillResources_keep {reviewed : ReadAdapter} {fields : List String}
    {arguments filled : Dict Json} (h : fillResources reviewed fields arguments = .ok filled)
    {field : String} {value : Json} (hv : arguments.get field = some value) :
    filled.get field = some value := by
  induction fields generalizing arguments with
  | nil =>
    cases h
    exact hv
  | cons f fields ih =>
    refine ih (fillResources_cons h).2 ?_
    rw [reviewed.withDefault_get, hv, Option.some_or]

/-- A value that a call did not have is its selector's default. -/
theorem ReadAdapter.withDefault_origin {reviewed : ReadAdapter} {f field : String}
    {arguments : Dict Json} {value : Json}
    (h : (reviewed.withDefault f arguments).get field = some value) :
    arguments.get field = some value ∨ (arguments.get field = none ∧
      ∃ text, reviewed.defaultFor field = some text ∧ value=.str text) := by
  rw [reviewed.withDefault_get] at h
  cases hg : arguments.get field with
  | some found =>
    rw [hg, Option.some_or] at h
    exact Or.inl h
  | none =>
    rw [hg, Option.none_or] at h
    split at h
    · rename_i he
      subst he
      obtain ⟨text, htext, rfl⟩ := Option.map_eq_some_iff.mp h
      exact Or.inr ⟨rfl, text, htext, rfl⟩
    · cases h

theorem fillResources_selects {reviewed : ReadAdapter} {fields : List String}
    {arguments filled : Dict Json} (h : fillResources reviewed fields arguments = .ok filled)
    {field : String} (hf : field∈fields) :
    ∃ value, reviewed.Selects arguments filled field value := by
  induction fields generalizing arguments with
  | nil => cases hf
  | cons f fields ih =>
    obtain ⟨⟨value, hvalue, hnull⟩, hrest⟩ := fillResources_cons h
    rcases List.mem_cons.mp hf with rfl | hf
    · exact ⟨value, fillResources_keep hrest hvalue, hnull,
        ReadAdapter.withDefault_origin hvalue⟩
    · obtain ⟨found, present, not_null, origin⟩ := ih hrest hf
      refine ⟨found, present, not_null, ?_⟩
      rcases origin with hg | ⟨hg, hd⟩
      · exact ReadAdapter.withDefault_origin hg
      · rw [reviewed.withDefault_get, Option.or_eq_none_iff] at hg
        exact Or.inr ⟨hg.1, hd⟩

/-- What the adapter makes of a call that it accepts. -/
structure ReadAdapter.Reads (reviewed : ReadAdapter) (call normalized : ToolCall) : Prop where
  tool : normalized.toolName=call.toolName
  selectors : ∀ field∈reviewed.resources,
    ∃ value, reviewed.Selects call.arguments normalized.arguments field value
  kept : ∀ field value, call.arguments.get field = some value →
    normalized.arguments.get field = some value
  requested : ∀ resource, resource∈normalized.requestedResources ↔
    resource∈call.requestedResources ∨ resource∈reviewed.implicit.getD []

theorem ReadAdapter.normalize_ok {reviewed : ReadAdapter} {call normalized : ToolCall}
    (h : reviewed.normalize call = .ok normalized) : reviewed.Reads call normalized := by
  unfold normalize at h
  obtain ⟨filled, hfill, h⟩ := bind_ok h
  cases h
  exact ⟨rfl, fun field hf => fillResources_selects hfill hf,
    fun field value hv => fillResources_keep hfill hv, fun resource => by simp [mem_sortedSet]⟩

theorem bindingOf_ok {schema : Schema} {binding adapterId : Json} {id digest : String}
    (h : bindingOf schema = .ok (binding, adapterId))
    (heq : (adapterBinding id digest).pyEq binding = true) :
    schema.get? extension = some (Json.Doc.of (adapterBinding id digest)) := by
  unfold bindingOf at h
  split at h
  · cases h
    simp [adapterBinding, Json.pyEq] at heq
  rename_i doc hdoc
  split at h
  · rename_i members hmembers
    cases h
    rw [← hmembers] at heq
    rw [hdoc, ← adapterBinding_pyEq heq, Json.Doc.of_val]
  · cases h

theorem scopedReadCall_ok {crypto : Crypto} {call normalized : ToolCall} {schema : Schema}
    (h : scopedReadCall crypto call schema = .ok normalized) :
    ∃ reviewed, schema.Bound crypto call.toolName reviewed ∧ reviewed.Reads call normalized := by
  unfold scopedReadCall at h
  obtain ⟨⟨binding, adapterId⟩, hbinding, h⟩ := bind_ok h
  obtain ⟨⟨reviewed, verified⟩, hbind, h⟩ := bind_ok h
  dsimp only at hbind h
  split at h
  · cases h
  rename_i heq
  obtain ⟨-, -, id, text, hid, -, hverified⟩ := bindReadSchema_ok hbind
  rw [hverified, Bool.not_eq_true, Bool.not_eq_false'] at heq
  rw [hid, hverified] at hbind
  exact ⟨reviewed, ⟨id, crypto.sha256 text, bindingOf_ok hbinding heq, hbind⟩,
    ReadAdapter.normalize_ok h⟩

/-! A binding fits one schema. -/

theorem canonical_inj {v w : Json} {text : String} (hv : canonical v = some text)
    (hw : canonical w = some text) : v.sorted=w.sorted := by
  unfold canonical Json.dumps at hv hw
  split at hv
  · split at hw
    · rename_i hplain hplain'
      exact Json.text_inj hplain hplain' ((Option.some.inj hv).trans (Option.some.inj hw).symm)
    · cases hw
  · cases hv

theorem Schema.val_inj {a b : Schema}
    (h : (a.map Json.Doc.val).entries=(b.map Json.Doc.val).entries) : a=b := by
  refine SortedMap.ext_get? fun key => ?_
  have hget : (a.map Json.Doc.val).get? key = (b.map Json.Doc.val).get? key := by
    rw [SortedMap.eq_of_entries h]
  rw [SortedMap.get?_map, SortedMap.get?_map] at hget
  exact Option.map_injective (fun _ _ => Json.Doc.ext_val) hget

theorem Schema.canonical_entries (schema : Schema) :
    (Json.obj (schema.map Json.Doc.val).entries).Canonical := by
  refine .obj (schema.map Json.Doc.val).sorted fun m hm => ?_
  obtain ⟨e, -, rfl⟩ := List.mem_map.mp hm
  exact e.2.canonical

theorem Schema.eq_of_canonical {a b : Schema} {text : String}
    (ha : canonical (.obj (a.map Json.Doc.val).entries) = some text)
    (hb : canonical (.obj (b.map Json.Doc.val).entries) = some text) : a=b := by
  have h := canonical_inj ha hb
  rw [a.canonical_entries.sorted_eq, b.canonical_entries.sorted_eq] at h
  exact Schema.val_inj (Json.obj.inj h)

theorem Schema.eq_of_erase {a b : Schema} (h : a.erase extension = b.erase extension)
    (he : a.get? extension = b.get? extension) : a=b := by
  refine SortedMap.ext_get? fun key => ?_
  by_cases hk : key=extension
  · rw [hk, he]
  · have hget : (a.erase extension).get? key = (b.erase extension).get? key := by rw [h]
    simpa [SortedMap.get?_erase, hk] using hget

/-- Two adapters of one tool share no schema: each has a selector the other does not know. -/
theorem adapters_apart : ∀ a∈SecurityDescriptors.readAdapters,
    ∀ b∈SecurityDescriptors.readAdapters, ∀ x∈a.2, ∀ y∈b.2, x.1=y.1 →
      (∀ f∈x.2.resources, f∈y.2.fields) → (∀ f∈y.2.resources, f∈x.2.fields) → a.1=b.1 := by
  decide

/-- A schema with the binding of another, or with another binding, is not bound. -/
theorem Schema.Bound.unique {crypto : Crypto} (collisionFree : Function.Injective crypto.sha256)
    {schema other : Schema} {tool : String} {reviewed reviewed' : ReadAdapter}
    (h : schema.Bound crypto tool reviewed) (h' : other.Bound crypto tool reviewed')
    (same : other.get? extension = schema.get? extension ∨
      other.erase extension = schema.erase extension) : other=schema := by
  obtain ⟨id, digest, hget, hbind⟩ := h
  obtain ⟨id', digest', hget', hbind'⟩ := h'
  obtain ⟨hr, ⟨properties, hp, hfields, hselectors⟩, _, text, hid, htext, hv⟩ :=
    bindReadSchema_ok hbind
  obtain ⟨hr', ⟨properties', hp', hfields', hselectors'⟩, _, text', hid', htext', hv'⟩ :=
    bindReadSchema_ok hbind'
  cases hid
  cases hid'
  simp only [adapterBinding, Json.obj.injEq, List.cons.injEq, Prod.mk.injEq, Json.str.injEq,
    true_and, and_true] at hv hv'
  rcases same with same | same
  · have hdoc := Option.some.inj ((hget'.symm.trans same).trans hget)
    have hval : adapterBinding id' digest'=adapterBinding id digest := by
      rw [← (adapterBinding_canonical id' digest').sorted_eq,
        ← (adapterBinding_canonical id digest).sorted_eq]
      exact congrArg Json.Doc.val hdoc
    simp only [adapterBinding, Json.obj.injEq, List.cons.injEq, Prod.mk.injEq, Json.str.injEq,
      true_and, and_true] at hval
    have htexts : text'=text := collisionFree (hv'.symm.trans (hval.2.trans hv))
    rw [htexts] at htext'
    exact eq_of_erase (eq_of_canonical htext' htext) same
  · rw [same] at hp' htext'
    cases hp.symm.trans hp'
    cases htext.symm.trans htext'
    obtain ⟨a, tools, ha, hmem, htool⟩ := reviewedAdapter_some hr
    obtain ⟨b, tools', hb, hmem', htool'⟩ := reviewedAdapter_some hr'
    cases ha
    cases hb
    have within {r r' : ReadAdapter}
        (hs : ∀ field∈r.resources, field∈properties.map Prod.fst)
        (hf : ∀ p∈properties, p.1∈r'.fields) : ∀ f∈r.resources, f∈r'.fields := by
      intro f hmem
      obtain ⟨p, hp, rfl⟩ := List.mem_map.mp (hs f hmem)
      exact hf p hp
    have hids : id=id' := adapters_apart _ hmem _ hmem' _ htool _ htool' rfl
      (within hselectors hfields') (within hselectors' hfields)
    refine eq_of_erase same ?_
    rw [hget, hget', hids, hv, hv']

end TraceGuard
