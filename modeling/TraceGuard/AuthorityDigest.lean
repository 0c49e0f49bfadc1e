import TraceGuard.FieldComplete

/-! The digest of a compiled authority. The three texts stand behind each other without a separator;
each is the text of an object, so that its end is found by reading it. -/
namespace TraceGuard
namespace CompiledAuthority
open Raising

/-- `compile` with a given document of security descriptors. -/
def compileUnder (descriptors : Json) (crypto : Crypto) (authority : TaskAuthority) (schemas : Schemas) :
    Except PyError CompiledAuthority := do
  authority.validate (some schemas)
  let scope ← write Json.compact (TaskAuthority.codec.enc authority)
  let schema ← write Json.spaced (Schemas.codec.enc schemas)
  .ok ⟨scope, schema, crypto.sha256 (scope++schema++Json.text Json.spaced descriptors)⟩

theorem compile_under (crypto : Crypto) (authority : TaskAuthority) (schemas : Schemas) :
    compile crypto authority schemas =
      compileUnder SecurityDescriptors.json crypto authority schemas := by
  have hwrite : write Json.spaced SecurityDescriptors.json =
      .ok (Json.text Json.spaced SecurityDescriptors.json) := by
    rw [write, Json.dumps_plain descriptors_plain]
  unfold compile compileUnder
  rw [hwrite]
  rfl

theorem write_ok {style : Json.Style} {value : Json} {text : String} (h : write style value = .ok text) :
    value.plain = true ∧ text.toList = Json.chars style value.sorted := by
  unfold write at h
  split at h
  · rename_i written hwritten
    cases h
    have hplain := Json.plain_of_dumps hwritten
    rw [Json.dumps_plain hplain] at hwritten
    cases hwritten
    exact ⟨hplain, String.toList_ofList⟩
  · cases h

/-- The texts of two objects, each with more behind it. -/
theorem write_append {style : Json.Style} {members members' : List (String × Json)} {text text' : String}
    (h : write style (.obj members) = .ok text) (h' : write style (.obj members') = .ok text')
    {rest rest' : List Char} (heq : text.toList++rest = text'.toList++rest') : text=text' ∧ rest=rest' := by
  obtain ⟨hplain, htext⟩ := write_ok h
  obtain ⟨hplain', htext'⟩ := write_ok h'
  rw [htext, htext'] at heq
  obtain ⟨hvalue, hrest⟩ := Json.chars_append_inj (Json.canonical_sorted _).distinct
    (Json.canonical_sorted _).distinct (Json.plain_sorted _ hplain) (Json.plain_sorted _ hplain') rfl rfl
    heq
  exact ⟨String.toList_inj.mp (by rw [htext, htext', hvalue]), hrest⟩

theorem compileUnder_ok {descriptors : Json} {crypto : Crypto} {authority : TaskAuthority}
    {schemas : Schemas} {compiled : CompiledAuthority}
    (h : compileUnder descriptors crypto authority schemas = .ok compiled) :
    write Json.compact (TaskAuthority.codec.enc authority) = .ok compiled.scopeJson ∧
      write Json.spaced (Schemas.codec.enc schemas) = .ok compiled.schemasJson ∧
      compiled.digest = crypto.sha256
        (compiled.scopeJson++compiled.schemasJson++Json.text Json.spaced descriptors) := by
  unfold compileUnder at h
  obtain ⟨_, -, h⟩ := bind_ok h
  obtain ⟨scope, hscope, h⟩ := bind_ok h
  obtain ⟨schema, hschema, h⟩ := bind_ok h
  cases h
  exact ⟨hscope, hschema, rfl⟩

/-- Equal digests are digests of the same authority, schemas and descriptors. -/
theorem digest_identifies {crypto : Crypto} (collisionFree : Function.Injective crypto.sha256) :
    (∀ authority schemas, compile crypto authority schemas =
      compileUnder SecurityDescriptors.json crypto authority schemas) ∧
    ∀ {descriptors descriptors' : Json} {authority authority' : TaskAuthority} {schemas schemas' : Schemas}
      {compiled compiled' : CompiledAuthority},
      compileUnder descriptors crypto authority schemas = .ok compiled →
      compileUnder descriptors' crypto authority' schemas' = .ok compiled' →
      compiled.digest=compiled'.digest →
        (compiled.scopeJson=compiled'.scopeJson ∧ authority=authority') ∧
        (compiled.schemasJson=compiled'.schemasJson ∧ schemas=schemas') ∧
        Json.text Json.spaced descriptors = Json.text Json.spaced descriptors' := by
  refine ⟨compile_under crypto, fun h h' hdigest => ?_⟩
  obtain ⟨hscope, hschema, he⟩ := compileUnder_ok h
  obtain ⟨hscope', hschema', he'⟩ := compileUnder_ok h'
  rw [he, he'] at hdigest
  have htext := congrArg String.toList (collisionFree hdigest)
  simp only [String.toList_append, List.append_assoc] at htext
  obtain ⟨hs, htext⟩ := write_append hscope hscope' htext
  obtain ⟨hm, htext⟩ := write_append hschema hschema' htext
  have hread := parse_write hscope
  rw [hs, parse_write hscope'] at hread
  have hread' := parse_write hschema
  rw [hm, parse_write hschema'] at hread'
  exact ⟨⟨hs, (Except.ok.inj hread).symm⟩, ⟨hm, (Except.ok.inj hread').symm⟩, String.toList_inj.mp htext⟩

/-- The digest is the text itself. -/
def plainCrypto : Crypto := { sampleCrypto with sha256 := id }

theorem digest_identifies_sample : ∃ compiled,
    compile plainCrypto sampleAuthority sampleSchemas = .ok compiled ∧
      ∀ {authority : TaskAuthority} {schemas : Schemas} {compiled' : CompiledAuthority},
        compile plainCrypto authority schemas = .ok compiled' → compiled.digest=compiled'.digest →
          sampleAuthority=authority ∧ sampleSchemas=schemas := by
  obtain ⟨compiled, hc⟩ := @compile_plain plainCrypto sampleAuthority sampleSchemas
    (by decide +kernel) (by decide +kernel) (by decide +kernel)
  refine ⟨compiled, hc, fun h' hdigest => ?_⟩
  obtain ⟨hunder, hident⟩ := @digest_identifies plainCrypto Function.injective_id
  rw [hunder] at hc h'
  obtain ⟨⟨-, ha⟩, ⟨-, hs⟩, -⟩ := hident hc h' hdigest
  exact ⟨ha, hs⟩

end CompiledAuthority
end TraceGuard
