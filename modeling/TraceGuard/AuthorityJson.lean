import TraceGuard.Codecs
import TraceGuard.JsonCodec
import TraceGuard.Types

/-! The JSON of a task authority and of tool schemas, which a compiled authority keeps. -/
namespace Json.Codec
variable {α κ : Type} [LinearOrder κ]

theorem list_plain {c : Codec α} {xs : List α} :
    ((list c).enc xs).plain = true ↔ ∀ x∈xs, (c.enc x).plain = true := by
  simp [list, Json.plain, Json.plainItems_iff]

theorem map_plain {c : Codec α} {m : SortedMap String α} :
    ((map c).enc m).plain = true ↔ ∀ e∈m.entries, (c.enc e.2).plain = true := by
  show Json.plainMembers (m.entries.map fun e => (e.1, c.enc e.2)) = true ↔ _
  rw [Json.plainMembers_iff, List.forall_mem_map]

theorem entries_plain {c : Codec (κ × α)} {m : SortedMap κ α} :
    ((entries c).enc m).plain = true ↔ ∀ e∈m.entries, (c.enc e).plain = true := by
  show Json.plainItems (m.entries.map c.enc) = true ↔ _
  rw [Json.plainItems_iff, List.forall_mem_map]

end Json.Codec

namespace TraceGuard
open Json (Codec)

/-- A tool schema by keyword. -/
abbrev Schema := SortedMap String Json.Doc

abbrev Schemas := SortedMap String Schema

def Schemas.codec : Codec Schemas := .map (.map .doc)

def EnforcementMode.codec : Codec EnforcementMode :=
  Codec.text.via value (fun
    | "research" => some research
    | "strict" => some strict
    | _ => none) (by intro mode; cases mode <;> rfl)

def Budget.codec : Codec Budget where
  enc b := .float b.value
  dec
    | .float x =>
      if h : x.isFinite = true ∧ PyNumber.le .zero (.float x) = true then some ⟨x, h.1, h.2⟩ else none
    | _ => none
  read b := dif_pos ⟨b.finite, b.nonnegative⟩

def texts : Codec (List String) := Codec.list .text

theorem texts_plain (xs : List String) : (texts.enc xs).plain = true :=
  Codec.list_plain.mpr fun _ _ => rfl

namespace TaskAuthority

def optionalTexts : Codec (Option (List String)) := texts.option (by intro xs h; cases h)

def optionalBudget : Codec (Option Budget) := Budget.codec.option (by intro b h; cases h)

/-- `model_dump(mode="json")`. -/
def members (a : TaskAuthority) : List (String × Json) :=
  [("allowed_tools", optionalTexts.enc a.allowedTools),
    ("repeatable_tools", texts.enc a.repeatableTools),
    ("argument_values", (Codec.map (.map .doc)).enc a.argumentValues),
    ("resource_values", (Codec.map (.map (.list .doc))).enc a.resourceValues),
    ("enforcement_mode", EnforcementMode.codec.enc a.enforcementMode),
    ("generated_fields", (Codec.map texts).enc a.generatedFields),
    ("delegated_fields", (Codec.map (.map texts)).enc a.delegatedFields),
    ("max_amount", optionalBudget.enc a.maxAmount),
    ("prohibited_content", texts.enc a.prohibitedContent),
    ("approved_conditions", texts.enc a.approvedConditions)]

/-- `model_validate_json` of a dump. -/
def ofJson (v : Json) : Option TaskAuthority := do
  let allowedTools ← Codec.field "allowed_tools" optionalTexts v
  let repeatableTools ← Codec.field "repeatable_tools" texts v
  let argumentValues ← Codec.field "argument_values" (.map (.map .doc)) v
  let resourceValues ← Codec.field "resource_values" (.map (.map (.list .doc))) v
  let enforcementMode ← Codec.field "enforcement_mode" EnforcementMode.codec v
  let generatedFields ← Codec.field "generated_fields" (.map texts) v
  let delegatedFields ← Codec.field "delegated_fields" (.map (.map texts)) v
  let maxAmount ← Codec.field "max_amount" optionalBudget v
  let prohibitedContent ← Codec.field "prohibited_content" texts v
  let approvedConditions ← Codec.field "approved_conditions" texts v
  some { allowedTools, repeatableTools, argumentValues, resourceValues, enforcementMode,
         generatedFields, delegatedFields, maxAmount, prohibitedContent, approvedConditions }

theorem ofJson_members (a : TaskAuthority) : ofJson (Json.obj a.members).sorted = some a := by
  have hn : (a.members.map Prod.fst).Nodup := by
    simp only [members, List.map_cons, List.map_nil]
    decide
  unfold ofJson
  rw [Codec.field_read (a := a.allowedTools) hn rfl, Codec.field_read (a := a.repeatableTools) hn rfl,
    Codec.field_read (a := a.argumentValues) hn rfl,
    Codec.field_read (a := a.resourceValues) hn rfl,
    Codec.field_read (a := a.enforcementMode) hn rfl,
    Codec.field_read (a := a.generatedFields) hn rfl,
    Codec.field_read (a := a.delegatedFields) hn rfl, Codec.field_read (a := a.maxAmount) hn rfl,
    Codec.field_read (a := a.prohibitedContent) hn rfl,
    Codec.field_read (a := a.approvedConditions) hn rfl]
  rfl

def codec : Codec TaskAuthority := ⟨fun a => .obj a.members, ofJson, ofJson_members⟩

end TaskAuthority
end TraceGuard
