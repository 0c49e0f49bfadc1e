import TraceGuard.Codecs
import TraceGuard.FileTrees

/-! The protocol of a security evaluation, the outcomes submitted under it, and how both are read from JSON.
Reading is strict: a field has its own type, and there are no other fields. -/
namespace Json.Codec

def int : Codec Int where
  enc := .int
  dec
    | .int n => some n
    | _ => none
  read _ := rfl

variable {α : Type}

theorem list_dec {c : Codec α} (h : ∀ a, c.dec (c.enc a)=some a) (xs : List α) :
    c.list.dec (c.list.enc xs)=some xs :=
  mapM_read h xs

theorem map_dec {c : Codec α} (hsorted : ∀ a, (c.enc a).sorted=c.enc a) (m : SortedMap String α) :
    c.map.dec (c.map.enc m)=some m := by
  have h := c.map.read m
  have henc : (c.map.enc m).sorted=c.map.enc m := by
    rw [show c.map.enc m=Json.obj (m.map c.enc).entries from rfl, sorted_entries]
    simp only [hsorted]
  rwa [henc] at h

theorem field_enc {key : String} {c : Codec α} {a : α} {ms : List (String × Json)}
    (h : ms.lookup key=some (c.enc a)) (hd : c.dec (c.enc a)=some a) : field key c (.obj ms)=some a := by
  rw [field, member, h, Option.bind_some, hd]

end Json.Codec

namespace TraceGuard
open Json (Codec)
open Files

namespace SecurityEvaluation

/-- `^[0-9a-f]{…}$`. -/
def hexText (length : Nat) (s : String) : Prop :=
  s.length=length ∧ ∀ c∈s.toList, c∈"0123456789abcdef".toList

instance (length : Nat) (s : String) : Decidable (hexText length s) :=
  @instDecidableAnd _ _ (instDecidableEqNat _ _) (List.decidableBAll _ _)

/-- `extra="forbid"`. -/
def onlyFields (names : List String) : Json → Bool
  | .obj members => members.all fun member => member.1∈names
  | _ => false

structure Protocol where
  dataset : String
  datasetRevision : String
  armRevisions : SortedMap String String
  baseline : String
  agentModel : String
  modelSettingsDigest : String
  executorContractDigest : String
  evaluatorRevision : String
  tasks : SortedMap String String
  developmentFamilies : List String
  seeds : List Int
  adaptiveQueryBudget : Nat
  maxToolCalls : Nat
  maxModelTokens : Nat

namespace Protocol

/-- The bounds of the single fields. -/
def FieldsValid (p : Protocol) : Prop :=
  p.dataset≠"" ∧ hexText 40 p.datasetRevision ∧ (2≤p.armRevisions.size ∧ p.armRevisions.size≤8) ∧
  p.agentModel≠"" ∧ hexText 64 p.modelSettingsDigest ∧ hexText 64 p.executorContractDigest ∧
  hexText 40 p.evaluatorRevision ∧ (1≤p.tasks.size ∧ p.tasks.size≤1000) ∧
  (1≤p.seeds.length ∧ p.seeds.length≤32) ∧ (1≤p.adaptiveQueryBudget ∧ p.adaptiveQueryBudget≤1000) ∧
  (1≤p.maxToolCalls ∧ p.maxToolCalls≤1000) ∧ (1≤p.maxModelTokens ∧ p.maxModelTokens≤1000000)

/-- `independent_units`. -/
def IndependentUnits (p : Protocol) : Prop :=
  p.baseline∈p.armRevisions.keys ∧ p.seeds.Nodup ∧ (∀ family∈p.tasks.values, family∉p.developmentFamilies) ∧
  ∀ revision∈p.armRevisions.values, hexText 40 revision

instance (p : Protocol) : Decidable p.FieldsValid := inferInstanceAs (Decidable (_ ∧ _))
instance (p : Protocol) : Decidable p.IndependentUnits := inferInstanceAs (Decidable (_ ∧ _))

/-- `model_dump(mode="json")`. -/
def members (p : Protocol) : List (String × Json) :=
  [("dataset", .str p.dataset), ("dataset_revision", .str p.datasetRevision),
    ("arm_revisions", (Codec.map .text).enc p.armRevisions), ("baseline", .str p.baseline),
    ("agent_model", .str p.agentModel), ("model_settings_digest", .str p.modelSettingsDigest),
    ("executor_contract_digest", .str p.executorContractDigest),
    ("evaluator_revision", .str p.evaluatorRevision), ("tasks", (Codec.map .text).enc p.tasks),
    ("development_families", (Codec.list .text).enc p.developmentFamilies),
    ("seeds", (Codec.list .int).enc p.seeds), ("adaptive_query_budget", .int p.adaptiveQueryBudget),
    ("max_tool_calls", .int p.maxToolCalls), ("max_model_tokens", .int p.maxModelTokens)]

def dump (p : Protocol) : Json := .obj p.members

/-- The fields of a protocol by themselves. -/
def ofFields (v : Json) : Option Protocol := do
  let dataset ← Codec.field "dataset" .text v
  let datasetRevision ← Codec.field "dataset_revision" .text v
  let armRevisions ← Codec.field "arm_revisions" (.map .text) v
  let baseline ← Codec.field "baseline" .text v
  let agentModel ← Codec.field "agent_model" .text v
  let modelSettingsDigest ← Codec.field "model_settings_digest" .text v
  let executorContractDigest ← Codec.field "executor_contract_digest" .text v
  let evaluatorRevision ← Codec.field "evaluator_revision" .text v
  let tasks ← Codec.field "tasks" (.map .text) v
  let developmentFamilies ← Codec.field "development_families" (.list .text) v
  let seeds ← Codec.field "seeds" (.list .int) v
  let adaptiveQueryBudget ← Codec.field "adaptive_query_budget" .nat v
  let maxToolCalls ← Codec.field "max_tool_calls" .nat v
  let maxModelTokens ← Codec.field "max_model_tokens" .nat v
  some {
    dataset, datasetRevision, armRevisions, baseline, agentModel, modelSettingsDigest, executorContractDigest,
    evaluatorRevision, tasks, developmentFamilies, seeds, adaptiveQueryBudget, maxToolCalls, maxModelTokens }

def fieldNames : List String :=
  ["dataset", "dataset_revision", "arm_revisions", "baseline", "agent_model", "model_settings_digest",
    "executor_contract_digest", "evaluator_revision", "tasks", "development_families", "seeds",
    "adaptive_query_budget", "max_tool_calls", "max_model_tokens"]

/-- `Protocol.model_validate`; `none` is a `ValidationError`. -/
def modelValidate (v : Json) : Option Protocol := do
  guard (onlyFields fieldNames v)
  let protocol ← ofFields v
  guard (protocol.FieldsValid ∧ protocol.IndependentUnits)
  some protocol

end Protocol

structure Outcome where
  arm : String
  task : String
  family : String
  seed : Int
  protocolDigest : String
  sourceRevision : String
  modelSettingsDigest : String
  executorContractDigest : String
  evaluatorRevision : String
  utility : Bool
  prohibitedEffect : Bool
  protectedDataReleased : Bool
  executionUnknown : Bool
  escalated : Bool
  adaptiveQueries : Nat
  toolCalls : Nat
  modelTokens : Nat
  latencyMs : Double
  costUsd : Double
  tracePath : String
  traceSha256 : String
  effectEvidencePath : String
  effectEvidenceSha256 : String

namespace Outcome

/-- A finite float that is not below zero; an integer is converted. -/
def amount (v : Json) : Option Double := do
  let x ← match v with
    | .float x => some x
    | .int n => Double.ofInt n
    | _ => none
  guard (x.isFinite ∧ Json.Exact.le (Json.exactInt 0) (Json.exactFloat x))
  some x

def ofFields (v : Json) : Option Outcome := do
  let arm ← Codec.field "arm" .text v
  let task ← Codec.field "task" .text v
  let family ← Codec.field "family" .text v
  let seed ← Codec.field "seed" .int v
  let protocolDigest ← Codec.field "protocol_digest" .text v
  let sourceRevision ← Codec.field "source_revision" .text v
  let modelSettingsDigest ← Codec.field "model_settings_digest" .text v
  let executorContractDigest ← Codec.field "executor_contract_digest" .text v
  let evaluatorRevision ← Codec.field "evaluator_revision" .text v
  let utility ← Codec.field "utility" .bool v
  let prohibitedEffect ← Codec.field "prohibited_effect" .bool v
  let protectedDataReleased ← Codec.field "protected_data_released" .bool v
  let executionUnknown ← Codec.field "execution_unknown" .bool v
  let escalated ← Codec.field "escalated" .bool v
  let adaptiveQueries ← Codec.field "adaptive_queries" .nat v
  let toolCalls ← Codec.field "tool_calls" .nat v
  let modelTokens ← Codec.field "model_tokens" .nat v
  let latencyMs ← (v.member "latency_ms").bind amount
  let costUsd ← (v.member "cost_usd").bind amount
  let tracePath ← Codec.field "trace_path" .text v
  let traceSha256 ← Codec.field "trace_sha256" .text v
  let effectEvidencePath ← Codec.field "effect_evidence_path" .text v
  let effectEvidenceSha256 ← Codec.field "effect_evidence_sha256" .text v
  some {
    arm, task, family, seed, protocolDigest, sourceRevision, modelSettingsDigest, executorContractDigest,
    evaluatorRevision, utility, prohibitedEffect, protectedDataReleased, executionUnknown, escalated,
    adaptiveQueries, toolCalls, modelTokens, latencyMs, costUsd, tracePath, traceSha256, effectEvidencePath,
    effectEvidenceSha256 }

def fieldNames : List String :=
  ["arm", "task", "family", "seed", "protocol_digest", "source_revision", "model_settings_digest",
    "executor_contract_digest", "evaluator_revision", "utility", "prohibited_effect",
    "protected_data_released", "execution_unknown", "escalated", "adaptive_queries", "tool_calls",
    "model_tokens", "latency_ms", "cost_usd", "trace_path", "trace_sha256", "effect_evidence_path",
    "effect_evidence_sha256"]

/-- `Outcome.model_validate`. -/
def modelValidate (v : Json) : Option Outcome := do
  guard (onlyFields fieldNames v)
  let row ← ofFields v
  guard (hexText 64 row.traceSha256 ∧ hexText 64 row.effectEvidenceSha256)
  some row

end Outcome

/-! A valid protocol's dump is valid and reads as that protocol. -/

theorem Protocol.ofFields_dump (p : Protocol) : Protocol.ofFields p.dump=some p := by
  have htexts := Codec.list_dec (c := .text) (fun _ => rfl) p.developmentFamilies
  have hints := Codec.list_dec (c := .int) (fun _ => rfl) p.seeds
  have harms := Codec.map_dec (c := .text) (fun _ => rfl) p.armRevisions
  have htasks := Codec.map_dec (c := .text) (fun _ => rfl) p.tasks
  have hnat : ∀ n : Nat, Codec.nat.dec (Codec.nat.enc n)=some n := Codec.nat.read
  rw [ofFields, dump]
  rw [Codec.field_enc (a := p.dataset) rfl rfl, Codec.field_enc (a := p.datasetRevision) rfl rfl,
    Codec.field_enc (a := p.armRevisions) rfl harms, Codec.field_enc (a := p.baseline) rfl rfl,
    Codec.field_enc (a := p.agentModel) rfl rfl, Codec.field_enc (a := p.modelSettingsDigest) rfl rfl,
    Codec.field_enc (a := p.executorContractDigest) rfl rfl, Codec.field_enc (a := p.evaluatorRevision) rfl rfl,
    Codec.field_enc (a := p.tasks) rfl htasks, Codec.field_enc (a := p.developmentFamilies) rfl htexts,
    Codec.field_enc (a := p.seeds) rfl hints, Codec.field_enc (a := p.adaptiveQueryBudget) rfl (hnat _),
    Codec.field_enc (a := p.maxToolCalls) rfl (hnat _), Codec.field_enc (a := p.maxModelTokens) rfl (hnat _)]
  rfl

theorem Protocol.modelValidate_ok {v : Json} {p : Protocol} (h : Protocol.modelValidate v=some p) :
    Protocol.ofFields v=some p ∧ p.FieldsValid ∧ p.IndependentUnits := by
  obtain ⟨-, -, h⟩ := Option.bind_eq_some_iff.mp h
  obtain ⟨q, hfields, h⟩ := Option.bind_eq_some_iff.mp h
  obtain ⟨u, hguard, h⟩ := Option.bind_eq_some_iff.mp h
  cases h
  refine ⟨hfields, ?_⟩
  by_contra hinvalid
  simp [guard, hinvalid] at hguard

theorem Protocol.valid_dump {p : Protocol} (h : p.FieldsValid ∧ p.IndependentUnits) :
    Protocol.modelValidate p.dump=some p := by
  have hnames : onlyFields fieldNames p.dump=true := by rfl
  simp [modelValidate, hnames, ofFields_dump, h]

theorem Protocol.modelValidate_dump {v : Json} {p : Protocol} (h : Protocol.modelValidate v=some p) :
    Protocol.modelValidate p.dump=some p :=
  valid_dump (modelValidate_ok h).2

end SecurityEvaluation
end TraceGuard
