import TraceGuard.Json
import TraceGuard.Numbers

/-! The contracts that the policy, the supervisors and the executors share. -/
namespace TraceGuard

inductive Decision where
  | allow
  | block
  | escalate
  | rewrite
  deriving DecidableEq, Repr

inductive GoalRelevance where
  | uncertain
  | irrelevant
  | weak
  | strong
  deriving DecidableEq, Repr

inductive GoalNecessity where
  | uncertain
  | unnecessary
  | helpful
  | necessary
  deriving DecidableEq, Repr

inductive RiskLevel where
  | low
  | medium
  | high
  | critical
  deriving DecidableEq, Repr

inductive TrustLabel where
  | trustedSystem
  | userInput
  | trustedTool
  | untrustedDocument
  | untrustedTool
  | agentGenerated
  deriving DecidableEq, Repr

inductive ExecutionTarget where
  | default
  | container
  | simulated
  deriving DecidableEq, Repr

/-- A `dict` with text keys, in insertion order. -/
structure Dict (α : Type) where
  items : List (String × α)
  distinct : (items.map Prod.fst).Nodup

namespace Dict
variable {α : Type}

def empty : Dict α := ⟨[], List.nodup_nil⟩

def get (d : Dict α) (key : String) : Option α := d.items.lookup key

def keys (d : Dict α) : List String := d.items.map Prod.fst

/-- `d[key] = value` for a key that is not there yet, and no change for one that is. -/
def setDefault (d : Dict α) (key : String) (value : α) : Dict α :=
  if h : key∈d.keys then d
  else ⟨d.items++[(key, value)], by
    simpa using List.nodup_append_comm.mp (List.nodup_cons.mpr ⟨h, d.distinct⟩)⟩

/-- `items` with the key's value replaced, or the new pair at the end. -/
def put (key : String) (value : α) : List (String × α) → List (String × α)
  | [] => [(key, value)]
  | item :: items => if item.1=key then (key, value) :: items else item :: put key value items

theorem keys_put (key : String) (value : α) (items : List (String × α)) :
    (put key value items).map Prod.fst = if key∈items.map Prod.fst then items.map Prod.fst
      else items.map Prod.fst++[key] := by
  induction items with
  | nil => simp [put]
  | cons item items ih =>
    unfold put
    by_cases hk : item.1=key
    · simp [hk]
    · have hne : key≠item.1 := fun he => hk he.symm
      by_cases hm : key∈items.map Prod.fst <;> simp [hk, hne, hm, ih]

/-- `{**d, key: value}`. -/
def set (d : Dict α) (key : String) (value : α) : Dict α where
  items := put key value d.items
  distinct := by
    rw [keys_put]
    split
    · exact d.distinct
    · rename_i h
      simpa using List.nodup_append_comm.mp (List.nodup_cons.mpr ⟨h, d.distinct⟩)

theorem lookup_isSome (items : List (String × α)) (key : String) :
    (items.lookup key).isSome = true ↔ key∈items.map Prod.fst := by
  induction items with
  | nil => simp
  | cons item items ih =>
    rw [SortedMap.lookup_cons]
    by_cases hk : key=item.1
    · simp [hk]
    · simp [hk, ih]

theorem get_isSome (d : Dict α) (key : String) : (d.get key).isSome = true ↔ key∈d.keys :=
  lookup_isSome d.items key

theorem get_eq_none (d : Dict α) (key : String) : d.get key = none ↔ key∉d.keys := by
  rw [← d.get_isSome key, Option.not_isSome_iff_eq_none]

theorem mem_items {d : Dict α} {key : String} {value : α} :
    (key, value)∈d.items ↔ d.get key = some value := by
  obtain ⟨items, distinct⟩ := d
  simp only [get]
  induction items with
  | nil => simp
  | cons item items ih =>
    have hnd := List.nodup_cons.mp distinct
    rw [SortedMap.lookup_cons, List.mem_cons]
    by_cases hk : key=item.1
    · subst hk
      have hnot : (item.1, value)∉items := fun hm =>
        hnd.1 (List.mem_map.mpr ⟨_, hm, rfl⟩)
      simp only [hnot, or_false, if_true, Option.some.injEq]
      exact ⟨fun he => (congrArg Prod.snd he).symm, fun he => Prod.ext rfl he.symm⟩
    · have hne : (key, value)≠item := fun he => hk (congrArg Prod.fst he)
      simp [hk, hne, ih hnd.2]

theorem keys_setDefault (d : Dict α) (key : String) (value : α) :
    key∈(d.setDefault key value).keys := by
  unfold setDefault
  split
  · assumption
  · simp [keys]

theorem setDefault_same {d : Dict α} {key : String} (h : key∈d.keys) (value : α) :
    d.setDefault key value = d := dif_pos h

theorem get_setDefault (d : Dict α) (key : String) (value : α) (key' : String) :
    (d.setDefault key value).get key' = (d.get key').or (if key'=key then some value else none) := by
  unfold setDefault
  split
  · rename_i h
    by_cases hk : key'=key
    · subst hk
      obtain ⟨v, hv⟩ := Option.isSome_iff_exists.mp ((d.get_isSome _).mpr h)
      simp [hv]
    · simp [hk]
  · simp only [get, List.lookup_append, SortedMap.lookup_cons, List.lookup_nil]

theorem mem_keys_setDefault {d : Dict α} {key key' : String} {value : α}
    (h : key'∈d.keys) : key'∈(d.setDefault key value).keys := by
  unfold setDefault
  split
  · exact h
  · simp only [keys, List.map_append, List.mem_append]
    exact Or.inl h

end Dict

structure ToolCall where
  taskId : String
  stepId : Nat
  toolName : String
  arguments : Dict Json := .empty
  consumedObservationIds : List String := []
  requestedResources : List String := []
  callId : String

structure Observation where
  content : String
  sourceType : String
  sourceId : String
  trust : TrustLabel
  provenanceChain : List String := []
  mayContainInstructions : Bool := false
  observationId : String
  deriving DecidableEq

inductive EnforcementMode where
  | research
  | strict
  deriving DecidableEq, Repr

def EnforcementMode.value : EnforcementMode → String
  | research => "research"
  | strict => "strict"

/-- A budget is a finite double that is not below zero. -/
structure Budget where
  value : Double
  finite : value.isFinite = true
  nonnegative : PyNumber.le .zero (.float value) = true

/-- Constraints from trusted code. Dicts are sorted maps and values canonical documents, the
form in which the compiled scope is dumped and read. -/
structure TaskAuthority where
  allowedTools : Option (List String) := none
  repeatableTools : List String := []
  argumentValues : SortedMap String (SortedMap String Json.Doc) := .empty
  resourceValues : SortedMap String (SortedMap String (List Json.Doc)) := .empty
  enforcementMode : EnforcementMode := .research
  generatedFields : SortedMap String (List String) := .empty
  delegatedFields : SortedMap String (SortedMap String (List String)) := .empty
  maxAmount : Option Budget := none
  prohibitedContent : List String := []
  approvedConditions : List String := []

/-- A decision of a supervisor. A rewrite carries its call, a container target its profile. -/
structure SupervisorOutput where
  decision : Decision
  risk : RiskLevel
  policyViolation : Bool
  goalRelevance : GoalRelevance
  goalNecessity : GoalNecessity
  reason : String
  matchedRules : List String := []
  rewrittenCall : Option ToolCall := none
  executionTarget : Option ExecutionTarget := none
  containerProfile : Option String := none
  rewrites : decision=.rewrite → rewrittenCall.isSome = true
  profiled : executionTarget=some .container → ∃ profile≠"", containerProfile=some profile

theorem Decision.allow_ne : Decision.allow≠.rewrite := by decide

theorem Decision.block_ne : Decision.block≠.rewrite := by decide

theorem Decision.escalate_ne : Decision.escalate≠.rewrite := by decide

theorem SupervisorOutput.unrewritten (decision : Decision) (h : decision≠.rewrite) :
    decision=.rewrite → (none : Option ToolCall).isSome = true :=
  fun he => absurd he h

theorem SupervisorOutput.unprofiled :
    (none : Option ExecutionTarget)=some .container → ∃ profile≠"", (none : Option String)=some profile := by
  simp

/-- A verdict that denies. -/
structure Denial extends SupervisorOutput where
  denies : decision=.block ∨ decision=.escalate

/-- The tools whose `amount` is money. -/
def paymentTools : List String := ["send_money", "schedule_transaction"]

/-- The exceptions the policy code can raise. -/
inductive PyError where
  | value (message : String)
  | type
  | attribute
  | key
  | overflow
  | schema (message : String)
  deriving DecidableEq, Repr

end TraceGuard
