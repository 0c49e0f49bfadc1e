import TraceGuard.DispatchingRuns
import TraceGuard.Models
import TraceGuard.Redaction

/-! The mediated executor. One `execute` call is a sequence of steps that other calls may come
between; each ledger call is one step, and so is each return of `validate_online` and `dispatch`. -/
namespace TraceGuard
open ExecutionLedger Raising

inductive ControlError where
  | value (message : String)
  | authorization (message : String)
  | key (message : String)
  | conflict (message : String)
  | ledger (error : LedgerError)
  | callback
  deriving DecidableEq, Repr

/-- `str(value)` of the values whose text can be a number. -/
def numberText : Json → Option String
  | .int n => some (String.ofList (Json.intChars n))
  | .float x => some (String.ofList (Json.floatChars x))
  | .str text => some text
  | _ => none

def paymentAmount (action : ActionRequest) : Except ControlError Decimal :=
  if action.operation∈paymentTools then
    match ((action.arguments.get "amount").bind numberText).bind Decimal.ofText with
    | some amount =>
      if amount.isFinite && !amount.isNegative then .ok amount
      else .error (.value "invalid payment amount")
    | none => .error (.value "invalid payment amount")
  else .ok (.ofNat 0)

structure ProviderReceipt where
  actionDigest : String
  reference : String
  status : Status
  result : Option String := none

def maxResult : Nat := 1048576

structure MediatedExecutor where
  identity : Actor
  separate : Role.executor∈identity.roles ∧ Role.agent∉identity.roles
  publicKey : String
  keyId : String
  adapterDigest : String
  ledger : ExecutionLedger

namespace MediatedExecutor

/-- The checks before any callback; `execute` raises unless all hold. -/
def admits (self : MediatedExecutor) (crypto : Crypto) (now : Instant) (principal : Actor)
    (action : ActionRequest) (grant : ExecutionGrant) : Bool :=
  Role.agent∈principal.roles && action.tenantId∈principal.tenantIds &&
  grant.tenantId=action.tenantId && grant.taskId=action.taskId &&
  principal.subject=grant.agentSubject && principal.serviceKeyId=some grant.serviceKeyId &&
  (match principal.allowedOperations with
    | some operations => action.operation∈operations
    | none => true) &&
  grant.audience=self.identity.subject && grant.keyId=self.keyId &&
  grant.adapterDigest=self.adapterDigest && grant.executionDomain=self.ledger.storeId &&
  grant.expiresAt.after now && grant.actionDigest=crypto.actionDigest action &&
  crypto.verifyValue self.publicKey grant.unsigned grant.signature

/-- The reservation of an admitted call. -/
def reservation (self : MediatedExecutor) (crypto : Crypto) (principal : Actor)
    (action : ActionRequest) (grant : ExecutionGrant) : Except ControlError Reservation := do
  let amount ← paymentAmount action
  if amount.str≠grant.amount then
    .error (.authorization "grant amount mismatches the requested effect")
  else
    .ok {
      scope := ⟨action.tenantId, principal.subject, principal.serviceKeyId.getD "", action.taskId⟩
      nonce := grant.nonce
      idempotencyKey := action.idempotencyKey
      digest := grant.actionDigest
      effectDigest := crypto.effectDigest action
      amount := amount
      budgetLimit := grant.budgetLimit
      repeatable := grant.repeatable
      resultPolicy := "sanitized-receipt-v1:"++self.adapterDigest }

/-- The result that is stored; `none` when it exceeds the limit. -/
def receipt (re : Re) (result : String) : Option String :=
  if maxResult < result.utf8ByteSize then none else some (re.redactReceipt result)

def safeResult (re : Re) : Option String → Except ControlError (Option String)
  | none => .ok none
  | some result => match receipt re result with
    | some safe => .ok (some safe)
    | none => .error (.value "provider receipt exceeds limit")

/-- Resolve through the provider's receipt for the reserved action. -/
def reconcile (self : MediatedExecutor) (re : Re)
    (provider : Option (Execution → String → Except ControlError ProviderReceipt))
    (operator : Actor) (nonce reference : String) (fenced : Bool) (db : Database) :
    Except ControlError (Execution × Database) := do
  let record ← (self.ledger.lookup nonce db).mapError .ledger
  if Role.reviewer∉operator.roles ∨ Role.agent∈operator.roles ∨
      record.scope.tenant∉operator.tenantIds then
    .error (.authorization "reconciliation requires a separate tenant reviewer")
  else match provider with
  | none => .error (.authorization "authoritative provider reconciliation is not configured")
  | some provider =>
    let answer ← provider record reference
    if answer.actionDigest≠record.digest ∨ answer.reference≠reference then
      .error (.authorization "provider receipt does not bind the reserved action")
    else
      let result ← safeResult re answer.result
      let v : ExecutionLedger.Resolution := {
        nonce := nonce
        status := answer.status
        result := result
        actor := operator.subject
        providerReference := reference
        pendingWorkerFenced := fenced
        disposition := if answer.status=.succeeded then .acceptedForAgent else .reviewRequired }
      (self.ledger.reconcile v db).mapError .ledger

/-- The arguments of one `execute` call. -/
structure Request where
  self : MediatedExecutor
  principal : Actor
  action : ActionRequest
  grant : ExecutionGrant

inductive Outcome where
  | completed (result : String)
  | replayed (replay : Replay)
  | raised (error : ControlError)

/-- Where an `execute` call stands between two steps. -/
inductive Phase where
  | idle
  | authorizing (q : Request)
  | ready (q : Request) (r : Reservation)
  | reserved (q : Request) (r : Reservation)
  | rejected (q : Request) (r : Reservation)
  | cleared (q : Request) (r : Reservation)
  | dispatching (q : Request) (r : Reservation)
  | returned (q : Request) (r : Reservation) (result : Option String)
  | done (outcome : Outcome)
  | crashed

/-- Calls by number, of any executors, over one ledger file. -/
structure System where
  db : Database
  calls : Nat → Phase

/-- What happens next: a call moves on, and a callback's result is the environment's choice. -/
inductive Input where
  | begin (id : Nat) (q : Request) (now : Instant)
  | validated (id : Nat) (accepted : Bool)
  | reserve (id : Nat) (scan : Scan)
  | revalidated (id : Nat) (accepted : Bool)
  | dispatch (id : Nat)
  | answered (id : Nat) (result : Option String)
  | finish (id : Nat)
  | crash (id : Nat)
  | reconcile (ledger : ExecutionLedger) (v : Resolution)

/-- What a step shows: a reservation request, an invocation of `dispatch`, a settled row. -/
inductive Output where
  | quiet
  | reserving (r : Reservation)
  | dispatched (q : Request) (r : Reservation)
  | reconciled (row : Execution)

def System.set (s : System) (id : Nat) (phase : Phase) : System :=
  { s with calls := Function.update s.calls id phase }

structure Completion where
  status : Status
  result : Option String
  disposition : Disposition
  outcome : Outcome

/-- The `finish` call of a phase and what `execute` gives back after it. -/
def completion : Phase → Option (Request × Reservation × Completion)
  | .rejected q r => some (q, r, ⟨.notDispatched, none, .reviewRequired, .raised .callback⟩)
  | .returned q r (some safe) =>
    some (q, r, ⟨.succeeded, some safe, .acceptedForAgent, .completed safe⟩)
  | .returned q r none => some (q, r, ⟨.unknown, none, .reviewRequired, .raised (.ledger
      (.executionUnknown "dispatch outcome is unknown; reconcile with the provider before retry"))⟩)
  | _ => none

/-- Before the first `validate_online` and after it. -/
def admitted (crypto : Crypto) (q : Request) (now : Instant) : Phase :=
  if q.self.admits crypto now q.principal q.action q.grant then .authorizing q
  else .done (.raised (.authorization "execution grant does not authorize this caller and action"))

def validated (crypto : Crypto) (q : Request) (accepted : Bool) : Phase :=
  if accepted then
    match q.self.reservation crypto q.principal q.action q.grant with
    | .ok r => .ready q r
    | .error e => .done (.raised e)
  else .done (.raised .callback)

/-- One step of a call that is at that step; `none` where it is not. -/
def next (crypto : Crypto) (re : Re) (s : System) : Input → Option (System × Output)
  | .begin id q now =>
    match s.calls id with
    | .idle => some (s.set id (admitted crypto q now), .quiet)
    | _ => none
  | .validated id accepted =>
    match s.calls id with
    | .authorizing q => some (s.set id (validated crypto q accepted), .quiet)
    | _ => none
  | .reserve id scan =>
    match s.calls id with
    | .ready q r =>
      match q.self.ledger.reserve scan r s.db with
      | .ok (none, db) => some ({ s with db := db }.set id (.reserved q r), .reserving r)
      | .ok (some replay, db) =>
        some ({ s with db := db }.set id (.done (.replayed replay)), .reserving r)
      | .error e => some (s.set id (.done (.raised (.ledger e))), .reserving r)
    | _ => none
  | .revalidated id accepted =>
    match s.calls id with
    | .reserved q r => some (s.set id (if accepted then .cleared q r else .rejected q r), .quiet)
    | _ => none
  | .dispatch id =>
    match s.calls id with
    | .cleared q r => some (s.set id (.dispatching q r), .dispatched q r)
    | _ => none
  | .answered id result =>
    match s.calls id with
    | .dispatching q r => some (s.set id (.returned q r (result.bind (receipt re))), .quiet)
    | _ => none
  | .finish id =>
    match completion (s.calls id) with
    | some (q, r, c) =>
      match q.self.ledger.finish r.nonce c.status c.result c.disposition s.db with
      | .ok db => some ({ s with db := db }.set id (.done c.outcome), .quiet)
      | .error e => some (s.set id (.done (.raised (.ledger e))), .quiet)
    | none => none
  | .crash id => some (s.set id .crashed, .quiet)
  | .reconcile ledger v =>
    match ledger.reconcile v s.db with
    | .ok (row, db) => some ({ s with db := db }, .reconciled row)
    | .error _ => none

def Step (crypto : Crypto) (re : Re) (s : System) (e : Input × Output) (t : System) : Prop :=
  next crypto re s e.1 = some (t, e.2)

/-- The executor's `reconcile` is a `reconcile` of its ledger for the same row. -/
theorem reconcile_ledger {self : MediatedExecutor} {re : Re}
    {provider : Option (Execution → String → Except ControlError ProviderReceipt)}
    {operator : Actor} {nonce reference : String} {fenced : Bool} {db next : Database}
    {row : Execution}
    (h : self.reconcile re provider operator nonce reference fenced db = .ok (row, next)) :
    ∃ v : Resolution, v.nonce=nonce ∧ self.ledger.reconcile v db = .ok (row, next) := by
  unfold reconcile at h
  obtain ⟨record, -, h⟩ := bind_ok h
  split_ifs at h
  split at h
  · cases h
  obtain ⟨answer, -, h⟩ := bind_ok h
  by_cases hbound : answer.actionDigest≠record.digest ∨ answer.reference≠reference
  · rw [if_pos hbound] at h
    cases h
  rw [if_neg hbound] at h
  obtain ⟨result, -, h⟩ := bind_ok h
  exact ⟨_, rfl, mapError_ok h⟩

end MediatedExecutor
end TraceGuard
