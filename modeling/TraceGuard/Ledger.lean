import TraceGuard.Decimal
import TraceGuard.Traces

/-! The execution ledger: two tables, and the four transactions that write them.
A call that raises is rolled back, so it returns no database. -/
namespace TraceGuard

inductive Status where
  | pending
  | succeeded
  | unknown
  | notDispatched
  deriving DecidableEq, Repr

inductive Disposition where
  | pendingReview
  | acceptedForAgent
  | withheld
  | reviewRequired
  deriving DecidableEq, Repr

structure Scope where
  tenant : String
  principal : String
  credential : String
  task : String
  deriving DecidableEq, Repr

/-- The columns of `executions` that only INSERT writes. -/
structure Reserved where
  nonce : String
  scope : Scope
  idempotencyKey : String
  digest : String
  effectDigest : String
  amount : String
  resultPolicy : String
  deriving DecidableEq, Repr

/-- The columns that UPDATE writes. -/
structure Outcome where
  status : Status
  result : Option String
  disposition : Disposition
  deriving DecidableEq, Repr

structure Execution extends Reserved, Outcome
  deriving DecidableEq, Repr

def Execution.set (r : Execution) (o : Outcome) : Execution := ⟨r.toReserved, o⟩

structure Reconciliation where
  nonce : String
  actor : String
  status : Status
  providerReference : String
  deriving DecidableEq, Repr

/-- Rows of `executions` under its two uniqueness constraints. -/
structure Executions where
  rows : List Execution
  primaryKey : (rows.map fun r => r.nonce).Nodup
  uniqueKey : (rows.map fun r => (r.scope, r.idempotencyKey)).Nodup
  deriving DecidableEq

structure Database where
  metadata : List (Nat × String)
  executions : Executions
  reconciliations : List Reconciliation
  deriving DecidableEq

inductive LedgerError where
  | value (message : String)
  | authorization (message : String)
  | executionUnknown (message : String)
  | key (message : String)
  | decimal (signal : Decimal.Signal)
  | integrity
  deriving DecidableEq, Repr

/-- The order in which SQLite visits the rows of one call; no query fixes one. -/
structure Scan where
  order : List Execution → List Execution
  perm : ∀ rows, (order rows).Perm rows

def Scan.rowid : Scan := ⟨id, fun _ => List.Perm.refl _⟩

namespace Executions

def empty : Executions := ⟨[], List.nodup_nil, List.nodup_nil⟩

def select (t : Executions) (scan : Scan) (p : Execution → Bool) : List Execution :=
  (scan.order t.rows).filter p

def insert (t : Executions) (row : Execution) : Except LedgerError Executions :=
  if h : row.nonce∉t.rows.map (fun r => r.nonce) ∧
      (row.scope, row.idempotencyKey)∉t.rows.map (fun r => (r.scope, r.idempotencyKey)) then
    .ok ⟨t.rows++[row],
      by simpa using List.nodup_append_comm.mp (List.nodup_cons.mpr ⟨h.1, t.primaryKey⟩),
      by simpa using List.nodup_append_comm.mp (List.nodup_cons.mpr ⟨h.2, t.uniqueKey⟩)⟩
  else .error .integrity

/-- `UPDATE … SET … WHERE p`, with the number of rows it changed. -/
def update (t : Executions) (p : Execution → Bool) (f : Execution → Outcome) :
    Executions × Nat :=
  let g (r : Execution) : Execution := if p r then r.set (f r) else r
  have keep (r : Execution) : (g r).toReserved = r.toReserved := by
    simp only [g]; split <;> rfl
  (⟨t.rows.map g, by simpa [Function.comp_def, keep] using t.primaryKey,
    by simpa [Function.comp_def, keep] using t.uniqueKey⟩, t.rows.countP p)

end Executions

structure ExecutionLedger where
  storeId : String
  deriving DecidableEq, Repr

structure Reservation where
  scope : Scope
  nonce : String
  idempotencyKey : String
  digest : String
  effectDigest : String
  amount : Decimal := .ofNat 0
  budgetLimit : Option String := none
  repeatable : Bool := false
  resultPolicy : String := ""
  deriving DecidableEq, Repr

/-- What `reserve` returns for an existing row; it is always marked replayed. -/
structure Replay where
  nonce : String
  status : Status
  result : Option String
  disposition : Disposition
  deriving DecidableEq, Repr

namespace ExecutionLedger

def schema : Nat := 3

def provision (storeId : String) : Except LedgerError Database :=
  if storeId="" ∨ 128 < storeId.length then .error (.value "invalid store identity")
  else .ok ⟨[(schema, storeId)], .empty, []⟩

/-- `_connection`: every call checks the stored schema and identity first. -/
def connection (self : ExecutionLedger) (db : Database) : Except LedgerError Unit :=
  if db.metadata=[(schema, self.storeId)] then .ok ()
  else .error (.value "execution ledger unavailable or incompatible; stop admission")

/-- The replay condition: the same nonce or the same scope and key. -/
def sameKey (r : Reservation) (row : Execution) : Bool :=
  row.nonce=r.nonce || (row.scope=r.scope && row.idempotencyKey=r.idempotencyKey)

def sameTask (r : Reservation) (row : Execution) : Bool :=
  row.scope.tenant=r.scope.tenant && row.scope.task=r.scope.task

def uncertain (row : Execution) : Bool := row.status=.pending || row.status=.unknown

/-- A row that holds its task: uncertain, or succeeded without an accepted result. -/
def holds (row : Execution) : Bool :=
  uncertain row || (row.status=.succeeded && row.disposition≠.acceptedForAgent)

def live (row : Execution) : Bool := row.status≠.notDispatched

/-- `Decimal(text)` where a malformed text raises. -/
def decimalOf (text : String) : Except LedgerError Decimal :=
  match Decimal.ofText text with
  | some d => .ok d
  | none => .error (.decimal .invalidOperation)

def addDecimal (a b : Decimal) : Except LedgerError Decimal :=
  match Decimal.add a b with
  | .ok d => .ok d
  | .error s => .error (.decimal s)

def exceeds (a b : Decimal) : Except LedgerError Bool :=
  match Decimal.gt a b with
  | .ok b => .ok b
  | .error s => .error (.decimal s)

/-- `sum(…, Decimal(0))` over the stored amounts. -/
def spent : List Execution → Decimal → Except LedgerError Decimal
  | [], total => .ok total
  | row :: rows, total => do
    let amount ← decimalOf row.amount
    let total ← addDecimal total amount
    spent rows total

/-- The row a fresh reservation inserts. -/
def pendingRow (r : Reservation) : Execution where
  nonce := r.nonce
  scope := r.scope
  idempotencyKey := r.idempotencyKey
  digest := r.digest
  effectDigest := r.effectDigest
  amount := r.amount.str
  resultPolicy := r.resultPolicy
  status := .pending
  result := none
  disposition := .pendingReview

/-- The replay branch: only an accepted result under the same policy is returned,
and any other accepted row is sent back to review. -/
def replay (db : Database) (r : Reservation) (existing : Execution) :
    Except LedgerError (Option Replay × Database) :=
  if existing.digest≠r.digest ∨ existing.scope≠r.scope then
    .error (.authorization "execution key is bound to a different effect")
  else match existing.status with
  | .succeeded =>
    if existing.disposition=.acceptedForAgent ∧
        (existing.resultPolicy≠r.resultPolicy ∨ existing.result=none) then
      let (executions, _) := db.executions.update (fun row => row.nonce=existing.nonce)
        fun row => { row.toOutcome with disposition := .reviewRequired }
      .ok (some ⟨existing.nonce, .succeeded, none, .reviewRequired⟩,
        { db with executions := executions })
    else
      .ok (some ⟨existing.nonce, .succeeded,
        if existing.disposition=.acceptedForAgent then existing.result else none,
        existing.disposition⟩, db)
  | .notDispatched =>
    .error (.authorization "previous grant was rejected before dispatch; use a new key")
  | .pending | .unknown =>
    .error (.executionUnknown "an execution is pending or unknown; do not blindly retry")

/-- The budget check: `spent + amount > Decimal(budget_limit)` raises. -/
def withinBudget (counted : List Execution) (r : Reservation) : Except LedgerError Unit := do
  let total ← spent counted (.ofNat 0)
  match r.budgetLimit with
  | none => .ok ()
  | some text =>
    let total ← addDecimal total r.amount
    let limit ← decimalOf text
    if ← exceeds total limit then
      .error (.authorization "task budget is already spent or reserved")
    else .ok ()

def reserve (self : ExecutionLedger) (scan : Scan) (r : Reservation) (db : Database) :
    Except LedgerError (Option Replay × Database) := do
  self.connection db
  match (db.executions.select scan (sameKey r)).head? with
  | some existing => replay db r existing
  | none =>
    if (db.executions.select scan fun row => sameTask r row && holds row)≠[] then
      .error (.executionUnknown "task has a pending or unknown effect; reconcile before retry")
    else if !r.repeatable && (db.executions.select scan fun row =>
        sameTask r row && row.effectDigest=r.effectDigest && live row)≠[] then
      .error (.authorization "identical effect already reserved under another key")
    else
      withinBudget (db.executions.select scan fun row => sameTask r row && live row) r
      let executions ← db.executions.insert (pendingRow r)
      .ok (none, { db with executions := executions })

def finish (self : ExecutionLedger) (nonce : String) (status : Status) (result : Option String)
    (disposition : Disposition) (db : Database) : Except LedgerError Database := do
  if status=.pending then .error (.value "invalid execution status")
  else if disposition=.acceptedForAgent ∧ (status≠.succeeded ∨ result=none) then
    .error (.value "acceptance requires a succeeded execution and stored result")
  else
    self.connection db
    let (executions, changed) := db.executions.update
      (fun row => row.nonce=nonce && row.status=.pending) fun _ => ⟨status, result, disposition⟩
    if changed≠1 then
      .error (.executionUnknown "reservation changed or was lost before completion")
    else .ok { db with executions := executions }

/-- Completes the first review only. -/
def decideResult (self : ExecutionLedger) (nonce : String) (disposition : Disposition)
    (resultPolicy : String) (db : Database) : Except LedgerError Database := do
  if disposition=.pendingReview then .error (.value "invalid result disposition")
  else
    self.connection db
    let (executions, changed) := db.executions.update
      (fun row => row.nonce=nonce && row.status=.succeeded && row.disposition=.pendingReview &&
        row.resultPolicy=resultPolicy && row.result≠none)
      fun row => { row.toOutcome with disposition := disposition }
    if changed≠1 then
      .error (.executionUnknown "result review changed or requires authorized recovery")
    else .ok { db with executions := executions }

def lookup (self : ExecutionLedger) (nonce : String) (db : Database) :
    Except LedgerError Execution := do
  self.connection db
  match db.executions.rows.find? (fun row => row.nonce=nonce) with
  | some row => .ok row
  | none => .error (.key "execution reservation not found")

/-- The arguments of `reconcile`. -/
structure Resolution where
  nonce : String
  status : Status
  result : Option String
  actor : String
  providerReference : String
  pendingWorkerFenced : Bool := false
  disposition : Disposition := .reviewRequired
  deriving DecidableEq, Repr

def reconcile (self : ExecutionLedger) (v : Resolution) (db : Database) :
    Except LedgerError (Execution × Database) := do
  if (v.status≠.succeeded ∧ v.status≠.notDispatched) ∨ v.providerReference="" then
    .error (.value "reconciliation requires a definitive verified provider receipt")
  else if v.disposition=.pendingReview ∨
      (v.disposition=.acceptedForAgent ∧ (v.status≠.succeeded ∨ v.result=none)) then
    .error (.value "invalid reconciliation result disposition")
  else
    self.connection db
    if db.executions.rows.any (fun row => row.nonce=v.nonce && row.status=.pending) &&
        !v.pendingWorkerFenced then
      .error (.value "fence the pending worker before reconciliation")
    else
      let (executions, changed) := db.executions.update
        (fun row => row.nonce=v.nonce && uncertain row)
        fun _ => ⟨v.status, v.result, v.disposition⟩
      if changed≠1 then .error (.value "only an uncertain reservation can be reconciled")
      else
        let next := { db with
          executions := executions
          reconciliations := db.reconciliations++
            [⟨v.nonce, v.actor, v.status, v.providerReference⟩] }
        let row ← self.lookup v.nonce next
        .ok (row, next)

/-- One ledger call of any worker. -/
inductive Call where
  | reserve (r : Reservation)
  | finish (nonce : String) (status : Status) (result : Option String) (disposition : Disposition)
  | decideResult (nonce : String) (disposition : Disposition) (resultPolicy : String)
  | reconcile (v : Resolution)

inductive Reply where
  | reserved (replay : Option Replay)
  | done
  | reconciled (row : Execution)
  deriving DecidableEq, Repr

def exec (self : ExecutionLedger) (scan : Scan) (db : Database) :
    Call → Except LedgerError (Reply × Database)
  | .reserve r => (self.reserve scan r db).map fun (replay, next) => (.reserved replay, next)
  | .finish nonce status result disposition =>
    (self.finish nonce status result disposition db).map fun next => (.done, next)
  | .decideResult nonce disposition resultPolicy =>
    (self.decideResult nonce disposition resultPolicy db).map fun next => (.done, next)
  | .reconcile v => (self.reconcile v db).map fun (row, next) => (.reconciled row, next)

/-- A call as it appears in a history: the worker's handle, the scan order SQLite
took, the call and what it returned or raised. -/
structure Event where
  ledger : ExecutionLedger
  scan : Scan
  call : Call
  outcome : Except LedgerError Reply

/-- One atomic call; a raising call leaves the tables unchanged. -/
def Step (db : Database) (e : Event) (db' : Database) : Prop :=
  match e.ledger.exec e.scan db e.call with
  | .ok (reply, next) => e.outcome=.ok reply ∧ db'=next
  | .error err => e.outcome=.error err ∧ db'=db

end ExecutionLedger
end TraceGuard
