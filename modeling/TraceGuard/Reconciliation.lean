import TraceGuard.ExecutorDispatch

/-! Recovery of an uncertain effect: when the executor's `reconcile` returns, and what it leaves.
The disposition is chosen by the executor and accepted by the ledger, each by a rule of its own. -/
namespace TraceGuard
open ExecutionLedger Raising Traces

namespace Executions

/-- An update that holds of one row, and otherwise only of its nonce, changes that row. -/
theorem update_row {t : Executions} {p : Execution → Bool} {row : Execution} (o : Outcome)
    (mem : row∈t.rows) (hit : p row = true) (only : ∀ r, p r = true → r.nonce=row.nonce) :
    t.update p (fun _ => o) = (t.setOutcome row.nonce o, 1) := by
  have hone : t.rows.countP p = 1 := by
    have hfilter : ∀ x∈t.rows.filter p, x=row := fun x hx =>
      t.eq_of_nonce (List.mem_filter.mp hx).1 mem (only x (List.mem_filter.mp hx).2)
    have hn : (t.rows.filter p).Nodup := (List.Nodup.of_map _ t.primaryKey).filter p
    rw [List.countP_eq_length_filter, List.eq_replicate_of_mem hfilter, List.length_replicate]
    have hpos : 0<(t.rows.filter p).length :=
      List.length_pos_of_mem (List.mem_filter.mpr ⟨mem, hit⟩)
    rw [List.eq_replicate_of_mem hfilter, List.nodup_replicate] at hn
    omega
  obtain ⟨_, -, -, hset⟩ := t.update_unique p (fun _ => o) row.nonce only hone
  exact Prod.ext hset hone

end Executions

namespace ExecutionLedger

theorem effect_metadata {scan : Scan} {db db' : Database} {call : Call} {reply : Reply}
    (h : Effect scan db call reply db') : db'.metadata=db.metadata := by
  cases h <;> rfl

theorem step_metadata {db db' : Database} {e : Event} (h : Step db e db') :
    db'.metadata=db.metadata := by
  rcases step_cases h with ⟨_, -, rfl⟩ | ⟨_, -, he⟩
  · rfl
  · exact effect_metadata he

/-- A ledger opens the store it was provisioned for, whatever was called in between. -/
theorem run_connection {storeId : String} {start db : Database} {es : List Event}
    (hp : provision storeId = .ok start) (h : Run Step start es db) :
    connection ⟨storeId⟩ db = .ok () := by
  have hstart : start.metadata=[(schema, storeId)] := by
    unfold provision at hp
    split_ifs at hp
    cases hp
    rfl
  have hmeta : db.metadata=start.metadata :=
    h.invariant (I := fun _ db => db.metadata=start.metadata) rfl
      fun _ _ _ _ _ hi hs => (step_metadata hs).trans hi
  exact if_pos (hmeta.trans hstart)

theorem lookup_row {ledger : ExecutionLedger} {db : Database} {row : Execution}
    (hc : ledger.connection db = .ok ()) (mem : row∈db.executions.rows) :
    ledger.lookup row.nonce db = .ok row := by
  unfold lookup
  rw [hc]
  simp only [bind, Except.bind]
  cases hf : db.executions.rows.find? (fun r => r.nonce=row.nonce) with
  | none => simpa using List.find?_eq_none.mp hf row mem
  | some found =>
    have hn : found.nonce=row.nonce := by simpa using List.find?_some hf
    rw [db.executions.eq_of_nonce (List.mem_of_find?_eq_some hf) mem hn]

/-- What the ledger asks of a resolution before it looks at the row. -/
structure Resolution.Admissible (v : Resolution) : Prop where
  definitive : v.status=.succeeded ∨ v.status=.notDispatched
  referenced : v.providerReference≠""
  reviewed : v.disposition≠.pendingReview
  stored : v.disposition=.acceptedForAgent → v.status=.succeeded ∧ v.result≠none

theorem reconcile_admissible {ledger : ExecutionLedger} {v : Resolution} {db next : Database}
    {row : Execution} (h : ledger.reconcile v db = .ok (row, next)) : v.Admissible := by
  have href : v.providerReference≠"" := by
    rintro he
    unfold reconcile at h
    rw [if_pos (Or.inr he)] at h
    cases h
  have he := @reconcile_effect _ .rowid _ _ _ _ h
  cases he with
  | reconciled mem nonce open_ fenced definitive first accepted =>
    exact ⟨definitive, href, first, accepted⟩

/-- An admissible resolution of an uncertain row, whose worker is fenced, settles it. -/
theorem reconcile_returns {ledger : ExecutionLedger} {v : Resolution} {db : Database}
    {row : Execution} (hc : ledger.connection db = .ok ()) (hv : v.Admissible)
    (mem : row∈db.executions.rows) (nonce : row.nonce=v.nonce) (open_ : uncertain row = true)
    (fenced : row.status=.pending → v.pendingWorkerFenced=true) :
    ledger.reconcile v db = .ok (row.set ⟨v.status, v.result, v.disposition⟩,
      { db.setOutcome v.nonce ⟨v.status, v.result, v.disposition⟩ with
        reconciliations := db.reconciliations++
          [⟨v.nonce, v.actor, v.status, v.providerReference⟩] }) := by
  unfold reconcile
  rw [if_neg (by simpa using ⟨fun hne => hv.definitive.resolve_left hne, hv.referenced⟩),
    if_neg (by simpa using ⟨hv.reviewed, hv.stored⟩), hc]
  have hfence : ¬((db.executions.rows.any fun r => r.nonce=v.nonce && r.status=.pending) &&
      !v.pendingWorkerFenced) = true := by
    simp only [Bool.and_eq_true, List.any_eq_true, decide_eq_true_eq, not_and]
    rintro ⟨other, hother, hn, hpending⟩
    obtain rfl := db.executions.eq_of_nonce hother mem (hn.trans nonce.symm)
    simp [fenced hpending]
  have only : ∀ r, (decide (r.nonce=v.nonce) && uncertain r) = true → r.nonce=row.nonce :=
    fun r hr => by simp_all
  have hset := Executions.update_row ⟨v.status, v.result, v.disposition⟩ mem
    (by simp [nonce, open_]) only
  dsimp only [bind, Except.bind]
  rw [if_neg hfence, hset, nonce]
  let settled := row.set ⟨v.status, v.result, v.disposition⟩
  let after : Database := { db.setOutcome v.nonce ⟨v.status, v.result, v.disposition⟩ with
    reconciliations := db.reconciliations++[⟨v.nonce, v.actor, v.status, v.providerReference⟩] }
  have hmem : settled∈after.executions.rows :=
    (Executions.mem_setOutcome _ _ _ _).mpr ⟨row, mem, by simp [settled, nonce]⟩
  have hfound : ledger.lookup settled.nonce after = .ok settled := lookup_row hc hmem
  rw [show settled.nonce=v.nonce from nonce] at hfound
  dsimp only [settled, after, Database.setOutcome] at hfound ⊢
  rw [if_neg (by simp), hfound]

/-! The budget check raises for other reasons than an uncertain effect. -/

theorem decimalOf_error {text : String} {e : LedgerError} (h : decimalOf text = .error e) :
    ∃ signal, e=.decimal signal := by
  unfold decimalOf at h
  split at h <;> cases h
  exact ⟨_, rfl⟩

theorem addDecimal_error {a b : Decimal} {e : LedgerError} (h : addDecimal a b = .error e) :
    ∃ signal, e=.decimal signal := by
  unfold addDecimal at h
  split at h <;> cases h
  exact ⟨_, rfl⟩

theorem exceeds_error {a b : Decimal} {e : LedgerError} (h : exceeds a b = .error e) :
    ∃ signal, e=.decimal signal := by
  unfold exceeds at h
  split at h <;> cases h
  exact ⟨_, rfl⟩

theorem spent_error {rows : List Execution} {total : Decimal} {e : LedgerError}
    (h : spent rows total = .error e) : ∃ signal, e=.decimal signal := by
  induction rows generalizing total with
  | nil => cases h
  | cons row rows ih =>
    unfold spent at h
    rcases bind_error h with h | ⟨amount, -, h⟩
    · exact decimalOf_error h
    rcases bind_error h with h | ⟨total, -, h⟩
    · exact addDecimal_error h
    · exact ih h

theorem withinBudget_error {counted : List Execution} {r : Reservation} {e : LedgerError}
    (h : withinBudget counted r = .error e) :
    (∃ signal, e=.decimal signal) ∨ ∃ message, e=.authorization message := by
  unfold withinBudget at h
  rcases bind_error h with h | ⟨total, -, h⟩
  · exact Or.inl (spent_error h)
  split at h
  · cases h
  rcases bind_error h with h | ⟨total, -, h⟩
  · exact Or.inl (addDecimal_error h)
  rcases bind_error h with h | ⟨limit, -, h⟩
  · exact Or.inl (decimalOf_error h)
  rcases bind_error h with h | ⟨above, -, h⟩
  · exact Or.inl (exceeds_error h)
  split at h <;> cases h
  exact Or.inr ⟨_, rfl⟩

/-- The row's effect no longer stands in the way of another reservation. -/
def Releases (ledger : ExecutionLedger) (db : Database) (row : Execution) : Prop :=
  ∀ r scan message, sameKey r row = false →
    ledger.reserve scan r db = .error (.executionUnknown message) →
    ∃ other∈db.executions.rows, other.nonce≠row.nonce ∧
      (sameKey r other = true ∨ (sameTask r other = true ∧ holds other = true))

theorem releases_of_not_holds {ledger : ExecutionLedger} {db : Database} {row : Execution}
    (mem : row∈db.executions.rows) (hh : holds row = false) : ledger.Releases db row := by
  intro r scan message hkey h
  have apart {other : Execution} (hother : other∈db.executions.rows) (hne : other≠row) :
      other.nonce≠row.nonce := fun he => hne (db.executions.eq_of_nonce hother mem he)
  unfold reserve at h
  cases hc : ledger.connection db with
  | error e =>
    rw [hc] at h
    unfold connection at hc
    split at hc <;> cases hc
    cases h
  | ok _ =>
    rw [hc] at h
    dsimp only [bind, Except.bind] at h
    split at h
    · rename_i existing hhead
      obtain ⟨hmem, hk⟩ := Executions.head_select_some hhead
      exact ⟨existing, hmem, apart hmem (by rintro rfl; simp [hkey] at hk), Or.inl hk⟩
    rename_i hhead
    by_cases hheld : (db.executions.select scan fun row => sameTask r row && holds row)≠[]
    · obtain ⟨other, hother⟩ := List.exists_mem_of_ne_nil _ hheld
      obtain ⟨hmem, hp⟩ := (Executions.mem_select _ _ _ _).mp hother
      simp only [Bool.and_eq_true] at hp
      exact ⟨other, hmem, apart hmem (by rintro rfl; simp [hh] at hp), Or.inr hp⟩
    rw [if_neg hheld] at h
    split at h
    · cases h
    rcases bind_error h with h | ⟨_, -, h⟩
    · rcases withinBudget_error h with ⟨_, he⟩ | ⟨_, he⟩ <;> cases he
    rcases bind_error h with h | ⟨_, -, h⟩
    · unfold Executions.insert at h
      split at h <;> cases h
    · cases h

end ExecutionLedger

namespace MediatedExecutor

/-- An authorized reviewer's request for an uncertain row, and the provider's matching answer. -/
structure Recoverable (db : Database) (row : Execution) (operator : Actor) (reference : String)
    (fenced : Bool) (provider : Execution → String → Except ControlError ProviderReceipt)
    (answer : ProviderReceipt) : Prop where
  mem : row∈db.executions.rows
  open_ : row.status=.unknown ∨ (row.status=.pending ∧ fenced=true)
  reviewer : Role.reviewer∈operator.roles
  separate : Role.agent∉operator.roles
  tenant : row.scope.tenant∈operator.tenantIds
  answered : provider row reference = .ok answer
  action : answer.actionDigest=row.digest
  reference : answer.reference=reference
  definitive : answer.status=.succeeded ∨ answer.status=.notDispatched
  bounded : ∀ result, answer.result=some result → result.utf8ByteSize≤ maxResult

/-- What a reconciliation leaves: the settled row, one more record, and a free task. -/
def Recovers (self : MediatedExecutor) (re : Re)
    (provider : Execution → String → Except ControlError ProviderReceipt) (operator : Actor)
    (reference : String) (fenced : Bool) (answer : ProviderReceipt) (db : Database)
    (row : Execution) : Prop :=
  ∃ record next,
    self.reconcile re (some provider) operator row.nonce reference fenced db = .ok (record, next) ∧
    record∈next.executions.rows ∧ record.nonce=row.nonce ∧ record.status=answer.status ∧
    next.reconciliations=db.reconciliations++
      [⟨row.nonce, operator.subject, answer.status, reference⟩] ∧
    ((answer.status=.notDispatched ∨ answer.result≠none) → self.ledger.Releases next record)

/-- The resolution that the executor asks its ledger for. -/
def resolution (operator : Actor) (nonce reference : String) (fenced : Bool)
    (answer : ProviderReceipt) (result : Option String) : ExecutionLedger.Resolution where
  nonce := nonce
  status := answer.status
  result := result
  actor := operator.subject
  providerReference := reference
  pendingWorkerFenced := fenced
  disposition := if answer.status=.succeeded then .acceptedForAgent else .reviewRequired

theorem safeResult_bounded {re : Re} {result : Option String}
    (h : ∀ text, result=some text → text.utf8ByteSize≤ maxResult) :
    ∃ safe, safeResult re result = .ok safe ∧ (safe=none ↔ result=none) := by
  cases result with
  | none => exact ⟨none, rfl, Iff.rfl⟩
  | some text =>
    have hr : receipt re text = some (re.redactReceipt text) :=
      if_neg (Nat.not_lt.mpr (h text rfl))
    refine ⟨some (re.redactReceipt text), ?_, by simp⟩
    unfold safeResult
    dsimp only
    rw [hr]

/-- The executor's checks pass; the ledger decides. -/
theorem reconcile_recoverable {self : MediatedExecutor} {re : Re} {db : Database}
    {row : Execution} {operator : Actor} {reference : String} {fenced : Bool}
    {provider : Execution → String → Except ControlError ProviderReceipt}
    {answer : ProviderReceipt} (hc : self.ledger.connection db = .ok ())
    (h : Recoverable db row operator reference fenced provider answer) :
    ∃ safe, (safe=none ↔ answer.result=none) ∧
      self.reconcile re (some provider) operator row.nonce reference fenced db =
        (self.ledger.reconcile (resolution operator row.nonce reference fenced answer safe)
          db).mapError .ledger := by
  obtain ⟨safe, hsafe, hnone⟩ := @safeResult_bounded re _ h.bounded
  refine ⟨safe, hnone, ?_⟩
  unfold reconcile
  rw [lookup_row hc h.mem]
  dsimp only [Except.mapError, bind, Except.bind]
  rw [if_neg (by simp [h.reviewer, h.separate, h.tenant]), h.answered]
  dsimp only
  rw [if_neg (by simp [h.action, h.reference]), hsafe]
  rfl

def sampleUnknown : Database :=
  sampleReserved.setOutcome "nonce" ⟨.unknown, none, .reviewRequired⟩

theorem sample_unknown : Run ExecutionLedger.Step sampleStart [sampleReserve,
    ⟨sampleLedger, .rowid, .finish "nonce" .unknown none .reviewRequired, .ok .done⟩]
    sampleUnknown :=
  .cons (t := sampleReserved) ⟨rfl, rfl⟩ (.single ⟨rfl, rfl⟩)

def sampleUncertain : Execution :=
  (pendingRow sampleRequest).set ⟨.unknown, none, .reviewRequired⟩

def sampleOperator : Actor := ⟨"operator", [.reviewer], none, ["tenant"], none⟩

def sampleAnswer (result : Option String) : ProviderReceipt :=
  ⟨"digest", "reference", .succeeded, result⟩

theorem sample_recoverable {result : Option String}
    (h : ∀ text, result=some text → text.utf8ByteSize≤ maxResult) :
    Recoverable sampleUnknown sampleUncertain sampleOperator "reference" false
      (fun _ _ => .ok (sampleAnswer result)) (sampleAnswer result) where
  mem := by simp [sampleUnknown, sampleReserved, sampleUncertain, Database.setOutcome,
    Executions.setOutcome_rows, pendingRow, sampleRequest]
  open_ := Or.inl rfl
  reviewer := by decide
  separate := by decide
  tenant := by decide
  answered := rfl
  action := rfl
  reference := rfl
  definitive := Or.inl rfl
  bounded := h

end MediatedExecutor
end TraceGuard
