import TraceGuard.LedgerSteps

/-! Whole histories of a provisioned ledger: any workers, any handles, any order of
calls and any scan order. The invariants hold after every history, not after one call. -/
namespace TraceGuard.ExecutionLedger
open Traces Raising

def inTask (tenant task : String) (row : Execution) : Bool :=
  row.scope.tenant=tenant && row.scope.task=task

/-- At most one pending or unknown row in each task. -/
def OneUncertain (db : Database) : Prop :=
  ∀ tenant task, db.executions.rows.countP (fun row => inTask tenant task row && uncertain row)≤1

def OneReconciliation (db : Database) : Prop :=
  ∀ nonce, db.reconciliations.countP (fun record => record.nonce=nonce)≤1

/-- The status moves a row can make. -/
inductive Moves : Status → Status → Prop where
  | stay (s : Status) : Moves s s
  | succeed : Moves .pending .succeeded
  | lose : Moves .pending .unknown
  | release : Moves .pending .notDispatched
  | confirm : Moves .unknown .succeeded
  | deny : Moves .unknown .notDispatched

theorem Moves.trans {a b c : Status} (h : Moves a b) (h' : Moves b c) : Moves a c := by
  cases h <;> cases h' <;> constructor

/-- No row is deleted or renamed, and statuses only move forward. -/
def KeepsRows (db db' : Database) : Prop :=
  ∀ row∈db.executions.rows, ∃ row'∈db'.executions.rows,
    row'.toReserved=row.toReserved ∧ Moves row.status row'.status

/-- All rows but those of one nonce are the same before and after. -/
def ChangesOneRow (db db' : Database) : Prop :=
  ∃ nonce, ∀ row : Execution, row.nonce≠nonce →
    (row∈db'.executions.rows ↔ row∈db.executions.rows)

/-- A row that was not there is the row of this reservation, in a task nothing holds. -/
def InsertsWhenFree (db : Database) (call : Call) (db' : Database) : Prop :=
  ∀ row'∈db'.executions.rows, (∀ row∈db.executions.rows, row.nonce≠row'.nonce) →
    ∃ r, call=.reserve r ∧ row'=pendingRow r ∧
      ∀ row∈db.executions.rows, inTask row'.scope.tenant row'.scope.task row = true →
        row.status≠.pending ∧ row.status≠.unknown ∧
          (row.status=.succeeded → row.disposition=.acceptedForAgent)

/-- Each reconciliation record belongs to a row that is settled. -/
def RecordsSettled (db : Database) : Prop :=
  ∀ record∈db.reconciliations, ∃ row∈db.executions.rows,
    row.nonce=record.nonce ∧ uncertain row = false

theorem holds_false {row : Execution} (h : holds row = false) :
    row.status≠.pending ∧ row.status≠.unknown ∧
      (row.status=.succeeded → row.disposition=.acceptedForAgent) := by
  simpa [holds, uncertain, and_assoc] using h

theorem sameTask_inTask (r : Reservation) (row : Execution) :
    sameTask r row = inTask r.scope.tenant r.scope.task row := rfl

/-- The status an effect gives to the row it rewrites is one the row can move to. -/
theorem moves_of_uncertain {s t : Status} (h : s=.pending ∨ s=.unknown)
    (ht : t=.succeeded ∨ t=.notDispatched) : Moves s t := by
  rcases h with rfl | rfl <;> rcases ht with rfl | rfl <;> constructor

theorem keepsRows_setOutcome {db : Database} {row : Execution} {o : Outcome}
    (mem : row∈db.executions.rows) (h : Moves row.status o.status) :
    KeepsRows db (db.setOutcome row.nonce o) := by
  intro r hr
  refine ⟨if r.nonce=row.nonce then r.set o else r,
    (Executions.mem_setOutcome _ _ _ _).mpr ⟨r, hr, rfl⟩, ?_⟩
  split
  · rename_i hn
    obtain rfl := db.executions.eq_of_nonce hr mem hn
    exact ⟨rfl, h⟩
  · exact ⟨rfl, .stay _⟩

theorem changesOneRow_setOutcome (db : Database) (nonce : String) (o : Outcome) :
    ChangesOneRow db (db.setOutcome nonce o) := by
  refine ⟨nonce, fun row hn => ?_⟩
  simp only [Database.setOutcome, Executions.mem_setOutcome]
  constructor
  · rintro ⟨r, hr, rfl⟩
    split at hn
    · rename_i h
      exact absurd h hn
    · rename_i h
      simpa [h] using hr
  · exact fun hr => ⟨row, hr, by simp [hn]⟩

/-- Rewriting outcomes makes no new row. -/
theorem insertsWhenFree_setOutcome (db : Database) (call : Call) (nonce : String) (o : Outcome) :
    InsertsWhenFree db call (db.setOutcome nonce o) := by
  intro row' hrow' hnew
  obtain ⟨r, hr, rfl⟩ := (Executions.mem_setOutcome _ _ _ _).mp hrow'
  refine absurd ?_ (hnew r hr)
  split <;> rfl

theorem oneUncertain_setOutcome {db : Database} {row : Execution} {o : Outcome}
    (mem : row∈db.executions.rows) (h : OneUncertain db)
    (ho : uncertain (row.set o) = true → uncertain row = true) :
    OneUncertain (db.setOutcome row.nonce o) := by
  intro tenant task
  refine le_trans ?_ (h tenant task)
  rw [Database.setOutcome, Executions.setOutcome_rows, List.countP_map]
  refine List.countP_mono_left fun r hr hp => ?_
  simp only [Function.comp_apply] at hp
  split at hp
  · rename_i hn
    obtain rfl := db.executions.eq_of_nonce hr mem hn
    simp only [Bool.and_eq_true] at hp ⊢
    exact ⟨hp.1, ho hp.2⟩
  · exact hp

/-! One step. -/

theorem effect_keepsRows {scan : Scan} {db db' : Database} {call : Call} {reply : Reply}
    (h : Effect scan db call reply db') : KeepsRows db db' := by
  cases h with
  | replayed => exact fun row hrow => ⟨row, hrow, rfl, .stay _⟩
  | invalidated mem done accepted => exact keepsRows_setOutcome mem (done ▸ .stay _)
  | inserted fresh free single budget rows =>
    exact fun row hrow => ⟨row, by simp [rows, hrow], rfl, .stay _⟩
  | @finished row status _ _ mem waiting final accepted =>
    refine keepsRows_setOutcome mem ?_
    rw [waiting]
    cases status with
    | pending => exact absurd rfl final
    | succeeded => exact .succeed
    | unknown => exact .lose
    | notDispatched => exact .release
  | decided mem done waiting stored first => exact keepsRows_setOutcome mem (done ▸ .stay _)
  | @reconciled row _ v mem nonce open_ fenced definitive first accepted =>
    have hs : row.status=.pending ∨ row.status=.unknown := by simpa [uncertain] using open_
    have hm : Moves row.status v.status := moves_of_uncertain hs definitive
    have := keepsRows_setOutcome (o := ⟨v.status, v.result, v.disposition⟩) mem hm
    rwa [nonce] at this

theorem effect_changesOneRow {scan : Scan} {db db' : Database} {call : Call} {reply : Reply}
    (h : Effect scan db call reply db') : ChangesOneRow db db' := by
  cases h with
  | replayed => exact ⟨"", fun row _ => Iff.rfl⟩
  | invalidated => exact changesOneRow_setOutcome db _ _
  | @inserted r executions fresh free single budget rows =>
    refine ⟨r.nonce, fun row hn => ?_⟩
    simp only [rows, List.mem_append, List.mem_singleton, or_iff_left_iff_imp]
    rintro rfl
    exact absurd rfl hn
  | finished => exact changesOneRow_setOutcome db _ _
  | decided => exact changesOneRow_setOutcome db _ _
  | reconciled => exact changesOneRow_setOutcome db _ _

theorem effect_insertsWhenFree {scan : Scan} {db db' : Database} {call : Call} {reply : Reply}
    (h : Effect scan db call reply db') : InsertsWhenFree db call db' := by
  cases h with
  | replayed => exact fun row' hrow' hnew => absurd rfl (hnew row' hrow')
  | invalidated => exact insertsWhenFree_setOutcome db _ _ _
  | @inserted r executions fresh free single budget rows =>
    intro row' hrow' hnew
    rw [rows, List.mem_append, List.mem_singleton] at hrow'
    rcases hrow' with hold | rfl
    · exact absurd rfl (hnew row' hold)
    · exact ⟨r, rfl, rfl, fun row hrow htask => holds_false (free row hrow htask)⟩
  | finished => exact insertsWhenFree_setOutcome db _ _ _
  | decided => exact insertsWhenFree_setOutcome db _ _ _
  | reconciled => exact insertsWhenFree_setOutcome db _ _ _

theorem effect_oneUncertain {scan : Scan} {db db' : Database} {call : Call} {reply : Reply}
    (h : Effect scan db call reply db') (hi : OneUncertain db) : OneUncertain db' := by
  cases h with
  | replayed => exact hi
  | invalidated mem done accepted =>
    exact oneUncertain_setOutcome mem hi (by simp [uncertain, Execution.set])
  | @inserted r executions fresh free single budget rows =>
    intro tenant task
    rw [rows, List.countP_append]
    by_cases ht : inTask tenant task (pendingRow r) = true
    · have hzero : db.executions.rows.countP
          (fun row => inTask tenant task row && uncertain row) = 0 := by
        refine List.countP_eq_zero.mpr fun row hrow hp => ?_
        simp only [Bool.and_eq_true] at hp
        have htask : sameTask r row = true := by
          simp only [inTask, Bool.and_eq_true, decide_eq_true_eq] at hp ht
          simp only [sameTask, Bool.and_eq_true, decide_eq_true_eq]
          exact ⟨hp.1.1.trans ht.1.symm, hp.1.2.trans ht.2.symm⟩
        have := free row hrow htask
        simp [holds, hp.2] at this
      rw [hzero]
      exact (Nat.zero_add _).le.trans List.countP_le_length
    · have hzero : [pendingRow r].countP (fun row => inTask tenant task row && uncertain row) = 0 := by
        simp [ht]
      rw [hzero]
      exact hi tenant task
  | finished mem waiting final accepted =>
    exact oneUncertain_setOutcome mem hi (by simp [uncertain, waiting])
  | decided mem done waiting stored first =>
    exact oneUncertain_setOutcome mem hi (by simp [uncertain, Execution.set])
  | @reconciled row _ v mem nonce open_ fenced definitive first accepted =>
    have := oneUncertain_setOutcome (o := ⟨v.status, v.result, v.disposition⟩) mem hi
      (fun _ => open_)
    rwa [nonce] at this

/-- A settled row stays settled. -/
theorem settled_moves {s t : Status} (h : Moves s t) (hs : s≠.pending ∧ s≠.unknown) :
    t≠.pending ∧ t≠.unknown := by
  cases h with
  | stay => exact hs
  | succeed => exact absurd rfl hs.1
  | lose => exact absurd rfl hs.1
  | release => exact absurd rfl hs.1
  | confirm => exact absurd rfl hs.2
  | deny => exact absurd rfl hs.2

theorem uncertain_false {row : Execution} :
    uncertain row = false ↔ row.status≠.pending ∧ row.status≠.unknown := by
  simp [uncertain]

theorem recordsSettled_keep {db db' : Database} (h : KeepsRows db db') (hi : RecordsSettled db)
    (hr : db'.reconciliations=db.reconciliations) : RecordsSettled db' := by
  intro record hrecord
  rw [hr] at hrecord
  obtain ⟨row, hrow, hn, hu⟩ := hi record hrecord
  obtain ⟨row', hrow', hsame, hm⟩ := h row hrow
  refine ⟨row', hrow', ?_, uncertain_false.mpr (settled_moves hm (uncertain_false.mp hu))⟩
  exact (congrArg Reserved.nonce hsame).trans hn

theorem effect_records {scan : Scan} {db db' : Database} {call : Call} {reply : Reply}
    (h : Effect scan db call reply db') (hi : RecordsSettled db ∧ OneReconciliation db) :
    RecordsSettled db' ∧ OneReconciliation db' := by
  have hkeep := effect_keepsRows h
  cases h with
  | replayed => exact hi
  | invalidated => exact ⟨recordsSettled_keep hkeep hi.1 rfl, hi.2⟩
  | inserted => exact ⟨recordsSettled_keep hkeep hi.1 rfl, hi.2⟩
  | finished => exact ⟨recordsSettled_keep hkeep hi.1 rfl, hi.2⟩
  | decided => exact ⟨recordsSettled_keep hkeep hi.1 rfl, hi.2⟩
  | @reconciled row reply v mem nonce open_ fenced definitive first accepted =>
    have hnew : ∀ record∈db.reconciliations, record.nonce≠v.nonce := by
      intro record hrecord he
      obtain ⟨row', hrow', hn, hu⟩ := hi.1 record hrecord
      obtain rfl := db.executions.eq_of_nonce hrow' mem (hn.trans (he.trans nonce.symm))
      simp [open_] at hu
    constructor
    · intro record hrecord
      simp only [List.mem_append, List.mem_singleton] at hrecord
      rcases hrecord with hold | rfl
      · have hset : KeepsRows db (db.setOutcome v.nonce ⟨v.status, v.result, v.disposition⟩) := hkeep
        exact recordsSettled_keep hset hi.1 rfl record hold
      · refine ⟨row.set ⟨v.status, v.result, v.disposition⟩,
          (Executions.mem_setOutcome _ _ _ _).mpr ⟨row, mem, by simp [nonce]⟩, nonce, ?_⟩
        rcases definitive with hs | hs <;> simp [uncertain, Execution.set, hs]
    · intro n
      simp only [List.countP_append]
      by_cases hn : v.nonce=n
      · subst hn
        have hzero : db.reconciliations.countP (fun record => record.nonce=v.nonce) = 0 :=
          List.countP_eq_zero.mpr fun record hrecord => by simpa using hnew record hrecord
        simp [hzero]
      · simpa [hn] using hi.2 n

/-- The nonce a call names, with the status it gives. -/
def targets : Call → Option (String × Status)
  | .finish nonce status _ _ => some (nonce, status)
  | .reconcile v => some (v.nonce, v.status)
  | .reserve _ | .decideResult .. => none

theorem rows_setOutcome {db : Database} {row row' : Execution} {o : Outcome} {p : Execution → Prop}
    (mem : row∈db.executions.rows) (hp : p (row.set o))
    (hrow' : row'∈(db.setOutcome row.nonce o).executions.rows) :
    ∃ r∈db.executions.rows, row'.toReserved=r.toReserved ∧ (row'=r ∨ (r=row ∧ p row')) := by
  obtain ⟨r, hr, rfl⟩ := (Executions.mem_setOutcome _ _ _ _).mp hrow'
  by_cases hn : r.nonce=row.nonce
  · obtain rfl := db.executions.eq_of_nonce hr mem hn
    rw [if_pos rfl]
    exact ⟨r, hr, rfl, Or.inr ⟨rfl, hp⟩⟩
  · rw [if_neg hn]
    exact ⟨r, hr, rfl, Or.inl rfl⟩

/-- Where a row comes from: it was there, with another status only where the call names it,
or the call reserved it. -/
theorem effect_rows {scan : Scan} {db db' : Database} {call : Call} {reply : Reply}
    (h : Effect scan db call reply db') {row' : Execution} (hrow' : row'∈db'.executions.rows) :
    (∃ row∈db.executions.rows, row'.toReserved=row.toReserved ∧ (row'.status=row.status ∨
      (uncertain row = true ∧ targets call = some (row.nonce, row'.status)))) ∨
      ∃ r, call=.reserve r ∧ reply=.reserved none ∧ row'=pendingRow r := by
  have settle {row : Execution} {o : Outcome} (mem : row∈db.executions.rows)
      (hm : row'∈(db.setOutcome row.nonce o).executions.rows)
      (hs : o.status=row.status ∨
        (uncertain row = true ∧ targets call = some (row.nonce, o.status))) :
      ∃ row∈db.executions.rows, row'.toReserved=row.toReserved ∧ (row'.status=row.status ∨
        (uncertain row = true ∧ targets call = some (row.nonce, row'.status))) := by
    obtain ⟨r, hr, hsame, he | ⟨rfl, he⟩⟩ := rows_setOutcome (p := fun x => x.status=o.status)
      mem rfl hm
    · exact ⟨r, hr, hsame, Or.inl (he ▸ rfl)⟩
    · exact ⟨r, hr, hsame, by rwa [he]⟩
  cases h with
  | replayed => exact Or.inl ⟨row', hrow', rfl, Or.inl rfl⟩
  | invalidated mem done accepted => exact Or.inl (settle mem hrow' (Or.inl done.symm))
  | @inserted r executions fresh free single budget rows =>
    rw [rows, List.mem_append, List.mem_singleton] at hrow'
    rcases hrow' with hold | rfl
    · exact Or.inl ⟨row', hold, rfl, Or.inl rfl⟩
    · exact Or.inr ⟨r, rfl, rfl, rfl⟩
  | finished mem waiting final accepted =>
    exact Or.inl (settle mem hrow' (Or.inr ⟨by simp [uncertain, waiting], rfl⟩))
  | decided mem done waiting stored first => exact Or.inl (settle mem hrow' (Or.inl done.symm))
  | @reconciled row reply v mem nonce open_ fenced definitive first accepted =>
    refine Or.inl (settle (o := ⟨v.status, v.result, v.disposition⟩) mem ?_ (Or.inr ⟨open_, ?_⟩))
    · rw [nonce]
      exact hrow'
    · simp [targets, nonce]

/-! Every history. -/

structure Sound (db : Database) : Prop where
  uncertain : OneUncertain db
  settled : RecordsSettled db
  reconciliation : OneReconciliation db

theorem step_sound {db db' : Database} {e : Event} (h : Step db e db') (hi : Sound db) :
    Sound db' := by
  rcases step_cases h with ⟨_, -, rfl⟩ | ⟨reply, -, he⟩
  · exact hi
  · have hr := effect_records he ⟨hi.settled, hi.reconciliation⟩
    exact ⟨effect_oneUncertain he hi.uncertain, hr.1, hr.2⟩

theorem step_keepsRows {db db' : Database} {e : Event} (h : Step db e db') : KeepsRows db db' := by
  rcases step_cases h with ⟨_, -, rfl⟩ | ⟨reply, -, he⟩
  · exact fun row hrow => ⟨row, hrow, rfl, .stay _⟩
  · exact effect_keepsRows he

theorem step_rows {db db' : Database} {e : Event} (h : Step db e db') {row' : Execution}
    (hrow' : row'∈db'.executions.rows) :
    (∃ row∈db.executions.rows, row'.toReserved=row.toReserved ∧ (row'.status=row.status ∨
      (uncertain row = true ∧ targets e.call = some (row.nonce, row'.status)))) ∨
      ∃ r, e.call=.reserve r ∧ e.outcome=.ok (.reserved none) ∧ row'=pendingRow r := by
  rcases step_cases h with ⟨_, -, rfl⟩ | ⟨reply, hok, he⟩
  · exact Or.inl ⟨row', hrow', rfl, Or.inl rfl⟩
  rcases effect_rows he hrow' with hold | ⟨r, hcall, hreply, hrow⟩
  · exact Or.inl hold
  · exact Or.inr ⟨r, hcall, hreply ▸ hok, hrow⟩

/-- A reservation without a replay inserted its row, and nothing stood against it. -/
theorem step_reserved {db db' : Database} {e : Event} {r : Reservation} (h : Step db e db')
    (hcall : e.call=.reserve r) (hok : e.outcome=.ok (.reserved none)) :
    db'.executions.rows=db.executions.rows++[pendingRow r] ∧
      (∀ row∈db.executions.rows, sameKey r row = false) ∧
      (∀ row∈db.executions.rows, sameTask r row = true → holds row = false) ∧
      (r.repeatable=false → ∀ row∈db.executions.rows, sameTask r row = true →
        row.effectDigest=r.effectDigest → live row = false) := by
  rcases step_cases h with ⟨err, herr, -⟩ | ⟨reply, hreply, he⟩
  · rw [hok] at herr
    cases herr
  obtain rfl : Reply.reserved none = reply := by simpa [hok] using hreply
  rw [hcall] at he
  cases he with
  | inserted fresh free single budget rows => exact ⟨rows, fresh, free, single⟩

/-- A row keeps its status unless the call names it. -/
theorem step_status {db db' : Database} {e : Event} (h : Step db e db') {row : Execution}
    (hrow : row∈db.executions.rows) : ∃ row'∈db'.executions.rows, row'.toReserved=row.toReserved ∧
      (row'.status=row.status ∨ targets e.call = some (row.nonce, row'.status)) := by
  obtain ⟨row', hrow', hsame, -⟩ := step_keepsRows h row hrow
  refine ⟨row', hrow', hsame, ?_⟩
  rcases step_rows h hrow' with ⟨r, hr, hfrom, hs⟩ | ⟨r, hcall, hok, rfl⟩
  · have hn : r.nonce=row.nonce := congrArg Reserved.nonce (hfrom.symm.trans hsame)
    obtain rfl := db.executions.eq_of_nonce hr hrow hn
    exact hs.imp_right And.right
  · have hn : r.nonce=row.nonce := congrArg Reserved.nonce hsame
    have hnew := (step_reserved h hcall hok).2.1 row hrow
    simp [sameKey, hn] at hnew

/-- The row a reconciliation returns is the one it settled. -/
theorem step_reconciled {db db' : Database} {e : Event} {v : Resolution} {row : Execution}
    (h : Step db e db') (hcall : e.call=.reconcile v) (hok : e.outcome=.ok (.reconciled row)) :
    row∈db'.executions.rows ∧ row.nonce=v.nonce ∧ row.status=v.status := by
  unfold Step at h
  rw [hcall] at h
  split at h
  · rename_i reply next hexec
    obtain ⟨ho, rfl⟩ := h
    obtain rfl : Reply.reconciled row = reply := by simpa [hok] using ho
    obtain ⟨hmem, hn⟩ : row∈db'.executions.rows ∧ row.nonce=v.nonce := by
      obtain ⟨⟨row', next⟩, hrec, he⟩ := map_ok hexec
      cases he
      exact reconcile_row hrec
    have he := exec_effect hexec
    cases he with
    | @reconciled r _ _ mem nonce open_ fenced definitive first accepted =>
      refine ⟨hmem, hn, ?_⟩
      obtain ⟨r', hr', rfl⟩ := (Executions.mem_setOutcome _ _ _ _).mp hmem
      rw [if_pos]
      · rfl
      · split at hn
        · assumption
        · exact hn
  · rename_i err hexec
    rw [hok] at h
    cases h.1

theorem provision_ok {storeId : String} {db : Database} (h : provision storeId = .ok db) :
    db.executions=.empty ∧ db.reconciliations=[] := by
  unfold provision at h
  split_ifs at h
  cases h
  exact ⟨rfl, rfl⟩

theorem provision_sound {storeId : String} {db : Database} (h : provision storeId = .ok db) :
    Sound db := by
  obtain ⟨hrows, hrecords⟩ := provision_ok h
  refine ⟨?_, ?_, ?_⟩
  · intro tenant task
    simp [hrows, Executions.empty]
  · simp [RecordsSettled, hrecords]
  · intro nonce
    simp [hrecords]

theorem run_keepsRows {db later : Database} {es : List Event} (h : Run Step db es later) :
    KeepsRows db later := by
  refine (h.related (I := fun _ => True) (R := KeepsRows) ?_ ?_ (by simp)
    (fun t e u _ hstep => step_keepsRows hstep) trivial).1
  · exact fun s row hrow => ⟨row, hrow, rfl, .stay _⟩
  · intro s t u hst htu row hrow
    obtain ⟨row', hrow', hsame, hm⟩ := hst row hrow
    obtain ⟨row'', hrow'', hsame', hm'⟩ := htu row' hrow'
    exact ⟨row'', hrow'', hsame'.trans hsame, hm.trans hm'⟩

theorem run_sound {storeId : String} {start db : Database} {es : List Event}
    (hp : provision storeId = .ok start) (h : Run Step start es db) : Sound db :=
  h.invariant (I := fun _ db => Sound db) (provision_sound hp)
    fun _ _ _ _ _ hi hstep => step_sound hstep hi

/-- The ledger lifecycle: one uncertain row per task, guarded insertion, rows that are
kept and only move forward, and calls that touch one row and reconcile it once. -/
theorem ledger_lifecycle {storeId : String} {start db : Database} {es : List Event}
    (hp : provision storeId = .ok start) (h : Run Step start es db) :
    OneUncertain db ∧ OneReconciliation db ∧
      (∀ es' later, Run Step db es' later → KeepsRows db later) ∧
      ∀ e db', Step db e db' →
        InsertsWhenFree db e.call db' ∧ KeepsRows db db' ∧ ChangesOneRow db db' := by
  have hs := run_sound hp h
  refine ⟨hs.uncertain, hs.reconciliation, fun _ _ hlater => run_keepsRows hlater, ?_⟩
  intro e db' hstep
  refine ⟨?_, step_keepsRows hstep, ?_⟩
  · rcases step_cases hstep with ⟨_, -, rfl⟩ | ⟨reply, -, he⟩
    · exact fun row' hrow' hnew => absurd rfl (hnew row' hrow')
    · exact effect_insertsWhenFree he
  · rcases step_cases hstep with ⟨_, -, rfl⟩ | ⟨reply, -, he⟩
    · exact ⟨"", fun row _ => Iff.rfl⟩
    · exact effect_changesOneRow he

/-! A short history on fixed inputs: one reservation, finished with an accepted result. -/

def sampleLedger : ExecutionLedger := ⟨"store"⟩

def sampleStart : Database := ⟨[(schema, "store")], .empty, []⟩

def sampleRequest : Reservation where
  scope := ⟨"tenant", "agent", "credential", "task"⟩
  nonce := "nonce"
  idempotencyKey := "key"
  digest := "digest"
  effectDigest := "effect"

def sampleReserve : Event :=
  ⟨sampleLedger, .rowid, .reserve sampleRequest, .ok (.reserved none)⟩

def sampleReserved : Database :=
  { sampleStart with executions := ⟨[pendingRow sampleRequest], by decide, by decide⟩ }

def sampleFinish : Event :=
  ⟨sampleLedger, .rowid, .finish "nonce" .succeeded (some "receipt") .acceptedForAgent, .ok .done⟩

def sampleFinished : Database :=
  sampleReserved.setOutcome "nonce" ⟨.succeeded, some "receipt", .acceptedForAgent⟩

theorem sample_provision : provision "store" = .ok sampleStart := rfl

theorem sample_run : Run Step sampleStart [sampleReserve, sampleFinish] sampleFinished :=
  .cons (t := sampleReserved) ⟨rfl, rfl⟩ (.single ⟨rfl, rfl⟩)

theorem ledger_lifecycle_sample : OneUncertain sampleFinished ∧ OneReconciliation sampleFinished :=
  have h := ledger_lifecycle sample_provision sample_run
  ⟨h.1, h.2.1⟩

end TraceGuard.ExecutionLedger
