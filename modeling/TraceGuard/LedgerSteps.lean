import TraceGuard.Ledger
import TraceGuard.Raising

/-! What one ledger call can do, said once: a successful call replays, invalidates,
inserts one row, or rewrites the outcome of one row. Every invariant is read off this. -/
namespace TraceGuard
open Raising

namespace Executions

theorem mem_select (t : Executions) (scan : Scan) (p : Execution → Bool) (r : Execution) :
    r∈t.select scan p ↔ r∈t.rows ∧ p r = true := by
  simp [select, (scan.perm t.rows).mem_iff]

theorem select_eq_nil (t : Executions) (scan : Scan) (p : Execution → Bool) :
    t.select scan p = [] ↔ ∀ r∈t.rows, p r = false := by
  simp [List.eq_nil_iff_forall_not_mem, mem_select]

theorem head_select_none {t : Executions} {scan : Scan} {p : Execution → Bool}
    (h : (t.select scan p).head? = none) : ∀ r∈t.rows, p r = false :=
  (select_eq_nil t scan p).mp (List.head?_eq_none_iff.mp h)

theorem head_select_some {t : Executions} {scan : Scan} {p : Execution → Bool} {r : Execution}
    (h : (t.select scan p).head? = some r) : r∈t.rows ∧ p r = true :=
  (mem_select t scan p r).mp (List.mem_of_head? h)

theorem ext_rows {t u : Executions} (h : t.rows=u.rows) : t=u := by
  cases t
  cases u
  cases h
  rfl

/-- The primary key: a nonce names one row. -/
theorem eq_of_nonce (t : Executions) {r r' : Execution} (h : r∈t.rows) (h' : r'∈t.rows)
    (hn : r.nonce=r'.nonce) : r=r' :=
  List.inj_on_of_nodup_map t.primaryKey h h' hn

/-- Rewrite the outcome of the row with this nonce. -/
def setOutcome (t : Executions) (nonce : String) (o : Outcome) : Executions :=
  (t.update (fun row => row.nonce=nonce) fun _ => o).1

theorem setOutcome_rows (t : Executions) (nonce : String) (o : Outcome) :
    (t.setOutcome nonce o).rows = t.rows.map fun r => if r.nonce=nonce then r.set o else r := by
  simp [setOutcome, update]

theorem mem_setOutcome (t : Executions) (nonce : String) (o : Outcome) (r' : Execution) :
    r'∈(t.setOutcome nonce o).rows ↔
      ∃ r∈t.rows, r' = if r.nonce=nonce then r.set o else r := by
  simp [setOutcome_rows, eq_comm]

/-- An update that hits one row of a known nonce rewrites that row's outcome. -/
theorem update_unique (t : Executions) (p : Execution → Bool) (f : Execution → Outcome)
    (nonce : String) (hp : ∀ r, p r = true → r.nonce=nonce) (hone : (t.update p f).2 = 1) :
    ∃ r∈t.rows, p r = true ∧ (t.update p f).1 = t.setOutcome nonce (f r) := by
  have hpos : 0<t.rows.countP p := by
    change t.rows.countP p = 1 at hone
    omega
  obtain ⟨r, hr, hpr⟩ := List.countP_pos_iff.mp hpos
  refine ⟨r, hr, hpr, ?_⟩
  refine ext_rows ((List.map_congr_left fun r' hr' => ?_).trans
    (setOutcome_rows t nonce (f r)).symm)
  by_cases hn : r'.nonce=nonce
  · obtain rfl := t.eq_of_nonce hr' hr (hn.trans (hp r hpr).symm)
    simp [hn, hpr]
  · have hfalse : p r' = false := by
      cases hpr' : p r' with
      | false => rfl
      | true => exact absurd (hp r' hpr') hn
    simp [hn, hfalse]

theorem insert_ok {t t' : Executions} {row : Execution} (h : t.insert row = .ok t') :
    t'.rows = t.rows++[row] ∧ ∀ r∈t.rows, r.nonce≠row.nonce := by
  unfold insert at h
  split at h
  · rename_i hfresh
    cases h
    refine ⟨rfl, fun r hr he => hfresh.1 ?_⟩
    rw [← he]
    exact List.mem_map_of_mem hr
  · cases h

end Executions

def Database.setOutcome (db : Database) (nonce : String) (o : Outcome) : Database :=
  { db with executions := db.executions.setOutcome nonce o }

namespace ExecutionLedger

/-- A row that no row shares the nonce or the key of satisfies the constraints. -/
theorem insert_fresh (t : Executions) (r : Reservation)
    (h : ∀ row∈t.rows, sameKey r row = false) :
    ∃ t', t.insert (pendingRow r) = .ok t' := by
  have hfresh : (pendingRow r).nonce∉t.rows.map (fun row => row.nonce) ∧
      ((pendingRow r).scope, (pendingRow r).idempotencyKey)∉
        t.rows.map (fun row => (row.scope, row.idempotencyKey)) := by
    constructor
    · intro hm
      obtain ⟨row, hrow, he⟩ := List.mem_map.mp hm
      have := h row hrow
      simp_all [sameKey, pendingRow]
    · intro hm
      obtain ⟨row, hrow, he⟩ := List.mem_map.mp hm
      have := h row hrow
      simp_all [sameKey, pendingRow]
  exact ⟨_, dif_pos hfresh⟩

/-- The rows a reservation of this task is budgeted against, in scan order. -/
def counted (db : Database) (scan : Scan) (r : Reservation) : List Execution :=
  db.executions.select scan fun row => sameTask r row && live row

/-- What a successful call did. -/
inductive Effect (scan : Scan) (db : Database) : Call → Reply → Database → Prop where
  | replayed {r : Reservation} {row : Execution} (mem : row∈db.executions.rows)
      (key : sameKey r row = true) (digest : row.digest=r.digest) (scope : row.scope=r.scope)
      (done : row.status=.succeeded)
      (valid : row.disposition=.acceptedForAgent →
        row.resultPolicy=r.resultPolicy ∧ row.result≠none) :
      Effect scan db (.reserve r) (.reserved (some ⟨row.nonce, .succeeded,
        if row.disposition=.acceptedForAgent then row.result else none, row.disposition⟩)) db
  | invalidated {r : Reservation} {row : Execution} (mem : row∈db.executions.rows)
      (done : row.status=.succeeded) (accepted : row.disposition=.acceptedForAgent) :
      Effect scan db (.reserve r)
        (.reserved (some ⟨row.nonce, .succeeded, none, .reviewRequired⟩))
        (db.setOutcome row.nonce ⟨.succeeded, row.result, .reviewRequired⟩)
  | inserted {r : Reservation} {executions : Executions}
      (fresh : ∀ row∈db.executions.rows, sameKey r row = false)
      (free : ∀ row∈db.executions.rows, sameTask r row = true → holds row = false)
      (single : r.repeatable=false → ∀ row∈db.executions.rows, sameTask r row = true →
        row.effectDigest=r.effectDigest → live row = false)
      (budget : withinBudget (counted db scan r) r = .ok ())
      (rows : executions.rows = db.executions.rows++[pendingRow r]) :
      Effect scan db (.reserve r) (.reserved none) { db with executions := executions }
  | finished {row : Execution} {status : Status} {result : Option String}
      {disposition : Disposition} (mem : row∈db.executions.rows) (waiting : row.status=.pending)
      (final : status≠.pending)
      (accepted : disposition=.acceptedForAgent → status=.succeeded ∧ result≠none) :
      Effect scan db (.finish row.nonce status result disposition) .done
        (db.setOutcome row.nonce ⟨status, result, disposition⟩)
  | decided {row : Execution} {disposition : Disposition} (mem : row∈db.executions.rows)
      (done : row.status=.succeeded) (waiting : row.disposition=.pendingReview)
      (stored : row.result≠none) (first : disposition≠.pendingReview) :
      Effect scan db (.decideResult row.nonce disposition row.resultPolicy) .done
        (db.setOutcome row.nonce ⟨.succeeded, row.result, disposition⟩)
  | reconciled {row reply : Execution} {v : Resolution} (mem : row∈db.executions.rows)
      (nonce : row.nonce=v.nonce) (open_ : uncertain row = true)
      (fenced : row.status=.pending → v.pendingWorkerFenced=true)
      (definitive : v.status=.succeeded ∨ v.status=.notDispatched)
      (first : v.disposition≠.pendingReview)
      (accepted : v.disposition=.acceptedForAgent → v.status=.succeeded ∧ v.result≠none) :
      Effect scan db (.reconcile v) (.reconciled reply)
        { db.setOutcome v.nonce ⟨v.status, v.result, v.disposition⟩ with
          reconciliations := db.reconciliations++
            [⟨v.nonce, v.actor, v.status, v.providerReference⟩] }

theorem replay_effect {scan : Scan} {db next : Database} {r : Reservation} {row : Execution}
    {reply : Option Replay} (mem : row∈db.executions.rows) (key : sameKey r row = true)
    (h : replay db r row = .ok (reply, next)) :
    Effect scan db (.reserve r) (.reserved reply) next := by
  unfold replay at h
  by_cases hbound : row.digest≠r.digest ∨ row.scope≠r.scope
  · rw [if_pos hbound] at h
    cases h
  rw [if_neg hbound] at h
  obtain ⟨hdigest, hscope⟩ : row.digest=r.digest ∧ row.scope=r.scope := by simpa using hbound
  split at h
  · rename_i hdone
    by_cases hstale : row.disposition=.acceptedForAgent ∧
        (row.resultPolicy≠r.resultPolicy ∨ row.result=none)
    · rw [if_pos hstale] at h
      have hrows : (db.executions.update (fun r => decide (r.nonce=row.nonce))
          fun r => { r.toOutcome with disposition := .reviewRequired }).1 =
          db.executions.setOutcome row.nonce ⟨.succeeded, row.result, .reviewRequired⟩ := by
        refine Executions.ext_rows (List.map_congr_left fun r' hr' => ?_)
        by_cases hn : r'.nonce=row.nonce
        · obtain rfl := db.executions.eq_of_nonce hr' mem hn
          simp [hdone]
        · simp [hn]
      have hreply : some ⟨row.nonce, .succeeded, none, .reviewRequired⟩ = reply :=
        congrArg Prod.fst (Except.ok.inj h)
      have hnext : db.setOutcome row.nonce ⟨.succeeded, row.result, .reviewRequired⟩ = next := by
        rw [Database.setOutcome, ← hrows]
        exact congrArg Prod.snd (Except.ok.inj h)
      rw [← hreply, ← hnext]
      exact .invalidated mem hdone hstale.1
    · rw [if_neg hstale] at h
      cases h
      refine .replayed mem key hdigest hscope hdone fun ha => ?_
      simpa using fun hp => hstale ⟨ha, hp⟩
  · cases h
  · cases h
  · cases h

theorem reserve_effect {self : ExecutionLedger} {scan : Scan} {db next : Database}
    {r : Reservation} {reply : Option Replay} (h : self.reserve scan r db = .ok (reply, next)) :
    Effect scan db (.reserve r) (.reserved reply) next := by
  unfold reserve at h
  obtain ⟨_, -, h⟩ := bind_ok h
  split at h
  · rename_i existing hhead
    obtain ⟨mem, key⟩ := Executions.head_select_some hhead
    exact replay_effect mem key h
  · rename_i hhead
    split_ifs at h with hhold hdup
    obtain ⟨_, hbudget, h⟩ := bind_ok h
    obtain ⟨executions, hinsert, h⟩ := bind_ok h
    cases h
    refine .inserted (Executions.head_select_none hhead) ?_ ?_ hbudget
      (Executions.insert_ok hinsert).1
    · intro row hrow htask
      have := (Executions.select_eq_nil _ _ _).mp (not_not.mp hhold) row hrow
      simpa [htask] using this
    · intro hrep row hrow htask heff
      simp only [hrep, Bool.not_false, Bool.true_and, decide_eq_true_eq, not_not] at hdup
      have := (Executions.select_eq_nil _ _ _).mp hdup row hrow
      simpa [htask, heff] using this

theorem finish_effect {self : ExecutionLedger} {scan : Scan} {db next : Database}
    {nonce : String} {status : Status} {result : Option String} {disposition : Disposition}
    (h : self.finish nonce status result disposition db = .ok next) :
    Effect scan db (.finish nonce status result disposition) .done next := by
  unfold finish at h
  split_ifs at h with hfinal haccept
  obtain ⟨_, -, h⟩ := bind_ok h
  simp only at h
  split_ifs at h with hone
  cases h
  obtain ⟨row, mem, hrow, hset⟩ := Executions.update_unique _ _ _ nonce
    (by simp +contextual) (not_not.mp hone)
  simp only [Bool.and_eq_true, decide_eq_true_eq] at hrow
  obtain ⟨rfl, hwait⟩ := hrow
  rw [hset]
  refine .finished mem hwait hfinal fun ha => ?_
  simpa [not_or] using fun hs => haccept ⟨ha, hs⟩

theorem decideResult_effect {self : ExecutionLedger} {scan : Scan} {db next : Database}
    {nonce : String} {disposition : Disposition} {resultPolicy : String}
    (h : self.decideResult nonce disposition resultPolicy db = .ok next) :
    Effect scan db (.decideResult nonce disposition resultPolicy) .done next := by
  unfold decideResult at h
  split_ifs at h with hfirst
  obtain ⟨_, -, h⟩ := bind_ok h
  simp only at h
  split_ifs at h with hone
  cases h
  obtain ⟨row, mem, hrow, hset⟩ := Executions.update_unique _ _ _ nonce
    (by simp +contextual) (not_not.mp hone)
  simp only [Bool.and_eq_true, decide_eq_true_eq] at hrow
  obtain ⟨⟨⟨⟨rfl, hdone⟩, hwait⟩, rfl⟩, hstored⟩ := hrow
  rw [hset, hdone]
  exact .decided mem hdone hwait hstored hfirst

theorem reconcile_effect {self : ExecutionLedger} {scan : Scan} {db next : Database}
    {v : Resolution} {reply : Execution} (h : self.reconcile v db = .ok (reply, next)) :
    Effect scan db (.reconcile v) (.reconciled reply) next := by
  unfold reconcile at h
  split_ifs at h with hstatus haccept hfence
  · obtain ⟨_, -, h⟩ := bind_ok h
    cases h
  obtain ⟨_, -, h⟩ := bind_ok h
  simp only at h
  split_ifs at h with hone
  obtain ⟨row', -, h⟩ := bind_ok h
  cases h
  obtain ⟨row, mem, hrow, hset⟩ := Executions.update_unique _ _ _ v.nonce
    (by simp +contextual) (not_not.mp hone)
  simp only [Bool.and_eq_true, decide_eq_true_eq] at hrow
  obtain ⟨hnonce, hopen⟩ := hrow
  rw [hset]
  simp only [not_or, not_and_or, not_not] at hstatus haccept
  refine .reconciled mem hnonce hopen ?_ hstatus.1 haccept.1 ?_
  · intro hpending
    by_contra hf
    refine hfence ?_
    simp only [Bool.and_eq_true, List.any_eq_true, Bool.not_eq_eq_eq_not, Bool.not_true]
    exact ⟨⟨row, mem, by simp [hnonce, hpending]⟩, by simpa using hf⟩
  · intro ha
    rcases haccept.2 with hna | hs
    · exact absurd ha hna
    · exact hs

theorem reconcile_row {self : ExecutionLedger} {db next : Database} {v : Resolution}
    {row : Execution} (h : self.reconcile v db = .ok (row, next)) :
    row∈next.executions.rows ∧ row.nonce=v.nonce := by
  unfold reconcile at h
  split_ifs at h
  · obtain ⟨_, -, h⟩ := bind_ok h
    cases h
  obtain ⟨_, -, h⟩ := bind_ok h
  simp only at h
  split_ifs at h
  obtain ⟨found, hfound, h⟩ := bind_ok h
  cases h
  unfold lookup at hfound
  obtain ⟨_, -, hfound⟩ := bind_ok hfound
  split at hfound
  · rename_i row' hfind
    cases hfound
    exact ⟨List.mem_of_find?_eq_some hfind, by simpa using List.find?_some hfind⟩
  · cases hfound

/-- Inversion of a successful call. -/
theorem exec_effect {self : ExecutionLedger} {scan : Scan} {db next : Database} {call : Call}
    {reply : Reply} (h : self.exec scan db call = .ok (reply, next)) :
    Effect scan db call reply next := by
  cases call with
  | reserve r =>
    obtain ⟨⟨replay, next⟩, h, he⟩ := map_ok h
    cases he
    exact reserve_effect h
  | finish nonce status result disposition =>
    obtain ⟨next, h, he⟩ := map_ok h
    cases he
    exact finish_effect h
  | decideResult nonce disposition resultPolicy =>
    obtain ⟨next, h, he⟩ := map_ok h
    cases he
    exact decideResult_effect h
  | reconcile v =>
    obtain ⟨⟨row, next⟩, h, he⟩ := map_ok h
    cases he
    exact reconcile_effect h

/-- A step either raises and changes nothing, or has one of the effects. -/
theorem step_cases {db db' : Database} {e : Event} (h : Step db e db') :
    (∃ err, e.outcome=.error err ∧ db'=db) ∨
      ∃ reply, e.outcome=.ok reply ∧ Effect e.scan db e.call reply db' := by
  unfold Step at h
  split at h
  · rename_i reply next hexec
    obtain ⟨ho, rfl⟩ := h
    exact Or.inr ⟨reply, ho, exec_effect hexec⟩
  · rename_i err hexec
    exact Or.inl ⟨err, h⟩

end ExecutionLedger
end TraceGuard
