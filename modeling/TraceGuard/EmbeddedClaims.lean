import TraceGuard.EmbeddedSteps
import TraceGuard.Reconciliation

/-! Reservations of the embedded boundary: how the claim of an approved call ends, and that a reservation of its own
gets its outcome. -/
namespace TraceGuard
open Raising Stateful Dialogue ExecutionLedger

def Exchange.isDispatched : Exchange → Bool
  | .handled _ _ | .contained _ _ => true
  | _ => false

def Exchange.isClaim : Exchange → Bool
  | .ledger (.reserve _) _ => true
  | _ => false

/-- What was dispatched between two sessions, with no further reservation. -/
def Dispatches (s : Session BoundaryState Exchange) (ds : List Exchange) (t : Session BoundaryState Exchange) : Prop :=
  ∃ news, t.log=s.log++news ∧ news.filter Exchange.isDispatched=ds ∧ ∀ e∈news, e.isClaim = false

theorem Dispatches.refl {s t : Session BoundaryState Exchange} (h : t.log=s.log) : Dispatches s [] t :=
  ⟨[], by rw [h, List.append_nil], rfl, List.forall_mem_nil _⟩

theorem Dispatches.one {s : Session BoundaryState Exchange} {state : BoundaryState} {e : Exchange}
    (h : e.isClaim = false) : Dispatches s ([e].filter Exchange.isDispatched) ⟨state, s.log++[e]⟩ :=
  ⟨[e], rfl, rfl, fun _ hm => List.mem_singleton.mp hm ▸ h⟩

theorem Dispatches.trans {s t u : Session BoundaryState Exchange} {ds ds' : List Exchange} (h : Dispatches s ds t)
    (h' : Dispatches t ds' u) : Dispatches s (ds++ds') u := by
  obtain ⟨news, hlog, rfl, hnews⟩ := h
  obtain ⟨more, hmore, rfl, hlater⟩ := h'
  exact ⟨news++more, by rw [hmore, hlog, List.append_assoc], List.filter_append ..,
    fun e he => (List.mem_append.mp he).elim (hnews e) (hlater e)⟩

/-! The ledger's part. -/

/-- A reservation of its own that waits for its outcome. -/
structure Awaits (ledger : ExecutionLedger) (nonce policy : String) (db : Database) : Prop where
  opens : ledger.connection db = .ok ()
  row : ∃ row∈db.executions.rows, row.nonce=nonce ∧ row.status=.pending ∧ row.resultPolicy=policy

theorem setOutcome_opens {ledger : ExecutionLedger} {db : Database} (h : ledger.connection db = .ok ())
    (nonce : String) (o : Outcome) : ledger.connection (db.setOutcome nonce o) = .ok () := h

theorem reserve_awaits {ledger : ExecutionLedger} {scan : Scan} {r : Reservation} {db next : Database}
    (h : ledger.reserve scan r db = .ok (none, next)) : Awaits ledger r.nonce r.resultPolicy next := by
  have hopens : ledger.connection db = .ok () := (bind_ok h).choose_spec.1
  have heffect := reserve_effect h
  cases heffect with
  | inserted fresh free single budget rows =>
    refine ⟨hopens, pendingRow r, ?_, rfl, rfl, rfl⟩
    rw [rows]
    exact List.mem_append_right _ (List.mem_singleton_self _)

/-- The reservation gets its outcome, whatever it is. -/
theorem finish_awaits {ledger : ExecutionLedger} {nonce policy : String} {db : Database} {status : Status}
    {result : Option String} {disposition : Disposition} (h : Awaits ledger nonce policy db)
    (hfinal : status≠.pending) (haccept : disposition=.acceptedForAgent → status=.succeeded ∧ result≠none) :
    ledger.finish nonce status result disposition db =
      .ok (db.setOutcome nonce ⟨status, result, disposition⟩) := by
  obtain ⟨row, mem, rfl, hwait, -⟩ := h.row
  have haccepted : ¬(disposition=.acceptedForAgent ∧ (status≠.succeeded ∨ result=none)) := by
    rintro ⟨ha, hs⟩
    obtain ⟨hs', hr⟩ := haccept ha
    exact hs.elim (fun hs => hs hs') hr
  rw [finish, if_neg hfinal, if_neg haccepted, h.opens]
  have hone := Executions.update_row (t := db.executions)
    (p := fun r => r.nonce=row.nonce && r.status=.pending) ⟨status, result, disposition⟩ mem
    (by simp [hwait]) (by simp +contextual)
  simp only [bind, Except.bind, hone, ne_eq, not_true_eq_false, if_false]
  rfl

/-- The first review of a result gets its disposition. -/
theorem decideResult_reviewed {ledger : ExecutionLedger} {db : Database} {row : Execution}
    {disposition : Disposition} (hopens : ledger.connection db = .ok ()) (mem : row∈db.executions.rows)
    (hdone : row.status=.succeeded) (hwait : row.disposition=.pendingReview) (hstored : row.result≠none)
    (hfirst : disposition≠.pendingReview) :
    ledger.decideResult row.nonce disposition row.resultPolicy db =
      .ok (db.setOutcome row.nonce ⟨.succeeded, row.result, disposition⟩) := by
  have hone := Executions.update_row (t := db.executions)
    (p := fun r => r.nonce=row.nonce && r.status=.succeeded && r.disposition=.pendingReview &&
      r.resultPolicy=row.resultPolicy && r.result≠none)
    ⟨.succeeded, row.result, disposition⟩ mem
    (by simp [hdone, hwait, hstored]) (by simp +contextual)
  have hcount := congrArg Prod.snd hone
  obtain ⟨found, hfound, hp, hset⟩ := db.executions.update_unique _
    (fun row => { row.toOutcome with disposition := disposition }) row.nonce (by simp +contextual) hcount
  have hnonce : found.nonce=row.nonce := by
    simp only [Bool.and_eq_true, decide_eq_true_eq] at hp
    exact hp.1.1.1.1
  obtain rfl := db.executions.eq_of_nonce hfound mem hnonce
  have hupdate : (db.executions.update _ fun row => { row.toOutcome with disposition := disposition }) = (_, 1) :=
    Prod.ext hset hcount
  rw [decideResult, if_neg hfirst, hopens]
  simp only [bind, Except.bind, hupdate, ne_eq, not_true_eq_false, if_false, hdone]
  rfl

namespace GuardedExecution
section
variable {crypto : Crypto} {self : GuardedExecution crypto} {platform : Platform} {around : Surroundings}
  {s : Session BoundaryState Exchange} {call : ToolCall} {a : Approval} {plan : ExecutionPlan} {policy : String}
  {userTask : String} {observations : List Observation}

/-! Reservations. -/

/-- How the claim of an approved call ends. -/
inductive Claimed (self : GuardedExecution crypto) (around : Surroundings) (call : ToolCall) (a : Approval)
    (policy : String) (s : BoundaryState) :
    List Exchange → Except BoundaryError (Option ExecutionLedger ⊕ RuntimeResult) → BoundaryState → Prop where
  | free (h : self.effectLedger=none ∨ consequential a.effective = .ok false) :
      Claimed self around call a policy s [] (.ok (.inl none)) s
  | reserved {ledger : ExecutionLedger} {r : Reservation} {scan : Scan} {next : Database}
      (configured : self.effectLedger=some ledger) (effect : consequential a.effective = .ok true)
      (request : self.reservation call a.effective policy = .ok r)
      (inserted : ledger.reserve scan r s.database = .ok (none, next)) :
      Claimed self around call a policy s [.ledger (.reserve r) (.ok (.reserved none))] (.ok (.inl (some ledger)))
        { s with database := next }
  | replayed {ledger : ExecutionLedger} {r : Reservation} {scan : Scan} {replay : Replay} {next : Database}
      {text : String} {observation : Observation} {result : Except BoundaryError RuntimeResult}
      (configured : self.effectLedger=some ledger) (request : self.reservation call a.effective policy = .ok r)
      (found : ledger.reserve scan r s.database = .ok (some replay, next))
      (accepted : replay.disposition=.acceptedForAgent) (stored : replay.result=some text)
      (parsed : around.parse text=some observation) (tells : Tells .replayed .replayed (some observation) result) :
      Claimed self around call a policy s [.ledger (.reserve r) (.ok (.reserved (some replay)))] (result.map .inr)
        { s with database := next }
  | unreadable {ledger : ExecutionLedger} {r : Reservation} {scan : Scan} {replay : Replay} {next : Database}
      {e : BoundaryError} (found : ledger.reserve scan r s.database = .ok (some replay, next)) :
      Claimed self around call a policy s [.ledger (.reserve r) (.ok (.reserved (some replay)))] (.error e)
        { s with database := next }
  | kept {ledger : ExecutionLedger} {r : Reservation} {scan : Scan} {replay : Replay} {next : Database}
      {outcome : EpisodeOutcome} {result : Except BoundaryError RuntimeResult}
      (configured : self.effectLedger=some ledger) (request : self.reservation call a.effective policy = .ok r)
      (found : ledger.reserve scan r s.database = .ok (some replay, next))
      (h : replay.disposition=.withheld ∧ outcome=.blockResult ∨ outcome=.escalate)
      (tells : Tells outcome .replayed none result) :
      Claimed self around call a policy s [.ledger (.reserve r) (.ok (.reserved (some replay)))] (result.map .inr)
        (BoundaryState.told { s with database := next } call.taskId outcome)
  | refused {r : Reservation} {e : LedgerError} {result : Except BoundaryError RuntimeResult}
      (request : self.reservation call a.effective policy = .ok r) (tells : Tells .escalate .notDispatched none result) :
      Claimed self around call a policy s [.ledger (.reserve r) (.error e)] (result.map .inr) (s.escalate call.taskId)
  | raised {news : List Exchange} {e : BoundaryError} (h : ∀ e∈news, ∃ r err, e=.ledger (.reserve r) (.error err)) :
      Claimed self around call a policy s news (.error e) s

theorem reserve_ends_bind {β : Type} {ledger : ExecutionLedger} {r : Reservation}
    {f : Except LedgerError (Option Replay) → Act β} {q : Except BoundaryError β → Session BoundaryState Exchange → Prop}
    (ok : ∀ replay next, ledger.reserve (around.scan s.log) r s.state.database = .ok (replay, next) →
      Ends (f (.ok replay)) ⟨{ s.state with database := next },
        s.log++[.ledger (.reserve r) (.ok (.reserved replay))]⟩ q)
    (error : ∀ e, Ends (f (.error e)) ⟨s.state, s.log++[.ledger (.reserve r) (.error e)]⟩ q) :
    Ends (reserve around ledger r >>= f) s q := by
  cases h : ledger.reserve (around.scan s.log) r s.state.database with
  | ok found =>
    obtain ⟨replay, next⟩ := found
    rw [Ends, outcome_bind_ok (a := .ok replay) (t := ⟨{ s.state with database := next },
      s.log++[.ledger (.reserve r) (.ok (.reserved replay))]⟩) (by simp [outcome, reserve, h])]
    exact ok replay next h
  | error e =>
    rw [Ends, outcome_bind_ok (a := .error e) (t := ⟨s.state, s.log++[.ledger (.reserve r) (.error e)]⟩)
      (by simp [outcome, reserve, h])]
    exact error e

/-- A result that is handed on. -/
theorem handed_ends {α : Type} {x : Act RuntimeResult} {u : Session BoundaryState Exchange} {state : BoundaryState}
    {q : Except BoundaryError (α ⊕ RuntimeResult) → Session BoundaryState Exchange → Prop}
    {tells : Except BoundaryError RuntimeResult → Prop}
    (h : Ends x u fun r t => t=⟨state, u.log⟩ ∧ tells r) (hq : ∀ r, tells r → q (r.map .inr) ⟨state, u.log⟩) :
    Ends (do return (.inr (← x) : α ⊕ RuntimeResult)) u q := by
  refine h.bind ?_ ?_
  · rintro result t ⟨rfl, htells⟩
    exact ends_pure (hq (.ok result) htells)
  · rintro e t ⟨rfl, htells⟩
    exact hq (.error e) htells

theorem handed_result {α : Type} {x : Except BoundaryError RuntimeResult} {result : RuntimeResult}
    (h : (.ok (.inr result) : Except BoundaryError (α ⊕ RuntimeResult))=x.map .inr) : x = .ok result := by
  cases x <;> cases h
  rfl

theorem claim_ends : Ends (self.claim around call a plan policy) s fun r t => ∃ news, t.log=s.log++news ∧
      Claimed self around call a policy s.state news r t.state := by
  unfold claim
  cases hledger : self.effectLedger with
  | none => exact ⟨[], (List.append_nil _).symm, .free (.inl hledger)⟩
  | some ledger =>
    dsimp only
    refine ends_lift_bind (fun effect heffect => ?_) fun e _ => ⟨[], (List.append_nil _).symm, .raised (by simp)⟩
    cases effect with
    | false => exact ⟨[], (List.append_nil _).symm, .free (.inr (mapError_ok heffect))⟩
    | true =>
      refine ends_lift_bind (fun r hr => ?_) fun e _ => ⟨[], (List.append_nil _).symm, .raised (by simp)⟩
      refine reserve_ends_bind (fun replay next hfound => ?_) fun e => ?_
      · cases replay with
        | none => exact ⟨_, rfl, .reserved hledger (mapError_ok heffect) hr hfound⟩
        | some replay =>
          dsimp only
          split
          · rename_i text haccepted hstored
            split
            · exact ⟨_, rfl, .unreadable hfound⟩
            · rename_i observation hparsed
              refine handed_ends (report_ends unjudged) fun result htells => ?_
              exact ⟨_, rfl, .replayed hledger hr hfound haccepted hstored hparsed htells⟩
          · rename_i hwithheld
            refine handed_ends withhold_ends fun result htells => ?_
            exact ⟨_, rfl, .kept hledger hr hfound (.inl ⟨hwithheld, rfl⟩) htells⟩
          · refine handed_ends withhold_ends fun result htells => ?_
            exact ⟨_, rfl, .kept hledger hr hfound (.inr rfl) htells⟩
      · have hrefused : Ends (do
            return (.inr (← self.withhold call a.effective a.outputs plan .escalate) :
              Option ExecutionLedger ⊕ RuntimeResult)) ⟨s.state, s.log++[.ledger (.reserve r) (.error e)]⟩ fun r t =>
            ∃ news, t.log=s.log++news ∧ Claimed self around call a policy s.state news r t.state := by
          refine handed_ends withhold_ends fun result htells => ?_
          rw [Option.getD_none, statusOf_escalate] at htells
          exact ⟨_, rfl, .refused hr htells⟩
        split
        · cases ‹_ = _›
        · cases ‹_ = _›
        · exact hrefused
        · exact hrefused
        · exact ⟨_, rfl, .raised (by simp)⟩

end
end GuardedExecution
end TraceGuard
