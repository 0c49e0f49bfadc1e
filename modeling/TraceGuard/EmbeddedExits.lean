import TraceGuard.EmbeddedMediation

/-! What a call leaves in the ledger, however it ends: its reservation has the outcome that its dispatch had, and is left
pending only by a sandbox that breaks. -/
namespace TraceGuard
open Raising Stateful Dialogue ExecutionLedger

/-- The entry of a reservation of its own. -/
def Exchange.reserves (r : Reservation) : Exchange := .ledger (.reserve r) (.ok (.reserved none))

theorem Exchange.isClaim_reserves (r : Reservation) : (Exchange.reserves r).isClaim = true := rfl

theorem Exchange.isClaim_of_consulted {e : Exchange} (h : e.isConsulted = true) : e.isClaim = false := by
  cases e with
  | consulted _ _ => rfl
  | ledger _ _ => cases h
  | handled _ _ => rfl
  | contained _ _ => rfl
  | reviewed _ _ _ _ => rfl
  | rejected _ _ => rfl

/-- The outcome of a reservation by what was dispatched under it; a sandbox that breaks leaves it as it is. -/
inductive Exits (platform : Platform) (around : Surroundings) : List Exchange → Option Outcome → Prop where
  | idle : Exits platform around [] (some ⟨.notDispatched, none, .reviewRequired⟩)
  | handled {call : ToolCall} {observation : Observation} : Exits platform around [.handled call (.ok observation)]
      (some ⟨.succeeded, some (GuardedExecution.receipt platform around observation), .acceptedForAgent⟩)
  | failed {call : ToolCall} {e : Raised} :
      Exits platform around [.handled call (.error e)] (some ⟨.unknown, none, .reviewRequired⟩)
  | contained {call : ToolCall} {plan : ExecutionPlan} {evidence : SandboxEvidence} {observationId : String}
      {disposition : Disposition} : Exits platform around [.contained plan (.ok evidence)] (some ⟨.succeeded,
        some (GuardedExecution.receipt platform around
          (GuardedExecution.evidenced around call evidence observationId)), disposition⟩)
  | unavailable {plan : ExecutionPlan} :
      Exits platform around [.contained plan (.error .unavailable)] (some ⟨.unknown, none, .reviewRequired⟩)
  | broken {plan : ExecutionPlan} {e : Raised} : Exits platform around [.contained plan (.error (.raised e))] none

/-- The row of a reservation, with its outcome if it has one. -/
def exitRow (r : Reservation) (o : Option Outcome) : Execution := o.elim (pendingRow r) (pendingRow r).set

/-- No more than a stored result that was accepted under another policy is put under review. -/
def Reviews (db next : Database) : Prop :=
  next=db ∨ ∃ row∈db.executions.rows, row.status=.succeeded ∧ row.disposition=.acceptedForAgent ∧
    next=db.setOutcome row.nonce ⟨.succeeded, row.result, .reviewRequired⟩

/-- What a call does to the ledger. -/
structure Leaves (platform : Platform) (around : Surroundings) (db : Database) (news : List Exchange)
    (next : Database) : Prop where
  reserved : ∀ r, .reserves r∈news → ∃ o, Exits platform around (news.filter Exchange.isDispatched) o ∧
    next.executions.rows=db.executions.rows++[exitRow r o]
  unreserved : (∀ r, .reserves r∉news) → Reviews db next
  records : next.reconciliations=db.reconciliations

theorem Reviews.records {db next : Database} (h : Reviews db next) : next.reconciliations=db.reconciliations := by
  rcases h with rfl | ⟨_, _, _, _, rfl⟩ <;> rfl

theorem Reviews.leaves {platform : Platform} {around : Surroundings} {db next : Database} {news : List Exchange}
    (h : Reviews db next) (hno : ∀ r, .reserves r∉news) :
    Leaves platform around db news next :=
  ⟨fun r hr => absurd hr (hno r), fun _ => h, h.records⟩

namespace BoundaryState

@[simp] theorem escalate_database (s : BoundaryState) (taskId : String) : (s.escalate taskId).database=s.database := rfl

@[simp] theorem append_database (s : BoundaryState) (taskId : String) (call : ToolCall) :
    (s.append taskId call).database=s.database := rfl

@[simp] theorem told_database (s : BoundaryState) (taskId : String) (outcome : EpisodeOutcome) :
    (s.told taskId outcome).database=s.database := by
  unfold told
  split <;> rfl

end BoundaryState

namespace GuardedExecution

theorem settled_none (s : BoundaryState) (nonce : String) (o : Outcome) : settled s none nonce o=s := rfl

theorem settled_database (s : BoundaryState) (ledger : ExecutionLedger) (nonce : String) (o : Outcome) :
    (settled s (some ledger) nonce o).database=s.database.setOutcome nonce o := rfl

section
variable {crypto : Crypto} {self : GuardedExecution crypto} {platform : Platform} {around : Surroundings}
  {s t : BoundaryState} {call : ToolCall} {a : Approval} {plan : ExecutionPlan} {policy : String}
  {userTask : String} {observations : List Observation} {reserved : Option ExecutionLedger} {observationId : String}
  {news : List Exchange} {r : Except BoundaryError RuntimeResult}

/-- A run changes no more of the ledger than the outcome of its own reservation. -/
theorem Ran.exits (h : Ran self platform around call a plan reserved observationId s news r t) :
    ∃ o, Exits platform around news o ∧
      t.database=(o.elim s (settled s reserved a.effective.callId)).database := by
  have hsettled : ∀ (taskId : String) (o : Outcome),
      (settled (s.append taskId a.effective) reserved a.effective.callId o).database=
        (settled s reserved a.effective.callId o).database := by
    intro taskId o
    cases reserved <;> rfl
  cases h with
  | unsandboxed _ _ _ => exact ⟨_, .idle, rfl⟩
  | unavailable _ _ => exact ⟨_, .unavailable, rfl⟩
  | broken _ => exact ⟨_, .broken, rfl⟩
  | accepted _ _ => exact ⟨_, .contained, hsettled _ _⟩
  | refused _ _ _ => exact ⟨_, .contained, (BoundaryState.told_database ..).trans (hsettled _ _)⟩
  | interrupted _ _ => exact ⟨_, .contained, hsettled _ _⟩
  | handled _ _ => exact ⟨_, .handled, hsettled _ _⟩
  | @failed _ _ uncertain _ _ _ _ => exact ⟨_, .failed, by cases uncertain <;> rfl⟩
  | crashed _ _ => exact ⟨_, .failed, rfl⟩
  | unclear _ _ no => exact ⟨_, .failed, by rw [no]; rfl⟩

/-- A claim inserts its reservation, or at most puts a stored result under review. -/
theorem Claimed.inserts {claimed : Except BoundaryError (Option ExecutionLedger ⊕ RuntimeResult)}
    (h : Claimed self around call a policy s news claimed t) :
    (∃ ledger r, claimed = .ok (.inl (some ledger)) ∧ news=[.reserves r] ∧ r.nonce=a.effective.callId ∧
        (∀ row∈s.database.executions.rows, row.nonce≠r.nonce) ∧
        t.database.executions.rows=s.database.executions.rows++[pendingRow r] ∧
        t.database.reconciliations=s.database.reconciliations) ∨
      ((∀ r, .reserves r∉news) ∧ (∀ ledger, claimed≠.ok (.inl (some ledger))) ∧ Reviews s.database t.database) := by
  have hne : ∀ (x : Except BoundaryError RuntimeResult) (ledger : ExecutionLedger),
      (x.map .inr : Except BoundaryError (Option ExecutionLedger ⊕ RuntimeResult))≠.ok (.inl (some ledger)) := by
    intro x ledger hx
    cases x <;> cases hx
  have hreviews : ∀ {ledger : ExecutionLedger} {scan : Scan} {r : Reservation} {found : Replay} {next : Database},
      ledger.reserve scan r s.database = .ok (some found, next) → Reviews s.database next := by
    intro ledger scan r found next h
    have heffect := reserve_effect h
    cases heffect with
    | replayed _ _ _ _ _ _ => exact .inl rfl
    | invalidated mem done accepted => exact .inr ⟨_, mem, done, accepted, rfl⟩
  have hnot : ∀ (c : Reservation) (found : Replay) (r : Reservation),
      .reserves r∉[Exchange.ledger (.reserve c) (.ok (.reserved (some found)))] := by
    intro c found r hmem
    cases List.mem_singleton.mp hmem
  cases h with
  | free _ => exact .inr ⟨fun _ => List.not_mem_nil, fun _ h => (by cases h), .inl rfl⟩
  | @reserved ledger r scan next configured effect request inserted =>
    left
    have heffect := reserve_effect inserted
    cases heffect with
    | inserted fresh free single budget rows =>
      refine ⟨ledger, r, rfl, rfl, (reservation_ok request).nonce, fun row mem hrow => ?_, rows, rfl⟩
      have hfresh := fresh row mem
      simp [sameKey, hrow] at hfresh
  | replayed _ _ found _ _ _ _ => exact .inr ⟨hnot _ _, hne _, hreviews found⟩
  | unreadable found => exact .inr ⟨hnot _ _, fun _ h => (by cases h), hreviews found⟩
  | kept _ _ found _ _ =>
    refine .inr ⟨hnot _ _, hne _, ?_⟩
    rw [BoundaryState.told_database]
    exact hreviews found
  | refused _ _ =>
    refine .inr ⟨fun r hmem => ?_, hne _, .inl rfl⟩
    cases List.mem_singleton.mp hmem
  | raised h =>
    refine .inr ⟨fun r hmem => ?_, fun _ h => (by cases h), .inl rfl⟩
    obtain ⟨_, _, he⟩ := h _ hmem
    cases he

theorem setOutcome_inserted {db mid : Database} {r : Reservation} (hfresh : ∀ row∈db.executions.rows, row.nonce≠r.nonce)
    (hrows : mid.executions.rows=db.executions.rows++[pendingRow r]) (o : Outcome) :
    (mid.setOutcome r.nonce o).executions.rows=db.executions.rows++[(pendingRow r).set o] := by
  have hold : (db.executions.rows.map fun row => if row.nonce=r.nonce then row.set o else row)=db.executions.rows := by
    refine (List.map_congr_left fun row hrow => ?_).trans (List.map_id _)
    rw [if_neg (hfresh row hrow), id]
  rw [Database.setOutcome, Executions.setOutcome_rows, hrows, List.map_append, hold]
  simp [pendingRow]

theorem Course.leaves (h : Course self platform around userTask call observations observationId s news r t) :
    Leaves platform around s.database news t.database := by
  have hquiet : ∀ {consults : List Exchange}, (∀ e∈consults, e.isConsulted = true) → ∀ r, .reserves r∉consults := by
    intro consults hquiet r hr
    cases hquiet _ hr
  have hsame : ∀ {consults : List Exchange}, (∀ e∈consults, e.isConsulted = true) →
      Leaves platform around s.database consults s.database := fun hconsults =>
    Reviews.leaves (.inl rfl) (hquiet hconsults)
  cases h with
  | foreign _ _ => exact hsame (List.forall_mem_nil _)
  | escalated _ _ _ => exact hsame (List.forall_mem_nil _)
  | stopped _ _ quiet _ _ =>
    rw [BoundaryState.told_database]
    exact hsame quiet
  | raised _ _ quiet => exact hsame quiet
  | @performed consults news a _ _ _ _ quiet _ performed =>
    have hno : ∀ {claims : List Exchange}, (∀ r, .reserves r∉claims) → ∀ r, .reserves r∉consults++claims := by
      intro claims hclaims r hr
      exact (List.mem_append.mp hr).elim (hquiet quiet r) (hclaims r)
    cases performed with
    | raised =>
      rw [List.append_nil]
      exact hsame quiet
    | simulated _ _ =>
      rw [List.append_nil]
      exact hsame quiet
    | unclaimed claimed =>
      rcases claimed.inserts with ⟨ledger, _, hclaimed, -⟩ | ⟨hclaims, -, hreviews⟩
      · cases r <;> cases hclaimed
      · exact hreviews.leaves (hno hclaims)
    | @ran plan policy claims runs reserved mid _ _ planned _ _ claimed later ran =>
      have hruns : ∀ r, .reserves r∉runs := by
        intro r hr
        cases later _ hr
      obtain ⟨o, hexits, hdatabase⟩ := ran.exits
      rcases claimed.inserts with ⟨ledger, r', hclaimed, rfl, hnonce, hfresh, hrows, hrecords⟩ |
        ⟨hclaims, hnone, hreviews⟩
      · cases hclaimed
        have hfilter : (consults++([Exchange.reserves r']++runs)).filter Exchange.isDispatched=
            runs.filter Exchange.isDispatched := by
          rw [List.filter_append, List.filter_append,
            filter_quiet fun e he => Exchange.isDispatched_of_consulted (quiet e he)]
          rfl
        refine ⟨fun r hr => ⟨o, hfilter ▸ hexits, ?_⟩, fun hno => absurd (by simp) (hno r'), ?_⟩
        · have hr' : r=r' := by
            rcases List.mem_append.mp hr with hconsults | hrest
            · exact absurd hconsults (hquiet quiet r)
            rcases List.mem_append.mp hrest with hone | hlater
            · cases List.mem_singleton.mp hone
              rfl
            · exact absurd hlater (hruns r)
          subst hr'
          rw [hdatabase, ← hnonce]
          cases o with
          | none => exact hrows
          | some o => exact setOutcome_inserted hfresh hrows o
        · rw [hdatabase]
          cases o <;> exact hrecords
      · have hreserved : reserved=none := by
          cases reserved with
          | none => rfl
          | some ledger => exact absurd rfl (hnone ledger)
        have hkept : t.database=mid.database := by
          rw [hdatabase, hreserved]
          cases o <;> rfl
        rw [hkept]
        refine hreviews.leaves (hno fun r hr => ?_)
        exact (List.mem_append.mp hr).elim (hclaims r) (hruns r)

/-- However a call ends, the ledger is left as its dispatch says. -/
theorem execute_leaves (self : GuardedExecution crypto) (platform : Platform) (around : Surroundings)
    (request : CallRequest) (s : Session BoundaryState Exchange) :
    Ends (self.execute platform around request) s fun _ t => ∃ news, t.log=s.log++news ∧
      Leaves platform around s.state.database news t.state.database := by
  refine executeCall_ends.mono ?_
  rintro r t ⟨news, hlog, hcourse⟩
  exact ⟨news, hlog, hcourse.leaves⟩

end
end GuardedExecution
end TraceGuard
