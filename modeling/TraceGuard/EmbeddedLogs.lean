import TraceGuard.EmbeddedDispatch

/-! What a call of the embedded boundary leaves in the log: at most one dispatch, and the record of what was executed. -/
namespace TraceGuard
open Raising Stateful Dialogue ExecutionLedger

/-! Logs. -/

theorem append_split {α : Type} {xs ys before after : List α} {d : α} (h : xs++ys=before++d :: after) :
    (∃ mid, before=xs++mid ∧ ys=mid++d :: after) ∨ ∃ mid, xs=before++d :: mid ∧ after=mid++ys := by
  rcases List.append_eq_append_iff.mp h with ⟨mid, hbefore, hys⟩ | ⟨mid, hxs, hrest⟩
  · exact .inl ⟨mid, hbefore, hys⟩
  · cases mid with
    | nil => exact .inl ⟨[], by simpa using hxs.symm, hrest.symm⟩
    | cons x mid =>
      obtain ⟨rfl, hafter⟩ := List.cons.inj hrest
      exact .inr ⟨mid, hxs, hafter⟩

/-- What has one marked element is split at a marked one in one way. -/
theorem marked_unique {α : Type} {p : α → Bool} {before after before' after' : List α} {d d' : α}
    (h : before++d :: after=before'++d' :: after') (hbefore : ∀ x∈before, p x = false)
    (hafter : ∀ x∈after, p x = false) (hd : p d' = true) : before'=before ∧ d'=d ∧ after'=after := by
  have hnot : ∀ {xs : List α}, (∀ x∈xs, p x = false) → d'∉xs := by
    intro xs hxs hmem
    have hmarked := hxs d' hmem
    rw [hd] at hmarked
    cases hmarked
  rcases append_split h with ⟨mid, hmid, hrest⟩ | ⟨mid, hmid, -⟩
  · cases mid with
    | nil =>
      obtain ⟨rfl, rfl⟩ := List.cons.inj hrest
      exact ⟨by rw [hmid, List.append_nil], rfl, rfl⟩
    | cons x mid =>
      obtain ⟨-, htail⟩ := List.cons.inj hrest
      exact absurd (htail ▸ by simp) (hnot hafter)
  · exact absurd (hmid ▸ by simp) (hnot hbefore)

namespace Exchange

/-- The call that was given to a tool or to the sandbox. -/
def dispatched : Exchange → Option ToolCall
  | .handled call _ => some call
  | .contained plan _ => some plan.effectiveCall
  | _ => none

/-- The call that the boundary records as executed: one that returned, or whose effect is unknown. -/
def executed : Exchange → Option ToolCall
  | .handled call (.ok _) => some call
  | .handled call (.error e) =>
    if e.kind=.expected ∧ (GuardedExecution.consequential call).toOption=some true then some call else none
  | .contained plan (.ok _) => some plan.effectiveCall
  | _ => none

theorem executed_none {e : Exchange} (h : e.isDispatched = false) : e.executed=none := by
  cases e with
  | handled _ _ => cases h
  | contained _ _ => cases h
  | consulted _ _ => rfl
  | ledger _ _ => rfl
  | reviewed _ _ _ _ => rfl
  | rejected _ _ => rfl

theorem isDispatched_of_consulted {e : Exchange} (h : e.isConsulted = true) : e.isDispatched = false := by
  cases e with
  | consulted _ _ => rfl
  | ledger _ _ => rfl
  | handled _ _ => cases h
  | contained _ _ => cases h
  | reviewed _ _ _ _ => rfl
  | rejected _ _ => rfl

theorem isDispatched_of_dispatched {e : Exchange} {call : ToolCall} (h : e.dispatched=some call) :
    e.isDispatched = true := by
  cases e with
  | handled _ _ => rfl
  | contained _ _ => rfl
  | consulted _ _ => cases h
  | ledger _ _ => cases h
  | reviewed _ _ _ _ => cases h
  | rejected _ _ => cases h

end Exchange

theorem executed_filter (news : List Exchange) :
    (news.filter Exchange.isDispatched).filterMap Exchange.executed=news.filterMap Exchange.executed := by
  induction news with
  | nil => rfl
  | cons e news ih =>
    cases he : e.isDispatched with
    | false => rw [List.filter_cons_of_neg (by simp [he]), ih, List.filterMap_cons_none (Exchange.executed_none he)]
    | true =>
      rw [List.filter_cons_of_pos he, List.filterMap_cons, List.filterMap_cons, ih]

theorem filter_quiet {news : List Exchange} (h : ∀ e∈news, e.isDispatched = false) :
    news.filter Exchange.isDispatched=[] :=
  List.filter_eq_nil_iff.mpr fun e he => by simp [h e he]

theorem executed_nil {news : List Exchange} (h : ∀ e∈news, e.isDispatched = false) :
    news.filterMap Exchange.executed=[] :=
  List.filterMap_eq_nil_iff.mpr fun e he => Exchange.executed_none (h e he)

namespace BoundaryState

@[simp] theorem escalate_executedCalls (s : BoundaryState) (taskId : String) :
    (s.escalate taskId).executedCalls=s.executedCalls := rfl

@[simp] theorem told_executedCalls (s : BoundaryState) (taskId : String) (outcome : EpisodeOutcome) :
    (s.told taskId outcome).executedCalls=s.executedCalls := by
  unfold told
  split <;> rfl

@[simp] theorem append_executedCalls (s : BoundaryState) (taskId : String) (call : ToolCall) :
    (s.append taskId call).executedCalls taskId=s.executedCalls taskId++[call] := if_pos rfl

end BoundaryState

namespace GuardedExecution

@[simp] theorem settled_executedCalls (s : BoundaryState) (reserved : Option ExecutionLedger) (nonce : String)
    (o : Outcome) : (settled s reserved nonce o).executedCalls=s.executedCalls := by
  cases reserved <;> rfl

section
variable {crypto : Crypto} {self : GuardedExecution crypto} {platform : Platform} {around : Surroundings}
  {s t : BoundaryState} {call : ToolCall} {a : Approval} {plan : ExecutionPlan} {policy : String}
  {userTask : String} {observations : List Observation} {reserved : Option ExecutionLedger} {observationId : String}
  {news : List Exchange} {r : Except BoundaryError RuntimeResult}

/-! What was executed. -/

theorem Ran.executed (h : Ran self platform around call a plan reserved observationId s news r t)
    (hplan : plan.effectiveCall=a.effective) :
    t.executedCalls call.taskId=s.executedCalls call.taskId++news.filterMap Exchange.executed := by
  cases h with
  | unsandboxed _ _ _ => simp
  | unavailable _ _ => simp [Exchange.executed]
  | broken _ => simp [Exchange.executed]
  | accepted _ _ => simp [Exchange.executed, hplan]
  | refused _ _ _ => simp [Exchange.executed, hplan]
  | interrupted _ _ => simp [Exchange.executed, hplan]
  | handled _ _ => simp [Exchange.executed]
  | @failed _ _ uncertain _ expected effect _ =>
    cases uncertain <;> simp [Exchange.executed, expected, effect, Except.toOption]
  | crashed _ unexpected => simp [Exchange.executed, unexpected]
  | unclear _ effect _ => simp [Exchange.executed, effect, Except.toOption]

theorem Claimed.quiet {claimed : Except BoundaryError (Option ExecutionLedger ⊕ RuntimeResult)}
    (h : Claimed self around call a policy s news claimed t) : ∀ e∈news, e.isDispatched = false := by
  have hone : ∀ (c : ExecutionLedger.Call) (answer : Except LedgerError ExecutionLedger.Reply),
      ∀ e∈[Exchange.ledger c answer], e.isDispatched = false := by
    intro c answer e he
    rw [List.mem_singleton.mp he]
    rfl
  cases h with
  | free _ => exact List.forall_mem_nil _
  | reserved _ _ _ _ => exact hone _ _
  | replayed _ _ _ _ _ _ _ => exact hone _ _
  | unreadable _ => exact hone _ _
  | kept _ _ _ _ _ => exact hone _ _
  | refused _ _ => exact hone _ _
  | raised h =>
    intro e he
    obtain ⟨r, err, rfl⟩ := h e he
    rfl

theorem Claimed.executedCalls {claimed : Except BoundaryError (Option ExecutionLedger ⊕ RuntimeResult)}
    (h : Claimed self around call a policy s news claimed t) : t.executedCalls=s.executedCalls := by
  cases h <;> simp

/-- A call adds what it executed to the record of its task. -/
theorem Course.executed (h : Course self platform around userTask call observations observationId s news r t) :
    t.executedCalls call.taskId=s.executedCalls call.taskId++news.filterMap Exchange.executed := by
  have hconsults : ∀ {consults : List Exchange}, (∀ e∈consults, e.isConsulted = true) →
      consults.filterMap Exchange.executed=[] := fun hquiet =>
    executed_nil fun e he => Exchange.isDispatched_of_consulted (hquiet e he)
  cases h with
  | foreign _ _ => simp
  | escalated _ _ _ => simp
  | stopped _ _ quiet _ _ => simp [hconsults quiet]
  | raised _ _ quiet => simp [hconsults quiet]
  | performed _ _ quiet _ performed =>
    rw [List.filterMap_append, hconsults quiet, List.nil_append]
    cases performed with
    | raised => simp
    | simulated _ _ => simp
    | unclaimed claimed => rw [executed_nil claimed.quiet, claimed.executedCalls, List.append_nil]
    | ran planned _ _ claimed _ ran =>
      rw [List.filterMap_append, executed_nil claimed.quiet, List.nil_append, ← executed_filter,
        ← claimed.executedCalls]
      exact ran.executed (Approval.plan_ok planned).1

/-- A call of another task changes nothing and asks nobody. -/
theorem Course.foreign_unchanged
    (h : Course self platform around userTask call observations observationId s news r t)
    (hforeign : call.taskId≠self.boundTaskId) : news=[] ∧ t=s := by
  cases h with
  | foreign _ _ => exact ⟨rfl, rfl⟩
  | escalated bound _ _ => exact absurd bound hforeign
  | stopped bound _ _ _ _ => exact absurd bound hforeign
  | raised bound _ _ => exact absurd bound hforeign
  | performed bound _ _ _ _ => exact absurd bound hforeign

/-! What was dispatched. -/

/-- A dispatch, with what stands before it in the log of its call. -/
structure Dispatched (boundary : GuardedExecution crypto) (platform : Platform) (around : Surroundings)
    (userTask : String) (call : ToolCall) (observations : List Observation) (s : BoundaryState)
    (before : List Exchange) (d : Exchange) (a : Approval) (plan : ExecutionPlan) : Prop where
  bound : call.taskId=boundary.boundTaskId
  free : call.taskId∉s.escalatedTasks
  approved : ∃ consults, Approved boundary platform userTask observations (s.executedCalls call.taskId) call a consults ∧
    consults⊆before
  planned : a.plan = .ok plan
  claimed : ∃ policy claims reserved mid, boundary.resultPolicy = .ok policy ∧
    Claimed boundary around call a policy s claims (.ok (.inl reserved)) mid ∧ claims⊆before
  placed : a.target=.default ∧ a.effective.toolName≠"restricted_command" ∧ (∃ answer, d=.handled a.effective answer) ∨
    a.target=.container ∧ ∃ answer, d=.contained plan answer

/-- An approved call is dispatched once or not at all. -/
theorem Ran.dispatches (h : Ran self platform around call a plan reserved observationId s news r t) :
    news=[] ∨ ∃ d, news=[d] ∧ d.isDispatched = true ∧
      (a.target=.default ∧ (∃ answer, d=.handled a.effective answer) ∨
        a.target=.container ∧ ∃ answer, d=.contained plan answer) := by
  cases h with
  | unsandboxed _ _ _ => exact .inl rfl
  | unavailable target _ => exact .inr ⟨_, rfl, rfl, .inr ⟨target, _, rfl⟩⟩
  | broken target => exact .inr ⟨_, rfl, rfl, .inr ⟨target, _, rfl⟩⟩
  | accepted target _ => exact .inr ⟨_, rfl, rfl, .inr ⟨target, _, rfl⟩⟩
  | refused target _ _ => exact .inr ⟨_, rfl, rfl, .inr ⟨target, _, rfl⟩⟩
  | interrupted target _ => exact .inr ⟨_, rfl, rfl, .inr ⟨target, _, rfl⟩⟩
  | handled target _ => exact .inr ⟨_, rfl, rfl, .inl ⟨target, _, rfl⟩⟩
  | failed target _ _ _ => exact .inr ⟨_, rfl, rfl, .inl ⟨target, _, rfl⟩⟩
  | crashed target _ => exact .inr ⟨_, rfl, rfl, .inl ⟨target, _, rfl⟩⟩
  | unclear target _ _ => exact .inr ⟨_, rfl, rfl, .inl ⟨target, _, rfl⟩⟩

/-- A list with one marked element is split at it. -/
theorem split_of_filter {ds : List Exchange} {d : Exchange} (h : ds.filter Exchange.isDispatched=[d]) :
    ∃ before after, ds=before++d :: after ∧ (∀ e∈before, e.isDispatched = false) ∧
      ∀ e∈after, e.isDispatched = false := by
  obtain ⟨before, after, rfl, hbefore, -, hafter⟩ := List.filter_eq_cons_iff.mp h
  exact ⟨before, after, rfl, fun e he => by simpa using hbefore e he,
    fun e he => by simpa using List.filter_eq_nil_iff.mp hafter e he⟩

/-- What a call dispatches, if anything, is mediated. -/
theorem Course.dispatches (h : Course self platform around userTask call observations observationId s news r t) :
    (∀ e∈news, e.isDispatched = false) ∨ ∃ before d after a plan, news=before++d :: after ∧
      (∀ e∈before, e.isDispatched = false) ∧ (∀ e∈after, e.isDispatched = false) ∧ d.isDispatched = true ∧
        Dispatched self platform around userTask call observations s before d a plan := by
  cases h with
  | foreign _ _ => exact .inl (List.forall_mem_nil _)
  | escalated _ _ _ => exact .inl (List.forall_mem_nil _)
  | stopped _ _ quiet _ _ => exact .inl fun e he => Exchange.isDispatched_of_consulted (quiet e he)
  | raised _ _ quiet => exact .inl fun e he => Exchange.isDispatched_of_consulted (quiet e he)
  | @performed consults _ a _ _ bound free quiet approved performed =>
    have hconsults : ∀ e∈consults, e.isDispatched = false := fun e he =>
      Exchange.isDispatched_of_consulted (quiet e he)
    have hquiet : ∀ {claims : List Exchange}, (∀ e∈claims, e.isDispatched = false) →
        ∀ e∈consults++claims, e.isDispatched = false := fun hclaims e he =>
      (List.mem_append.mp he).elim (hconsults e) (hclaims e)
    cases performed with
    | raised => exact .inl (hquiet (List.forall_mem_nil _))
    | simulated _ _ => exact .inl (hquiet (List.forall_mem_nil _))
    | unclaimed claimed => exact .inl (hquiet claimed.quiet)
    | @ran plan policy claims runs reserved mid _ _ planned real decided claimed _ ran =>
      rcases ran.dispatches with hnone | ⟨d, hone, hd, hplaced⟩
      · left
        refine hquiet fun e he => ?_
        rcases List.mem_append.mp he with hclaims | hruns
        · exact claimed.quiet e hclaims
        · simpa using List.filter_eq_nil_iff.mp hnone e hruns
      · obtain ⟨before, after, rfl, hbefore, hafter⟩ := split_of_filter hone
        refine .inr ⟨consults++claims++before, d, after, a, plan, by simp, ?_, hafter, hd, ?_⟩
        · intro e he
          exact (List.mem_append.mp he).elim (hquiet claimed.quiet e) (hbefore e)
        refine {
          bound := bound
          free := free
          approved := ⟨consults, approved, by simp⟩
          planned := planned
          claimed := ⟨policy, claims, reserved, mid, decided, claimed, by simp⟩
          placed := ?_ }
        refine hplaced.imp ?_ id
        rintro ⟨target, hanswer⟩
        exact ⟨target, fun htool => real (.inr ⟨htool, target⟩), hanswer⟩

end
end GuardedExecution
end TraceGuard
