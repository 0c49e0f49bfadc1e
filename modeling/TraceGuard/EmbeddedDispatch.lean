import TraceGuard.EmbeddedRuns

/-! What one call of the embedded boundary can do, said once: what was asked, what was reserved, what was run, and
what is reported of it. -/
namespace TraceGuard
open Raising Stateful Dialogue ExecutionLedger

namespace GuardedExecution
section
variable {crypto : Crypto} {self : GuardedExecution crypto} {platform : Platform} {around : Surroundings}
  {s : Session BoundaryState Exchange} {call : ToolCall} {a : Approval} {plan : ExecutionPlan} {policy : String}
  {userTask : String} {observations : List Observation}
  {reserved : Option ExecutionLedger} {observationId : String}

/-- How an approved call ends, with everything that was asked. -/
inductive Performed (self : GuardedExecution crypto) (platform : Platform) (around : Surroundings) (call : ToolCall)
    (a : Approval) (observationId : String) (s : BoundaryState) :
    List Exchange → Except BoundaryError RuntimeResult → BoundaryState → Prop where
  | raised {e : BoundaryError} : Performed self platform around call a observationId s [] (.error e) s
  | simulated {r : Except BoundaryError RuntimeResult}
      (h : a.target=.simulated ∨ (a.effective.toolName="restricted_command" ∧ a.target=.default))
      (tells : Tells .simulated .notDispatched (some (GuardedExecution.simulated call observationId)) r) :
      Performed self platform around call a observationId s [] r s
  | unclaimed {policy : String} {claims : List Exchange} {r : Except BoundaryError RuntimeResult} {t : BoundaryState}
      (claimed : Claimed self around call a policy s claims (r.map .inr) t) :
      Performed self platform around call a observationId s claims r t
  | ran {plan : ExecutionPlan} {policy : String} {claims news : List Exchange} {reserved : Option ExecutionLedger}
      {mid t : BoundaryState} {r : Except BoundaryError RuntimeResult} (planned : a.plan = .ok plan)
      (real : ¬(a.target=.simulated ∨ (a.effective.toolName="restricted_command" ∧ a.target=.default)))
      (decided : self.resultPolicy = .ok policy)
      (claimed : Claimed self around call a policy s claims (.ok (.inl reserved)) mid)
      (later : ∀ e∈news, e.isClaim = false)
      (ran : Ran self platform around call a plan reserved observationId mid (news.filter Exchange.isDispatched) r t) :
      Performed self platform around call a observationId s (claims++news) r t

theorem Approval.plan_ok {plan : ExecutionPlan} (h : a.plan = .ok plan) :
    plan.effectiveCall=a.effective ∧ plan.target=a.target ∧ plan.sandboxProfile=a.profile := by
  unfold Approval.plan at h
  split at h
  · cases h
    exact ⟨rfl, rfl, rfl⟩
  · cases h

/-- What a reservation is for. -/
structure Reserves (boundary : GuardedExecution crypto) (call effective : ToolCall) (policy : String) (r : Reservation) :
    Prop where
  scope : r.scope=⟨"embedded", "application", boundary.compiled.digest, call.taskId⟩
  nonce : r.nonce=effective.callId
  idempotencyKey : r.idempotencyKey=effective.callId
  digest : digest crypto (payload effective) = .ok r.digest
  effectDigest : r.effectDigest=r.digest
  amount : amount effective = .ok r.amount
  budgetLimit : r.budgetLimit=boundary.taskAuthority.maxAmount.map fun b => String.ofList (Json.floatChars b.value)
  repeatable : r.repeatable=decide (effective.toolName∈boundary.taskAuthority.repeatableTools)
  resultPolicy : r.resultPolicy=policy

theorem reservation_ok {effective : ToolCall} {r : Reservation}
    (h : self.reservation call effective policy = .ok r) : Reserves self call effective policy r := by
  unfold reservation at h
  obtain ⟨digest, hdigest, h⟩ := bind_ok h
  obtain ⟨amount, hamount, h⟩ := bind_ok h
  cases h
  exact ⟨rfl, rfl, rfl, mapError_ok hdigest, rfl, hamount, rfl, rfl, rfl⟩

theorem claimed_awaiting {claims : List Exchange} {state mid : BoundaryState}
    (h : Claimed self around call a policy state claims (.ok (.inl reserved)) mid) :
    Awaiting reserved a.effective.callId policy mid.database ∧
      (reserved≠none → consequential a.effective = .ok true) := by
  generalize hr : (.ok (.inl reserved) : Except BoundaryError (Option ExecutionLedger ⊕ RuntimeResult))=r at h
  have hne : ∀ x : Except BoundaryError RuntimeResult,
      (x.map .inr : Except BoundaryError (Option ExecutionLedger ⊕ RuntimeResult))≠.ok (.inl reserved) := by
    intro x hx
    cases x <;> cases hx
  cases h with
  | free h =>
    cases hr
    exact ⟨fun _ h => (by cases h), fun h => absurd rfl h⟩
  | reserved configured effect request inserted =>
    cases hr
    refine ⟨fun ledger hledger => ?_, fun _ => effect⟩
    cases hledger
    have hrequest := reservation_ok request
    rw [← hrequest.nonce, ← hrequest.resultPolicy]
    exact reserve_awaits inserted
  | replayed => exact absurd hr.symm (hne _)
  | unreadable _ => cases hr
  | kept => exact absurd hr.symm (hne _)
  | refused => exact absurd hr.symm (hne _)
  | raised _ => cases hr

theorem perform_ends : Ends (self.perform platform around userTask call a observationId) s fun r t =>
    ∃ news, t.log=s.log++news ∧ Performed self platform around call a observationId s.state news r t.state := by
  unfold perform
  refine ends_lift_bind (fun plan hplan => ?_) fun e _ => ⟨[], (List.append_nil _).symm, .raised⟩
  obtain ⟨-, htarget, -⟩ := Approval.plan_ok (mapError_ok hplan)
  split
  · rename_i hsimulated
    refine (report_ends unjudged).mono ?_
    rintro r t ⟨rfl, htells⟩
    exact ⟨[], (List.append_nil _).symm, .simulated hsimulated htells⟩
  · rename_i hreal
    refine ends_lift_bind (fun policy hpolicy => ?_) fun e _ => ⟨[], (List.append_nil _).symm, .raised⟩
    refine (claim_ends : Ends (self.claim around call a plan policy) s _).bind ?_ ?_
    · rintro claimed u ⟨claims, hlog, hclaimed⟩
      cases claimed with
      | inr result => exact ends_pure ⟨claims, hlog, .unclaimed (r := .ok result) hclaimed⟩
      | inl reserved =>
        obtain ⟨hwait, heffect⟩ := claimed_awaiting hclaimed
        have hran : ∀ {x : Act RuntimeResult}, Ends x u (fun r t => ∃ ds, Dispatches u ds t ∧
            Ran self platform around call a plan reserved observationId u.state ds r t.state) →
            Ends x u fun r t => ∃ news, t.log=s.log++news ∧
              Performed self platform around call a observationId s.state news r t.state := by
          intro x hx
          refine hx.mono ?_
          rintro r t ⟨_, ⟨news, hnews, rfl, hlater⟩, hran⟩
          refine ⟨claims++news, by rw [hnews, hlog, List.append_assoc], ?_⟩
          exact .ran (mapError_ok hplan) hreal (mapError_ok hpolicy) hclaimed hlater hran
        dsimp only
        split
        · rename_i hcontainer
          exact hran (runContainer_ends hwait hcontainer (htarget.trans hcontainer))
        · rename_i hcontainer
          have hdefault : a.target=.default := by
            cases ht : a.target with
            | default => rfl
            | container => exact absurd ht hcontainer
            | simulated => exact absurd (.inl ht) hreal
          exact hran (runTool_ends hwait heffect hdefault fun htool => hreal (.inr ⟨htool, hdefault⟩))
    · rintro e u ⟨claims, hlog, hclaimed⟩
      exact ⟨claims, hlog, .unclaimed (r := .error e) hclaimed⟩

/-- How a call ends, with everything that was asked. -/
inductive Course (self : GuardedExecution crypto) (platform : Platform) (around : Surroundings) (userTask : String)
    (call : ToolCall) (observations : List Observation) (observationId : String) (s : BoundaryState) :
    List Exchange → Except BoundaryError RuntimeResult → BoundaryState → Prop where
  | foreign {result : RuntimeResult} (h : call.taskId≠self.boundTaskId)
      (reports : Reports .block .notDispatched none result) :
      Course self platform around userTask call observations observationId s [] (.ok result) s
  | escalated {result : RuntimeResult} (h : call.taskId=self.boundTaskId) (closed : call.taskId∈s.escalatedTasks)
      (reports : Reports .escalate .notDispatched none result) :
      Course self platform around userTask call observations observationId s [] (.ok result) (s.escalate call.taskId)
  | stopped {consults : List Exchange} {r : Except BoundaryError RuntimeResult} {outcome : EpisodeOutcome}
      (bound : call.taskId=self.boundTaskId) (free : call.taskId∉s.escalatedTasks)
      (quiet : ∀ e∈consults, e.isConsulted = true) (h : outcome=.block ∨ outcome=.escalate)
      (tells : Tells outcome .notDispatched none r) :
      Course self platform around userTask call observations observationId s consults r (s.told call.taskId outcome)
  | raised {consults : List Exchange} {e : BoundaryError} (bound : call.taskId=self.boundTaskId)
      (free : call.taskId∉s.escalatedTasks) (quiet : ∀ e∈consults, e.isConsulted = true) :
      Course self platform around userTask call observations observationId s consults (.error e) s
  | performed {consults news : List Exchange} {a : Approval} {r : Except BoundaryError RuntimeResult}
      {t : BoundaryState} (bound : call.taskId=self.boundTaskId) (free : call.taskId∉s.escalatedTasks)
      (quiet : ∀ e∈consults, e.isConsulted = true)
      (approved : Approved self platform userTask observations (s.executedCalls call.taskId) call a consults)
      (performed : Performed self platform around call a observationId s news r t) :
      Course self platform around userTask call observations observationId s (consults++news) r t

theorem executeCall_ends : Ends (self.executeCall platform around userTask call observations observationId) s
    fun r t => ∃ news, t.log=s.log++news ∧
      Course self platform around userTask call observations observationId s.state news r t.state := by
  unfold executeCall
  split
  · rename_i hforeign
    refine (refusal_ends (.inl rfl)).mono ?_
    rintro r t ⟨rfl, result, rfl, hreports⟩
    exact ⟨[], (List.append_nil _).symm, .foreign hforeign hreports⟩
  · rename_i hbound
    rw [not_not] at hbound
    refine ends_state_bind ?_
    split
    · rename_i hclosed
      refine (refusal_ends (.inr rfl)).mono ?_
      rintro r t ⟨rfl, result, rfl, hreports⟩
      exact ⟨[], (List.append_nil _).symm, .escalated hbound hclosed hreports⟩
    · rename_i hopen
      refine approve_ends.bind ?_ ?_
      · rintro considered u ⟨consults, hlog, hquiet, hconsidered⟩
        generalize hr : (.ok considered : Except BoundaryError (Approval ⊕ RuntimeResult))=r at hconsidered
        generalize hstate : u.state=state at hconsidered
        cases hconsidered with
        | approved happroved =>
          cases hr
          refine perform_ends.mono ?_
          rintro r t ⟨news, hnews, hperformed⟩
          rw [hstate] at hperformed
          exact ⟨consults++news, by rw [hnews, hlog, List.append_assoc],
            .performed hbound hopen hquiet happroved hperformed⟩
        | stopped h tells =>
          rename_i result _
          cases result with
          | error e => cases hr
          | ok result =>
            cases hr
            exact ends_pure ⟨consults, hlog, hstate ▸ .stopped hbound hopen hquiet h tells⟩
        | raised => cases hr
      · rintro e u ⟨consults, hlog, hquiet, hconsidered⟩
        generalize hr : (.error e : Except BoundaryError (Approval ⊕ RuntimeResult))=r at hconsidered
        generalize hstate : u.state=state at hconsidered
        refine ⟨consults, hlog, ?_⟩
        cases hconsidered with
        | approved => cases hr
        | stopped h tells =>
          rename_i result _
          cases result with
          | error e =>
            cases hr
            exact .stopped hbound hopen hquiet h tells
          | ok result => cases hr
        | raised =>
          cases hr
          exact .raised hbound hopen hquiet

end
end GuardedExecution
end TraceGuard
