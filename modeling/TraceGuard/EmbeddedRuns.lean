import TraceGuard.EmbeddedClaims

/-! Runs of approved calls by a tool or in a container, with the outcome that their reservation gets. -/
namespace TraceGuard
open Raising Stateful Dialogue ExecutionLedger

namespace GuardedExecution
section
variable {crypto : Crypto} {self : GuardedExecution crypto} {platform : Platform} {around : Surroundings}
  {s : Session BoundaryState Exchange} {call : ToolCall} {a : Approval} {plan : ExecutionPlan} {policy : String}
  {userTask : String} {observations : List Observation}

/-- The row of a reservation, if there is one, has its outcome. -/
def settled (s : BoundaryState) (reserved : Option ExecutionLedger) (nonce : String) (o : Outcome) : BoundaryState :=
  match reserved with
  | none => s
  | some _ => { s with database := s.database.setOutcome nonce o }

theorem settled_again (s : BoundaryState) (reserved : Option ExecutionLedger) (nonce : String) (o o' : Outcome) :
    settled (settled s reserved nonce o) reserved nonce o'=settled s reserved nonce o' := by
  cases reserved with
  | none => rfl
  | some ledger =>
    have hrows : (s.database.executions.setOutcome nonce o).setOutcome nonce o'=
        s.database.executions.setOutcome nonce o' := by
      refine Executions.ext_rows ?_
      simp only [Executions.setOutcome_rows, List.map_map]
      refine List.map_congr_left fun row _ => ?_
      by_cases hn : row.nonce=nonce <;> simp [Execution.set, hn]
    simp only [settled, Database.setOutcome, hrows]

theorem settled_append (s : BoundaryState) (reserved : Option ExecutionLedger) (nonce taskId : String) (o : Outcome)
    (call : ToolCall) : (settled s reserved nonce o).append taskId call=settled (s.append taskId call) reserved nonce o := by
  cases reserved <;> rfl

/-- A result of the reservation that waits for its first review. -/
def Reviewable (reserved : Option ExecutionLedger) (nonce policy text : String) (db : Database) : Prop :=
  ∀ ledger, reserved=some ledger → ledger.connection db = .ok () ∧ ∃ row∈db.executions.rows, row.nonce=nonce ∧
    row.status=.succeeded ∧ row.disposition=.pendingReview ∧ row.resultPolicy=policy ∧ row.result=some text

def Awaiting (reserved : Option ExecutionLedger) (nonce policy : String) (db : Database) : Prop :=
  ∀ ledger, reserved=some ledger → Awaits ledger nonce policy db

theorem awaiting_reviewable {reserved : Option ExecutionLedger} {nonce text : String} (state : BoundaryState)
    (h : Awaiting reserved nonce policy state.database) : Reviewable reserved nonce policy text
      (settled state reserved nonce ⟨.succeeded, some text, .pendingReview⟩).database := by
  rintro ledger rfl
  obtain ⟨hopens, row, mem, hnonce, -, hpolicy⟩ := h ledger rfl
  refine ⟨hopens, row.set ⟨.succeeded, some text, .pendingReview⟩, ?_, hnonce, rfl, rfl, hpolicy, rfl⟩
  exact (Executions.mem_setOutcome ..).mpr ⟨row, mem, by rw [if_pos hnonce]⟩

/-- A later transaction only adds itself to the log. -/
theorem settle_ends_bind {β : Type} {f : Unit → Act β} {q : Except BoundaryError β → Session BoundaryState Exchange → Prop}
    {reserved : Option ExecutionLedger} {c : ExecutionLedger.Call} {nonce : String} {o : Outcome}
    (later : ∀ answer, (Exchange.ledger c answer).isClaim = false)
    (h : ∀ ledger, reserved=some ledger → ∃ reply,
      ledger.exec (around.scan s.log) s.state.database c = .ok (reply, s.state.database.setOutcome nonce o))
    (ends : ∀ u, u.state=settled s.state reserved nonce o → Dispatches s [] u → Ends (f ()) u q) :
    Ends (settle around reserved c >>= f) s q := by
  have hsettle : Ends (settle around reserved c) s fun r t => r = .ok () ∧ t.state=settled s.state reserved nonce o ∧
      Dispatches s [] t := by
    unfold Ends outcome settle
    cases reserved with
    | none => exact ⟨rfl, rfl, .refl rfl⟩
    | some ledger =>
      obtain ⟨reply, hreply⟩ := h ledger rfl
      dsimp only
      rw [hreply]
      exact ⟨rfl, rfl, .one (later _)⟩
  refine hsettle.bind ?_ ?_
  · rintro ⟨⟩ u ⟨-, hstate, hlog⟩
    exact ends u hstate hlog
  · rintro e u ⟨he, -⟩
    cases he

theorem finish_ends_bind {β : Type} {f : Unit → Act β} {q : Except BoundaryError β → Session BoundaryState Exchange → Prop}
    {reserved : Option ExecutionLedger} {nonce : String} {status : Status} {text : Option String}
    {disposition : Disposition} (h : Awaiting reserved nonce policy s.state.database)
    (valid : status≠.pending ∧ (disposition=.acceptedForAgent → status=.succeeded ∧ text≠none))
    (ends : ∀ u, u.state=settled s.state reserved nonce ⟨status, text, disposition⟩ → Dispatches s [] u →
      Ends (f ()) u q) :
    Ends (settle around reserved (.finish nonce status text disposition) >>= f) s q := by
  refine settle_ends_bind (fun _ => rfl) (fun ledger hledger => ⟨.done, ?_⟩) ends
  rw [exec, finish_awaits (h ledger hledger) valid.1 valid.2]
  rfl

theorem decide_ends_bind {β : Type} {f : Unit → Act β} {q : Except BoundaryError β → Session BoundaryState Exchange → Prop}
    {reserved : Option ExecutionLedger} {nonce text : String} {disposition : Disposition}
    (h : Reviewable reserved nonce policy text s.state.database) (hfirst : disposition≠.pendingReview)
    (ends : ∀ u, u.state=settled s.state reserved nonce ⟨.succeeded, some text, disposition⟩ → Dispatches s [] u →
      Ends (f ()) u q) :
    Ends (settle around reserved (.decideResult nonce disposition policy) >>= f) s q := by
  refine settle_ends_bind (fun _ => rfl) (fun ledger hledger => ⟨.done, ?_⟩) ends
  obtain ⟨hopens, row, mem, rfl, hdone, hwait, rfl, hresult⟩ := h ledger hledger
  have hdecide := decideResult_reviewed hopens mem hdone hwait (by simp [hresult]) hfirst
  rw [hresult] at hdecide
  rw [exec, hdecide]
  rfl

/-- How an approved call that may be run ends, with what was dispatched. -/
inductive Ran (self : GuardedExecution crypto) (platform : Platform) (around : Surroundings) (call : ToolCall)
    (a : Approval) (plan : ExecutionPlan) (reserved : Option ExecutionLedger) (observationId : String)
    (s : BoundaryState) : List Exchange → Except BoundaryError RuntimeResult → BoundaryState → Prop where
  | unsandboxed {r : Except BoundaryError RuntimeResult} (target : a.target=.container) (no : self.sandboxed = false)
      (tells : Tells .escalate .notDispatched none r) :
      Ran self platform around call a plan reserved observationId s [] r
        ((settled s reserved a.effective.callId ⟨.notDispatched, none, .reviewRequired⟩).escalate call.taskId)
  | unavailable {r : Except BoundaryError RuntimeResult} (target : a.target=.container)
      (tells : Tells .escalate .unknown none r) :
      Ran self platform around call a plan reserved observationId s [.contained plan (.error .unavailable)] r
        ((settled s reserved a.effective.callId ⟨.unknown, none, .reviewRequired⟩).escalate call.taskId)
  | broken {e : Raised} (target : a.target=.container) :
      Ran self platform around call a plan reserved observationId s [.contained plan (.error (.raised e))]
        (.error (.foreign e)) s
  | accepted {r : Except BoundaryError RuntimeResult} {evidence : SandboxEvidence} (target : a.target=.container)
      (tells : Tells .executedContainer .dispatched (some (evidenced around call evidence observationId)) r) :
      Ran self platform around call a plan reserved observationId s [.contained plan (.ok evidence)] r
        (settled (s.append call.taskId a.effective) reserved a.effective.callId ⟨.succeeded,
          some (receipt platform around (evidenced around call evidence observationId)), .acceptedForAgent⟩)
  | refused {r : Except BoundaryError RuntimeResult} {evidence : SandboxEvidence} {disposition : Disposition}
      {outcome : EpisodeOutcome} (target : a.target=.container)
      (h : disposition=.withheld ∧ outcome=.blockResult ∨ disposition=.reviewRequired ∧ outcome=.escalate)
      (tells : Tells outcome .dispatched none r) :
      Ran self platform around call a plan reserved observationId s [.contained plan (.ok evidence)] r
        ((settled (s.append call.taskId a.effective) reserved a.effective.callId ⟨.succeeded,
          some (receipt platform around (evidenced around call evidence observationId)), disposition⟩).told call.taskId
          outcome)
  | interrupted {e : BoundaryError} {evidence : SandboxEvidence} {disposition : Disposition}
      (target : a.target=.container) (h : disposition=.pendingReview ∨ disposition=.withheld) :
      Ran self platform around call a plan reserved observationId s [.contained plan (.ok evidence)] (.error e)
        (settled (s.append call.taskId a.effective) reserved a.effective.callId ⟨.succeeded,
          some (receipt platform around (evidenced around call evidence observationId)), disposition⟩)
  | handled {r : Except BoundaryError RuntimeResult} {observation : Observation} (target : a.target=.default)
      (tells : Tells .executed .dispatched (some observation) r) :
      Ran self platform around call a plan reserved observationId s [.handled a.effective (.ok observation)] r
        (settled (s.append call.taskId a.effective) reserved a.effective.callId ⟨.succeeded,
          some (receipt platform around observation), .acceptedForAgent⟩)
  | failed {r : Except BoundaryError RuntimeResult} {e : Raised} {uncertain : Bool} (target : a.target=.default)
      (expected : e.kind=.expected) (effect : consequential a.effective = .ok uncertain)
      (tells : Tells (if uncertain then .executionUnknown else .toolError) .unknown
        (some (GuardedExecution.failed platform call uncertain e observationId)) r) :
      Ran self platform around call a plan reserved observationId s [.handled a.effective (.error e)] r
        (let ended := settled s reserved a.effective.callId ⟨.unknown, none, .reviewRequired⟩
          if uncertain then (ended.append call.taskId a.effective).escalate call.taskId else ended)
  | crashed {e : Raised} (target : a.target=.default) (unexpected : e.kind≠.expected) :
      Ran self platform around call a plan reserved observationId s [.handled a.effective (.error e)]
        (.error (.foreign e)) (settled s reserved a.effective.callId ⟨.unknown, none, .reviewRequired⟩)
  | unclear {e : Raised} {err : PyError} (target : a.target=.default)
      (effect : consequential a.effective = .error err) (no : reserved=none) :
      Ran self platform around call a plan reserved observationId s [.handled a.effective (.error e)]
        (.error (.policy err)) s

variable {reserved : Option ExecutionLedger} {observationId : String}

theorem runTool_ends (hwait : Awaiting reserved a.effective.callId policy s.state.database)
    (hclaimed : reserved≠none → consequential a.effective = .ok true) (htarget : a.target=.default)
    (hplain : a.effective.toolName≠"restricted_command") :
    Ends (self.runTool platform around call a plan reserved observationId) s fun r t => ∃ ds, Dispatches s ds t ∧
      Ran self platform around call a plan reserved observationId s.state ds r t.state := by
  unfold runTool
  dsimp only
  refine ends_inquire_bind ?_
  have hlog : ∀ answer, Dispatches s [.handled a.effective answer]
      ⟨s.state, s.log++[.handled a.effective answer]⟩ := fun answer => .one rfl
  cases hanswer : around.tools s.log a.effective with
  | error e =>
    dsimp only
    split
    · rename_i hexpected
      refine ends_lift_bind (fun uncertain heffect => ?_) fun err herr => ?_
      · refine finish_ends_bind hwait ⟨by decide, by simp⟩ fun u hstate hsettled => ?_
        have hdispatched := (hlog (.error e)).trans hsettled
        have hended : ∀ {r t}, Tells (if uncertain then .executionUnknown else .toolError) .unknown
            (some (failed platform call uncertain e observationId)) r → t=(if uncertain then
              (u.state.append call.taskId a.effective).escalate call.taskId else u.state) →
            Ran self platform around call a plan reserved observationId s.state [.handled a.effective (.error e)] r t := by
          rintro r t htells rfl
          rw [hstate]
          exact .failed htarget hexpected (mapError_ok heffect) htells
        cases uncertain with
        | true =>
          refine ends_update_bind ((report_ends unjudged).mono ?_)
          rintro r t ⟨rfl, htells⟩
          exact ⟨_, hdispatched.trans (.refl rfl), hended htells rfl⟩
        | false =>
          refine (report_ends unjudged).mono ?_
          rintro r t ⟨rfl, htells⟩
          exact ⟨_, hdispatched.trans (.refl rfl), hended htells rfl⟩
      · refine ⟨_, hlog (.error e), ?_⟩
        cases reserved with
        | none =>
          cases hc : consequential a.effective with
          | ok _ =>
            rw [hc] at herr
            cases herr
          | error err' =>
            rw [hc] at herr
            cases herr
            exact .unclear htarget hc rfl
        | some ledger =>
          rw [hclaimed (by simp)] at herr
          cases herr
    · rename_i hunexpected
      refine finish_ends_bind hwait ⟨by decide, by simp⟩ fun u hstate hsettled => ?_
      refine ends_throw ⟨_, (hlog (.error e)).trans hsettled, ?_⟩
      rw [hstate]
      exact .crashed htarget hunexpected
  | ok observation =>
    refine finish_ends_bind hwait ⟨by decide, by simp⟩ fun u hstate hsettled => ?_
    refine ends_update_bind ?_
    rw [if_neg (by simp [hplain, htarget])]
    refine (report_ends unjudged).mono ?_
    rintro r t ⟨rfl, htells⟩
    refine ⟨_, ((hlog (.ok observation)).trans hsettled).trans (.refl rfl), ?_⟩
    dsimp only [BoundaryState.told]
    rw [if_neg (by decide), hstate, settled_append]
    exact .handled htarget htells

/-- A review asks at most the supervisor, and only an exit leaves the boundary. -/
theorem review_ends {evidence : SandboxEvidence} : Ends (self.review around userTask call evidence) s fun _ t =>
    t.state=s.state ∧ Dispatches s [] t := by
  unfold review
  split
  · exact ⟨rfl, .refl rfl⟩
  · refine ends_inquire_bind ?_
    split
    · exact ⟨rfl, .one rfl⟩
    · split
      · exact ⟨rfl, .one rfl⟩
      · exact ⟨rfl, .one rfl⟩

theorem discard_ends {evidence : SandboxEvidence} {postRun : PostRunAssessment} :
    Ends (discard around postRun evidence) s fun r t => t.state=s.state ∧ Dispatches s [] t ∧
      ∀ e, r = .error e → postRun.disposition=.blockResult := by
  unfold discard
  split
  · rename_i hblock _
    refine ends_inquire_bind ?_
    split
    · exact ⟨rfl, .one rfl, fun _ _ => hblock⟩
    · exact ⟨rfl, .one rfl, fun _ _ => hblock⟩
  · exact ⟨rfl, .refl rfl, fun e h => (by cases h)⟩

/-- What is reported of a result that its review does not accept. -/
theorem refuse_ends {evidence : SandboxEvidence} {observation : Observation} {postRun : PostRunAssessment}
    (htarget : plan.target=.container) (hrefused : postRun.disposition≠.acceptResult) : Ends (self.refuse around call a plan evidence observation postRun) s fun r t =>
      Dispatches s [] t ∧ (postRun.disposition=.blockResult ∧ (∃ e, r = .error e) ∧ t.state=s.state ∨
        ∃ outcome, outcome=(if postRun.disposition=.blockResult then EpisodeOutcome.blockResult else .escalate) ∧
          t.state=s.state.told call.taskId outcome ∧ Tells outcome .dispatched none r) := by
  unfold refuse
  refine discard_ends.bind ?_ ?_
  · rintro ⟨⟩ u ⟨hstate, hlog, -⟩
    refine (report_ends fun p hp => ?_).mono ?_
    · cases hp
      refine ⟨fun h => absurd h hrefused, fun h => ?_⟩
      split at h <;> cases h
    rintro r t ⟨rfl, htells⟩
    refine ⟨hlog.trans (.refl rfl), .inr ⟨_, rfl, by rw [← hstate], ?_⟩⟩
    have hstatus : statusOf (if postRun.disposition=.blockResult then .blockResult else .escalate) (some plan)
        (some observation)=.dispatched := by
      split <;> simp [statusOf, htarget]
    rwa [Option.getD_none, hstatus] at htells
  · rintro e u ⟨hstate, hlog, hblock⟩
    exact ⟨hlog, .inl ⟨hblock e rfl, ⟨e, rfl⟩, hstate⟩⟩

theorem runContainer_ends (hwait : Awaiting reserved a.effective.callId policy s.state.database)
    (htarget : a.target=.container) (hplan : plan.target=.container) :
    Ends (self.runContainer platform around userTask call a plan reserved policy observationId) s fun r t =>
      ∃ ds, Dispatches s ds t ∧ Ran self platform around call a plan reserved observationId s.state ds r t.state := by
  unfold runContainer
  dsimp only
  split
  · rename_i hno
    refine finish_ends_bind hwait ⟨by decide, by simp⟩ fun u hstate hsettled => ?_
    refine withhold_ends.mono ?_
    rintro r t ⟨rfl, htells⟩
    rw [Option.getD_none, statusOf_escalate] at htells
    refine ⟨_, hsettled.trans (.refl rfl), ?_⟩
    rw [hstate]
    exact .unsandboxed htarget (by simpa using hno) htells
  · refine ends_inquire_bind ?_
    have hlog : ∀ answer, Dispatches s [.contained plan answer] ⟨s.state, s.log++[.contained plan answer]⟩ :=
      fun answer => .one rfl
    cases hanswer : around.sandbox s.log plan with
    | error e =>
      cases e with
      | unavailable =>
        refine finish_ends_bind hwait ⟨by decide, by simp⟩ fun u hstate hsettled => ?_
        refine withhold_ends.mono ?_
        rintro r t ⟨rfl, htells⟩
        refine ⟨_, ((hlog _).trans hsettled).trans (.refl rfl), ?_⟩
        rw [hstate]
        exact .unavailable htarget htells
      | raised e => exact ends_throw ⟨_, hlog _, .broken htarget⟩
    | ok evidence =>
      refine ends_update_bind ?_
      have hwait' : Awaiting reserved a.effective.callId policy (s.state.append call.taskId a.effective).database := hwait
      refine finish_ends_bind hwait' ⟨by decide, fun _ => ⟨rfl, by simp⟩⟩
        fun u hstate hsettled => ?_
      have hrun := (hlog (.ok evidence)).trans hsettled
      have haccepted : ∀ {v : Session BoundaryState Exchange} {postRun : Option PostRunAssessment},
          (∀ p, postRun=some p → p.disposition=.acceptResult) → Dispatches s [.contained plan (.ok evidence)] v →
          v.state=settled (s.state.append call.taskId a.effective) reserved a.effective.callId ⟨.succeeded,
            some (receipt platform around (evidenced around call evidence observationId)), .acceptedForAgent⟩ →
          Ends (self.report call a.effective a.outputs plan (some (evidenced around call evidence observationId))
            .executedContainer (some (evidenced around call evidence observationId)) postRun) v fun r t =>
            ∃ ds, Dispatches s ds t ∧ Ran self platform around call a plan reserved observationId s.state ds r t.state := by
        intro v postRun haccept hv hvstate
        refine (report_ends fun p hp => iff_of_true (haccept p hp) rfl).mono ?_
        rintro r t ⟨rfl, htells⟩
        refine ⟨_, hv.trans (.refl rfl), ?_⟩
        dsimp only [BoundaryState.told]
        rw [if_neg (by decide), hvstate]
        exact .accepted htarget htells
      split
      · rename_i hpost
        rw [if_pos hpost] at hstate
        have hreviewable : Reviewable reserved a.effective.callId policy
            (receipt platform around (evidenced around call evidence observationId)) u.state.database := by
          rw [hstate]
          exact awaiting_reviewable (s.state.append call.taskId a.effective) hwait
        refine review_ends.bind ?_ ?_
        · rintro assessment v ⟨hv, hreview⟩
          rw [← hv] at hreviewable
          have hreviewed := hrun.trans hreview
          cases assessment with
          | none =>
            refine decide_ends_bind hreviewable (by decide) fun w hw hdecided => ?_
            refine (report_ends unjudged).mono ?_
            rintro r t ⟨rfl, htells⟩
            refine ⟨_, (hreviewed.trans hdecided).trans (.refl rfl), ?_⟩
            rw [hw, hv, hstate, settled_again]
            exact .refused htarget (.inr ⟨rfl, rfl⟩) htells
          | some postRun =>
            have hfirst : postRun.disposition.stored≠.pendingReview := by
              cases postRun.disposition <;> decide
            refine decide_ends_bind hreviewable hfirst fun w hw hdecided => ?_
            rw [hv, hstate, settled_again] at hw
            have hdecision := hreviewed.trans hdecided
            split
            · rename_i haccept
              rw [haccept] at hw
              exact haccepted (fun p hp => Option.some.inj hp ▸ haccept) hdecision hw
            · rename_i haccept
              refine (refuse_ends hplan haccept).mono ?_
              rintro r t ⟨hrefused, hblocked | htold⟩
              · obtain ⟨hblock, ⟨e, rfl⟩, ht⟩ := hblocked
                refine ⟨_, hdecision.trans hrefused, ?_⟩
                rw [ht, hw, hblock]
                exact .interrupted htarget (.inr rfl)
              · obtain ⟨outcome, houtcome, ht, htells⟩ := htold
                refine ⟨_, hdecision.trans hrefused, ?_⟩
                rw [ht, hw]
                refine .refused htarget ?_ htells
                cases hd : postRun.disposition with
                | acceptResult => exact absurd hd haccept
                | blockResult =>
                  rw [hd] at houtcome
                  exact .inl ⟨rfl, houtcome⟩
                | escalate | rewriteAndRetry =>
                  rw [hd] at houtcome
                  exact .inr ⟨rfl, houtcome⟩
        · rintro e v ⟨hv, hreview⟩
          refine ⟨_, hrun.trans hreview, ?_⟩
          rw [hv, hstate]
          exact .interrupted htarget (.inl rfl)
      · rename_i hpost
        rw [if_neg hpost] at hstate
        exact haccepted (fun p hp => (by cases hp)) hrun hstate

end
end GuardedExecution
end TraceGuard
