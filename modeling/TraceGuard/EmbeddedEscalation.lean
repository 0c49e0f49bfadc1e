import TraceGuard.EmbeddedMediation

/-! An escalation is terminal: once a call ends in a review or in an unknown effect, the boundary neither asks nor runs
anything for its task again, whatever is requested. -/
namespace TraceGuard
open Raising Stateful Dialogue ExecutionLedger

namespace BoundaryState

theorem mem_escalate (s : BoundaryState) (taskId : String) : taskId∈(s.escalate taskId).escalatedTasks :=
  List.mem_cons_self

theorem told_escalated {s : BoundaryState} {taskId : String} {outcome : EpisodeOutcome} (h : outcome=.escalate) :
    taskId∈(s.told taskId outcome).escalatedTasks := by
  subst h
  exact s.mem_escalate taskId

end BoundaryState

/-- Outcomes after which the task is left to an operator. -/
def EpisodeOutcome.closes (outcome : EpisodeOutcome) : Bool := outcome=.escalate || outcome=.executionUnknown

namespace GuardedExecution
section
variable {crypto : Crypto} {self : GuardedExecution crypto} {platform : Platform} {around : Surroundings}
  {s t : BoundaryState} {call : ToolCall} {a : Approval} {plan : ExecutionPlan} {policy : String}
  {userTask : String} {observations : List Observation} {reserved : Option ExecutionLedger} {observationId : String}
  {news : List Exchange} {result : RuntimeResult}

theorem closes_reports {outcome : EpisodeOutcome} {status : ExecutionStatus} {observation : Option Observation}
    (h : Reports outcome status observation result) (hclose : result.trace.episodeOutcome.closes = true) :
    outcome=.escalate ∨ outcome=.executionUnknown := by
  rw [h.ended] at hclose
  simpa [EpisodeOutcome.closes] using hclose

theorem Ran.closes (h : Ran self platform around call a plan reserved observationId s news (.ok result) t)
    (hclose : result.trace.episodeOutcome.closes = true) : call.taskId∈t.escalatedTasks := by
  generalize hr : (.ok result : Except BoundaryError RuntimeResult)=r at h
  cases h with
  | unsandboxed _ _ _ => exact BoundaryState.mem_escalate ..
  | unavailable _ _ => exact BoundaryState.mem_escalate ..
  | broken _ => cases hr
  | accepted _ tells => rcases closes_reports (tells result hr.symm) hclose with h | h <;> cases h
  | refused _ h tells =>
    refine BoundaryState.told_escalated ((closes_reports (tells result hr.symm) hclose).resolve_right fun hunknown => ?_)
    rcases h with ⟨-, ho⟩ | ⟨-, ho⟩
    · cases ho.symm.trans hunknown
    · cases ho.symm.trans hunknown
  | interrupted _ _ => cases hr
  | handled _ tells => rcases closes_reports (tells result hr.symm) hclose with h | h <;> cases h
  | @failed _ _ uncertain _ _ _ tells =>
    cases uncertain with
    | true => exact BoundaryState.mem_escalate ..
    | false => rcases closes_reports (tells result hr.symm) hclose with h | h <;> cases h
  | crashed _ _ => cases hr
  | unclear _ _ _ => cases hr

theorem Claimed.closes (h : Claimed self around call a policy s news (.ok (.inr result)) t)
    (hclose : result.trace.episodeOutcome.closes = true) : call.taskId∈t.escalatedTasks := by
  generalize hr : (.ok (.inr result) : Except BoundaryError (Option ExecutionLedger ⊕ RuntimeResult))=r at h
  cases h with
  | free _ => cases hr
  | reserved _ _ _ _ => cases hr
  | replayed _ _ _ _ _ _ tells =>
    rcases closes_reports (tells result (handed_result hr)) hclose with h | h <;> cases h
  | unreadable _ => cases hr
  | kept _ _ _ h tells =>
    refine BoundaryState.told_escalated
      ((closes_reports (tells result (handed_result hr)) hclose).resolve_right fun hunknown => ?_)
    rcases h with ⟨-, ho⟩ | ho
    · cases ho.symm.trans hunknown
    · cases ho.symm.trans hunknown
  | refused _ _ => exact BoundaryState.mem_escalate ..
  | raised _ => cases hr

/-- A call that ends so leaves its task escalated. -/
theorem Course.closes (h : Course self platform around userTask call observations observationId s news (.ok result) t)
    (hclose : result.trace.episodeOutcome.closes = true) : self.boundTaskId∈t.escalatedTasks := by
  generalize hr : (.ok result : Except BoundaryError RuntimeResult)=r at h
  cases h with
  | foreign _ reports =>
    cases hr
    rcases closes_reports reports hclose with h | h <;> cases h
  | escalated bound _ _ =>
    rw [← bound]
    exact BoundaryState.mem_escalate ..
  | stopped bound _ _ h tells =>
    rw [← bound]
    refine BoundaryState.told_escalated ((closes_reports (tells result hr.symm) hclose).resolve_right fun hunknown => ?_)
    rcases h with ho | ho
    · cases ho.symm.trans hunknown
    · cases ho.symm.trans hunknown
  | raised _ _ _ => cases hr
  | performed bound _ _ _ performed =>
    rw [← bound]
    cases performed with
    | raised => cases hr
    | simulated _ tells => rcases closes_reports (tells result hr.symm) hclose with h | h <;> cases h
    | unclaimed claimed =>
      rw [← hr] at claimed
      exact claimed.closes hclose
    | ran _ _ _ _ _ ran =>
      rw [← hr] at ran
      exact ran.closes hclose

/-- A call that is refused without asking anyone. -/
def Refuses (r : Except BoundaryError RuntimeResult) : Prop :=
  ∃ result outcome, r = .ok result ∧ (outcome=.block ∨ outcome=.escalate) ∧ Reports outcome .notDispatched none result

/-- On an escalated task nothing is asked, and nothing of it changes. -/
theorem Course.closed {r : Except BoundaryError RuntimeResult}
    (h : Course self platform around userTask call observations observationId s news r t)
    (hclosed : self.boundTaskId∈s.escalatedTasks) :
    news=[] ∧ Refuses r ∧ t.database=s.database ∧ self.boundTaskId∈t.escalatedTasks := by
  have hnot : ∀ {p : Prop}, call.taskId=self.boundTaskId → call.taskId∉s.escalatedTasks → p := fun bound free =>
    absurd (bound ▸ hclosed) free
  cases h with
  | foreign _ reports => exact ⟨rfl, ⟨_, _, rfl, .inl rfl, reports⟩, rfl, hclosed⟩
  | escalated bound _ reports =>
    exact ⟨rfl, ⟨_, _, rfl, .inr rfl, reports⟩, rfl, List.mem_cons_of_mem _ hclosed⟩
  | stopped bound free _ _ _ => exact hnot bound free
  | raised bound free _ => exact hnot bound free
  | performed bound free _ _ _ => exact hnot bound free

/-- After a result that closes its task, every later call of the boundary is refused. -/
theorem execute_closes (self : GuardedExecution crypto) (platform : Platform) (around : Surroundings)
    (request : CallRequest) (s : Session BoundaryState Exchange) :
    Ends (self.execute platform around request) s fun r t => ∀ result, r = .ok result →
      result.trace.episodeOutcome.closes = true → ∀ later,
        (∀ r∈(serial (self.execute platform around) later t).1, Refuses r) ∧
          (serial (self.execute platform around) later t).2.log=t.log ∧
          (serial (self.execute platform around) later t).2.state.database=t.state.database := by
  refine executeCall_ends.mono ?_
  rintro r t ⟨news, hlog, hcourse⟩
  rintro result rfl hclose later
  have hrun := serial_results (f := self.execute platform around) (q := Refuses)
    (p := fun u : Session BoundaryState Exchange => u.log=t.log ∧ u.state.database=t.state.database ∧
      self.boundTaskId∈u.state.escalatedTasks)
    (fun request u hu => executeCall_ends.mono fun r v hv => ?_) later ⟨rfl, rfl, hcourse.closes hclose⟩
  · exact ⟨hrun.1, hrun.2.1, hrun.2.2.1⟩
  · obtain ⟨hulog, hudatabase, hclosed⟩ := hu
    obtain ⟨more, hmore, hcourse'⟩ := hv
    obtain ⟨rfl, hrefuses, hdatabase, hstill⟩ := hcourse'.closed hclosed
    rw [List.append_nil] at hmore
    exact ⟨hrefuses, hmore.trans hulog, hdatabase.trans hudatabase, hstill⟩

end
end GuardedExecution
end TraceGuard
