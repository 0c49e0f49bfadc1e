import TraceGuard.EmbeddedMediation

/-! Traces tell the truth: what a result says of its execution is what happened in the call, and an observation goes to
the agent exactly when the trace says so. -/
namespace TraceGuard
open Raising Stateful Dialogue ExecutionLedger

/-- Whether a dispatch returned. -/
def Exchange.returned : Exchange → Bool
  | .handled _ (.ok _) | .contained _ (.ok _) => true
  | _ => false

/-- A stored result is that of a succeeded row under the same key. -/
structure Found (db : Database) (r : Reservation) (replay : Replay) (row : Execution) : Prop where
  mem : row∈db.executions.rows
  key : sameKey r row = true
  digest : row.digest=r.digest
  scope : row.scope=r.scope
  done : row.status=.succeeded
  accepted : replay.disposition=.acceptedForAgent →
    row.disposition=.acceptedForAgent ∧ row.resultPolicy=r.resultPolicy ∧ replay.result=row.result

theorem replay_found {db next : Database} {r : Reservation} {row : Execution} {found : Replay}
    (mem : row∈db.executions.rows) (key : sameKey r row = true) (h : replay db r row = .ok (some found, next)) :
    Found db r found row := by
  unfold replay at h
  split at h
  · cases h
  rename_i hbound
  obtain ⟨hdigest, hscope⟩ : row.digest=r.digest ∧ row.scope=r.scope := by simpa using hbound
  split at h
  · rename_i hdone
    split at h
    · cases h
      exact ⟨mem, key, hdigest, hscope, hdone, fun ha => (by cases ha)⟩
    · rename_i hstale
      cases h
      refine ⟨mem, key, hdigest, hscope, hdone, fun ha => ?_⟩
      have ha' : row.disposition=.acceptedForAgent := ha
      refine ⟨ha', not_not.mp fun hp => hstale ⟨ha', .inl hp⟩, ?_⟩
      simp [ha']
  · cases h
  · cases h
  · cases h

theorem reserve_found {ledger : ExecutionLedger} {scan : Scan} {db next : Database} {r : Reservation} {found : Replay}
    (h : ledger.reserve scan r db = .ok (some found, next)) : ∃ row, Found db r found row := by
  unfold reserve at h
  obtain ⟨_, -, h⟩ := bind_ok h
  split at h
  · rename_i existing hhead
    obtain ⟨mem, key⟩ := Executions.head_select_some hhead
    exact ⟨existing, replay_found mem key h⟩
  · split at h
    · cases h
    split at h
    · cases h
    obtain ⟨_, -, h⟩ := bind_ok h
    obtain ⟨_, -, h⟩ := bind_ok h
    cases h

namespace GuardedExecution

/-- What a result says of what the call asked, and of what it found in the ledger. -/
structure Truthful {crypto : Crypto} (boundary : GuardedExecution crypto) (around : Surroundings) (s : BoundaryState)
    (call : ToolCall) (news : List Exchange) (result : RuntimeResult) : Prop where
  notDispatched : result.trace.executionStatus=.notDispatched → news.filter Exchange.isDispatched=[]
  dispatched : result.trace.executionStatus=.dispatched →
    ∃ d, news.filter Exchange.isDispatched=[d] ∧ d.returned = true
  unknown : result.trace.executionStatus=.unknown →
    ∃ d, news.filter Exchange.isDispatched=[d] ∧ d.returned = false
  replayed : result.trace.executionStatus=.replayed → news.filter Exchange.isDispatched=[] ∧ ∃ ledger r replay row,
    boundary.effectLedger=some ledger ∧ r.nonce=call.callId ∧
      .ledger (.reserve r) (.ok (.reserved (some replay)))∈news ∧ Found s.database r replay row ∧
      (result.trace.resultReleased = true → replay.disposition=.acceptedForAgent ∧
        ∃ text, row.result=some text ∧ result.observation=around.parse text)
  shown : result.observation.isSome = true ↔ result.trace.resultReleased = true ∨
    result.trace.episodeOutcome=.toolError ∨ result.trace.episodeOutcome=.executionUnknown
  judged : ∀ postRun, result.postRun=some postRun → postRun.disposition≠.acceptResult →
    result.observation=none ∧ result.trace.resultReleased = false

section
variable {crypto : Crypto} {self : GuardedExecution crypto} {platform : Platform} {around : Surroundings}
  {s t : BoundaryState} {call : ToolCall} {a : Approval} {plan : ExecutionPlan} {policy : String}
  {userTask : String} {observations : List Observation} {reserved : Option ExecutionLedger} {observationId : String}
  {news : List Exchange} {r : Except BoundaryError RuntimeResult} {outcome : EpisodeOutcome} {status : ExecutionStatus}
  {observation : Option Observation} {result : RuntimeResult}

/-- What a status means for what was dispatched. -/
def StatusTells : ExecutionStatus → List Exchange → Prop
  | .notDispatched, ds | .replayed, ds => ds=[]
  | .dispatched, ds => ∃ d, ds=[d] ∧ d.returned = true
  | .unknown, ds => ∃ d, ds=[d] ∧ d.returned = false

theorem truthful_of_reports (h : Reports outcome status observation result)
    (htells : StatusTells status (news.filter Exchange.isDispatched))
    (hshown : observation.isSome = outcome.shows)
    (hreplayed : status=.replayed → ∃ ledger r replay row,
      self.effectLedger=some ledger ∧ r.nonce=call.callId ∧
        .ledger (.reserve r) (.ok (.reserved (some replay)))∈news ∧ Found s.database r replay row ∧
        (outcome.released = true → replay.disposition=.acceptedForAgent ∧
          ∃ text, row.result=some text ∧ observation=around.parse text)) :
    self.Truthful around s call news result := by
  obtain ⟨hended, hstatus, hreleased, hobserved, hjudged⟩ := h
  refine {
    notDispatched := fun hs => ?_
    dispatched := fun hs => ?_
    unknown := fun hs => ?_
    replayed := fun hs => ?_
    shown := ?_
    judged := fun postRun hp hd => ?_ }
  · rw [← hstatus, hs] at htells
    exact htells
  · rw [← hstatus, hs] at htells
    exact htells
  · rw [← hstatus, hs] at htells
    exact htells
  · rw [← hstatus, hs] at htells
    rw [hreleased, hobserved]
    exact ⟨htells, hreplayed (hstatus.symm.trans hs)⟩
  · rw [hobserved, hshown, hreleased, hended]
    simp [EpisodeOutcome.shows, or_assoc]
  · have hno : outcome.shows = false := by
      rw [← Bool.not_eq_true]
      exact fun hs => hd ((hjudged postRun hp).mpr hs)
    rw [hobserved, hreleased]
    rw [hno] at hshown
    refine ⟨by simpa using hshown, ?_⟩
    simp only [EpisodeOutcome.shows, Bool.or_eq_false_iff] at hno
    exact hno.1.1

theorem Ran.tells (h : Ran self platform around call a plan reserved observationId s news (.ok result) t) :
    ∃ outcome status observation, Reports outcome status observation result ∧ StatusTells status news ∧
      status≠.replayed ∧ observation.isSome = outcome.shows := by
  generalize hr : (.ok result : Except BoundaryError RuntimeResult)=r at h
  cases h with
  | unsandboxed _ _ tells => exact ⟨_, _, _, tells result hr.symm, rfl, by decide, rfl⟩
  | unavailable _ tells => exact ⟨_, _, _, tells result hr.symm, ⟨_, rfl, rfl⟩, by decide, rfl⟩
  | broken _ => cases hr
  | accepted _ tells => exact ⟨_, _, _, tells result hr.symm, ⟨_, rfl, rfl⟩, by decide, rfl⟩
  | refused _ h tells =>
    refine ⟨_, _, _, tells result hr.symm, ⟨_, rfl, rfl⟩, by decide, ?_⟩
    rcases h with ⟨-, rfl⟩ | ⟨-, rfl⟩ <;> rfl
  | interrupted _ _ => cases hr
  | handled _ tells => exact ⟨_, _, _, tells result hr.symm, ⟨_, rfl, rfl⟩, by decide, rfl⟩
  | @failed _ _ uncertain _ _ _ tells =>
    refine ⟨_, _, _, tells result hr.symm, ⟨_, rfl, rfl⟩, by decide, ?_⟩
    cases uncertain <;> rfl
  | crashed _ _ => cases hr
  | unclear _ _ _ => cases hr

theorem Claimed.truthful (h : Claimed self around call a policy s news (.ok (.inr result)) t)
    (hnonce : a.effective.callId=call.callId) : self.Truthful around s call news result := by
  have hquiet := filter_quiet h.quiet
  generalize hr : (.ok (.inr result) : Except BoundaryError (Option ExecutionLedger ⊕ RuntimeResult))=r at h
  cases h with
  | free _ => cases hr
  | reserved _ _ _ _ => cases hr
  | replayed configured request found accepted stored parsed tells =>
    refine truthful_of_reports (tells result (handed_result hr)) hquiet rfl fun _ => ?_
    obtain ⟨row, hfound⟩ := reserve_found found
    refine ⟨_, _, _, row, configured, (reservation_ok request).nonce.trans hnonce, List.mem_singleton_self _, hfound,
      fun _ => ⟨accepted, _, ?_, parsed.symm⟩⟩
    rw [← (hfound.accepted accepted).2.2, stored]
  | unreadable _ => cases hr
  | @kept ledger r scan replay next outcome _ configured request found h tells =>
    have hhidden : outcome.released = false ∧ outcome.shows = false := by
      rcases h with ⟨-, rfl⟩ | rfl <;> decide
    refine truthful_of_reports (tells result (handed_result hr)) hquiet hhidden.2.symm fun _ => ?_
    obtain ⟨row, hfound⟩ := reserve_found found
    refine ⟨_, _, _, row, configured, (reservation_ok request).nonce.trans hnonce, List.mem_singleton_self _, hfound,
      fun hreleased => ?_⟩
    rw [hhidden.1] at hreleased
    cases hreleased
  | refused _ tells => exact truthful_of_reports (tells result (handed_result hr)) hquiet rfl fun hs => (by cases hs)
  | raised _ => cases hr

/-- What was asked before the claim is no dispatch. -/
theorem Truthful.consulted {consults : List Exchange} (h : self.Truthful around s call news result)
    (hquiet : ∀ e∈consults, e.isConsulted = true) : self.Truthful around s call (consults++news) result := by
  have hfilter : (consults++news).filter Exchange.isDispatched=news.filter Exchange.isDispatched := by
    rw [List.filter_append, filter_quiet fun e he => Exchange.isDispatched_of_consulted (hquiet e he), List.nil_append]
  refine {
    notDispatched := fun hs => hfilter ▸ h.notDispatched hs
    dispatched := fun hs => hfilter ▸ h.dispatched hs
    unknown := fun hs => hfilter ▸ h.unknown hs
    replayed := fun hs => ?_
    shown := h.shown
    judged := h.judged }
  obtain ⟨hnone, ledger, r, replay, row, configured, hnonce, hmem, hrest⟩ := h.replayed hs
  exact ⟨hfilter.trans hnone, ledger, r, replay, row, configured, hnonce, List.mem_append_right _ hmem, hrest⟩

theorem Course.truthful
    (h : Course self platform around userTask call observations observationId s news (.ok result) t) :
    self.Truthful around s call news result := by
  generalize hr : (.ok result : Except BoundaryError RuntimeResult)=r at h
  cases h with
  | foreign _ reports =>
    cases hr
    exact truthful_of_reports reports rfl rfl fun hs => (by cases hs)
  | escalated _ _ reports =>
    cases hr
    exact truthful_of_reports reports rfl rfl fun hs => (by cases hs)
  | stopped _ _ quiet h tells =>
    refine truthful_of_reports (tells result hr.symm)
      (filter_quiet fun e he => Exchange.isDispatched_of_consulted (quiet e he)) ?_ fun hs => (by cases hs)
    rcases h with rfl | rfl <;> rfl
  | raised _ _ _ => cases hr
  | performed _ _ quiet approved performed =>
    refine Truthful.consulted ?_ quiet
    cases performed with
    | raised => cases hr
    | simulated _ tells => exact truthful_of_reports (tells result hr.symm) rfl rfl fun hs => (by cases hs)
    | unclaimed claimed =>
      rw [← hr] at claimed
      exact claimed.truthful approved.keeps.callId
    | ran _ _ _ claimed _ ran =>
      rw [← hr] at ran
      obtain ⟨outcome, status, observation, hreports, htells, hno, hshown⟩ := ran.tells
      refine truthful_of_reports hreports ?_ hshown fun hs => absurd hs hno
      rw [List.filter_append, filter_quiet claimed.quiet, List.nil_append]
      exact htells

/-- Whatever stands behind the boundary, each returned result is truthful. -/
theorem execute_truthful (self : GuardedExecution crypto) (platform : Platform) (around : Surroundings)
    (request : CallRequest) (s : Session BoundaryState Exchange) :
    Ends (self.execute platform around request) s fun r t => ∃ news, t.log=s.log++news ∧
      ∀ result, r = .ok result → self.Truthful around s.state request.call news result := by
  refine executeCall_ends.mono ?_
  rintro r t ⟨news, hlog, hcourse⟩
  refine ⟨news, hlog, ?_⟩
  rintro result rfl
  exact hcourse.truthful

end
end GuardedExecution
end TraceGuard
