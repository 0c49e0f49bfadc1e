import TraceGuard.ControlChanges

/-! Runs of the control plane's and the execution authority's operations, in any order and by any
actors, and the changes that each operation makes. -/
namespace TraceGuard
open Stateful Traces ControlPlane ExecutionAuthority

inductive ControlRequest where
  | revokeCredential (tenant : String) (actor : Actor) (credentialId : String)
  | suspendTenant (tenant : String) (actor : Actor) (suspended : Bool)
  | createDraft (tenant : String) (actor : Actor) (draft : PolicyDraft)
  | submitPolicy (tenant : String) (actor : Actor) (policyId : String)
  | approvePolicy (tenant : String) (actor : Actor) (policyId : String)
  | rollback (tenant : String) (actor : Actor) (policyId : String)
  | evaluate (actor : Actor) (action : ActionRequest)
  | resolveReview (tenant : String) (actor : Actor) (reviewId : String)
      (resolution : ReviewResolution) (reason : String)
  | register (tenant : String) (actor : Actor) (registration : TaskRegistration)
  | bindLegacyDomain (tenant : String) (actor : Actor) (taskId domain : String) (fenced : Bool)
  | issue (authority : ExecutionAuthority) (actor : Actor) (action : ActionRequest)
      (audience : String) (reviewId : Option String)
  | validate (authority : ExecutionAuthority) (executor : Actor) (action : ActionRequest)
      (grant : ExecutionGrant)

inductive ControlResponse where
  | done
  | policy (policy : PolicyVersion)
  | decided (decision : DecisionResponse)
  | reviewed (review : Review)
  | digest (digest : String)
  | granted (grant : ExecutionGrant)

abbrev ControlEvent : Type := ControlRequest × Except ServiceError ControlResponse

section
variable (world : World)

def serve : ControlRequest → Operation ControlResponse
  | .revokeCredential tenant actor credentialId =>
    (fun _ => .done) <$> revokeCredential world tenant actor credentialId
  | .suspendTenant tenant actor suspended =>
    (fun _ => .done) <$> suspendTenant world tenant actor suspended
  | .createDraft tenant actor draft => .policy <$> createDraft world tenant actor draft
  | .submitPolicy tenant actor policyId => .policy <$> submitPolicy world tenant actor policyId
  | .approvePolicy tenant actor policyId => .policy <$> approvePolicy world tenant actor policyId
  | .rollback tenant actor policyId => .policy <$> rollback world tenant actor policyId
  | .evaluate actor action => .decided <$> ControlPlane.evaluate world actor action
  | .resolveReview tenant actor reviewId resolution reason =>
    .reviewed <$> resolveReview world tenant actor reviewId resolution reason
  | .register tenant actor registration => .digest <$> register world tenant actor registration
  | .bindLegacyDomain tenant actor taskId domain fenced =>
    (fun _ => .done) <$> bindLegacyDomain world tenant actor taskId domain fenced
  | .issue authority actor action audience reviewId =>
    .granted <$> authority.issue world actor action audience reviewId
  | .validate authority executor action grant =>
    (fun _ => .done) <$> authority.validate world executor action grant

/-- One operation, with what it returned or raised. -/
def ControlStep (m : Machine) (e : ControlEvent) (m' : Machine) : Prop :=
  outcome (serve world e.1) m = (e.2, m')

abbrev ControlRun : Machine → List ControlEvent → Machine → Prop := Run (ControlStep world)

end

/-- The changes of an evaluation. -/
inductive Evaluated : Except ServiceError DecisionResponse → List Mark → Prop
  | refused {e : ServiceError} : Evaluated (.error e) []
  | replayed {r : Except ServiceError DecisionResponse} : Evaluated r [.drew]
  | decided {d : DecisionResponse} {event : AuditEvent} {key : List String}
      {receipt : DecisionReceipt} : Evaluated (.ok d) [.recorded event, .received key receipt]
  | escalated {d : DecisionResponse} {event event' : AuditEvent} {review : Review}
      {key : List String} {receipt : DecisionReceipt} :
      Evaluated (.ok d) [.recorded event, .opened review, .recorded event', .received key receipt]
  | stopped {e : ServiceError} {event : AuditEvent} : Evaluated (.error e) [.recorded event, .drew]

/-- The changes of an operation. -/
inductive Emits : ControlRequest → Except ServiceError ControlResponse → List Mark → Prop
  | refused {q : ControlRequest} {e : ServiceError} : Emits q (.error e) []
  | late {q : ControlRequest} {e : ServiceError} : Emits q (.error e) [.drew]
  | revoked {tenant credentialId : String} {actor : Actor} {event : AuditEvent} :
      Emits (.revokeCredential tenant actor credentialId) (.ok .done)
        [.revoked actor tenant credentialId, .recorded event]
  | suspension {tenant : String} {actor : Actor} {suspended : Bool} {event : AuditEvent} :
      Emits (.suspendTenant tenant actor suspended) (.ok .done)
        [.suspension actor tenant suspended, .recorded event]
  | drafted {tenant : String} {actor : Actor} {draft : PolicyDraft} {policy : PolicyVersion}
      {event : AuditEvent} : Emits (.createDraft tenant actor draft) (.ok (.policy policy))
        [.drafted actor policy, .recorded event]
  | submitted {tenant policyId : String} {actor : Actor} {policy : PolicyVersion}
      {event : AuditEvent} : Emits (.submitPolicy tenant actor policyId) (.ok (.policy policy))
        [.submitted actor tenant policyId, .recorded event]
  | approved {tenant policyId : String} {actor : Actor} {policy : PolicyVersion}
      {event : AuditEvent} : Emits (.approvePolicy tenant actor policyId) (.ok (.policy policy))
        [.activated actor tenant policyId false, .recorded event]
  | restored {tenant policyId : String} {actor : Actor} {policy : PolicyVersion}
      {event : AuditEvent} : Emits (.rollback tenant actor policyId) (.ok (.policy policy))
        [.activated actor tenant policyId true, .recorded event]
  | evaluated {actor : Actor} {action : ActionRequest} {r : Except ServiceError DecisionResponse}
      {marks : List Mark} (changes : Evaluated r marks) :
      Emits (.evaluate actor action) (r.map .decided) marks
  | lapsed {tenant reviewId reason : String} {actor : Actor} {resolution : ReviewResolution}
      {e : ServiceError} {review : Review} :
      Emits (.resolveReview tenant actor reviewId resolution reason) (.error e) [.expired review]
  | resolved {tenant reviewId reason : String} {actor : Actor} {resolution : ReviewResolution}
      {review after : Review} {event : AuditEvent} :
      Emits (.resolveReview tenant actor reviewId resolution reason) (.ok (.reviewed after))
        [.resolved actor review resolution, .recorded event]
  | registered {tenant digest : String} {actor : Actor} {registration : TaskRegistration}
      {task : RegisteredTask} {event : AuditEvent} :
      Emits (.register tenant actor registration) (.ok (.digest digest))
        [.registered actor tenant registration.taskId task, .recorded event]
  | bound {tenant taskId domain : String} {actor : Actor} {fenced : Bool} {event : AuditEvent} :
      Emits (.bindLegacyDomain tenant actor taskId domain fenced) (.ok .done)
        [.bound actor tenant taskId domain, .recorded event]
  | unissued {authority : ExecutionAuthority} {actor : Actor} {action : ActionRequest}
      {audience : String} {reviewId : Option String} {e : ServiceError}
      {r : Except ServiceError DecisionResponse} {marks : List Mark} (changes : Evaluated r marks) :
      Emits (.issue authority actor action audience reviewId) (.error e) (marks++[.drew])
  | issued {authority : ExecutionAuthority} {actor : Actor} {action : ActionRequest}
      {audience : String} {reviewId : Option String} {d : DecisionResponse} {grant : ExecutionGrant}
      {review : Option Review} {event : AuditEvent} {marks : List Mark}
      (changes : Evaluated (.ok d) marks) :
      Emits (.issue authority actor action audience reviewId) (.ok (.granted grant))
        (marks++[.drew, .granted actor action grant review, .recorded event])
  | validated {authority : ExecutionAuthority} {executor : Actor} {action : ActionRequest}
      {grant : ExecutionGrant} : Emits (.validate authority executor action grant) (.ok .done) [.drew]

theorem Evaluated.minor {r : Except ServiceError DecisionResponse} {marks : List Mark}
    (h : Evaluated r marks) : ∀ mark∈marks, mark.minor = true := by
  cases h <;> simp [Mark.minor]

namespace ControlPlane
variable {world : World} {m m' : Machine} {α β : Type}

theorem inspect_bind {f : ControlState → Except ServiceError α} {k : α → Operation β}
    {r : Except ServiceError β} (h : outcome (inspect f >>= k) m = (r, m')) :
    (∃ e, f m.plane = .error e ∧ r = .error e ∧ m'=m) ∨
      ∃ a, f m.plane = .ok a ∧ outcome (k a) m = (r, m') := by
  rw [outcome_bind, inspect, outcome_check] at h
  cases hf : f m.plane with
  | error e =>
    rw [hf] at h
    obtain ⟨hr, hm⟩ := Prod.mk.inj h
    exact Or.inl ⟨e, rfl, hr.symm, hm.symm⟩
  | ok a =>
    rw [hf] at h
    exact Or.inr ⟨a, rfl, h⟩

theorem now_bind (k : Instant → Operation β) :
    outcome (now world >>= k) m =
      outcome (k (world.clock m.readings)) { m with readings := m.readings+1 } := rfl

theorem uuid4_bind (k : String → Operation β) :
    outcome (uuid4 world >>= k) m =
      outcome (k (world.uuid m.identifiers)) { m with identifiers := m.identifiers+1 } := rfl

theorem get_bind (k : Machine → Operation β) : outcome (get >>= k) m = outcome (k m) m := rfl

theorem appendAudit_bind (tenant eventType subject : String) (payload : Arguments)
    (k : AuditEvent → Operation β) :
    outcome (appendAudit world tenant eventType subject payload >>= k) m =
      outcome (k (m.event world tenant eventType subject payload))
        (m.recorded world tenant eventType subject payload) := rfl

theorem revokeCredential_changes {tenant credentialId : String} {actor : Actor}
    {r : Except ServiceError Unit}
    (h : outcome (revokeCredential world tenant actor credentialId) m = (r, m')) :
    ∃ marks, Emits (.revokeCredential tenant actor credentialId) (r.map fun _ => .done) marks ∧
      Run (Change world) m marks m' := by
  unfold revokeCredential at h
  rcases inspect_bind h with ⟨e, _, rfl, rfl⟩ | ⟨_, hguard, h⟩
  · exact ⟨[], .refused, .nil _⟩
  · obtain ⟨_, hrole, _⟩ := Raising.bind_ok hguard
    obtain ⟨rfl, rfl⟩ := Prod.mk.inj h
    exact ⟨_, .revoked, .cons (.revoked hrole) (.single (.recorded _ _ _ _))⟩

theorem suspendTenant_changes {tenant : String} {actor : Actor} {suspended : Bool}
    {r : Except ServiceError Unit}
    (h : outcome (suspendTenant world tenant actor suspended) m = (r, m')) :
    ∃ marks, Emits (.suspendTenant tenant actor suspended) (r.map fun _ => .done) marks ∧
      Run (Change world) m marks m' := by
  unfold suspendTenant at h
  rcases inspect_bind h with ⟨e, _, rfl, rfl⟩ | ⟨_, hrole, h⟩
  · exact ⟨[], .refused, .nil _⟩
  · obtain ⟨rfl, rfl⟩ := Prod.mk.inj h
    exact ⟨_, .suspension, .cons (.suspension hrole) (.single (.recorded _ _ _ _))⟩

theorem createDraft_changes {tenant : String} {actor : Actor} {draft : PolicyDraft}
    {r : Except ServiceError PolicyVersion}
    (h : outcome (createDraft world tenant actor draft) m = (r, m')) :
    ∃ marks, Emits (.createDraft tenant actor draft) (r.map .policy) marks ∧
      Run (Change world) m marks m' := by
  unfold createDraft at h
  rcases inspect_bind h with ⟨e, _, rfl, rfl⟩ | ⟨_, hrole, h⟩
  · exact ⟨[], .refused, .nil _⟩
  · obtain ⟨rfl, rfl⟩ := Prod.mk.inj h
    exact ⟨_, .drafted, .cons (.drafted hrole) (.single (.recorded _ _ _ _))⟩

/-- A policy is still found after a change that keeps the ids. -/
theorem find_changePolicy {policyId : String} {f : PolicyVersion → PolicyVersion}
    (hf : ∀ p, (f p).policyId=p.policyId) {ps : List PolicyVersion} {p : PolicyVersion}
    (h : ps.find? (fun p => p.policyId=policyId) = some p) :
    (ControlState.changePolicy policyId f ps).find? (fun p => p.policyId=policyId) = some (f p) := by
  induction ps with
  | nil => simp at h
  | cons q qs ih =>
    unfold ControlState.changePolicy
    by_cases hq : q.policyId=policyId
    · have hpq : q=p := by simpa [hq] using h
      simp [hq, hf, ← hpq]
    · simpa [hq] using ih (by simpa [hq] using h)

theorem policiesOf_setPolicies (s : ControlState) (tenant : String) (ps : List PolicyVersion)
    (tenant' : String) :
    (s.setPolicies tenant ps).policiesOf tenant' = if tenant'=tenant then ps
      else s.policiesOf tenant' := by
  unfold ControlState.policiesOf ControlState.setPolicies
  rw [SortedMap.get?_insert]
  split <;> rfl

theorem policy_found {s : ControlState} {tenant policyId : String} {p : PolicyVersion} :
    s.policy tenant policyId = .ok p ↔
      (s.policiesOf tenant).find? (fun p => p.policyId=policyId) = some p := by
  unfold ControlState.policy
  cases (s.policiesOf tenant).find? fun p => p.policyId=policyId <;> simp

/-- How the operations that change a found policy end. -/
theorem policy_returned {f : ControlState → ControlState} {tenant eventType subject policyId : String}
    {payload : Arguments} {p : PolicyVersion} {r : Except ServiceError PolicyVersion}
    (found : (f m.plane).policy tenant policyId = .ok p)
    (h : outcome (do
      update f
      let _ ← appendAudit world tenant eventType subject payload
      inspect fun s => s.policy tenant policyId) m = (r, m')) :
    r = .ok p ∧ m' = { m with plane := f m.plane }.recorded world tenant eventType subject payload := by
  change outcome (inspect fun s => s.policy tenant policyId)
    ({ m with plane := f m.plane }.recorded world tenant eventType subject payload) = (r, m') at h
  rw [inspect, outcome_check] at h
  obtain ⟨rfl, rfl⟩ := Prod.mk.inj h
  exact ⟨found, rfl⟩

theorem submit_found {s : ControlState} {tenant policyId : String} {p : PolicyVersion}
    (h : s.policy tenant policyId = .ok p) :
    (s.submit tenant policyId).policy tenant policyId = .ok { p with status := .pendingApproval } := by
  refine policy_found.mpr ?_
  rw [ControlState.submit, policiesOf_setPolicies, if_pos rfl]
  exact find_changePolicy (f := fun p => { p with status := .pendingApproval }) (fun _ => rfl)
    (policy_found.mp h)

@[simp] theorem retire_policyId (p : PolicyVersion) : p.retire.policyId = p.policyId := by
  unfold PolicyVersion.retire
  split <;> rfl

theorem policiesOf_activatePolicy (s : ControlState) (tenant subject policyId : String) (t : Instant)
    (tenant' : String) :
    (s.activatePolicy tenant subject policyId t).policiesOf tenant' = if tenant'=tenant then
      ControlState.changePolicy policyId (PolicyVersion.activate subject t)
        ((s.policiesOf tenant).map PolicyVersion.retire) else s.policiesOf tenant' :=
  policiesOf_setPolicies s tenant _ tenant'

theorem activate_found {s : ControlState} {tenant policyId : String} {p : PolicyVersion}
    (subject : String) (t : Instant) (h : s.policy tenant policyId = .ok p) :
    (s.activatePolicy tenant subject policyId t).policy tenant policyId =
      .ok (p.retire.activate subject t) := by
  refine policy_found.mpr ?_
  rw [policiesOf_activatePolicy, if_pos rfl]
  refine find_changePolicy (f := PolicyVersion.activate subject t) (fun _ => rfl) ?_
  rw [List.find?_map]
  simpa [Function.comp_def] using ⟨p, policy_found.mp h, rfl⟩

theorem submitPolicy_changes {tenant policyId : String} {actor : Actor}
    {r : Except ServiceError PolicyVersion}
    (h : outcome (submitPolicy world tenant actor policyId) m = (r, m')) :
    ∃ marks, Emits (.submitPolicy tenant actor policyId) (r.map .policy) marks ∧
      Run (Change world) m marks m' := by
  unfold submitPolicy at h
  rcases inspect_bind h with ⟨e, _, rfl, rfl⟩ | ⟨_, hguard, h⟩
  · exact ⟨[], .refused, .nil _⟩
  · obtain ⟨_, hrole, hguard⟩ := Raising.bind_ok hguard
    obtain ⟨policy, hfound, hguard⟩ := Raising.bind_ok hguard
    obtain ⟨hauthor, hguard⟩ := Raising.guard_ok hguard
    obtain ⟨hstatus, _⟩ := Raising.guard_ok hguard
    obtain ⟨rfl, rfl⟩ := policy_returned (submit_found hfound) h
    exact ⟨_, .submitted, .cons (.submitted hrole hfound (not_not.mp hauthor) (not_not.mp hstatus))
      (.single (.recorded _ _ _ _))⟩

theorem approvePolicy_changes {tenant policyId : String} {actor : Actor}
    {r : Except ServiceError PolicyVersion}
    (h : outcome (approvePolicy world tenant actor policyId) m = (r, m')) :
    ∃ marks, Emits (.approvePolicy tenant actor policyId) (r.map .policy) marks ∧
      Run (Change world) m marks m' := by
  unfold approvePolicy at h
  rcases inspect_bind h with ⟨e, _, rfl, rfl⟩ | ⟨_, hguard, h⟩
  · exact ⟨[], .refused, .nil _⟩
  · obtain ⟨_, hrole, hguard⟩ := Raising.bind_ok hguard
    obtain ⟨policy, hfound, hguard⟩ := Raising.bind_ok hguard
    obtain ⟨hstatus, hguard⟩ := Raising.guard_ok hguard
    obtain ⟨hauthor, _⟩ := Raising.guard_ok hguard
    rw [now_bind] at h
    obtain ⟨rfl, rfl⟩ := policy_returned (activate_found _ _ hfound) h
    exact ⟨_, .approved, .cons (.approved hrole hfound (not_not.mp hstatus) hauthor)
      (.single (.recorded _ _ _ _))⟩

theorem rollback_changes {tenant policyId : String} {actor : Actor}
    {r : Except ServiceError PolicyVersion}
    (h : outcome (rollback world tenant actor policyId) m = (r, m')) :
    ∃ marks, Emits (.rollback tenant actor policyId) (r.map .policy) marks ∧
      Run (Change world) m marks m' := by
  unfold rollback at h
  rcases inspect_bind h with ⟨e, _, rfl, rfl⟩ | ⟨_, hguard, h⟩
  · exact ⟨[], .refused, .nil _⟩
  · obtain ⟨_, hrole, hguard⟩ := Raising.bind_ok hguard
    obtain ⟨target, hfound, hguard⟩ := Raising.bind_ok hguard
    obtain ⟨hstatus, _⟩ := Raising.guard_ok hguard
    rw [now_bind] at h
    obtain ⟨rfl, rfl⟩ := policy_returned (activate_found _ _ hfound) h
    exact ⟨_, .restored, .cons (.restored hrole hfound (not_not.mp hstatus))
      (.single (.recorded _ _ _ _))⟩

theorem openReview_changes {actor : Actor} {credential auditId : String} {action : ActionRequest}
    {epoch : Nat} {r : Except ServiceError Review}
    (h : outcome (openReview world actor credential action auditId epoch) m = (r, m'))
    (hepoch : m.plane.epoch action.tenantId = epoch) :
    (∃ e, r = .error e ∧ Run (Change world) m [.drew] m') ∨
      ∃ review event, r = .ok review ∧ Run (Change world) m [.opened review, .recorded event] m' ∧
        m'.plane.idempotent = m.plane.idempotent ∧ review.tenantId = action.tenantId ∧
        m'.plane.reviews.get? review.reviewId = some review := by
  by_cases hp : 1≤epoch
  · simp only [openReview, dif_pos hp] at h
    obtain ⟨rfl, rfl⟩ := Prod.mk.inj h
    exact Or.inr ⟨_, _, rfl, .cons (.opened rfl rfl rfl hepoch.symm) (.single (.recorded _ _ _ _)), rfl,
      rfl, SortedMap.get?_insert_self _ _ _⟩
  · simp only [openReview, dif_neg hp] at h
    obtain ⟨rfl, rfl⟩ := Prod.mk.inj h
    exact Or.inl ⟨_, rfl, .single (.drew 1 1)⟩

theorem decideAction_reviewId (world : World) (s : ControlState) (action : ActionRequest) :
    (decideAction world s action).reviewId = none := by
  unfold decideAction
  split
  · rfl
  · split <;> rfl

theorem evaluateNew_changes {actor : Actor} {credential : String} {action : ActionRequest}
    {r : Except ServiceError DecisionResponse}
    (absent : m.plane.idempotent.get? (receiptKey actor credential action) = none)
    (h : outcome (evaluateNew world actor credential action) m = (r, m')) :
    ∃ marks, Evaluated r marks ∧ Run (Change world) m marks m' := by
  unfold evaluateNew at h
  rw [get_bind, appendAudit_bind] at h
  by_cases hd : (decideAction world m.plane action).decision=.escalate
  · rw [if_pos hd] at h
    have hfirst : Change world m (.recorded _) _ := .recorded action.tenantId "action.evaluated"
      actor.subject (evaluatedPayload world action (decideAction world m.plane action))
    rcases bind_cases h with ⟨e, hopen, rfl⟩ | ⟨review, u, hopen, h⟩
    · rcases openReview_changes hopen rfl with ⟨_, _, hrun⟩ | ⟨review, event, hok, _⟩
      · exact ⟨_, .stopped, .cons hfirst hrun⟩
      · cases hok
    · rcases openReview_changes hopen rfl with ⟨e, herror, _⟩ | ⟨_, event, hok, hrun, hkept, htenant, hin⟩
      · cases herror
      · cases hok
        obtain ⟨rfl, rfl⟩ := Prod.mk.inj h
        refine ⟨_, .escalated, .cons hfirst (hrun.append (.single (.received (hkept ▸ absent) rfl ?_)))⟩
        intro reviewId hid
        cases hid
        exact ⟨review, hin, congrArg some htenant.symm⟩
  · rw [if_neg hd] at h
    obtain ⟨rfl, rfl⟩ := Prod.mk.inj h
    refine ⟨_, .decided, .cons (.recorded _ _ _ _) (.single (.received absent rfl ?_))⟩
    intro reviewId hid
    rw [show _ = none from decideAction_reviewId world m.plane action] at hid
    cases hid

theorem replayReceipt_changes {cached : DecisionReceipt} {digest : String} {epoch : Nat}
    {r : Except ServiceError DecisionResponse}
    (h : outcome (replayReceipt world cached digest epoch) m = (r, m')) :
    ∃ marks, Evaluated r marks ∧ Run (Change world) m marks m' := by
  unfold replayReceipt at h
  by_cases hd : cached.digest≠digest
  · rw [if_pos hd] at h
    obtain ⟨rfl, rfl⟩ := Prod.mk.inj h
    exact ⟨_, .refused, .nil _⟩
  · rw [if_neg hd] at h
    have hdrew : Run (Change world) m [.drew] { m with readings := m.readings+1 } :=
      .single (.drew 1 0)
    change outcome (now world >>= _) m = (r, m') at h
    rw [now_bind] at h
    split at h <;> obtain ⟨rfl, rfl⟩ := Prod.mk.inj h <;> exact ⟨_, .replayed, hdrew⟩

theorem evaluate_changes {actor : Actor} {action : ActionRequest}
    {r : Except ServiceError DecisionResponse}
    (h : outcome (ControlPlane.evaluate world actor action) m = (r, m')) :
    ∃ marks, Evaluated r marks ∧ Run (Change world) m marks m' := by
  unfold ControlPlane.evaluate at h
  rcases inspect_bind h with ⟨e, _, rfl, rfl⟩ | ⟨credential, _, h⟩
  · exact ⟨[], .refused, .nil _⟩
  · rw [get_bind] at h
    cases hkey : m.plane.idempotent.get? (receiptKey actor credential action) with
    | none =>
      rw [hkey] at h
      exact evaluateNew_changes hkey h
    | some cached =>
      rw [hkey] at h
      exact replayReceipt_changes h

/-- What a review must be for the actor to resolve it. -/
structure Resolvable (s : ControlState) (tenant : String) (actor : Actor) (reviewId : String)
    (review : Review) : Prop where
  role : s.require actor .reviewer tenant = .ok ()
  found : s.reviews.get? reviewId = some review
  belongs : review.tenantId=tenant
  pending : review.status=.pending
  epoch : s.epochs.get? tenant = some review.policyEpoch
  other : review.agentSubject≠actor.subject

theorem pendingReview_ok {s : ControlState} {tenant reviewId : String} {actor : Actor}
    {review : Review} (h : pendingReview s tenant actor reviewId = .ok review) :
    Resolvable s tenant actor reviewId review := by
  obtain ⟨_, hrole, h⟩ := Raising.bind_ok h
  cases hget : s.reviews.get? reviewId with
  | none => rw [hget] at h; cases h
  | some found =>
    rw [hget] at h
    obtain ⟨htenant, h⟩ := Raising.guard_ok h
    obtain ⟨hstatus, h⟩ := Raising.guard_ok h
    obtain ⟨hepoch, h⟩ := Raising.guard_ok h
    obtain ⟨hother, h⟩ := Raising.guard_ok h
    cases h
    exact ⟨hrole, hget, not_not.mp htenant, not_not.mp hstatus, not_not.mp hepoch, hother⟩

theorem resolveReview_changes {tenant reviewId reason : String} {actor : Actor}
    {resolution : ReviewResolution} {r : Except ServiceError Review}
    (h : outcome (resolveReview world tenant actor reviewId resolution reason) m = (r, m')) :
    ∃ marks, Emits (.resolveReview tenant actor reviewId resolution reason) (r.map .reviewed) marks ∧
      Run (Change world) m marks m' := by
  unfold resolveReview at h
  rcases inspect_bind h with ⟨e, _, rfl, rfl⟩ | ⟨review, hpending, h⟩
  · exact ⟨[], .refused, .nil _⟩
  · rw [now_bind] at h
    have hresolvable := pendingReview_ok hpending
    by_cases hlate : review.expiresAt.micros<(world.clock m.readings).micros
    · rw [if_pos hlate] at h
      obtain ⟨rfl, rfl⟩ := Prod.mk.inj h
      exact ⟨_, .lapsed, .single (.expired hresolvable.found hresolvable.pending)⟩
    · rw [if_neg hlate] at h
      obtain ⟨rfl, rfl⟩ := Prod.mk.inj h
      exact ⟨_, .resolved, .cons (.resolved hpending (not_lt.mp hlate)) (.single (.recorded _ _ _ _))⟩

theorem resolveReview_returned {tenant reviewId reason : String} {actor : Actor}
    {resolution : ReviewResolution} {after : Review}
    (h : outcome (resolveReview world tenant actor reviewId resolution reason) m = (.ok after, m')) :
    ∃ review, Resolvable m.plane tenant actor reviewId review ∧
      (world.clock m.readings).micros ≤ review.expiresAt.micros ∧
      after = review.resolve actor.subject resolution reason ∧
      m'.plane.reviews = m.plane.reviews.insert after.reviewId after := by
  unfold resolveReview at h
  rcases inspect_bind h with ⟨e, _, he, _⟩ | ⟨review, hpending, h⟩
  · cases he
  · rw [now_bind] at h
    by_cases hlate : review.expiresAt.micros<(world.clock m.readings).micros
    · rw [if_pos hlate] at h
      cases (Prod.mk.inj h).1
    · rw [if_neg hlate] at h
      obtain ⟨hr, rfl⟩ := Prod.mk.inj h
      cases hr
      exact ⟨review, pendingReview_ok hpending, not_lt.mp hlate, rfl, rfl⟩

end ControlPlane
end TraceGuard
