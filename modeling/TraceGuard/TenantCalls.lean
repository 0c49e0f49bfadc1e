import TraceGuard.TenantRecords
import TraceGuard.TenantViews

/-! The operations of the control plane stay within the part of the tenant that they are called for. -/
namespace TraceGuard
open Stateful ControlPlane ExecutionAuthority ControlState Isolation

def Machine.part (t : String) (m : Machine) : Machine := { m with plane := m.plane.project t }

def Machine.seenBy (t : String) (m : Machine) : ControlState := m.plane.project t

/-- The operation at `m` is one of the tenant's part. -/
abbrev Local {α : Type} (t : String) (x : Operation α) (m : Machine) : Prop :=
  Within Machine.part Machine.seenBy t x m

section
variable {world : World} {t : String} {m : Machine} {α β : Type}

theorem local_inspect {f : ControlState → Except ServiceError α}
    (h : f (m.plane.project t) = f m.plane) : Local t (inspect f) m :=
  Within.check h

theorem local_inspect_bind {f : ControlState → Except ServiceError α} {k : α → Operation β}
    (h : f (m.plane.project t) = f m.plane) (hk : ∀ a, f m.plane = .ok a → Local t (k a) m) :
    Local t (inspect f >>= k) m := by
  refine (local_inspect h).bind fun a m' ha => ?_
  rw [inspect, outcome_check] at ha
  obtain ⟨hf, rfl⟩ := Prod.mk.inj ha
  exact hk a hf

theorem local_update {f : ControlState → ControlState} (h : Confined t f m.plane) :
    Local t (update f) m :=
  Within.update (congrArg (fun s => ({ m with plane := s } : Machine)) h.same) h.unseen

theorem local_update_bind {f : ControlState → ControlState} {k : Unit → Operation β}
    (h : Confined t f m.plane) (hk : Local t (k ()) { m with plane := f m.plane }) :
    Local t (update f >>= k) m := by
  refine (local_update h).bind fun a m' ha => ?_
  obtain ⟨_, rfl⟩ := Prod.mk.inj ha
  exact hk

theorem local_now_bind {k : Instant → Operation β}
    (hk : Local t (k (world.clock m.readings)) { m with readings := m.readings+1 }) :
    Local t (now world >>= k) m :=
  ⟨hk.same, hk.unseen⟩

theorem local_uuid4_bind {k : String → Operation β}
    (hk : Local t (k (world.uuid m.identifiers)) { m with identifiers := m.identifiers+1 }) :
    Local t (uuid4 world >>= k) m :=
  ⟨hk.same, hk.unseen⟩

theorem local_get_bind {k : Machine → Operation β} (h : k (m.part t) = k m) (hk : Local t (k m) m) :
    Local t (get >>= k) m := by
  refine ⟨?_, hk.unseen⟩
  rw [get_bind, get_bind, h]
  exact hk.same

theorem local_appendAudit (eventType subject : String) (payload : Arguments) :
    Local t (appendAudit world t eventType subject payload) m := by
  refine local_uuid4_bind (local_now_bind (local_get_bind ?_ ?_))
  · unfold Machine.part nextEvent
    simp only [auditsOf_project]
  · exact local_update_bind (confined_record _ _ rfl) (Within.pure _)

theorem local_appendAudit_bind {eventType subject : String} {payload : Arguments}
    {k : AuditEvent → Operation β}
    (hk : Local t (k (m.event world t eventType subject payload))
      (m.recorded world t eventType subject payload)) :
    Local t (appendAudit world t eventType subject payload >>= k) m := by
  refine (local_appendAudit _ _ _).bind fun a m' ha => ?_
  obtain ⟨h, rfl⟩ := Prod.mk.inj ha
  obtain rfl := Except.ok.inj h
  exact hk

/-- An event at the end of an operation. -/
theorem local_recorded (eventType subject : String) (payload : Arguments) (a : α) :
    Local t (do
      let _ ← appendAudit world t eventType subject payload
      pure a) m :=
  local_appendAudit_bind (Within.pure a)

theorem local_revokeCredential (actor : Actor) (credentialId : String) :
    Local t (revokeCredential world t actor credentialId) m := by
  refine local_inspect_bind (by simp only [require_project]) fun _ _ => ?_
  exact local_update_bind (confined_revoke _ _ _) (local_update_bind (confined_advance _ _)
    (local_recorded _ _ _ _))

theorem local_suspendTenant (actor : Actor) (suspended : Bool) :
    Local t (suspendTenant world t actor suspended) m := by
  refine local_inspect_bind (require_project _ _ _ _) fun _ _ => ?_
  exact local_update_bind (confined_suspend _ _ _) (local_update_bind (confined_advance _ _)
    (local_recorded _ _ _ _))

theorem local_createDraft (actor : Actor) (draft : PolicyDraft) :
    Local t (createDraft world t actor draft) m := by
  refine local_inspect_bind (require_project _ _ _ _) fun _ _ => ?_
  refine local_uuid4_bind (local_now_bind (local_get_bind ?_ ?_))
  · unfold Machine.part
    simp only [policiesOf_project]
  · exact local_update_bind
      (confined_setPolicies _ t (·++[m.drafted world t actor.subject draft])) (local_recorded _ _ _ _)

theorem local_policy (policyId : String) : Local t (inspect fun s => s.policy t policyId) m :=
  local_inspect (policy_project _ _ _)

theorem local_submitPolicy (actor : Actor) (policyId : String) :
    Local t (submitPolicy world t actor policyId) m := by
  refine local_inspect_bind (by simp only [require_project, policy_project]) fun _ _ => ?_
  exact local_update_bind (confined_setPolicies _ t (ControlState.changePolicy policyId fun p =>
    { p with status := .pendingApproval })) (local_appendAudit_bind (local_policy _))

theorem confined_activatePolicy (s : ControlState) (t subject policyId : String) (activatedAt : Instant) :
    Confined t (·.activatePolicy t subject policyId activatedAt) s :=
  (confined_setPolicies s t fun ps => ControlState.changePolicy policyId
    (PolicyVersion.activate subject activatedAt) (ps.map PolicyVersion.retire)).comp
    (confined_advance _ t)

theorem local_approvePolicy (actor : Actor) (policyId : String) :
    Local t (approvePolicy world t actor policyId) m := by
  refine local_inspect_bind (by simp only [require_project, policy_project]) fun _ _ => ?_
  exact local_now_bind (local_update_bind (confined_activatePolicy _ _ _ _ _)
    (local_appendAudit_bind (local_policy _)))

theorem local_rollback (actor : Actor) (policyId : String) :
    Local t (ControlPlane.rollback world t actor policyId) m := by
  refine local_inspect_bind (by simp only [require_project, policy_project]) fun _ _ => ?_
  exact local_now_bind (local_update_bind (confined_activatePolicy _ _ _ _ _)
    (local_appendAudit_bind (local_policy _)))

theorem decideAction_project (s : ControlState) (action : ActionRequest) :
    decideAction world (s.project action.tenantId) action = decideAction world s action := by
  unfold decideAction
  rw [activePolicy_project]

theorem local_openReview (actor : Actor) (credential auditId : String) (action : ActionRequest)
    (epoch : Nat) (hfresh : m.plane.reviews.get? (world.uuid m.identifiers) = none) :
    Local action.tenantId (openReview world actor credential action auditId epoch) m := by
  refine local_uuid4_bind (local_now_bind ?_)
  by_cases hp : 1≤epoch
  · rw [dif_pos hp]
    let review : Review := {
      reviewId := world.uuid m.identifiers
      tenantId := action.tenantId
      actionId := action.actionId
      auditId := auditId
      expiresAt := (world.clock m.readings).later (seconds (24*3600))
      actionDigest := world.crypto.actionDigest action
      agentSubject := actor.subject
      serviceKeyId := credential
      taskId := action.taskId
      policyEpoch := epoch
      positive := hp }
    have hconfined : Confined action.tenantId (setReview · review) m.plane :=
      confined_review _ _ rfl fun r hr => by cases hfresh.symm.trans hr
    exact local_update_bind hconfined (local_recorded _ _ _ _)
  · rw [dif_neg hp]
    exact Within.throw _

theorem local_evaluateNew (actor : Actor) (credential : String) (action : ActionRequest)
    (hspare : Spare world m) :
    Local action.tenantId (evaluateNew world actor credential action) m := by
  refine local_get_bind ?_ (local_appendAudit_bind ?_)
  · unfold Machine.part
    simp only [epoch_project, decideAction_project]
  · have hreceipt (result : DecisionResponse) (epoch : Nat) (m : Machine) : Local action.tenantId (do
        let t ← now world
        update fun s => { s with
          idempotent := s.idempotent.insert (receiptKey actor credential action)
            ⟨world.crypto.actionDigest action, epoch, t.later (seconds 300), result⟩ }
        return result) m :=
      local_now_bind (local_update_bind (confined_receipt _ _ _ _) (Within.pure _))
    dsimp only
    split
    · refine (local_openReview _ _ _ _ _ (hspare _ (Nat.le_succ _)).review).bind fun _ _ _ => ?_
      exact hreceipt _ _ _
    · exact hreceipt _ _ _

theorem local_replayReceipt (cached : DecisionReceipt) (digest : String) (epoch : Nat) :
    Local t (replayReceipt world cached digest epoch) m := by
  unfold replayReceipt
  split
  · exact Within.throw _
  · refine local_now_bind ?_
    split
    · exact Within.throw _
    · exact Within.pure _

theorem local_evaluate (actor : Actor) (action : ActionRequest) (hspare : Spare world m) :
    Local action.tenantId (ControlPlane.evaluate world actor action) m := by
  refine local_inspect_bind (by simp only [agentCredential, require_project]) fun credential _ => ?_
  refine local_get_bind ?_ ?_
  · unfold Machine.part receiptKey
    simp only [receipt_project, epoch_project]
  · split
    · exact local_replayReceipt _ _ _
    · exact local_evaluateNew _ _ _ hspare

theorem pendingReview_project (s : ControlState) (t : String) (actor : Actor) (reviewId : String) :
    pendingReview (s.project t) t actor reviewId = pendingReview s t actor reviewId := by
  unfold pendingReview
  rw [require_project, review_project]
  cases s.reviews.get? reviewId with
  | none => rfl
  | some review =>
    by_cases ht : review.tenantId=t
    · rw [Option.filter_some, if_pos (decide_eq_true ht)]
      simp only [epochs_project]
    · rw [Option.filter_some, if_neg (by simpa using ht)]
      simp only [ne_eq, ht, not_false_eq_true, if_true]
      rfl

theorem local_resolveReview (actor : Actor) (reviewId : String) (resolution : ReviewResolution)
    (reason : String) (sound : Sound world.crypto m.plane) :
    Local t (resolveReview world t actor reviewId resolution reason) m := by
  refine local_inspect_bind (pendingReview_project _ _ _ _) fun review hpending => ?_
  have hresolvable := pendingReview_ok hpending
  obtain rfl := sound.keyed _ _ hresolvable.found
  have hold : ∀ r, m.plane.reviews.get? review.reviewId = some r → r.tenantId=t := fun r hr =>
    Option.some.inj (hr.symm.trans hresolvable.found) ▸ hresolvable.belongs
  refine local_now_bind ?_
  split
  · exact local_update_bind (confined_review _ _ hresolvable.belongs hold) (Within.throw _)
  · exact local_update_bind (confined_review _ _ hresolvable.belongs hold) (local_recorded _ _ _ _)

theorem local_register (actor : Actor) (registration : TaskRegistration) :
    Local t (register world t actor registration) m := by
  unfold register
  split
  · exact Within.throw _
  · refine local_inspect_bind rfl fun compiled _ => ?_
    refine local_inspect_bind (by simp only [require_project, task_project]) fun _ _ => ?_
    exact local_update_bind (confined_task _ _ _ _) (local_recorded _ _ _ _)

theorem local_bindLegacyDomain (actor : Actor) (taskId domain : String) (fenced : Bool) :
    Local t (bindLegacyDomain world t actor taskId domain fenced) m := by
  unfold bindLegacyDomain
  split
  · exact Within.throw _
  · refine local_inspect_bind (by simp only [require_project, task_project]) fun task _ => ?_
    exact local_update_bind (confined_bindDomain _ _ _ _ _) (local_recorded _ _ _ _)

theorem taskFor_project (s : ControlState) (actor : Actor) (action : ActionRequest) :
    taskFor world (s.project action.tenantId) actor action = taskFor world s actor action := by
  unfold taskFor
  simp only [require_project, task_project]

/-- The review that a decision names is the tenant's, so another one is as good as none. -/
theorem grantingReview_project {s : ControlState} {actor : Actor} {action : ActionRequest}
    {decision : DecisionResponse} {reviewId : Option String} {time : Instant}
    (sound : Sound world.crypto s) (hnamed : ∀ r∈decision.reviewId, ∃ review,
      s.reviews.get? r = some review ∧ review.tenantId=action.tenantId) :
    grantingReview world (s.project action.tenantId) actor action decision reviewId time =
      grantingReview world s actor action decision reviewId time := by
  unfold grantingReview
  rw [review_project, epochs_project]
  cases hget : s.reviews.get? (reviewId.getD "") with
  | none => rfl
  | some review =>
    by_cases ht : review.tenantId=action.tenantId
    · rw [Option.filter_some, if_pos (decide_eq_true ht)]
    · rw [Option.filter_some, if_neg (by simpa using ht)]
      have hother : some review.reviewId≠decision.reviewId := by
        intro hsame
        obtain ⟨review', hget', ht'⟩ := hnamed _ hsame.symm
        rw [sound.keyed _ _ hget, hget] at hget'
        exact ht (Option.some.inj hget' ▸ ht')
      exact (if_pos (Or.inl hother)).symm

theorem evaluate_named {actor : Actor} {action : ActionRequest} {decision : DecisionResponse}
    {m' : Machine} (h : outcome (ControlPlane.evaluate world actor action) m = (.ok decision, m'))
    (sound : Sound world.crypto m'.plane) : ∀ r∈decision.reviewId, ∃ review,
      m'.plane.reviews.get? r = some review ∧ review.tenantId=action.tenantId := by
  intro r hr
  obtain ⟨credential, receipt, _, hget, hanswers, _⟩ := evaluate_receipt h
  obtain ⟨review, hfound, hhead⟩ := sound.linked _ _ r hget (hanswers.result ▸ hr)
  exact ⟨review, hfound, (Option.some.inj hhead).symm⟩

theorem local_permitIssue {actor : Actor} {action : ActionRequest} {decision : DecisionResponse}
    {reviewId : Option String} (sound : Sound world.crypto m.plane)
    (hnamed : ∀ r∈decision.reviewId, ∃ review,
      m.plane.reviews.get? r = some review ∧ review.tenantId=action.tenantId) :
    Local action.tenantId (permitIssue world actor action decision reviewId) m := by
  unfold permitIssue
  split
  · exact local_now_bind (local_inspect_bind (grantingReview_project sound hnamed) fun _ _ =>
      Within.pure _)
  · exact Within.pure _
  · exact Within.throw _

theorem draftGrant_project (s : ControlState) (actor : Actor) (action : ActionRequest)
    (audience : String) (task : RegisteredTask) (nonce : String) (expires issued : Instant) :
    draftGrant world (s.project action.tenantId) actor action audience task nonce expires issued =
      draftGrant world s actor action audience task nonce expires issued := by
  unfold draftGrant
  rw [activePolicy_project, epochs_project]

theorem local_issue (self : ExecutionAuthority) (actor : Actor) (action : ActionRequest)
    (audience : String) (reviewId : Option String) (sound : Sound world.crypto m.plane)
    (spare : Spare world m) : Local action.tenantId (self.issue world actor action audience reviewId) m := by
  refine local_inspect_bind (taskFor_project _ _ _) fun task _ => ?_
  refine (local_evaluate _ _ spare).bind fun decision m' hevaluate => ?_
  obtain ⟨_, _, hrun⟩ := evaluate_changes hevaluate
  obtain ⟨sound', spare'⟩ := sound_run hrun sound spare
  have hnamed := evaluate_named hevaluate sound'
  refine (local_permitIssue sound' hnamed).bind fun review m'' hpermit => ?_
  obtain ⟨k, rfl, hpermitted⟩ := permitIssue_cases hpermit
  refine local_now_bind (local_uuid4_bind (local_now_bind ?_))
  refine local_inspect_bind (draftGrant_project _ _ _ _ _ _ _ _) fun draft hdraft => ?_
  have hnonce : draft.nonce = world.uuid m'.identifiers := draftGrant_nonce hdraft
  have htenant := (draftGrant_ok hdraft).tenant
  refine local_update_bind (confined_recordGrant _ _ ?_ ?_ fun r hr => ?_) (local_recorded _ _ _ _)
  · exact decide_eq_true (congrArg (Option.map Prod.fst) (ExecutionGrant.grantedTask_dumpJson _) |>.trans
      (congrArg some htenant))
  · show m'.plane.executionIssued.get? draft.nonce = none
    rw [hnonce]
    exact (spare' _ le_rfl).grant
  · obtain rfl : review = some r := hr
    have hpermitted := hpermitted _ rfl
    have hfound := hpermitted.found sound'
    obtain ⟨_, _, _, hgranting⟩ := hpermitted
    obtain ⟨_, hget, htenant⟩ := hnamed _ (grantingReview_ok hgranting).2
    exact ⟨Option.some.inj (hget.symm.trans hfound) ▸ htenant, hfound⟩

/-- A grant of another tenant is as good as none: it is for another action. -/
theorem current_project (collisionFree : Function.Injective world.crypto.sha256)
    {self : ExecutionAuthority} {s : ControlState} {executor : Actor} {action : ActionRequest}
    {grant : ExecutionGrant} {time : Instant} (sound : Sound world.crypto s) :
    self.current world (s.project action.tenantId) executor action grant time =
      self.current world s executor action grant time := by
  unfold current
  rw [epochs_project]
  by_cases hd : grant.actionDigest = world.crypto.actionDigest action
  · have hissued : (s.project action.tenantId).executionIssued.get? grant.nonce = some grant.dumpJson ↔
        s.executionIssued.get? grant.nonce = some grant.dumpJson := by
      show (s.executionIssued.filter fun _ text => grantedTo action.tenantId text).get? _ = _ ↔ _
      rw [SortedMap.get?_filter, Option.filter_eq_some_iff]
      refine and_iff_left_of_imp fun hget => ?_
      obtain ⟨grant', action', htext, htenant, hdigest⟩ := sound.issued _ _ hget
      obtain rfl := ExecutionGrant.dumpJson_inj htext
      obtain ⟨hsame, _⟩ := actionDigest_task collisionFree (hdigest.symm.trans hd)
      rw [grantedTo, ExecutionGrant.grantedTask_dumpJson]
      exact decide_eq_true (congrArg some (htenant.trans hsame))
    simp only [hissued]
  · simp only [hd, decide_false, Bool.and_false, Bool.false_and]

theorem local_validate (collisionFree : Function.Injective world.crypto.sha256)
    (self : ExecutionAuthority) (executor : Actor) (action : ActionRequest) (grant : ExecutionGrant)
    (sound : Sound world.crypto m.plane) :
    Local action.tenantId (self.validate world executor action grant) m := by
  refine local_now_bind (local_inspect ?_)
  unfold admissible
  rw [require_project, taskFor_project, current_project collisionFree sound]

end
end TraceGuard
