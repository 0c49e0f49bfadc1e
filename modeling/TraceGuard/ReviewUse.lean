import TraceGuard.Amounts
import TraceGuard.GrantCurrency
import TraceGuard.ReviewOrigins

/-! Issuance on the strength of an allowed review. It rests on the receipt of the decision that asked
for the review, so it succeeds while that receipt lives. -/
namespace TraceGuard
open Stateful Traces ControlPlane ExecutionAuthority ControlState

variable {world : World} {m m' : Machine}

theorem evaluate_replayed {actor : Actor} {action : ActionRequest} {credential : String}
    {receipt : DecisionReceipt} (hcredential : agentCredential m.plane actor action = .ok credential)
    (hget : m.plane.idempotent.get? (receiptKey actor credential action) = some receipt)
    (hdigest : receipt.digest = world.crypto.actionDigest action)
    (hepoch : receipt.epoch = m.plane.epoch action.tenantId)
    (hlive : (world.clock m.readings).micros < receipt.expiresAt.micros) :
    outcome (ControlPlane.evaluate world actor action) m =
      (.ok receipt.result, { m with readings := m.readings+1 }) := by
  unfold ControlPlane.evaluate
  rw [inspect, outcome_bind, outcome_check, hcredential]
  dsimp only
  rw [get_bind, hget]
  show outcome (replayReceipt world receipt _ _) m = _
  unfold replayReceipt
  rw [if_neg (not_not.mpr hdigest)]
  show outcome (now world >>= _) m = _
  rw [now_bind, if_neg (not_or.mpr ⟨not_not.mpr hepoch, not_le.mpr hlive⟩)]
  rfl

/-- The evaluation of an action that the active policy escalates. -/
theorem evaluate_opens {actor : Actor} {action : ActionRequest} {credential : String}
    (hcredential : agentCredential m.plane actor action = .ok credential)
    (hnone : m.plane.idempotent.get? (receiptKey actor credential action) = none)
    (hd : (decideAction world m.plane action).decision=.escalate)
    (hp : 1 ≤ m.plane.epoch action.tenantId) :
    ∃ decision review m', outcome (ControlPlane.evaluate world actor action) m = (.ok decision, m') ∧
      (decision.decision, decision.reviewId) = (.escalate, some review.reviewId) ∧
      (review.reviewId = world.uuid (m.identifiers+1) ∧ review.tenantId=action.tenantId) ∧
      (review.status=.pending ∧ review.grantNonce=none ∧ review.agentSubject=actor.subject) ∧
      review.policyEpoch = m.plane.epoch action.tenantId ∧
      review.expiresAt = (world.clock (m.readings+1)).later (seconds (24*3600)) ∧
      m'.plane.reviews.get? review.reviewId = some review ∧ SameAuthority m.plane m'.plane ∧
      m'.readings=m.readings+4 := by
  unfold ControlPlane.evaluate
  rw [inspect, outcome_bind, outcome_check, hcredential]
  dsimp only
  rw [get_bind, hnone]
  show ∃ decision review m', outcome (evaluateNew world actor credential action) m = _ ∧ _
  unfold evaluateNew
  simp only [get_bind, appendAudit_bind, if_pos hd, openReview, dif_pos hp]
  exact ⟨_, _, _, rfl, Prod.ext hd rfl, ⟨rfl, rfl⟩, ⟨rfl, rfl, rfl⟩, rfl, rfl,
    SortedMap.get?_insert_self _ _ _, ⟨rfl, rfl, rfl, rfl, rfl, rfl⟩, rfl⟩

theorem pendingReview_of {s : ControlState} {tenant reviewId : String} {actor : Actor} {review : Review}
    (h : Resolvable s tenant actor reviewId review) :
    pendingReview s tenant actor reviewId = .ok review := by
  unfold pendingReview
  simp only [h.role, h.found, bind, Except.bind, h.belongs, h.pending, h.epoch, h.other, ne_eq,
    not_true_eq_false, if_false]
  rfl

/-- The resolution of a pending review in time. -/
theorem resolveReview_made {tenant reviewId reason : String} {actor : Actor}
    {resolution : ReviewResolution} {review : Review}
    (hpending : pendingReview m.plane tenant actor reviewId = .ok review)
    (htimely : (world.clock m.readings).micros ≤ review.expiresAt.micros) :
    outcome (resolveReview world tenant actor reviewId resolution reason) m =
      (.ok (review.resolve actor.subject resolution reason), Machine.recorded world
        ⟨setReview m.plane (review.resolve actor.subject resolution reason), m.readings+1,
          m.identifiers⟩ tenant "review.resolved" actor.subject
        (reviewPayload (review.resolve actor.subject resolution reason))) := by
  unfold resolveReview
  rw [inspect, outcome_bind, outcome_check, hpending]
  dsimp only
  rw [now_bind, if_neg (not_lt.mpr htimely)]
  rfl

theorem grantingReview_of {s : ControlState} {actor : Actor} {action : ActionRequest}
    {decision : DecisionResponse} {reviewId : Option String} {review : Review} {t : Instant}
    (h : Grants world s actor action reviewId review) (hid : decision.reviewId = some review.reviewId)
    (hlive : t.micros < review.expiresAt.micros) :
    grantingReview world s actor action decision reviewId t = .ok review := by
  unfold grantingReview
  rw [h.found]
  dsimp only
  rw [if_neg]
  simp [hid, h.resolved, h.allows, h.unused, h.digest, h.epoch, h.subject, h.credential, h.task, hlive]

theorem draftGrant_made {s : ControlState} {actor : Actor} {action : ActionRequest}
    {task : RegisteredTask} {scope : TaskAuthority} {epoch : Nat} {amount : Decimal}
    (hscope : task.compiled.scope = .ok scope) (hactive : s.activePolicy action.tenantId≠none)
    (hepoch : s.epochs.get? action.tenantId = some epoch) (hpositive : 1≤epoch)
    (hamount : paymentAmount action = .ok amount) (audience nonce : String) (expires issued : Instant) :
    ∃ draft, draftGrant world s actor action audience task nonce expires issued = .ok draft := by
  obtain ⟨policy, hpolicy⟩ := Option.ne_none_iff_exists'.mp hactive
  have hne : epoch≠0 := by omega
  simp only [draftGrant, hscope, raise, hpolicy, hepoch, grantAmount, hamount, bind, Except.bind,
    hne, if_false]
  exact ⟨_, rfl⟩

/-- The machine after an issuance on a review. -/
def Machine.issuedOn (world : World) (m : Machine) (action : ActionRequest) (subject : String)
    (grant : ExecutionGrant) (review : Review) (reviewId : Option String) : Machine :=
  Machine.recorded world ⟨recordGrant m.plane grant (some review), m.readings+3, m.identifiers+1⟩
    action.tenantId "execution.granted" subject (grantPayload grant reviewId)

theorem ExecutionAuthority.issue_reviewed {self : ExecutionAuthority} {actor : Actor}
    {action : ActionRequest} {audience : String} {task : RegisteredTask} {decision : DecisionResponse}
    {draft : ExecutionGrant} {review : Review} {reviewId : Option String}
    (htask : taskFor world m.plane actor action = .ok task)
    (hevaluate : outcome (ControlPlane.evaluate world actor action) m = (.ok decision, m'))
    (hescalate : decision.decision=.escalate)
    (hreview : grantingReview world m'.plane actor action decision reviewId (world.clock m'.readings) =
      .ok review)
    (hdraft : draftGrant world m'.plane actor action audience task (world.uuid m'.identifiers)
      (world.clock (m'.readings+1)) (world.clock (m'.readings+2)) = .ok draft) :
    outcome (self.issue world actor action audience reviewId) m = (.ok (self.signed world draft),
      m'.issuedOn world action actor.subject (self.signed world draft) review reviewId) := by
  unfold issue
  rw [inspect, outcome_bind, outcome_check, htask]
  show outcome (ControlPlane.evaluate world actor action >>= _) m = _
  rw [outcome_bind, hevaluate]
  show outcome (permitIssue world actor action decision reviewId >>= _) m' = _
  have hpermit : outcome (permitIssue world actor action decision reviewId) m' =
      (.ok (some review), { m' with readings := m'.readings+1 }) := by
    unfold permitIssue
    rw [hescalate]
    show outcome (now world >>= _) m' = _
    rw [now_bind, inspect, outcome_bind, outcome_check, hreview]
    rfl
  rw [outcome_bind, hpermit]
  show outcome (inspect _ >>= _) ⟨m'.plane, m'.readings+3, m'.identifiers+1⟩ = _
  rw [inspect, outcome_bind, outcome_check]
  dsimp only
  rw [hdraft]
  rfl

theorem ExecutionAuthority.issue_unevaluated {self : ExecutionAuthority} {actor : Actor}
    {action : ActionRequest} {audience : String} {task : RegisteredTask} {reviewId : Option String}
    {e : ServiceError} (htask : taskFor world m.plane actor action = .ok task)
    (hevaluate : outcome (ControlPlane.evaluate world actor action) m = (.error e, m')) :
    outcome (self.issue world actor action audience reviewId) m = (.error e, m') := by
  unfold issue
  rw [inspect, outcome_bind, outcome_check, htask]
  exact outcome_bind_error hevaluate

/-- A registered task that allows an action has a scope, and the action an amount. -/
theorem Rooted.scoped {actor : Actor} {action : ActionRequest} {task : RegisteredTask}
    (h : Rooted world m) (htask : taskFor world m.plane actor action = .ok task) :
    ∃ scope amount, task.compiled.scope = .ok scope ∧ paymentAmount action = .ok amount := by
  have hallows := taskFor_ok htask
  obtain ⟨authority, schemas, hcompiled⟩ := h.tasks _ _ hallows.found
  obtain ⟨hvalid, hscope, _⟩ := CompiledAuthority.compile_ok hcompiled
  obtain ⟨verdict, hverdict, hallow⟩ := hallows.allowed
  obtain ⟨_, _, _, _, authority', hallowed⟩ := CompiledAuthority.evaluate_allow hverdict hallow
  obtain rfl : authority'=authority := Except.ok.inj (hallowed.grant.symm.trans hscope)
  obtain ⟨_, hstrict⟩ := TaskAuthority.validate_ok hvalid
  obtain ⟨amount, hamount⟩ := paymentAmount_allowed hstrict.strict hallowed
  exact ⟨authority', amount, hscope, hamount⟩

/-- The review is resolved with ALLOW in its present epoch, and nothing was granted on it. -/
structure Standing (s : ControlState) (reviewId : String) (review : Review) : Prop where
  found : s.reviews.get? reviewId = some review
  resolved : review.status=.resolved
  allows : review.resolution = some .allow
  unused : review.grantNonce=none
  epoch : s.epochs.get? review.tenantId = some review.policyEpoch

/-- While the receipt and the review live, an issuance on the review succeeds. -/
theorem issue_standing {self : ExecutionAuthority} {actor : Actor} {action : ActionRequest}
    {credential audience reviewId : String} {task : RegisteredTask} {receipt : DecisionReceipt}
    {review : Review} (collisionFree : Function.Injective world.crypto.sha256) (rooted : Rooted world m)
    (hcredential : agentCredential m.plane actor action = .ok credential)
    (htask : taskFor world m.plane actor action = .ok task)
    (hget : m.plane.idempotent.get? (receiptKey actor credential action) = some receipt)
    (hdigest : receipt.digest = world.crypto.actionDigest action)
    (hescalate : receipt.result.decision=.escalate) (hid : receipt.result.reviewId = some reviewId)
    (standing : Standing m.plane reviewId review)
    (hlive : (world.clock m.readings).micros < receipt.expiresAt.micros)
    (htimely : (world.clock (m.readings+1)).micros < review.expiresAt.micros) :
    ∃ draft, outcome (self.issue world actor action audience (some reviewId)) m =
      (.ok (self.signed world draft), Machine.issuedOn world { m with readings := m.readings+1 } action
        actor.subject (self.signed world draft) review (some reviewId)) := by
  obtain ⟨_, ⟨tenant, hhead, _, hactive⟩, habout⟩ := rooted.receipts _ _ _ hget hid
  obtain ⟨⟨name, hprincipal⟩, ⟨action', hdigest', htask'⟩, hsame, hepoch⟩ := habout _ standing.found
  obtain rfl : action.tenantId=tenant := Option.some.inj hhead
  simp only [receiptKey, List.cons.injEq, and_true] at hprincipal
  obtain ⟨htenant, hsubject, hkey, _⟩ := hprincipal
  have hpresent := standing.epoch
  rw [← htenant] at hpresent
  have hnow : receipt.epoch = m.plane.epoch action.tenantId := by
    rw [← hepoch, ControlState.epoch, hpresent, Option.getD_some]
  obtain ⟨scope, amount, hscope, hamount⟩ := rooted.scoped htask
  have hevaluate := evaluate_replayed hcredential hget hdigest hnow hlive
  have hreview : review.actionDigest = world.crypto.actionDigest action := hsame.trans hdigest
  have hgrants : Grants world m.plane actor action (some reviewId) review :=
    ⟨standing.found, standing.resolved, standing.allows, standing.unused, hreview, hpresent,
      hsubject.symm, (congrArg some hkey.symm).trans (agentCredential_ok hcredential).symm,
      htask'.trans (actionDigest_task collisionFree (hdigest'.symm.trans hreview)).2⟩
  have hnamed : receipt.result.reviewId = some review.reviewId :=
    hid.trans (congrArg some (rooted.keyed _ _ standing.found).1.symm)
  obtain ⟨draft, hdraft⟩ := @draftGrant_made world _ actor _ _ _ _ _ hscope (hactive hnow) hpresent
    review.positive hamount audience (world.uuid m.identifiers) (world.clock (m.readings+2))
    (world.clock (m.readings+3))
  exact ⟨draft, issue_reviewed htask hevaluate hescalate (grantingReview_of hgrants hnamed htimely)
    hdraft⟩

/-- An evaluation asked for the review, and a reviewer then allowed it. -/
structure Approved {σ : Type} (step : σ → ControlEvent → σ → Prop) (actor : Actor)
    (action : ActionRequest) (decision : DecisionResponse) (reviewId : String) (review : Review)
    (asked answered resolving resolved : σ) : Prop where
  evaluated : step asked (.evaluate actor action, .ok (.decided decision)) answered
  escalated : decision.decision=.escalate
  named : decision.reviewId = some reviewId
  allowed : ∃ tenant reviewer reason, step resolving
    (.resolveReview tenant reviewer reviewId .allow reason, .ok (.reviewed review)) resolved

/-- What has not changed from the resolution on: the epoch, and that nothing is granted on the review;
the agent is authorized, and its strict task allows the action. -/
structure Unchanged (world : World) (s s' : ControlState) (actor : Actor) (action : ActionRequest)
    (reviewId : String) : Prop where
  epoch : s'.epochs.get? action.tenantId = s.epochs.get? action.tenantId
  authorized : ∃ credential, agentCredential s' actor action = .ok credential
  task : ∃ task, taskFor world s' actor action = .ok task
  unused : ∀ review, s'.reviews.get? reviewId = some review → review.grantNonce=none

/-- What a resolution with ALLOW leaves. -/
structure Resolved (s : ControlState) (reviewId : String) (review : Review) : Prop where
  found : s.reviews.get? reviewId = some review
  status : review.status=.resolved
  allows : review.resolution = some .allow
  epoch : s.epochs.get? review.tenantId = some review.policyEpoch

theorem resolved_of_step {tenant reviewId reason : String} {reviewer : Actor} {review : Review}
    (keyed : Keyed world m) (h : ControlStep world m
      (.resolveReview tenant reviewer reviewId .allow reason, .ok (.reviewed review)) m') :
    Resolved m'.plane reviewId review := by
  obtain ⟨marks, hemits, hrun⟩ := h.changes
  unfold ControlStep at h
  rw [serve, outcome_map] at h
  obtain ⟨hr, hm⟩ := Prod.mk.inj h
  obtain ⟨after, hreturned, hafter⟩ := Raising.map_ok hr
  cases hafter
  obtain ⟨before, hresolvable, _, rfl, hreviews⟩ := resolveReview_returned (Prod.ext hreturned hm)
  have hid := (keyed _ _ hresolvable.found).1
  have hepochs : m'.plane.epochs=m.plane.epochs := by
    cases hemits with
    | resolved =>
      obtain ⟨u, hfirst, hlast⟩ := hrun.pair
      cases hfirst
      cases hlast
      rfl
  refine ⟨?_, rfl, rfl, ?_⟩
  · rw [hreviews, show (before.resolve _ _ _).reviewId = reviewId from hid]
    exact SortedMap.get?_insert_self _ _ _
  · rw [hepochs]
    exact hresolvable.belongs ▸ hresolvable.epoch

/-- A review that was allowed still stands, unless it has been used. -/
theorem Resolved.standing {s s' : ControlState} {actor : Actor} {action : ActionRequest}
    {reviewId : String} {review later : Review} (h : Resolved s reviewId review)
    (hlater : ReviewLater review later) (hget : s'.reviews.get? reviewId = some later)
    (htenant : review.tenantId=action.tenantId) (unchanged : Unchanged world s s' actor action reviewId) :
    Standing s' reviewId later := by
  have hbound := hlater.bound
  simp only [Prod.mk.injEq] at hbound
  obtain ⟨_, htenant', _, _, _, _, hepoch, _⟩ := hbound
  obtain ⟨hstatus, hresolution, _⟩ := hlater.resolved h.status
  have hpresent := h.epoch
  rw [htenant, ← unchanged.epoch, ← htenant, ← htenant', ← hepoch] at hpresent
  exact ⟨hget, hstatus, hresolution.trans h.allows, unchanged.unused later hget, hpresent⟩

theorem decided_of_step {actor : Actor} {action : ActionRequest} {decision : DecisionResponse}
    (h : ControlStep world m (.evaluate actor action, .ok (.decided decision)) m') :
    Decided world m (.evaluate actor action) actor action decision := by
  unfold ControlStep at h
  rw [serve, outcome_map] at h
  obtain ⟨d, hd, hsame⟩ := Raising.map_ok (Prod.mk.inj h).1
  cases hsame
  exact ⟨rfl, hd, Or.inr rfl⟩

/-- In memory: an allowed review can be used exactly until the receipt of its decision expires. -/
theorem ControlPlane.review_usable {es fs gs : List ControlEvent} {actor : Actor}
    {action : ActionRequest} {decision : DecisionResponse} {reviewId audience : String}
    {review : Review} {asked answered resolving resolved now after : Machine}
    {authority : ExecutionAuthority} {response : Except ServiceError ControlResponse}
    (collisionFree : Function.Injective world.crypto.sha256) (h : ControlRun world {} es asked)
    (approved : Approved (ControlStep world) actor action decision reviewId review asked answered
      resolving resolved)
    (hbetween : ControlRun world answered fs resolving) (hsince : ControlRun world resolved gs now)
    (unchanged : Unchanged world resolved.plane now.plane actor action reviewId)
    (hissue : ControlStep world now (.issue authority actor action audience (some reviewId), response)
      after)
    (htimely : (world.clock (now.readings+1)).micros < review.expiresAt.micros) :
    ∃ credential k, actor.serviceKeyId = some credential ∧ k< answered.readings ∧
      (asked.plane.idempotent.get? (receiptKey actor credential action) = none → asked.readings ≤ k) ∧
      ((∃ grant, response = .ok (.granted grant)) ↔
        (world.clock now.readings).micros < ((world.clock k).later (seconds 300)).micros) := by
  obtain ⟨_, _, hpast⟩ := ControlRun.changes h
  obtain ⟨credential, receipt, k, hactor, hget, hanswers, hk, hfresh, hexpires⟩ :=
    (decided_of_step approved.evaluated).lifetime approved.evaluated ((lifetimes_empty 0 0).run hpast)
  refine ⟨credential, k, hactor, hk, hfresh, ?_⟩
  rw [← hexpires]
  obtain ⟨tenant, reviewer, reason, hresolution⟩ := approved.allowed
  have hresolving : Rooted world resolving :=
    (((rooted_empty 0 0).history h).history (.single approved.evaluated)).history hbetween
  have hresolved : Rooted world resolved := hresolution.rooted hresolving
  have hrooted : Rooted world now := hresolved.history hsince
  -- the receipt and the review are still there
  obtain ⟨_, _, hfirst⟩ := hbetween.changes
  obtain ⟨_, _, hsecond⟩ := hresolution.changes
  obtain ⟨_, _, hthird⟩ := hsince.changes
  have hreceipt := receipt_run hthird (receipt_run hsecond (receipt_run hfirst hget))
  have hreview := resolved_of_step hresolving.keyed hresolution
  obtain ⟨later, hlater, hkept⟩ := (reviews_run hthird hresolved.keyed).1 _ _ hreview.found
  obtain ⟨credential', hcredential⟩ := unchanged.authorized
  obtain rfl : credential'=credential :=
    Option.some.inj ((agentCredential_ok hcredential).symm.trans hactor)
  obtain ⟨task, htask⟩ := unchanged.task
  have hnamed : receipt.result.reviewId = some reviewId := hanswers.result ▸ approved.named
  obtain ⟨name, hprincipal⟩ :=
    ((hrooted.receipts _ _ _ hreceipt hnamed).about _ hlater).principal
  have hbound := hkept.bound
  simp only [Prod.mk.injEq] at hbound
  have htenant : review.tenantId=action.tenantId :=
    hbound.2.1.symm.trans (List.cons.inj hprincipal).1.symm
  have hstanding := hreview.standing hkept hlater htenant unchanged
  unfold ControlStep at hissue
  rw [serve, outcome_map] at hissue
  obtain ⟨hresponse, _⟩ := Prod.mk.inj hissue
  constructor
  · rintro ⟨grant, rfl⟩
    by_contra hlate
    obtain ⟨_, _, hstale⟩ := evaluate_bound hactor hreceipt rfl
    obtain ⟨message, hconflict⟩ := hstale hcredential (Or.inr (Or.inr (not_lt.mp hlate)))
    rw [issue_unevaluated htask (Prod.ext hconflict rfl)] at hresponse
    cases hresponse
  · intro hlive
    obtain ⟨draft, hissued⟩ := issue_standing collisionFree hrooted hcredential htask hreceipt
      hanswers.digest (hanswers.result ▸ approved.escalated) hnamed hstanding hlive
      (by rw [hbound.2.2.2.2.2.2.2]; exact htimely)
    rw [hissued] at hresponse
    exact ⟨_, hresponse.symm⟩

end TraceGuard
