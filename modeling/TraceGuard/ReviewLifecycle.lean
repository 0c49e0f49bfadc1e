import TraceGuard.PolicyLifecycle
import TraceGuard.Receipts

/-! Human reviews: who resolves them and when, what they keep, and that each permits at most one
execution grant. -/
namespace TraceGuard
open Stateful Traces ControlPlane ExecutionAuthority ControlState

variable {world : World} {m m' : Machine}

/-- Reviews stand under their ids, which were drawn before. -/
def Keyed (world : World) (m : Machine) : Prop :=
  ∀ key review, m.plane.reviews.get? key = some review →
    review.reviewId=key ∧ ∃ k < m.identifiers, key = world.uuid k

/-- The later state of a review. -/
structure ReviewLater (r r' : Review) : Prop where
  bound : (r'.reviewId, r'.tenantId, r'.actionDigest, r'.agentSubject, r'.serviceKeyId, r'.taskId,
    r'.policyEpoch, r'.expiresAt) = (r.reviewId, r.tenantId, r.actionDigest, r.agentSubject,
    r.serviceKeyId, r.taskId, r.policyEpoch, r.expiresAt)
  resolved : r.status=.resolved → r'.status=.resolved ∧ r'.resolution=r.resolution ∧
    r'.resolvedBy=r.resolvedBy ∧ r'.reason=r.reason
  granted : ∀ nonce, r.grantNonce = some nonce → r'.grantNonce = some nonce

namespace ReviewLater

theorem refl (r : Review) : ReviewLater r r := ⟨rfl, fun h => ⟨h, rfl, rfl, rfl⟩, fun _ h => h⟩

theorem trans {r r' r'' : Review} (h : ReviewLater r r') (h' : ReviewLater r' r'') :
    ReviewLater r r'' := by
  refine ⟨h'.bound.trans h.bound, fun hr => ?_, fun nonce hn => h'.granted nonce (h.granted nonce hn)⟩
  obtain ⟨hs, hres, hby, hreason⟩ := h.resolved hr
  obtain ⟨hs', hres', hby', hreason'⟩ := h'.resolved hs
  exact ⟨hs', hres'.trans hres, hby'.trans hby, hreason'.trans hreason⟩

end ReviewLater

/-- Reviews stay, each in a later state. -/
def ReviewsKept (m m' : Machine) : Prop :=
  ∀ key review, m.plane.reviews.get? key = some review →
    ∃ review', m'.plane.reviews.get? key = some review' ∧ ReviewLater review review'

theorem ReviewsKept.trans {m m' m'' : Machine} (h : ReviewsKept m m') (h' : ReviewsKept m' m'') :
    ReviewsKept m m'' := by
  intro key review hget
  obtain ⟨review', hget', hlater⟩ := h key review hget
  obtain ⟨review'', hget'', hlater'⟩ := h' key review' hget'
  exact ⟨review'', hget'', hlater.trans hlater'⟩

/-- What a review must be for a grant to rest on it. -/
structure Grants (world : World) (s : ControlState) (actor : Actor) (action : ActionRequest)
    (reviewId : Option String) (review : Review) : Prop where
  found : s.reviews.get? (reviewId.getD "") = some review
  resolved : review.status=.resolved
  allows : review.resolution = some .allow
  unused : review.grantNonce=none
  digest : review.actionDigest = world.crypto.actionDigest action
  epoch : s.epochs.get? action.tenantId = some review.policyEpoch
  subject : review.agentSubject=actor.subject
  credential : some review.serviceKeyId = actor.serviceKeyId
  task : review.taskId=action.taskId

theorem grantingReview_ok {s : ControlState} {actor : Actor} {action : ActionRequest}
    {decision : DecisionResponse} {reviewId : Option String} {t : Instant} {review : Review}
    (h : grantingReview world s actor action decision reviewId t = .ok review) :
    Grants world s actor action reviewId review ∧ decision.reviewId = some review.reviewId := by
  unfold grantingReview at h
  cases hget : s.reviews.get? (reviewId.getD "") with
  | none => rw [hget] at h; cases h
  | some found =>
    rw [hget] at h
    simp only at h
    split_ifs at h with hwrong
    cases h
    simp only [not_or, not_not, Bool.not_eq_true, Option.isSome_eq_false_iff,
      Option.isNone_iff_eq_none] at hwrong
    obtain ⟨hid, hstatus, hallow, hunused, _, hdigest, hepoch, hprincipal⟩ := hwrong
    obtain ⟨hsubject, hprincipal⟩ := Prod.mk.inj hprincipal
    obtain ⟨hcredential, htask⟩ := Prod.mk.inj hprincipal
    exact ⟨⟨hget, hstatus, hallow, hunused, hdigest, hepoch, hsubject, hcredential, htask⟩, hid.symm⟩

/-- What a change does to the reviews. -/
theorem Change.review_cases {mark : Mark} (h : Change world m mark m') (keyed : Keyed world m) :
    m'.plane.reviews = m.plane.reviews ∨
    (∃ review, mark = .opened review ∧ review.reviewId = world.uuid m.identifiers ∧
      review.status=.pending ∧ m'.plane.reviews = m.plane.reviews.insert review.reviewId review ∧
      m'.identifiers = m.identifiers+1) ∨
    ∃ r r', m.plane.reviews.get? r'.reviewId = some r ∧
      m'.plane.reviews = m.plane.reviews.insert r'.reviewId r' ∧ ReviewLater r r' ∧
      (r'.status=.resolved → r.status=.resolved ∨
        ∃ actor resolution, mark = .resolved actor r resolution) := by
  cases h with
  | opened fresh pending => exact Or.inr (Or.inl ⟨_, rfl, fresh, pending, rfl, rfl⟩)
  | @expired reviewId review found pending =>
    obtain ⟨rfl, _⟩ := keyed _ _ found
    refine Or.inr (Or.inr ⟨review, { review with status := .expired }, found, rfl,
      ⟨rfl, fun hr => ?_, fun _ hn => hn⟩, fun hr => ?_⟩)
    · rw [pending] at hr
      cases hr
    · exact absurd hr (by simp)
  | @resolved actor tenant reviewId review resolution reason pending =>
    have hresolvable := pendingReview_ok pending
    obtain ⟨rfl, _⟩ := keyed _ _ hresolvable.found
    refine Or.inr (Or.inr ⟨review, review.resolve actor.subject resolution reason, hresolvable.found,
      rfl, ⟨rfl, fun hr => ?_, fun _ hn => hn⟩, fun _ => Or.inr ⟨_, _, rfl⟩⟩)
    rw [hresolvable.pending] at hr
    cases hr
  | @granted self actor action audience decision reviewId review task draft _ _ _ permitted =>
    rw [recordGrant_eq]
    cases review with
    | none => exact Or.inl rfl
    | some review =>
      obtain ⟨_, k, _, hgranting⟩ := permitted
      obtain ⟨hgrants, _⟩ := grantingReview_ok hgranting
      have hfound := hgrants.found
      rw [← (keyed _ _ hfound).1] at hfound
      refine Or.inr (Or.inr ⟨review,
        { review with grantNonce := some (self.signed world draft).nonce }, hfound, rfl,
        ⟨rfl, fun hr => ⟨hr, rfl, rfl, rfl⟩, ?_⟩, Or.inl⟩)
      intro nonce hn
      rw [hgrants.unused] at hn
      cases hn
  | _ => exact Or.inl rfl

theorem Change.reviewsKept {mark : Mark} (h : Change world m mark m') (keyed : Keyed world m) :
    ReviewsKept m m' := by
  intro key review hget
  rcases h.review_cases keyed with hsame | ⟨opened, _, hfresh, _, hinsert, _⟩ |
    ⟨r, r', hr, hinsert, hlater, _⟩
  · exact ⟨review, hsame ▸ hget, .refl _⟩
  · -- the identifier of a new review is drawn for the first time
    have hne : key≠opened.reviewId := by
      rintro rfl
      obtain ⟨_, k, hlt, hk⟩ := keyed _ _ hget
      have hcollision := world.fresh (hk.symm.trans hfresh)
      omega
    exact ⟨review, by rw [hinsert, SortedMap.get?_insert_ne _ _ hne, hget], .refl _⟩
  · by_cases hk : key=r'.reviewId
    · subst hk
      rw [hr] at hget
      cases hget
      exact ⟨r', by rw [hinsert, SortedMap.get?_insert_self], hlater⟩
    · exact ⟨review, by rw [hinsert, SortedMap.get?_insert_ne _ _ hk, hget], .refl _⟩

theorem Change.keyed {mark : Mark} (h : Change world m mark m') (keyed : Keyed world m) :
    Keyed world m' := by
  have hcount := h.identifiers
  have hold : ∀ key review, m.plane.reviews.get? key = some review →
      review.reviewId=key ∧ ∃ k < m'.identifiers, key = world.uuid k := fun key review hget => by
    obtain ⟨hid, k, hlt, hk⟩ := keyed key review hget
    exact ⟨hid, k, hlt.trans_le hcount, hk⟩
  intro key review hget
  rcases h.review_cases keyed with hsame | ⟨opened, _, hfresh, _, hinsert, hnext⟩ |
    ⟨r, r', hr, hinsert, _⟩
  · exact hold key review (hsame ▸ hget)
  · rw [hinsert, SortedMap.get?_insert] at hget
    split at hget
    · rename_i hk
      cases hget
      exact ⟨hk.symm, m.identifiers, by omega, hk.trans hfresh⟩
    · exact hold key review hget
  · rw [hinsert, SortedMap.get?_insert] at hget
    split at hget
    · rename_i hk
      cases hget
      exact ⟨hk.symm, hk ▸ (hold _ _ hr).2⟩
    · exact hold key review hget

theorem reviews_run {marks : List Mark} (h : Run (Change world) m marks m') (keyed : Keyed world m) :
    ReviewsKept m m' ∧ Keyed world m' :=
  Run.related (R := ReviewsKept) (I := Keyed world) (fun _ _ review hget => ⟨review, hget, .refl _⟩)
    (fun _ _ _ => .trans) (fun _ _ _ keyed hc => hc.keyed keyed)
    (fun _ _ _ keyed hc => hc.reviewsKept keyed) h keyed

theorem keyed_start : Keyed world {} := fun _ _ h => by cases h

theorem ControlRun.keyed {es : List ControlEvent} (h : ControlRun world {} es m) : Keyed world m := by
  obtain ⟨_, _, hrun⟩ := ControlRun.changes h
  exact (reviews_run hrun keyed_start).2

/-- Only a resolution makes a review resolved. -/
theorem Change.resolved_before {mark : Mark} {key : String} {review : Review}
    (h : Change world m mark m') (keyed : Keyed world m)
    (hm : ∀ actor r resolution, mark≠.resolved actor r resolution)
    (hget : m'.plane.reviews.get? key = some review) (hs : review.status=.resolved) :
    ∃ before, m.plane.reviews.get? key = some before ∧ before.status=.resolved ∧
      ReviewLater before review := by
  rcases h.review_cases keyed with hsame | ⟨opened, _, _, hpending, hinsert, _⟩ |
    ⟨r, r', hr, hinsert, hlater, hbefore⟩
  · exact ⟨review, hsame ▸ hget, hs, .refl _⟩
  · rw [hinsert, SortedMap.get?_insert] at hget
    split at hget
    · cases hget
      rw [hpending] at hs
      cases hs
    · exact ⟨review, hget, hs, .refl _⟩
  · rw [hinsert, SortedMap.get?_insert] at hget
    split at hget
    · rename_i hk
      cases hget
      rcases hbefore hs with hold | ⟨actor, resolution, rfl⟩
      · exact ⟨r, hk ▸ hr, hold, hlater⟩
      · exact absurd rfl (hm actor r resolution)
    · exact ⟨review, hget, hs, .refl _⟩

theorem resolved_before_run {marks : List Mark} {key : String} {review : Review}
    (h : Run (Change world) m marks m') (keyed : Keyed world m)
    (hm : ∀ actor r resolution, .resolved actor r resolution∉marks)
    (hget : m'.plane.reviews.get? key = some review) (hs : review.status=.resolved) :
    ∃ before, m.plane.reviews.get? key = some before ∧ before.status=.resolved ∧
      ReviewLater before review := by
  induction h generalizing review with
  | nil => exact ⟨review, hget, hs, .refl _⟩
  | snoc past last ih =>
    obtain ⟨middle, hmiddle, hstatus, hlater⟩ := last.resolved_before (reviews_run past keyed).2
      (fun actor r resolution he => hm actor r resolution (by simp [he])) hget hs
    obtain ⟨before, hbefore, hstatus', hlater'⟩ := ih
      (fun actor r resolution hmem => hm actor r resolution (List.mem_append_left _ hmem)) hmiddle hstatus
    exact ⟨before, hbefore, hstatus', hlater'.trans hlater⟩

/-- The review of a receipt is one of the key's tenant. -/
def Linked (m : Machine) : Prop :=
  ∀ key receipt reviewId, m.plane.idempotent.get? key = some receipt →
    receipt.result.reviewId = some reviewId →
    ∃ review, m.plane.reviews.get? reviewId = some review ∧ key.head? = some review.tenantId

theorem Change.linked {mark : Mark} (h : Change world m mark m') (keyed : Keyed world m)
    (linked : Linked m) : Linked m' := by
  have hkept := h.reviewsKept keyed
  have hstill : ∀ (key : List String) reviewId, (∃ review, m.plane.reviews.get? reviewId = some review ∧
      key.head? = some review.tenantId) → ∃ review, m'.plane.reviews.get? reviewId = some review ∧
      key.head? = some review.tenantId := by
    rintro key reviewId ⟨review, hget, hhead⟩
    obtain ⟨review', hget', hlater⟩ := hkept _ _ hget
    exact ⟨review', hget', hhead.trans (congrArg (fun b => some b.2.1) hlater.bound.symm)⟩
  intro key receipt reviewId hkey hid
  rcases h.receipt_cases with hsame | ⟨key', receipt', hinsert, _, _, hnew⟩
  · exact hstill _ _ (linked key receipt reviewId (hsame ▸ hkey) hid)
  · rw [hinsert, SortedMap.get?_insert] at hkey
    split at hkey
    · rename_i hk
      cases hkey
      exact hstill _ _ (hk ▸ hnew reviewId hid)
    · exact hstill _ _ (linked key receipt reviewId hkey hid)

theorem linked_run {marks : List Mark} (h : Run (Change world) m marks m') (keyed : Keyed world m)
    (linked : Linked m) : Linked m' := by
  induction h with
  | nil => exact linked
  | snoc past last ih => exact last.linked (reviews_run past keyed).2 ih

/-- An issuance on the strength of a review: the decision on the action was ESCALATE. -/
inductive GrantedOn (world : World) (m : Machine) :
    ControlEvent → String → Actor → ActionRequest → ExecutionGrant → Prop
  | intro {authority : ExecutionAuthority} {actor : Actor} {action : ActionRequest} {audience : String}
      {reviewId : Option String} {grant : ExecutionGrant} {decision : DecisionResponse}
      {evaluated : Machine}
      (evaluation : outcome (ControlPlane.evaluate world actor action) m = (.ok decision, evaluated))
      (escalated : decision.decision=.escalate) :
      GrantedOn world m (.issue authority actor action audience reviewId, .ok (.granted grant))
        (reviewId.getD "") actor action grant

/-- What a review is when a grant rests on it. -/
structure GrantingReview (world : World) (s : ControlState) (actor : Actor) (action : ActionRequest)
    (review : Review) : Prop where
  resolved : review.status=.resolved
  allows : review.resolution = some .allow
  unused : review.grantNonce=none
  digest : review.actionDigest = world.crypto.actionDigest action
  subject : review.agentSubject=actor.subject
  credential : some review.serviceKeyId = actor.serviceKeyId
  task : review.taskId=action.taskId
  tenant : review.tenantId=action.tenantId
  epoch : s.epochs.get? action.tenantId = some review.policyEpoch

theorem granted_on {e : ControlEvent} {key : String} {actor : Actor} {action : ActionRequest}
    {grant : ExecutionGrant} (keyed : Keyed world m) (linked : Linked m)
    (hstep : ControlStep world m e m') (h : GrantedOn world m e key actor action grant) :
    (∃ review, m.plane.reviews.get? key = some review ∧
        GrantingReview world m.plane actor action review) ∧
      ∃ review, m'.plane.reviews.get? key = some review ∧ review.grantNonce = some grant.nonce := by
  obtain @⟨authority, _, _, audience, reviewId, _, decision, evaluated, hevaluation, hescalated⟩ := h
  unfold ControlStep at hstep
  rw [serve, outcome_map] at hstep
  obtain ⟨hreturned, hm⟩ := Prod.mk.inj hstep
  obtain ⟨grant', hissue, hgrant⟩ := Raising.map_ok hreturned
  cases hgrant
  rcases issue_cases (Prod.ext hissue hm) with ⟨_, _, _, he, _⟩ | ⟨_, hok, ⟨i⟩⟩
  · cases he
  · cases hok
    obtain ⟨task, decision', evaluated', readings, review, draft, allows, evaluation, permitted, made,
      rfl, rfl⟩ := i
    rw [evaluation] at hevaluation
    obtain ⟨hd, rfl⟩ := Prod.mk.inj hevaluation
    cases hd
    cases review with
    | none =>
      rw [show decision.decision=.allow from permitted] at hescalated
      cases hescalated
    | some review =>
      obtain ⟨_, k, _, hgranting⟩ := permitted
      obtain ⟨hgrants, hid⟩ := grantingReview_ok hgranting
      obtain ⟨marks, hmarks, hrun⟩ := evaluate_changes evaluation
      have hafter := reviews_run hrun keyed
      have hkey := (hafter.2 _ _ hgrants.found).1
      -- the review was resolved before the evaluation
      obtain ⟨before, hbefore, hstatus, hlater⟩ := resolved_before_run hrun keyed
        (fun _ _ _ hmem => by cases hmarks.minor _ hmem) hgrants.found hgrants.resolved
      obtain ⟨-, hresolution, -⟩ := hlater.resolved hstatus
      have hunused : before.grantNonce=none := by
        cases hnonce : before.grantNonce with
        | none => rfl
        | some nonce =>
          have hlate := hlater.granted nonce hnonce
          rw [hgrants.unused] at hlate
          cases hlate
      -- the decision's receipt links the review to the tenant
      obtain ⟨credential, receipt, -, hreceipt, hanswers, -⟩ := evaluate_receipt evaluation
      obtain ⟨review', hreview', hhead⟩ := linked_run hrun keyed linked _ _ _ hreceipt
        (hanswers.result ▸ hid)
      rw [hkey, hgrants.found] at hreview'
      cases hreview'
      have htenant : review.tenantId=action.tenantId := (Option.some.inj hhead).symm
      have hepoch := hgrants.epoch
      simp only [(minor_run hrun hmarks.minor).epochs] at hepoch
      have hbound := hlater.bound
      simp only [Prod.mk.injEq] at hbound
      obtain ⟨-, htenant', hdigest, hsubject, hcredential, htask, hpolicyEpoch, -⟩ := hbound
      refine ⟨⟨before, hbefore, ⟨hstatus, hresolution ▸ hgrants.allows, hunused, hdigest ▸ hgrants.digest,
        hsubject ▸ hgrants.subject, hcredential ▸ hgrants.credential, htask ▸ hgrants.task,
        htenant' ▸ htenant, hpolicyEpoch ▸ hepoch⟩⟩,
        { review with grantNonce := some (authority.signed world draft).nonce }, ?_, rfl⟩
      rw [← hkey]
      exact SortedMap.get?_insert_self _ _ _

/-- The actor resolved the review as a reviewer of its tenant, in its epoch and in time. -/
structure ResolvedBy (world : World) (m : Machine) (e : ControlEvent) (key : String) (review : Review)
    (actor : Actor) : Prop where
  operation : ∃ resolution reason,
    e = (.resolveReview review.tenantId actor key resolution reason, .ok (.reviewed review))
  reviewer : Role.reviewer∈actor.roles ∧ review.tenantId∈actor.tenantIds
  other : actor.subject≠review.agentSubject
  epoch : m.plane.epochs.get? review.tenantId = some review.policyEpoch
  timely : (world.clock m.readings).micros ≤ review.expiresAt.micros

theorem resolved_by {e : ControlEvent} {key : String} {review : Review} (keyed : Keyed world m)
    (hstep : ControlStep world m e m') (hget : m'.plane.reviews.get? key = some review)
    (hs : review.status=.resolved)
    (hnew : ∀ before, m.plane.reviews.get? key = some before → before.status≠.resolved) :
    ∃ actor, ResolvedBy world m e key review actor := by
  obtain ⟨marks, hemits, hrun⟩ := hstep.changes
  by_cases hmark : ∃ actor r resolution, Mark.resolved actor r resolution∈marks
  · obtain ⟨actor, r, resolution, hmem⟩ := hmark
    obtain ⟨tenant, reviewId, reason, after, hq, hr⟩ := hemits.resolved_by hmem
    obtain ⟨q, response⟩ := e
    obtain rfl : q = .resolveReview tenant actor reviewId resolution reason := hq
    obtain rfl : response = .ok (.reviewed after) := hr
    unfold ControlStep at hstep
    rw [serve, outcome_map] at hstep
    obtain ⟨hreturned, hm⟩ := Prod.mk.inj hstep
    obtain ⟨after', hresolve, hafter⟩ := Raising.map_ok hreturned
    cases hafter
    obtain ⟨pending, hresolvable, htimely, rfl, hreviews⟩ := resolveReview_returned (Prod.ext hresolve hm)
    have hid := (keyed _ _ hresolvable.found).1
    rw [hreviews, SortedMap.get?_insert] at hget
    split at hget
    · rename_i hk
      cases hget
      obtain rfl : tenant=pending.tenantId := hresolvable.belongs.symm
      obtain ⟨htenant, hrole⟩ := require_ok hresolvable.role
      refine ⟨actor, ⟨⟨resolution, reason, ?_⟩, ⟨hrole, htenant⟩, hresolvable.other.symm,
        hresolvable.epoch, htimely⟩⟩
      rw [hk]
      exact congrArg (fun k => ((.resolveReview pending.tenantId actor k resolution reason,
        .ok (.reviewed _)) : ControlEvent)) hid.symm
    · exact absurd hs (hnew review hget)
  · obtain ⟨before, hbefore, hstatus, _⟩ := resolved_before_run hrun keyed
      (fun actor r resolution hmem => hmark ⟨actor, r, resolution, hmem⟩) hget hs
    exact absurd hstatus (hnew before hbefore)

/-- In every run: reviews are resolved by another reviewer, in time and in their epoch; they keep what
they are about and their resolution; and each permits at most one grant, of its own action. -/
theorem ControlPlane.human_review {es : List ControlEvent} {e : ControlEvent}
    (h : ControlRun world {} es m) (hstep : ControlStep world m e m') :
    (∀ key review, m'.plane.reviews.get? key = some review → review.status=.resolved →
        (∀ before, m.plane.reviews.get? key = some before → before.status≠.resolved) →
        ∃ actor, ResolvedBy world m e key review actor) ∧
      (∀ fs u, ControlRun world m fs u → ReviewsKept m u) ∧
      ∀ key actor action grant, GrantedOn world m e key actor action grant →
        (∃ review, m.plane.reviews.get? key = some review ∧
          GrantingReview world m.plane actor action review) ∧
        ∀ fs u e' u', ControlRun world m' fs u → ControlStep world u e' u' →
          ∀ actor' action' grant', ¬GrantedOn world u e' key actor' action' grant' := by
  have keyed := h.keyed
  obtain ⟨_, _, hpast⟩ := ControlRun.changes h
  have linked := linked_run hpast keyed_start fun _ _ _ hkey => by cases hkey
  refine ⟨fun key review hget hs hnew => resolved_by keyed hstep hget hs hnew, fun fs u hrun => ?_,
    fun key actor action grant hon => ?_⟩
  · obtain ⟨_, _, hchanges⟩ := hrun.changes
    exact (reviews_run hchanges keyed).1
  · obtain ⟨hreview, used, hused, hnonce⟩ := granted_on keyed linked hstep hon
    refine ⟨hreview, fun fs u e' u' hrun hstep' actor' action' grant' hon' => ?_⟩
    obtain ⟨_, _, hmoved⟩ := hstep.changes
    obtain ⟨_, _, hchanges⟩ := hrun.changes
    obtain ⟨_, keyed'⟩ := reviews_run hmoved keyed
    obtain ⟨hkept, keyed''⟩ := reviews_run hchanges keyed'
    have linked'' := linked_run hchanges keyed' (linked_run hmoved keyed linked)
    obtain ⟨⟨review, hfound, hgranting⟩, _⟩ := granted_on keyed'' linked'' hstep' hon'
    obtain ⟨later, hlater, hstill⟩ := hkept _ _ hused
    rw [hfound] at hlater
    cases hlater
    have hagain := hstill.granted _ hnonce
    rw [hgranting.unused] at hagain
    cases hagain

def sampleAgent : Actor := ⟨"agent", [.agent], some "credential", ["tenant"], none⟩

def sampleReviewer : Actor := ⟨"reviewer", [.reviewer], none, ["tenant"], none⟩

def sampleEscalation : PolicyDraft where
  name := "ask"
  rules := [⟨"rule", "ask", 0, {}, .escalate, "ask", none, false,
    PolicyRule.unrewritten .escalate Decision.escalate_ne, by simp⟩]
  nonempty := by simp
  distinct := by simp
  withholds := PolicyDraft.blocks

def sampleProposal : ActionRequest where
  tenantId := "tenant"
  idempotencyKey := "first-key"
  actionId := "action"
  kind := .tool
  operation := "read"

/-- After an evaluation that asks for a review. -/
def sampleAsked : Machine :=
  (served sampleWorld {} [.createDraft "tenant" sampleAdmin sampleEscalation,
    .submitPolicy "tenant" sampleAdmin "", .approvePolicy "tenant" sampleApprover "",
    .evaluate sampleAgent sampleProposal]).2

def sampleResolution : ControlRequest := .resolveReview "tenant" sampleReviewer "iiiii" .allow "fine"

theorem ControlPlane.human_review_sample : ∃ review actor,
    ResolvedBy sampleWorld sampleAsked
      (sampleResolution, (outcome (serve sampleWorld sampleResolution) sampleAsked).1) "iiiii" review
      actor := by
  have hafter : ((outcome (serve sampleWorld sampleResolution) sampleAsked).2.plane.reviews.get?
      "iiiii").map Review.status = some .resolved := by decide +kernel
  have hbefore : (sampleAsked.plane.reviews.get? "iiiii").map Review.status = some .pending := by
    decide +kernel
  obtain ⟨review, hget, hs⟩ := Option.map_eq_some_iff.mp hafter
  have hstep : ControlStep sampleWorld sampleAsked (sampleResolution, _)
    (outcome (serve sampleWorld sampleResolution) sampleAsked).2 := rfl
  have hrun : ControlRun sampleWorld {} _ sampleAsked := served_run _ _ _
  refine ⟨review, (ControlPlane.human_review hrun hstep).1 "iiiii" review hget hs fun before hb => ?_⟩
  rw [hb] at hbefore
  rw [Option.some.inj hbefore]
  decide

end TraceGuard
