import TraceGuard.GrantCurrency
import TraceGuard.ReviewLifecycle

/-! What holds of the stored reviews, receipts and grants whatever identifiers they were given, as long
as the identifiers to come are new. -/
namespace TraceGuard
open Stateful Traces ControlPlane ExecutionAuthority ControlState

structure Sound (crypto : Crypto) (s : ControlState) : Prop where
  keyed : ∀ key review, s.reviews.get? key = some review → review.reviewId=key
  linked : ∀ key receipt reviewId, s.idempotent.get? key = some receipt →
    receipt.result.reviewId = some reviewId →
    ∃ review, s.reviews.get? reviewId = some review ∧ key.head? = some review.tenantId
  issued : ∀ nonce text, s.executionIssued.get? nonce = some text →
    ∃ (grant : ExecutionGrant) (action : ActionRequest), text=grant.dumpJson ∧
      grant.tenantId=action.tenantId ∧ grant.actionDigest = crypto.actionDigest action

/-- The identifier names no review and no grant. -/
structure Absent (s : ControlState) (id : String) : Prop where
  review : s.reviews.get? id = none
  grant : s.executionIssued.get? id = none

/-- The identifiers to come are new. -/
def Spare (world : World) (m : Machine) : Prop :=
  ∀ k, m.identifiers ≤ k → Absent m.plane (world.uuid k)

variable {world : World} {m m' : Machine}

theorem sound_empty (crypto : Crypto) : Sound crypto {} :=
  ⟨fun _ _ h => (by cases h), fun _ _ _ h => (by cases h), fun _ _ h => (by cases h)⟩

theorem Sound.same {crypto : Crypto} {s s' : ControlState} (h : Sound crypto s)
    (reviews : s'.reviews=s.reviews) (receipts : s'.idempotent=s.idempotent)
    (issued : s'.executionIssued=s.executionIssued) : Sound crypto s' := by
  refine ⟨?_, ?_, ?_⟩
  · rw [reviews]
    exact h.keyed
  · rw [reviews, receipts]
    exact h.linked
  · rw [issued]
    exact h.issued

/-- A review in the place of none, or of one of its tenant. -/
theorem Sound.setReview {crypto : Crypto} {s : ControlState} (h : Sound crypto s) {review : Review}
    (hold : ∀ r, s.reviews.get? review.reviewId = some r → r.tenantId=review.tenantId) :
    Sound crypto (setReview s review) := by
  refine ⟨fun key r hget => ?_, fun key receipt reviewId hkey hid => ?_, h.issued⟩
  · change (s.reviews.insert review.reviewId review).get? key = some r at hget
    rw [SortedMap.get?_insert] at hget
    split at hget
    · rename_i hk
      cases hget
      exact hk.symm
    · exact h.keyed key r hget
  · obtain ⟨r, hget, hhead⟩ := h.linked key receipt reviewId hkey hid
    show ∃ r', (s.reviews.insert review.reviewId review).get? reviewId = some r' ∧ _
    rw [SortedMap.get?_insert]
    split
    · rename_i hk
      exact ⟨review, rfl, hhead.trans (congrArg some (hold r (hk ▸ hget)))⟩
    · exact ⟨r, hget, hhead⟩

theorem Sound.replace {crypto : Crypto} {s : ControlState} (h : Sound crypto s) {old review : Review}
    (hold : s.reviews.get? review.reviewId = some old) (ht : review.tenantId=old.tenantId) :
    Sound crypto (ControlPlane.setReview s review) := by
  refine h.setReview fun r hr => ?_
  obtain rfl := Option.some.inj (hold.symm.trans hr)
  exact ht.symm

/-- What is absent is not what is found, nor replaced there. -/
theorem Absent.insert {s : ControlState} {id key : String} {old review : Review} (h : Absent s id)
    (hold : s.reviews.get? key = some old) : (s.reviews.insert key review).get? id = none := by
  rw [SortedMap.get?_insert_ne _ _ ?_]
  · exact h.review
  · rintro rfl
    cases h.review.symm.trans hold

theorem Sound.granted {crypto : Crypto} {s : ControlState} (h : Sound crypto s) {grant : ExecutionGrant}
    {action : ActionRequest} (ht : grant.tenantId=action.tenantId)
    (hd : grant.actionDigest = crypto.actionDigest action) : Sound crypto (recordGrant s grant none) := by
  refine ⟨h.keyed, h.linked, fun nonce text hget => ?_⟩
  change (s.executionIssued.insert grant.nonce grant.dumpJson).get? nonce = some text at hget
  rw [SortedMap.get?_insert] at hget
  split at hget
  · cases hget
    exact ⟨grant, action, rfl, ht, hd⟩
  · exact h.issued nonce text hget

theorem Permitted.found {actor : Actor} {action : ActionRequest} {decision : DecisionResponse}
    {reviewId : Option String} {review : Review}
    (h : Permitted world m actor action decision reviewId (some review))
    (sound : Sound world.crypto m.plane) :
    m.plane.reviews.get? review.reviewId = some review := by
  obtain ⟨_, _, _, hgranting⟩ := h
  have hfound := (grantingReview_ok hgranting).1.found
  rwa [← sound.keyed _ _ hfound] at hfound

theorem draftGrant_nonce {s : ControlState} {actor : Actor} {action : ActionRequest}
    {audience nonce : String} {task : RegisteredTask} {expires issued : Instant} {draft : ExecutionGrant}
    (h : draftGrant world s actor action audience task nonce expires issued = .ok draft) :
    draft.nonce=nonce := by
  obtain ⟨scope, _, h⟩ := Raising.bind_ok h
  cases hpolicy : s.activePolicy action.tenantId with
  | none => rw [hpolicy] at h; cases h
  | some policy =>
    rw [hpolicy] at h
    cases hepoch : s.epochs.get? action.tenantId with
    | none => rw [hepoch] at h; cases h
    | some epoch =>
      rw [hepoch] at h
      obtain ⟨amount, _, h⟩ := Raising.bind_ok h
      obtain ⟨_, h⟩ := Raising.guard_ok h
      cases h
      rfl

/-- A change names only the identifiers that it draws. -/
theorem Change.absent {mark : Mark} {id : String} (h : Change world m mark m')
    (sound : Sound world.crypto m.plane) (absent : Absent m.plane id)
    (hid : ∀ k< m'.identifiers, id≠world.uuid k) : Absent m'.plane id := by
  cases h with
  | @opened review fresh =>
    refine ⟨?_, absent.grant⟩
    show (m.plane.reviews.insert review.reviewId review).get? id = none
    rw [SortedMap.get?_insert_ne _ _ (fresh ▸ hid _ (Nat.lt_succ_self _)), absent.review]
  | @expired reviewId review found =>
    obtain rfl := sound.keyed _ _ found
    exact ⟨absent.insert found, absent.grant⟩
  | @resolved actor tenant reviewId review resolution reason pending =>
    have hfound := (pendingReview_ok pending).found
    obtain rfl := sound.keyed _ _ hfound
    exact ⟨absent.insert hfound, absent.grant⟩
  | bound =>
    refine ⟨absent.review, ?_⟩
    show (m.plane.executionIssued.filter _).get? id = none
    rw [SortedMap.get?_filter, absent.grant]
    rfl
  | @granted self actor action audience decision reviewId review task draft _ _ _ permitted made =>
    have hnonce : (self.signed world draft).nonce = world.uuid m.identifiers :=
      show draft.nonce=_ from draftGrant_nonce made
    have hgrant : (m.plane.executionIssued.insert (self.signed world draft).nonce
        (self.signed world draft).dumpJson).get? id = none := by
      rw [SortedMap.get?_insert_ne _ _ (hnonce ▸ hid _ (Nat.lt_succ_self _)), absent.grant]
    cases review with
    | none => exact ⟨absent.review, hgrant⟩
    | some review => exact ⟨absent.insert (permitted.found sound), hgrant⟩
  | _ => exact ⟨absent.review, absent.grant⟩

theorem Change.spare {mark : Mark} (h : Change world m mark m') (sound : Sound world.crypto m.plane)
    (spare : Spare world m) : Spare world m' := by
  intro k hk
  refine h.absent sound (spare k (h.identifiers.trans hk)) fun j hj hsame => ?_
  have := world.fresh hsame
  omega

/-- Every change keeps the records sound. -/
theorem Change.sound {mark : Mark} (h : Change world m mark m') (sound : Sound world.crypto m.plane)
    (spare : Spare world m) : Sound world.crypto m'.plane := by
  cases h with
  | @opened review fresh =>
    refine sound.setReview fun r hr => ?_
    rw [fresh, (spare _ le_rfl).review] at hr
    cases hr
  | received absent _ linked =>
    refine ⟨sound.keyed, fun key receipt reviewId hget hid => ?_, sound.issued⟩
    dsimp only at hget
    rw [SortedMap.get?_insert] at hget
    split at hget
    · rename_i hk
      cases hget
      exact hk ▸ linked reviewId hid
    · exact sound.linked key receipt reviewId hget hid
  | @expired reviewId review found =>
    obtain rfl := sound.keyed _ _ found
    exact sound.replace found rfl
  | @resolved actor tenant reviewId review resolution reason pending =>
    have hfound := (pendingReview_ok pending).found
    obtain rfl := sound.keyed _ _ hfound
    exact sound.replace hfound rfl
  | bound =>
    refine ⟨sound.keyed, sound.linked, fun nonce text hget => ?_⟩
    change (m.plane.executionIssued.filter _).get? nonce = some text at hget
    rw [SortedMap.get?_filter] at hget
    exact sound.issued nonce text (Option.filter_eq_some_iff.mp hget).1
  | @granted self actor action audience decision reviewId review task draft _ _ _ permitted made =>
    have hdrafts := draftGrant_ok made
    have hgranted : Sound world.crypto (recordGrant m.plane (self.signed world draft) none) :=
      sound.granted hdrafts.tenant hdrafts.digest
    cases review with
    | none => exact hgranted
    | some review => exact hgranted.replace (permitted.found sound) rfl
  | _ => exact sound.same rfl rfl rfl

theorem sound_run {marks : List Mark} (h : Run (Change world) m marks m')
    (sound : Sound world.crypto m.plane) (spare : Spare world m) :
    Sound world.crypto m'.plane ∧ Spare world m' := by
  induction h with
  | nil => exact ⟨sound, spare⟩
  | snoc past last ih => exact ⟨last.sound ih.1 ih.2, last.spare ih.1 ih.2⟩

/-- An identifier from elsewhere stays absent. -/
theorem absent_run {marks : List Mark} {id : String} (h : Run (Change world) m marks m')
    (sound : Sound world.crypto m.plane) (spare : Spare world m) (absent : Absent m.plane id)
    (hid : ∀ k, id≠world.uuid k) : Absent m'.plane id := by
  induction h with
  | nil => exact absent
  | snoc past last ih => exact last.absent (sound_run past sound spare).1 ih fun k _ => hid k

end TraceGuard
