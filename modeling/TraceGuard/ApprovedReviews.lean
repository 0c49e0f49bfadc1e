import TraceGuard.PlainStates
import TraceGuard.ReviewUse

/-! An allowed review can be used while the receipt of the decision that asked for it lives: in memory
and in the database, where transactions drop expired receipts and reviews. -/
namespace TraceGuard
open Stateful Traces ControlPlane ExecutionAuthority SQLiteControlPlane ControlState

theorem ControlState.review_unexpired {s : ControlState} {key : String} {review : Review} {t : Instant}
    (h : s.reviews.get? key = some review) (ht : t.micros < review.expiresAt.micros) :
    (s.unexpired t).reviews.get? key = some review := by
  show (s.reviews.filter _).get? key = _
  rw [SortedMap.get?_filter, h, Option.filter_some, if_pos (decide_eq_true ht)]

theorem ReviewLater.expires {r r' : Review} (h : ReviewLater r r') : r'.expiresAt=r.expiresAt := by
  have hbound := h.bound
  simp only [Prod.mk.injEq] at hbound
  exact hbound.2.2.2.2.2.2.2

variable {world : World} {self : SQLiteControlPlane}

/-- The database holds a later state of the review. -/
structure Durable.Reviewing (d : Durable) (world : World) (store : SQLiteControlPlane) (key : String)
    (review : Review) (s : ControlState) (n : Nat) (later : Review) : Prop where
  saved : d.Saved world store s n
  rooted : Rooted world ⟨s, d.readings, d.identifiers⟩
  found : s.reviews.get? key = some later
  kept : ReviewLater review later

section
variable (hverify : ∀ seed text, world.crypto.verify (world.crypto.publicKey seed) text
  (world.crypto.sign seed text) = true)
include hverify

/-- A review outlives every transaction whose readings of the clock come before its expiry. -/
theorem review_store {d d' : Durable} {e : DurableEvent} {s : ControlState} {n : Nat} {key : String}
    {review later : Review} (hd : d.Reviewing world self key review s n later)
    (h : self.Store world d e d')
    (hlive : ∀ j, d.readings ≤ j → j<d'.readings → (world.clock j).micros < review.expiresAt.micros) :
    ∃ s' n' later', d'.Reviewing world self key review s' n' later' := by
  obtain ⟨hsaved, hrooted, hget, hkept⟩ := hd
  have hroots := rooted_law.store hverify (Or.inr ⟨s, n, hsaved, hrooted⟩) h
  have hforward : Forward (e.request.operation world) := forward_operation e.request
  have hforward := hforward ⟨s.unexpired (world.clock d.readings), d.readings+1, d.identifiers⟩
  rcases store_cases hverify h hsaved with ⟨_, hrow, _⟩ | ⟨a, v, _, hop, hreadings, hsaved'⟩
  · have hsaved' : d'.Saved world self s n := ⟨hrow ▸ hsaved.row, hsaved.tidy⟩
    exact ⟨s, n, later, hsaved', hsaved'.keeps hroots, hget, hkept⟩
  · rw [hop] at hforward
    have hfirst : d.readings+1 ≤ v.readings := hforward.1
    have hpruned := review_unexpired hget (hkept.expires ▸ hlive d.readings le_rfl (by omega))
    obtain ⟨later', hget', hkept'⟩ : ∃ later', v.plane.reviews.get? key = some later' ∧
        ReviewLater later later' := by
      cases hq : e.request with
      | opening allowInitialize =>
        rw [hq] at hop
        obtain ⟨_, rfl⟩ := Prod.mk.inj hop
        exact ⟨later, hpruned, .refl _⟩
      | serving q =>
        rw [hq] at hop
        have hstep : ControlStep world _ (q, .ok a) v := hop
        obtain ⟨_, _, hrun⟩ := hstep.changes
        exact (reviews_run hrun (hrooted.unexpired _).keyed).1 _ _ hpruned
    have hlater := hkept.trans hkept'
    exact ⟨_, _, later', hsaved', hsaved'.keeps hroots,
      review_unexpired hget' (hlater.expires ▸ hlive v.readings (by omega) (by omega)), hlater⟩

theorem review_storeRun {d d' : Durable} {es : List DurableEvent} {s : ControlState} {n : Nat}
    {key : String} {review later : Review} (h : StoreRun world self d es d')
    (hd : d.Reviewing world self key review s n later)
    (hlive : ∀ j, d.readings ≤ j → j<d'.readings → (world.clock j).micros < review.expiresAt.micros) :
    ∃ s' n' later', d'.Reviewing world self key review s' n' later' := by
  induction h with
  | nil => exact ⟨s, n, later, hd⟩
  | snoc past last ih =>
    have hlast := store_readings last
    obtain ⟨s', n', later', hd'⟩ := ih fun j hj hjt => hlive j hj (hjt.trans_le hlast)
    exact review_store hverify hd' last fun j hj => hlive j ((storeRun_readings past).trans hj)

/-- The answer to an issuance that succeeds on the opened database. -/
theorem issued_answer {authority : ExecutionAuthority} {actor : Actor} {action : ActionRequest}
    {audience : String} {reviewId : Option String} {grant : ExecutionGrant} {review : Review} {m : Machine}
    {d d' : Durable} {s : ControlState} {n : Nat} {response : Except ServiceError ControlResponse}
    (hd : d.Saved world self s n) (hm : m.plane = s.unexpired (world.clock d.readings))
    (hissued : outcome (authority.issue world actor action audience reviewId) (d.opened world self.keyId) =
      (.ok grant, m.issuedOn world action actor.subject grant review reviewId))
    (h : self.Serves world d (.issue authority actor action audience reviewId, response) d') :
    response = .ok (.granted grant) ∨ response = .error .capacity := by
  obtain ⟨_, _, _, memory, h⟩ := h
  have h : self.transaction world false (serve world (.issue authority actor action audience reviewId))
    memory d = (response, d') := h
  obtain ⟨row, _, hsave⟩ := hd.row
  have hplain : s.Plain := AuthorityState.dump_plain.mp (Json.plain_of_dumps (save_ok hsave).1)
  have hop : outcome (serve world (.issue authority actor action audience reviewId))
      ⟨s.unexpired (world.clock d.readings), d.readings+1, d.identifiers⟩ =
        (.ok (.granted grant), m.issuedOn world action actor.subject grant review reviewId) := by
    rw [← hd.opened, serve, outcome_map, hissued]
    rfl
  have hreadable : (m.issuedOn world action actor.subject grant review reviewId).plane.Readable :=
    ControlState.Readable.issued (hm ▸ (hd.tidy.unexpired _).readable) grant.nonce grant
  have hwritable : (m.issuedOn world action actor.subject grant review reviewId).plane.Plain := by
    have hpruned : m.plane.Plain := hm ▸ hplain.unexpired _
    refine ControlState.Plain.recorded ?_ _ _ _ _
    exact ⟨hpruned.policies, hpruned.audits, hpruned.receipts⟩
  have hwithin := @transaction_within world self hverify false _ memory _ _ _ _ _ hd hop hreadable
    hwritable
  rw [h] at hwithin
  exact hwithin

/-- In the database: an allowed review can be used as long as no transaction reads the clock at the
expiry of the decision's receipt. -/
theorem SQLiteControlPlane.review_usable {es fs gs : List DurableEvent} {actor : Actor}
    {action : ActionRequest} {decision : DecisionResponse} {reviewId audience : String}
    {review : Review} {asked answered resolving resolved now after : Durable}
    {authority : ExecutionAuthority} {response : Except ServiceError ControlResponse}
    (collisionFree : Function.Injective world.crypto.sha256) (h : StoreRun world self {} es asked)
    (approved : Approved (self.Serves world) actor action decision reviewId review asked answered
      resolving resolved)
    (hbetween : StoreRun world self answered fs resolving) (hsince : StoreRun world self resolved gs now)
    (unchanged : Unchanged world (resolved.opened world self.keyId).plane
      (now.opened world self.keyId).plane actor action reviewId)
    (hissue : self.Serves world now (.issue authority actor action audience (some reviewId), response)
      after)
    (htimely : ∀ j, resolving.readings ≤ j → j ≤ now.readings+2 →
      (world.clock j).micros < review.expiresAt.micros) :
    ∃ credential k, actor.serviceKeyId = some credential ∧ k<answered.readings ∧
      ((asked.opened world self.keyId).plane.idempotent.get? (receiptKey actor credential action) = none →
        asked.readings < k) ∧
      ((∀ j, k<j → j ≤ now.readings+1 →
          (world.clock j).micros < ((world.clock k).later (seconds 300)).micros) →
        (∃ grant, response = .ok (.granted grant)) ∨ response = .error .capacity) := by
  have hasked : asked.row≠none := serving_stored approved.evaluated
  rcases lifetimes_law.run hverify h with hnone | ⟨s, n, hsaved, hlifetimes⟩
  · exact absurd hnone hasked
  rcases store_cases hverify approved.evaluated hsaved with ⟨⟨_, he⟩, _⟩ | ⟨a, u, ha, hop, hreadings, hsaved'⟩
  · cases he
  obtain rfl := Except.ok.inj ha
  rw [← hsaved.opened] at hop
  have hserve : ControlStep world (asked.opened world self.keyId)
    (.evaluate actor action, .ok (.decided decision)) u := hop
  have hopened : Lifetimes world (asked.opened world self.keyId) :=
    hsaved.opened ▸ lifetimes_unexpired hlifetimes _ _
  obtain ⟨credential, receipt, k, hactor, hget, hanswers, hk, hfresh, hexpires⟩ :=
    (decided_of_step hserve).lifetime hserve hopened
  have hfirst : (asked.opened world self.keyId).readings=asked.readings+1 := rfl
  refine ⟨credential, k, hactor, by omega, fun hnone => by have := hfresh hnone; omega, fun hlive => ?_⟩
  rw [← hexpires] at hlive
  obtain ⟨tenant, reviewer, reason, hresolution⟩ := approved.allowed
  have hroots := rooted_law.run hverify ((h.snoc approved.evaluated).append hbetween)
  -- the resolution
  rcases hroots with hnone | ⟨s₂, n₂, hsaved₂, hrooted₂⟩
  · exact absurd hnone (serving_stored hresolution)
  rcases store_cases hverify hresolution hsaved₂ with ⟨⟨_, he⟩, _⟩ | ⟨b, v, hb, hop₂, hreadings₂, hsaved₃⟩
  · cases he
  obtain rfl := Except.ok.inj hb
  have hresolve : ControlStep world ⟨s₂.unexpired (world.clock resolving.readings), resolving.readings+1,
    resolving.identifiers⟩ (.resolveReview tenant reviewer reviewId .allow reason,
      .ok (.reviewed review)) v := hop₂
  have hresolved := resolved_of_step (hrooted₂.unexpired _).keyed hresolve
  obtain ⟨_, _, hresolutionRun⟩ := hresolve.changes
  have hfirst₂ : resolving.readings+1 ≤ v.readings := readings_run hresolutionRun
  have hpast := storeRun_readings hsince
  have hfound := review_unexpired hresolved.found (htimely v.readings (by omega) (by omega))
  have hrooted₃ := hsaved₃.keeps
    (rooted_law.store hverify (Or.inr ⟨s₂, n₂, hsaved₂, hrooted₂⟩) hresolution)
  -- the receipt and the review are still there
  obtain ⟨s₄, n₄, later, hsaved₄, hrooted₄, hlater, hkept⟩ := review_storeRun hverify hsince
    ⟨hsaved₃, hrooted₃, hfound, .refl _⟩ fun j hj hjt => htimely j (by omega) (by omega)
  have hmiddle := storeRun_readings hbetween
  have hkeptReceipt := ControlState.receipt_unexpired hget (hlive u.readings hk (by omega))
  obtain ⟨s', n', hsaved₄', hreceipt⟩ := receipt_storeRun hverify
    ((hbetween.snoc hresolution).append hsince) hsaved' hkeptReceipt
    fun j hj hjt => hlive j (by omega) (by omega)
  obtain rfl := hsaved₄.unique hsaved₄'
  have hopened₄ := hsaved₄.opened
  have hnow : (now.opened world self.keyId).plane = s'.unexpired (world.clock now.readings) := by
    rw [hopened₄]
  have hlive₀ := hlive now.readings (by omega) (by omega)
  have htimely₀ := hkept.expires ▸ htimely now.readings (by omega) (by omega)
  have hreceipt₀ : (now.opened world self.keyId).plane.idempotent.get?
      (receiptKey actor credential action) = some receipt :=
    hnow ▸ ControlState.receipt_unexpired hreceipt hlive₀
  have hlater₀ : (now.opened world self.keyId).plane.reviews.get? reviewId = some later :=
    hnow ▸ review_unexpired hlater htimely₀
  have hrooted₀ : Rooted world (now.opened world self.keyId) := hopened₄ ▸ hrooted₄.unexpired _
  obtain ⟨credential', hcredential⟩ := unchanged.authorized
  obtain rfl : credential'=credential :=
    Option.some.inj ((agentCredential_ok hcredential).symm.trans hactor)
  obtain ⟨task, htask⟩ := unchanged.task
  have hnamed : receipt.result.reviewId = some reviewId := hanswers.result ▸ approved.named
  have hepochs : (resolved.opened world self.keyId).plane.epochs = v.plane.epochs := by
    rw [hsaved₃.opened]
    rfl
  have hstanding : Standing (now.opened world self.keyId).plane reviewId later := by
    have hsince : Unchanged world v.plane (now.opened world self.keyId).plane actor action reviewId :=
      ⟨hepochs ▸ unchanged.epoch, unchanged.authorized, unchanged.task, unchanged.unused⟩
    refine hresolved.standing hkept hlater₀ ?_ hsince
    obtain ⟨name, hprincipal⟩ := ((hrooted₀.receipts _ _ _ hreceipt₀ hnamed).about _ hlater₀).principal
    have hbound := hkept.bound
    simp only [Prod.mk.injEq] at hbound
    exact hbound.2.1.symm.trans (List.cons.inj hprincipal).1.symm
  have hreadings₄ : (now.opened world self.keyId).readings=now.readings+1 := rfl
  obtain ⟨draft, hissued⟩ := issue_standing collisionFree hrooted₀ hcredential htask hreceipt₀
    hanswers.digest (hanswers.result ▸ approved.escalated) hnamed hstanding
    (hreadings₄ ▸ hlive (now.readings+1) (by omega) le_rfl)
    (hkept.expires ▸ htimely (now.readings+2) (by omega) le_rfl)
  have hanswer := issued_answer hverify
    (m := ⟨(now.opened world self.keyId).plane, now.readings+2, (now.opened world self.keyId).identifiers⟩)
    hsaved₄ hnow hissued hissue
  exact hanswer.imp_left fun hgranted => ⟨_, hgranted⟩

end

/-- An allowed review can be used: in memory exactly until five minutes after the decision that asked for
it, and in the database, within its quotas, as long as no transaction reads the clock later than that. -/
theorem ControlPlane.approved_review (world : World)
    (collisionFree : Function.Injective world.crypto.sha256)
    (hverify : ∀ seed text, world.crypto.verify (world.crypto.publicKey seed) text
      (world.crypto.sign seed text) = true)
    {actor : Actor} {action : ActionRequest} {decision : DecisionResponse} {reviewId audience : String}
    {review : Review} {authority : ExecutionAuthority}
    {response : Except ServiceError ControlResponse} :
    (∀ es asked answered fs resolving resolved gs now after, ControlRun world {} es asked →
        Approved (ControlStep world) actor action decision reviewId review asked answered resolving
          resolved →
        ControlRun world answered fs resolving → ControlRun world resolved gs now →
        Unchanged world resolved.plane now.plane actor action reviewId →
        ControlStep world now (.issue authority actor action audience (some reviewId), response) after →
        (world.clock (now.readings+1)).micros < review.expiresAt.micros →
        ∃ credential k, actor.serviceKeyId = some credential ∧ k< answered.readings ∧
          (asked.plane.idempotent.get? (receiptKey actor credential action) = none →
            asked.readings ≤ k) ∧
          ((∃ grant, response = .ok (.granted grant)) ↔
            (world.clock now.readings).micros < ((world.clock k).later (seconds 300)).micros)) ∧
      ∀ (self : SQLiteControlPlane) es asked answered fs resolving resolved gs now after,
        StoreRun world self {} es asked →
        Approved (self.Serves world) actor action decision reviewId review asked answered resolving
          resolved →
        StoreRun world self answered fs resolving → StoreRun world self resolved gs now →
        Unchanged world (resolved.opened world self.keyId).plane (now.opened world self.keyId).plane actor
          action reviewId →
        self.Serves world now (.issue authority actor action audience (some reviewId), response) after →
        (∀ j, resolving.readings ≤ j → j ≤ now.readings+2 →
          (world.clock j).micros < review.expiresAt.micros) →
        ∃ credential k, actor.serviceKeyId = some credential ∧ k<answered.readings ∧
          ((asked.opened world self.keyId).plane.idempotent.get? (receiptKey actor credential action) =
            none → asked.readings < k) ∧
          ((∀ j, k<j → j ≤ now.readings+1 →
              (world.clock j).micros < ((world.clock k).later (seconds 300)).micros) →
            (∃ grant, response = .ok (.granted grant)) ∨ response = .error .capacity) :=
  ⟨fun _ _ _ _ _ _ _ _ _ h approved hbetween hsince unchanged hissue htimely =>
      ControlPlane.review_usable collisionFree h approved hbetween hsince unchanged hissue htimely,
    fun _ _ _ _ _ _ _ _ _ _ h approved hbetween hsince unchanged hissue htimely =>
      SQLiteControlPlane.review_usable hverify collisionFree h approved hbetween hsince unchanged hissue
        htimely⟩

/-- A world whose clock is late from the issuance on. -/
def sampleLate (late : Instant) : World :=
  { sampleWorld with clock := fun k => if k<12 then ⟨0, Instant.zero_range⟩ else late }

/-- Every action needs a review. -/
def sampleAsks : List ControlRequest :=
  [.createDraft "tenant" sampleAdmin sampleEscalation, .submitPolicy "tenant" sampleAdmin "",
    .approvePolicy "tenant" sampleApprover ""]

def sampleOpen (late : Instant) : Machine := (served (sampleLate late) {} sampleAsks).2

/-- After the registration of the sample task. -/
def Machine.registering (world : World) (m : Machine) (compiled : CompiledAuthority) : Machine :=
  Machine.recorded world { m with
      plane := { m.plane with
        executionTasks := m.plane.executionTasks.insert ["tenant", "task"] (sampleRegistered compiled) } }
    "tenant" "task.registered" "admin"
    (textArguments [("task_id", "task"), ("authority_digest", compiled.digest)]
      (sample_distinct compiled))

def sampleInTime : Instant := ⟨0, Instant.zero_range⟩

/-- Ten minutes later. -/
def sampleTooLate : Instant := ⟨600000000, Instant.minutes_range⟩

section
variable {late : Instant}

/-- Nobody is suspended or revoked, in the first epoch. -/
structure SampleCalm (s : ControlState) : Prop where
  suspended : s.suspendedTenants=.empty
  revoked : s.revokedCredentials=.empty
  epoch : s.epochs.get? "tenant" = some 1

theorem SampleCalm.require {s : ControlState} (h : SampleCalm s) {actor : Actor} {role : Role}
    (htenant : "tenant"∈actor.tenantIds) (hrole : role∈actor.roles) :
    s.require actor role "tenant" = .ok () := by
  have hsuspended : s.suspended "tenant" = false := by
    rw [ControlState.suspended, h.suspended]
    rfl
  have hrevoked : ∀ key, s.revoked "tenant" key = false := fun key => by
    rw [ControlState.revoked, h.revoked]
    rfl
  unfold ControlState.require
  rw [if_neg (not_not.mpr htenant), if_neg (not_not.mpr hrole)]
  cases actor.serviceKeyId <;> simp [hsuspended, hrevoked]

theorem sample_registering {m : Machine} {compiled : CompiledAuthority}
    (hc : CompiledAuthority.compile sampleWorld.crypto sampleTask.authority sampleTask.toolSchemas =
      .ok compiled)
    (hcalm : SampleCalm m.plane) (hfresh : m.plane.executionTasks=.empty) :
    ControlStep (sampleLate late) m (.register "tenant" sampleAdmin sampleTask,
      .ok (.digest compiled.digest)) (m.registering (sampleLate late) compiled) := by
  unfold ControlStep
  rw [serve, outcome_map, register, if_neg (by decide), inspect, outcome_bind, outcome_check,
    show CompiledAuthority.compile (sampleLate late).crypto _ _ = _ from hc]
  dsimp only [raise]
  rw [inspect, outcome_bind, outcome_check, hcalm.require (by decide) (by decide), hfresh]
  rfl

/-- A calm state in which the sample task is registered. -/
structure SampleTasked (compiled : CompiledAuthority) (s : ControlState) : Prop extends SampleCalm s where
  task : s.executionTasks.get? ["tenant", "task"] = some (sampleRegistered compiled)

theorem SampleTasked.transfer {compiled : CompiledAuthority} {s s' : ControlState}
    (h : SampleTasked compiled s) (hsame : SameAuthority s s') : SampleTasked compiled s' :=
  ⟨⟨hsame.suspended ▸ h.suspended, hsame.revoked ▸ h.revoked, hsame.epochs ▸ h.epoch⟩,
    hsame.tasks ▸ h.task⟩

theorem SampleCalm.registering {m : Machine} (h : SampleCalm m.plane) (world : World)
    (compiled : CompiledAuthority) : SampleTasked compiled (m.registering world compiled).plane :=
  ⟨⟨h.suspended, h.revoked, h.epoch⟩, SortedMap.get?_insert_self _ _ _⟩

theorem Machine.registering_same (m : Machine) (world : World) (compiled : CompiledAuthority)
    (action : ActionRequest) : (m.registering world compiled).readings=m.readings+1 ∧
      (m.registering world compiled).plane.idempotent=m.plane.idempotent ∧
      decideAction world (m.registering world compiled).plane action =
        decideAction world m.plane action :=
  ⟨rfl, rfl, rfl⟩

theorem SampleCalm.credential {s : ControlState} (h : SampleCalm s) :
    agentCredential s sampleSender sampleSend = .ok "credential" := by
  unfold agentCredential
  rw [show sampleSend.tenantId="tenant" from rfl, h.require (by decide) (by decide)]
  rfl

theorem SampleTasked.unchanged {compiled : CompiledAuthority} {s : ControlState} {review : Review}
    {reviewId : String} (h : SampleTasked compiled s)
    (hc : CompiledAuthority.compile sampleWorld.crypto sampleTask.authority sampleTask.toolSchemas =
      .ok compiled)
    (hfound : s.reviews.get? reviewId = some review) (hunused : review.grantNonce=none) :
    Unchanged (sampleLate late) s s sampleSender sampleSend reviewId := by
  have hagent : s.require sampleSender .agent "tenant" = .ok () := h.require (by decide) (by decide)
  refine ⟨rfl, ⟨_, h.credential⟩, ⟨_, sample_taskFor hc h.task hagent⟩, fun r hr => ?_⟩
  rw [hfound] at hr
  exact Option.some.inj hr ▸ hunused

theorem ControlStep.answered (world : World) (m : Machine) (q : ControlRequest) :
    ∃ response m', ControlStep world m (q, response) m' :=
  ⟨(outcome (serve world q) m).1, (outcome (serve world q) m).2, rfl⟩

theorem ControlStep.resolving {m m' : Machine} {tenant reviewId reason : String} {actor : Actor}
    {resolution : ReviewResolution} {review : Review}
    (h : outcome (resolveReview world tenant actor reviewId resolution reason) m = (.ok review, m')) :
    ControlStep world m
      (.resolveReview tenant actor reviewId resolution reason, .ok (.reviewed review)) m' := by
  unfold ControlStep
  rw [serve, outcome_map, h]
  rfl

/-- An evaluation that asks for a review, and a resolution that allows it. -/
theorem sample_approved {m : Machine} {compiled : CompiledAuthority}
    (hc : CompiledAuthority.compile sampleWorld.crypto sampleTask.authority sampleTask.toolSchemas =
      .ok compiled)
    (hm : SampleTasked compiled m.plane) (hreadings : m.readings=6) (hfresh : m.plane.idempotent=.empty)
    (hdecides : (decideAction (sampleLate late) m.plane sampleSend).decision=.escalate) :
    ∃ decision review answered resolved,
      Approved (ControlStep (sampleLate late)) sampleSender sampleSend decision review.reviewId review m
        answered answered resolved ∧
      Unchanged (sampleLate late) resolved.plane resolved.plane sampleSender sampleSend review.reviewId ∧
      answered.readings=10 ∧ resolved.readings=12 ∧
      review.expiresAt = sampleInTime.later (seconds (24*3600)) := by
  obtain ⟨decision, review, answered, hevaluate, hdecision, ⟨hid, htenant⟩,
    ⟨hpending, hunused, hagent⟩, hpolicyEpoch, hexpires, hfound, hsame, hanswered⟩ :=
    evaluate_opens hm.credential (hfresh ▸ rfl) hdecides (by
      rw [ControlState.epoch, show sampleSend.tenantId="tenant" from rfl, hm.epoch]
      decide)
  rw [hreadings] at hexpires hanswered
  obtain ⟨hescalate, hnamed⟩ := Prod.mk.inj hdecision
  have hafter := hm.transfer hsame
  have hresolvable : Resolvable answered.plane "tenant" sampleReviewer review.reviewId review := by
    refine ⟨hafter.require (by decide) (by decide), hfound, htenant, hpending, ?_, ?_⟩
    · rw [hafter.epoch, hpolicyEpoch, ControlState.epoch, show sampleSend.tenantId="tenant" from rfl,
        hm.epoch]
      rfl
    · rw [hagent]
      decide
  have hstart : ∀ k<12, ((sampleLate late).clock k) = sampleInTime := fun k hk => if_pos hk
  rw [hstart 7 (by decide)] at hexpires
  have hresolve := @resolveReview_made (sampleLate late) _ _ _ "fine" _ .allow _
    (pendingReview_of hresolvable) (by
      rw [hanswered, hexpires, hstart 10 (by decide)]
      decide)
  have hresolution := ControlStep.resolving hresolve
  have hevaluation : ControlStep (sampleLate late) m (.evaluate sampleSender sampleSend,
      .ok (.decided decision)) answered := by
    unfold ControlStep
    rw [serve, outcome_map, hevaluate]
    rfl
  exact ⟨decision, review.resolve sampleReviewer.subject .allow "fine", answered, _,
    ⟨hevaluation, hescalate, hnamed, "tenant", sampleReviewer, "fine", hresolution⟩,
    SampleTasked.unchanged ⟨⟨hafter.suspended, hafter.revoked, hafter.epoch⟩, hafter.task⟩ hc
      (SortedMap.get?_insert_self _ _ _) hunused, hanswered, congrArg (·+2) hanswered, hexpires⟩

theorem sample_open (h : late=sampleInTime ∨ late=sampleTooLate) :
    SampleCalm (sampleOpen late).plane ∧ (sampleOpen late).readings = 5 ∧
      (sampleOpen late).plane.idempotent=.empty ∧ (sampleOpen late).plane.executionTasks=.empty ∧
      (decideAction (sampleLate late) (sampleOpen late).plane sampleSend).decision=.escalate := by
  have hfacts : (sampleOpen late).plane.suspendedTenants.entries.isEmpty = true ∧
      (sampleOpen late).plane.revokedCredentials.entries.isEmpty = true ∧
      (sampleOpen late).plane.epochs.get? "tenant" = some 1 ∧ (sampleOpen late).readings = 5 ∧
      (sampleOpen late).plane.idempotent.entries.isEmpty = true ∧
      (sampleOpen late).plane.executionTasks.entries.isEmpty = true ∧
      (decideAction (sampleLate late) (sampleOpen late).plane sampleSend).decision=.escalate := by
    rcases h with rfl | rfl <;> decide +kernel
  obtain ⟨hsuspended, hrevoked, hepoch, hreadings, hreceipts, htasks, hdecides⟩ := hfacts
  exact ⟨⟨SortedMap.eq_empty hsuspended, SortedMap.eq_empty hrevoked, hepoch⟩, hreadings,
    SortedMap.eq_empty hreceipts, SortedMap.eq_empty htasks, hdecides⟩

/-- A review that is allowed while its decision's receipt lives. -/
theorem sample_review (h : late=sampleInTime ∨ late=sampleTooLate) :
    ∃ es asked decision review answered resolved, ControlRun (sampleLate late) {} es asked ∧
      Approved (ControlStep (sampleLate late)) sampleSender sampleSend decision review.reviewId review
        asked answered answered resolved ∧
      Unchanged (sampleLate late) resolved.plane resolved.plane sampleSender sampleSend review.reviewId ∧
      answered.readings=10 ∧ resolved.readings=12 ∧
      review.expiresAt = sampleInTime.later (seconds (24*3600)) := by
  obtain ⟨compiled, hc⟩ := CompiledAuthority.compile_plain
    (show sampleTask.authority.validate (some sampleTask.toolSchemas) = .ok () by decide +kernel)
    (by decide +kernel) (by decide +kernel)
  obtain ⟨hcalm, hreadings, hreceipts, htasks, hdecides⟩ := sample_open h
  have hrun : ControlRun (sampleLate late) {} _ (sampleOpen late) :=
    served_run (sampleLate late) {} sampleAsks
  obtain ⟨hreadings', hreceipts', hdecides'⟩ := (sampleOpen late).registering_same (sampleLate late)
    compiled sampleSend
  obtain ⟨decision, review, answered, resolved, happroved⟩ := sample_approved hc
    (hcalm.registering (sampleLate late) compiled) (hreadings'.trans (congrArg (·+1) hreadings))
    (hreceipts'.trans hreceipts) (hdecides'.symm ▸ hdecides)
  exact ⟨_, _, decision, review, answered, resolved, hrun.snoc (sample_registering hc hcalm htasks),
    happroved⟩

end

/-- In time, the grant is issued. -/
theorem ControlPlane.approved_review_sample :
    ∃ es asked decision review answered resolved grant after,
      ControlRun (sampleLate sampleInTime) {} es asked ∧
      Approved (ControlStep (sampleLate sampleInTime)) sampleSender sampleSend decision review.reviewId
        review asked answered answered resolved ∧
      ControlStep (sampleLate sampleInTime) resolved (.issue sampleIssuer sampleSender sampleSend
        "executor" (some review.reviewId), .ok (.granted grant)) after := by
  obtain ⟨es, asked, decision, review, answered, resolved, hrun, happroved, hunchanged, hanswered,
    hreadings, hexpires⟩ := sample_review (Or.inl rfl)
  have hclock : ∀ k, (sampleLate sampleInTime).clock k = sampleInTime := fun k => ite_self _
  obtain ⟨response, after, hissue⟩ := ControlStep.answered (sampleLate sampleInTime) resolved
    (.issue sampleIssuer sampleSender sampleSend "executor" (some review.reviewId))
  obtain ⟨_, k, _, _, _, hiff⟩ := (ControlPlane.approved_review (sampleLate sampleInTime)
    (fun _ _ h => h) fun _ _ => decide_eq_true rfl).1 _ _ _ _ _ _ _ _ _ hrun happroved (.nil _) (.nil _)
      hunchanged hissue (by
        rw [hclock, hexpires]
        decide)
  obtain ⟨grant, rfl⟩ := hiff.mpr (by
    rw [hclock, hclock]
    decide)
  exact ⟨es, asked, decision, review, answered, resolved, grant, after, hrun, happroved, hissue⟩

/-- Ten minutes later the review stands, a day from its expiry, and the issuance is refused. -/
theorem ControlPlane.approved_review_lapses :
    ∃ es asked decision review answered resolved response after,
      ControlRun (sampleLate sampleTooLate) {} es asked ∧
      Approved (ControlStep (sampleLate sampleTooLate)) sampleSender sampleSend decision review.reviewId
        review asked answered answered resolved ∧
      Unchanged (sampleLate sampleTooLate) resolved.plane resolved.plane sampleSender sampleSend
        review.reviewId ∧
      ControlStep (sampleLate sampleTooLate) resolved (.issue sampleIssuer sampleSender sampleSend
        "executor" (some review.reviewId), response) after ∧
      (∀ k, ((sampleLate sampleTooLate).clock k).micros < review.expiresAt.micros) ∧
      ¬∃ grant, response = .ok (.granted grant) := by
  obtain ⟨es, asked, decision, review, answered, resolved, hrun, happroved, hunchanged, hanswered,
    hreadings, hexpires⟩ := sample_review (Or.inr rfl)
  have htimely : ∀ k, ((sampleLate sampleTooLate).clock k).micros < review.expiresAt.micros := by
    intro k
    rw [hexpires, sampleLate]
    dsimp only
    split_ifs <;> decide
  obtain ⟨response, after, hissue⟩ := ControlStep.answered (sampleLate sampleTooLate) resolved
    (.issue sampleIssuer sampleSender sampleSend "executor" (some review.reviewId))
  obtain ⟨_, k, _, hk, _, hiff⟩ := ControlPlane.review_usable (fun _ _ h => h) hrun happroved (.nil _)
    (.nil _) hunchanged hissue (htimely _)
  refine ⟨es, asked, decision, review, answered, resolved, response, after, hrun, happroved, hunchanged,
    hissue, htimely, fun hgranted => ?_⟩
  have hlive := hiff.mp hgranted
  rw [hreadings, show (sampleLate sampleTooLate).clock k = sampleInTime from if_pos (by omega)] at hlive
  exact absurd hlive (by decide)

end TraceGuard
