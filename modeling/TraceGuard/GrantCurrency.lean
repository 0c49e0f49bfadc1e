import TraceGuard.GrantHistory
import TraceGuard.FieldComplete

/-! Currency of execution grants: what a successful validation says about the run so far. -/
namespace TraceGuard
open Stateful Traces ControlPlane ExecutionAuthority ControlState

variable {world : World} {m m' : Machine}

/-- What a drafted grant states. -/
structure Drafts (world : World) (s : ControlState) (actor : Actor) (action : ActionRequest)
    (audience : String) (task : RegisteredTask) (expires issued : Instant) (draft : ExecutionGrant) : Prop where
  digest : draft.actionDigest = world.crypto.actionDigest action
  tenant : draft.tenantId=action.tenantId
  taskId : draft.taskId=action.taskId
  audience : draft.audience=audience
  grantee : grantee draft = ⟨actor.subject, [.agent], some (actor.serviceKeyId.getD ""),
    [action.tenantId], none⟩
  key : draft.keyId=keyId
  domain : draft.executionDomain=task.executionDomain
  authority : draft.authorityDigest=task.compiled.digest
  epoch : s.epochs.get? action.tenantId = some draft.policyEpoch
  issued : draft.issuedAt = .utc issued
  expires : draft.expiresAt = .utc (expires.later (seconds 60))

theorem draftGrant_ok {s : ControlState} {actor : Actor} {action : ActionRequest} {audience nonce : String}
    {task : RegisteredTask} {expires issued : Instant} {draft : ExecutionGrant}
    (h : draftGrant world s actor action audience task nonce expires issued = .ok draft) :
    Drafts world s actor action audience task expires issued draft := by
  obtain ⟨scope, _, h⟩ := Raising.bind_ok h
  cases hpolicy : s.activePolicy action.tenantId with
  | none => rw [hpolicy] at h; cases h
  | some policy =>
    rw [hpolicy] at h
    cases hepoch : s.epochs.get? action.tenantId with
    | none => rw [hepoch] at h; cases h
    | some epoch =>
      rw [hepoch] at h
      obtain ⟨amount, _, h⟩ := Raising.bind_ok h
      obtain ⟨_, h⟩ := Raising.guard_ok h
      cases h
      exact ⟨rfl, rfl, rfl, rfl, rfl, rfl, rfl, rfl, hepoch, rfl, rfl⟩

/-- What a validation has checked. -/
structure Validated (world : World) (s : ControlState) (action : ActionRequest)
    (grant : ExecutionGrant) (t : Instant) (task : RegisteredTask) : Prop where
  issued : s.executionIssued.get? grant.nonce = some grant.dumpJson
  unexpired : grant.expiresAt.after t = true
  digest : grant.actionDigest = world.crypto.actionDigest action
  epoch : s.epochs.get? action.tenantId = some grant.policyEpoch
  allows : TaskAllows world s (grantee grant) action task
  domain : task.executionDomain=grant.executionDomain
  authority : task.compiled.digest=grant.authorityDigest

theorem admissible_ok {self : ExecutionAuthority} {s : ControlState} {executor : Actor}
    {action : ActionRequest} {grant : ExecutionGrant} {t : Instant}
    (h : self.admissible world s executor action grant t = .ok ()) :
    ∃ task, Validated world s action grant t task := by
  obtain ⟨_, _, h⟩ := Raising.bind_ok h
  obtain ⟨_, h⟩ := Raising.guard_ok h
  obtain ⟨hcurrent, h⟩ := Raising.guard_ok h
  obtain ⟨task, htask, h⟩ := Raising.bind_ok h
  obtain ⟨hdomain, h⟩ := Raising.guard_ok h
  simp only [current, Bool.not_eq_false, Bool.and_eq_true, decide_eq_true_eq] at hcurrent
  obtain ⟨⟨⟨⟨⟨⟨_, _⟩, hissued⟩, _⟩, hexpires⟩, hdigest⟩, hepoch⟩ := hcurrent
  refine ⟨task, hissued, hexpires, hdigest, hepoch, taskFor_ok htask, not_not.mp hdomain, ?_⟩
  by_contra hne
  rw [if_pos hne] at h
  cases h

/-- What an issuance leaves. -/
structure IssueFacts (world : World) (m m' : Machine) (action : ActionRequest) (grant : ExecutionGrant)
    (task : RegisteredTask) (k : Nat) (issued : Instant) : Prop where
  digest : grant.actionDigest = world.crypto.actionDigest action
  tenant : grant.tenantId=action.tenantId
  taskId : grant.taskId=action.taskId
  epoch : m'.plane.epochs.get? action.tenantId = some grant.policyEpoch
  found : m.plane.executionTasks.get? [action.tenantId, action.taskId] = some task
  domain : task.executionDomain≠""
  readings : m.readings ≤ k ∧ k+1 < m'.readings
  issued : grant.issuedAt = .utc issued ∧ issued = world.clock (k+1)
  expires : grant.expiresAt = .utc ((world.clock k).later (seconds 60))

theorem issue_facts {authority : ExecutionAuthority} {actor : Actor} {action : ActionRequest}
    {audience : String} {reviewId : Option String} {grant : ExecutionGrant}
    (h : ControlStep world m (.issue authority actor action audience reviewId, .ok (.granted grant)) m') :
    ∃ task k issued, IssueFacts world m m' action grant task k issued := by
  unfold ControlStep at h
  rw [serve, outcome_map] at h
  obtain ⟨hreturned, hm⟩ := Prod.mk.inj h
  obtain ⟨_, hissue, hgrant⟩ := Raising.map_ok hreturned
  cases hgrant
  rcases issue_cases (Prod.ext hissue hm) with ⟨_, _, _, he, _⟩ | ⟨_, hok, ⟨i⟩⟩
  · cases he
  · cases hok
    obtain ⟨task, decision, evaluated, readings, review, draft, allows, evaluation, _, made, rfl, rfl⟩ := i
    obtain ⟨marks, hmarks, hrun⟩ := evaluate_changes evaluation
    have hdrafts := draftGrant_ok made
    refine ⟨task, evaluated.readings+readings, _, hdrafts.digest, hdrafts.tenant, hdrafts.taskId, ?_,
      allows.found, allows.domain, ⟨?_, ?_⟩, ⟨hdrafts.issued, rfl⟩, hdrafts.expires⟩
    · show (recordGrant evaluated.plane _ review).epochs.get? action.tenantId = _
      rw [recordGrant_eq]
      exact hdrafts.epoch
    · exact (readings_run hrun).trans (Nat.le_add_right _ _)
    · show evaluated.readings+readings+1 < evaluated.readings+readings+2+1
      omega

/-- A validated grant is current: the operations `between` its issuance, which went from `m₀` to `m₁`,
and its validation in `m` have left its authority, its task and its time. -/
structure Current (world : World) (m₀ m₁ m : Machine) (between : List ControlEvent)
    (action₀ action : ActionRequest) (grant : ExecutionGrant) : Prop where
  digest : world.crypto.actionDigest action₀ = world.crypto.actionDigest action
  unchanged : ∀ e∈between, advances action.tenantId e = false ∧
    rebinds action.tenantId action.taskId e = false
  unexpired : grant.expiresAt.after (world.clock m.readings) = true
  recent : ∃ k, m₀.readings ≤ k ∧ k < m₁.readings ∧
    (world.clock m.readings).micros < (world.clock k).micros+seconds 60
  age : (Monotone fun k => (world.clock k).micros) → ∃ issued, grant.issuedAt = .utc issued ∧
    issued.micros ≤ (world.clock m.readings).micros ∧
    (world.clock m.readings).micros ≤ issued.micros+seconds 60
  task : ∃ task, m₀.plane.executionTasks.get? [action.tenantId, action.taskId] = some task ∧
    m.plane.executionTasks.get? [action.tenantId, action.taskId] = some task ∧
    task.principal=grant.agentSubject ∧ task.credential=grant.serviceKeyId ∧
    task.compiled.digest=grant.authorityDigest ∧ task.executionDomain=grant.executionDomain ∧
    ∃ verdict, task.compiled.evaluate world.platform world.crypto "" (toolCall action) [] =
      .ok verdict ∧ verdict.decision=.allow

theorem epoch_of_get {s : ControlState} {tenant : String} {n : Nat} (h : s.epochs.get? tenant = some n) :
    s.epoch tenant = n := by
  rw [ControlState.epoch, h]
  rfl

theorem ControlPlane.grant_currency (collisionFree : Function.Injective world.crypto.sha256)
    {es : List ControlEvent} {self : ExecutionAuthority} {executor : Actor} {action : ActionRequest}
    {grant : ExecutionGrant} (h : ControlRun world {} es m)
    (hv : ControlStep world m (.validate self executor action grant, .ok .done) m') :
    ∃ a b m₀ m₁ authority actor action₀ audience reviewId,
      es = a++(.issue authority actor action₀ audience reviewId, .ok (.granted grant)) :: b ∧
      ControlRun world {} a m₀ ∧
      ControlStep world m₀ (.issue authority actor action₀ audience reviewId, .ok (.granted grant)) m₁ ∧
      ControlRun world m₁ b m ∧ Current world m₀ m₁ m b action₀ action grant := by
  unfold ControlStep at hv
  rw [serve, outcome_map, ExecutionAuthority.validate, now_bind, inspect, outcome_check] at hv
  obtain ⟨_, hadmissible, _⟩ := Raising.map_ok (Prod.mk.inj hv).1
  obtain ⟨task, valid⟩ := admissible_ok hadmissible
  obtain ⟨grant', htext, hissued⟩ := issued_history h _ _ valid.issued
  obtain rfl := ExecutionGrant.dumpJson_inj htext
  obtain @⟨a, b, m₀, m₁, _, authority, actor, action₀, audience, reviewId, before, issue, after, kept⟩ :=
    hissued
  obtain ⟨task₀, k, issued, facts⟩ := issue_facts issue
  have hdigest := facts.digest.symm.trans valid.digest
  obtain ⟨htenant, htask⟩ := actionDigest_task collisionFree hdigest
  have hquiet := quiet_of_epoch after
    ((epoch_of_get valid.epoch).trans (epoch_of_get (htenant ▸ facts.epoch)).symm)
  have hlate := Datetime.lt_of_after_later (facts.expires ▸ valid.unexpired)
  obtain ⟨hfirst, hlast⟩ := facts.readings
  obtain ⟨_, hchanges, hlater⟩ := ControlRun.changes after
  have hreadings := readings_run hlater
  refine ⟨a, b, m₀, m₁, authority, actor, action₀, audience, reviewId, rfl, before, issue, after,
    hdigest, fun e he => ⟨hquiet e he, ?_⟩, valid.unexpired,
    ⟨k, hfirst, (Nat.lt_succ_self k).trans hlast, hlate⟩, fun hclock => ?_, ?_⟩
  · have hkept := kept e he
    rwa [facts.tenant, facts.taskId, htenant, htask] at hkept
  · have hk : (world.clock k).micros≤(world.clock (k+1)).micros := hclock (Nat.le_succ k)
    have hnow : (world.clock (k+1)).micros≤(world.clock m.readings).micros :=
      hclock (hlast.le.trans hreadings)
    refine ⟨issued, facts.issued.1, ?_, ?_⟩ <;> rw [facts.issued.2] <;> omega
  · have hfound : m₀.plane.executionTasks.get? [action.tenantId, action.taskId] = some task₀ := by
      rw [← htenant, ← htask]
      exact facts.found
    obtain ⟨_, _, hissue⟩ := issue.changes
    have hkept := task_run hlater (task_run hissue hfound facts.domain) facts.domain
    obtain rfl := Option.some.inj (hkept.symm.trans valid.allows.found)
    exact ⟨task₀, hfound, hkept, valid.allows.subject.symm, (Option.some.inj valid.allows.credential).symm,
      valid.authority, valid.domain, valid.allows.allowed⟩

/-- The machine after an issuance that needed no review. -/
def Machine.issued (world : World) (m : Machine) (action : ActionRequest) (subject : String)
    (grant : ExecutionGrant) : Machine :=
  Machine.recorded world ⟨recordGrant m.plane grant none, m.readings+2, m.identifiers+1⟩ action.tenantId
    "execution.granted" subject (grantPayload grant none)

/-- An issuance that the policy allows without a review. -/
theorem ExecutionAuthority.issue_allowed {self : ExecutionAuthority} {actor : Actor} {action : ActionRequest}
    {audience : String} {task : RegisteredTask} {decision : DecisionResponse} {draft : ExecutionGrant}
    (htask : taskFor world m.plane actor action = .ok task)
    (hevaluate : outcome (ControlPlane.evaluate world actor action) m = (.ok decision, m'))
    (hallow : decision.decision=.allow)
    (hdraft : draftGrant world m'.plane actor action audience task (world.uuid m'.identifiers)
      (world.clock m'.readings) (world.clock (m'.readings+1)) = .ok draft) :
    outcome (self.issue world actor action audience none) m = (.ok (self.signed world draft),
      m'.issued world action actor.subject (self.signed world draft)) := by
  unfold issue
  rw [inspect, outcome_bind, outcome_check, htask]
  show outcome (ControlPlane.evaluate world actor action >>= _) m = _
  rw [outcome_bind, hevaluate]
  show outcome (permitIssue world actor action decision none >>= _) m' = _
  unfold permitIssue
  rw [hallow]
  show outcome (inspect _ >>= _) ⟨m'.plane, m'.readings+2, m'.identifiers+1⟩ = _
  rw [inspect, outcome_bind, outcome_check]
  dsimp only
  rw [hdraft]
  rfl

/-- The grant that was just drafted and recorded is current for its audience. -/
theorem ExecutionAuthority.current_signed {self : ExecutionAuthority} {s s' : ControlState}
    {actor executor : Actor} {action : ActionRequest} {audience : String} {task : RegisteredTask}
    {expires issued t : Instant} {draft : ExecutionGrant}
    (hdrafts : Drafts world s actor action audience task expires issued draft)
    (haudience : audience=executor.subject)
    (hverify : ∀ text, world.crypto.verify (world.crypto.publicKey self.signer) text
      (world.crypto.sign self.signer text) = true)
    (hissued : s'.executionIssued.get? draft.nonce = some (self.signed world draft).dumpJson)
    (hepochs : s'.epochs=s.epochs) (ht : draft.expiresAt.after t = true) :
    self.current world s' executor action (self.signed world draft) t = true := by
  have hsigned : world.crypto.verifyValue (world.crypto.publicKey self.signer)
      (self.signed world draft).unsigned (self.signed world draft).signature = true := by
    rw [Crypto.verifyValue, canonical, Json.dumps_plain (ExecutionGrant.unsigned_plain _)]
    exact hverify _
  have hnonce : (self.signed world draft).nonce=draft.nonce := rfl
  simp only [current, Bool.and_eq_true, decide_eq_true_eq]
  exact ⟨⟨⟨⟨⟨⟨hdrafts.audience.trans haudience, hdrafts.key⟩, hissued⟩, hsigned⟩, ht⟩, hdrafts.digest⟩,
    hepochs ▸ hdrafts.epoch⟩

theorem ExecutionAuthority.admissible_of {self : ExecutionAuthority} {s : ControlState} {executor : Actor}
    {action : ActionRequest} {grant : ExecutionGrant} {t : Instant} {task : RegisteredTask}
    (hrole : s.require executor .executor action.tenantId = .ok ())
    (hservice : Role.agent∉executor.roles ∧ executor.serviceKeyId.getD ""≠"")
    (hcurrent : self.current world s executor action grant t = true)
    (htask : taskFor world s (grantee grant) action = .ok task)
    (hdomain : task.executionDomain=grant.executionDomain)
    (hdigest : task.compiled.digest=grant.authorityDigest) :
    self.admissible world s executor action grant t = .ok () := by
  unfold admissible
  rw [hrole]
  show (if _ then _ else _ : Except ServiceError Unit) = _
  rw [if_neg (by tauto)]
  show (if _ then _ else _ : Except ServiceError Unit) = _
  rw [if_neg (by simp [hcurrent])]
  show (taskFor world s (grantee grant) action >>= _) = _
  rw [htask]
  show (if _ then _ else _ : Except ServiceError Unit) = _
  rw [if_neg (by simp [hdomain])]
  show (if _ then _ else _ : Except ServiceError Unit) = _
  rw [if_neg (by simp [hdigest])]
  rfl

/-- A grant validates right after its issuance, as long as it has not expired. -/
theorem ExecutionAuthority.validate_issued {self : ExecutionAuthority} {actor executor : Actor}
    {action : ActionRequest} {audience : String} {task : RegisteredTask} {expires issued : Instant}
    {draft : ExecutionGrant}
    (hdrafts : Drafts world m.plane actor action audience task expires issued draft)
    (haudience : audience=executor.subject)
    (hverify : ∀ text, world.crypto.verify (world.crypto.publicKey self.signer) text
      (world.crypto.sign self.signer text) = true)
    (ht : draft.expiresAt.after (world.clock (m.readings+3)) = true)
    (hrole : m.plane.require executor .executor action.tenantId = .ok ())
    (hservice : Role.agent∉executor.roles ∧ executor.serviceKeyId.getD ""≠"")
    (htask : taskFor world m.plane (grantee draft) action = .ok task) :
    let n := m.issued world action actor.subject (self.signed world draft)
    outcome (self.validate world executor action (self.signed world draft)) n =
      (.ok (), { n with readings := n.readings+1 }) := by
  have hcurrent : self.current world (m.issued world action actor.subject (self.signed world draft)).plane
      executor action (self.signed world draft) (world.clock (m.readings+3)) = true :=
    current_signed hdrafts haudience hverify (SortedMap.get?_insert_self _ _ _) rfl ht
  dsimp only
  rw [ExecutionAuthority.validate, now_bind, inspect, outcome_check]
  exact congrArg (fun r => (r, _))
    (admissible_of hrole hservice hcurrent htask hdrafts.domain.symm hdrafts.authority.symm)

def sampleTask : TaskRegistration where
  taskId := "task"
  agentSubject := "agent"
  serviceKeyId := "credential"
  adapterDigest := "adapter"
  executionDomain := "domain"
  toolSchemas := SortedMap.empty.insert "send_channel_message" SortedMap.empty
  authority := {
    allowedTools := some ["send_channel_message"]
    argumentValues := SortedMap.empty.insert "send_channel_message"
      (SortedMap.empty.insert "body" (Json.Doc.of (.str "hi")))
    enforcementMode := .strict }

def samplePermit : PolicyDraft where
  name := "permit"
  rules := [⟨"rule", "permit", 0, {}, .allow, "permit", none, false,
    PolicyRule.unrewritten .allow Decision.allow_ne, PolicyRule.uncached .allow⟩]
  nonempty := by simp
  distinct := by simp
  withholds := PolicyDraft.blocks

def sampleSender : Actor := ⟨"agent", [.agent], some "credential", ["tenant"], none⟩

def sampleExecutor : Actor := ⟨"executor", [.executor], some "executor-key", ["tenant"], none⟩

def sampleSend : ActionRequest where
  tenantId := "tenant"
  idempotencyKey := "first-key"
  taskId := "task"
  actionId := "action"
  kind := .tool
  operation := "send_channel_message"
  arguments := ⟨[("body", .str "hi")], by simp, by decide⟩

def samplePermits : List ControlRequest :=
  [.createDraft "tenant" sampleAdmin samplePermit, .submitPolicy "tenant" sampleAdmin "",
    .approvePolicy "tenant" sampleApprover ""]

def sampleActive : Machine := (served sampleWorld {} samplePermits).2

section
variable {compiled : CompiledAuthority}

def sampleRegistered (compiled : CompiledAuthority) : RegisteredTask :=
  ⟨"agent", "credential", compiled, "adapter", "domain"⟩

theorem sample_distinct (compiled : CompiledAuthority) :
    ([("task_id", "task"), ("authority_digest", compiled.digest)].map Prod.fst).Nodup := by
  simp

/-- The sample task is registered while the sample policy is active. -/
def sampleReady (compiled : CompiledAuthority) : Machine :=
  Machine.recorded sampleWorld { sampleActive with
      plane := { sampleActive.plane with
        executionTasks := SortedMap.empty.insert ["tenant", "task"] (sampleRegistered compiled) } }
    "tenant" "task.registered" "admin"
    (textArguments [("task_id", "task"), ("authority_digest", compiled.digest)]
      (sample_distinct compiled))

def sampleEvaluated (compiled : CompiledAuthority) : Machine :=
  (outcome (ControlPlane.evaluate sampleWorld sampleSender sampleSend) (sampleReady compiled)).2

variable (hc : CompiledAuthority.compile sampleWorld.crypto sampleTask.authority
  sampleTask.toolSchemas = .ok compiled)
include hc

theorem sample_registered : ControlStep sampleWorld sampleActive
    (.register "tenant" sampleAdmin sampleTask, .ok (.digest compiled.digest))
    (sampleReady compiled) := by
  unfold ControlStep
  rw [serve, outcome_map, register, if_neg (by decide), inspect, outcome_bind, outcome_check, hc]
  rfl

theorem sample_taskFor {s : ControlState}
    (hfound : s.executionTasks.get? ["tenant", "task"] = some (sampleRegistered compiled))
    (hrole : s.require sampleSender .agent "tenant" = .ok ()) :
    taskFor sampleWorld s sampleSender sampleSend = .ok (sampleRegistered compiled) := by
  obtain ⟨-, hscope, hschemas⟩ := CompiledAuthority.compile_ok hc
  have hpass : checkAuthority sampleWorld.platform "" (toolCall sampleSend) []
    sampleTask.authority [] = Check.pass := rfl
  have hallowed : compiled.evaluate sampleWorld.platform sampleWorld.crypto "" (toolCall sampleSend) [] =
      .ok CompiledAuthority.granted :=
    CompiledAuthority.evaluate_granted ⟨hschemas, rfl, rfl, rfl, hscope, hpass⟩
  unfold taskFor
  rw [show sampleSend.tenantId="tenant" from rfl, show sampleSend.taskId="task" from rfl, hrole, hfound]
  show (raise (compiled.evaluate sampleWorld.platform sampleWorld.crypto "" (toolCall sampleSend) []) >>=
    _) = _
  rw [hallowed]
  rfl

theorem sample_drafted : ∃ draft, draftGrant sampleWorld (sampleEvaluated compiled).plane sampleSender
    sampleSend "executor" (sampleRegistered compiled)
    (sampleWorld.uuid (sampleEvaluated compiled).identifiers)
    (sampleWorld.clock (sampleEvaluated compiled).readings)
    (sampleWorld.clock ((sampleEvaluated compiled).readings+1)) = .ok draft := by
  unfold draftGrant
  rw [show (sampleRegistered compiled).compiled.scope = .ok sampleTask.authority from
    (CompiledAuthority.compile_ok hc).2.1]
  exact ⟨_, rfl⟩

omit hc

def sampleIssuer : ExecutionAuthority := ⟨"key"⟩

def sampleIssued (compiled : CompiledAuthority) (draft : ExecutionGrant) : Machine :=
  (sampleEvaluated compiled).issued sampleWorld sampleSend "agent" (sampleIssuer.signed sampleWorld draft)

variable {draft : ExecutionGrant} (hdrafts : Drafts sampleWorld (sampleEvaluated compiled).plane
  sampleSender sampleSend "executor" (sampleRegistered compiled)
  (sampleWorld.clock (sampleEvaluated compiled).readings)
  (sampleWorld.clock ((sampleEvaluated compiled).readings+1)) draft)
include hc hdrafts

theorem sample_validated : ControlStep sampleWorld (sampleIssued compiled draft)
    (.validate sampleIssuer sampleExecutor sampleSend (sampleIssuer.signed sampleWorld draft), .ok .done)
    { sampleIssued compiled draft with readings := (sampleIssued compiled draft).readings+1 } := by
  have htask : taskFor sampleWorld (sampleEvaluated compiled).plane (grantee draft) sampleSend =
      .ok (sampleRegistered compiled) := by
    rw [hdrafts.grantee]
    exact sample_taskFor hc rfl rfl
  have hclock : (Datetime.utc ((sampleWorld.clock 0).later (seconds 60))).after (sampleWorld.clock 0) =
      true := by decide
  have hvalid := @validate_issued sampleWorld (sampleEvaluated compiled) sampleIssuer sampleSender
    sampleExecutor sampleSend _ _ _ _ _ hdrafts rfl (fun text => decide_eq_true rfl)
    (hdrafts.expires ▸ hclock) rfl (by decide) htask
  unfold ControlStep
  rw [serve, outcome_map]
  exact congrArg (fun r => (Except.map (fun _ => ControlResponse.done) r.1, r.2)) hvalid

end

theorem ControlPlane.grant_currency_sample :
    ∃ grant m m' m₀ m₁ b action₀, ControlStep sampleWorld m
        (.validate sampleIssuer sampleExecutor sampleSend grant, .ok .done) m' ∧
      Current sampleWorld m₀ m₁ m b action₀ sampleSend grant := by
  obtain ⟨compiled, hc⟩ := CompiledAuthority.compile_plain
    (show sampleTask.authority.validate (some sampleTask.toolSchemas) = .ok () by decide +kernel)
    (by decide +kernel) (by decide +kernel)
  obtain ⟨draft, hdraft⟩ := sample_drafted hc
  have htask : taskFor sampleWorld (sampleReady compiled).plane sampleSender sampleSend = _ :=
    sample_taskFor hc rfl rfl
  have hevaluate : outcome (ControlPlane.evaluate sampleWorld sampleSender sampleSend)
    (sampleReady compiled) = (.ok _, sampleEvaluated compiled) := rfl
  have hissue : outcome (sampleIssuer.issue sampleWorld sampleSender sampleSend "executor" none)
      (sampleReady compiled) = _ := issue_allowed htask hevaluate rfl hdraft
  have hstep : ControlStep sampleWorld (sampleReady compiled)
      (.issue sampleIssuer sampleSender sampleSend "executor" none,
        .ok (.granted (sampleIssuer.signed sampleWorld draft))) (sampleIssued compiled draft) := by
    unfold ControlStep
    rw [serve, outcome_map, hissue]
    rfl
  have hrun := ((served_run sampleWorld {} samplePermits).snoc (sample_registered hc)).snoc hstep
  have hvalid := sample_validated hc (draftGrant_ok hdraft)
  obtain ⟨_, b, m₀, m₁, _, _, action₀, _, _, _, _, _, _, hcurrent⟩ :=
    ControlPlane.grant_currency (fun _ _ h => h) hrun hvalid
  exact ⟨_, _, _, m₀, m₁, b, action₀, hvalid, hcurrent⟩

end TraceGuard
