import TraceGuard.PolicyLifecycle

/-! Separation of duties: an active policy was activated by someone other than its author, in every
run where no author restores an own policy by a rollback, which has no check of that. -/
namespace TraceGuard
open Stateful Traces ControlPlane ControlState

/-- A rollback restores a policy of another author. -/
def RestoresOthers (m : Machine) : ControlRequest → Prop
  | .rollback tenant actor policyId => ∀ p, m.plane.policy tenant policyId = .ok p →
    p.createdBy≠actor.subject
  | _ => True

/-- The operation activated a policy of the tenant. -/
def activates (tenant : String) : ControlEvent → Bool
  | (.approvePolicy tenant' _ _, .ok _) | (.rollback tenant' _ _, .ok _) => tenant'=tenant
  | _ => false

/-- An active policy is approved by another subject than its author, the actor of the tenant's last
activation. -/
def FourEyes (tenant : String) (history : List ControlEvent) (s : ControlState) : Prop :=
  ∀ p∈s.policiesOf tenant, p.status=.active → ∃ a b e actor, history = a++e :: b ∧
    activates tenant e = true ∧ (∀ e'∈b, activates tenant e' = false) ∧
    (e.1 = .approvePolicy tenant actor p.policyId ∨ e.1 = .rollback tenant actor p.policyId) ∧
    p.approvedBy = some actor.subject ∧ actor.subject≠p.createdBy

variable {world : World} {m m' : Machine}

/-- Only an activation makes policies active. -/
theorem Change.active {tenant : String} {mark : Mark} (h : Change world m mark m')
    (hm : ∀ actor policyId restored, mark≠.activated actor tenant policyId restored) :
    (m'.plane.policiesOf tenant).filter PolicyVersion.isActive =
      (m.plane.policiesOf tenant).filter PolicyVersion.isActive := by
  cases h with
  | drew | recorded | opened | received | expired | resolved | registered | bound | revoked
    | suspension => rfl
  | granted =>
    rw [recordGrant_eq]
    rfl
  | drafted =>
    rw [policiesOf_setPolicies]
    split
    · rename_i ht
      simp [ht, Machine.drafted, PolicyVersion.isActive]
    · rfl
  | submitted _ found _ status =>
    show ((m.plane.setPolicies _ _).policiesOf tenant).filter _ = _
    rw [policiesOf_setPolicies]
    split
    · rename_i ht
      rw [ht]
      exact active_changePolicy (policy_found.mp found) (by simp [PolicyVersion.isActive, status]) rfl
    · rfl
  | @approved _ tenant' | @restored _ tenant' =>
    refine congrArg _ (policies_elsewhere fun ht => ?_)
    exact hm _ _ _ (by rw [ht])

theorem active_run {tenant : String} {marks : List Mark} (h : Run (Change world) m marks m')
    (hm : ∀ actor policyId restored, .activated actor tenant policyId restored∉marks) :
    (m'.plane.policiesOf tenant).filter PolicyVersion.isActive =
      (m.plane.policiesOf tenant).filter PolicyVersion.isActive := by
  induction h with
  | nil => rfl
  | snoc past last ih =>
    rw [last.active fun actor policyId restored he => hm actor policyId restored (by simp [he])]
    exact ih fun actor policyId restored hmem => hm actor policyId restored
      (List.mem_append_left _ hmem)

theorem Change.activation {actor : Actor} {tenant policyId : String} {restored : Bool}
    (h : Change world m (.activated actor tenant policyId restored) m') :
    ∃ policy t, m.plane.policy tenant policyId = .ok policy ∧
      (restored = false → policy.createdBy≠actor.subject) ∧
      m'.plane = m.plane.activatePolicy tenant actor.subject policyId t := by
  cases h with
  | approved _ found _ author => exact ⟨_, _, found, fun _ => author, rfl⟩
  | restored _ found => exact ⟨_, _, found, fun hr => Bool.noConfusion hr, rfl⟩

/-- The only policy that an activation leaves active. -/
theorem activated_policy {s : ControlState} {tenant subject policyId : String} {t : Instant}
    {p q : PolicyVersion} (found : s.policy tenant policyId = .ok p)
    (hq : q∈(s.activatePolicy tenant subject policyId t).policiesOf tenant) (hs : q.status=.active) :
    q.policyId=policyId ∧ q.createdBy=p.createdBy ∧ q.approvedBy = some subject := by
  rcases mem_activatePolicy found hq with ⟨q', _, rfl⟩ | rfl
  · have hinactive := retire_inactive q'
    simp [PolicyVersion.isActive, hs] at hinactive
  · have hid : p.policyId=policyId := by simpa using List.find?_some (policy_found.mp found)
    refine ⟨?_, ?_, rfl⟩
    · rw [← hid]
      exact retire_policyId p
    · exact congrArg (fun k => k.2.2.2.2.1) (retire_fixed p)

/-- An operation that leaves the tenant's active policies. -/
theorem FourEyes.still {tenant : String} {es : List ControlEvent} {e : ControlEvent}
    {s t : ControlState} (h : FourEyes tenant es s)
    (same : (t.policiesOf tenant).filter PolicyVersion.isActive =
      (s.policiesOf tenant).filter PolicyVersion.isActive) (other : activates tenant e = false) :
    FourEyes tenant (es++[e]) t := by
  intro p hp hs
  have hin : p∈(s.policiesOf tenant).filter PolicyVersion.isActive := by
    rw [← same]
    exact List.mem_filter.mpr ⟨hp, by simp [PolicyVersion.isActive, hs]⟩
  obtain ⟨a, b, e', actor, rfl, he, hlater, hrest⟩ := h p (List.mem_filter.mp hin).1 hs
  refine ⟨a, b++[e], e', actor, by simp, he, fun e'' hmem => ?_, hrest⟩
  rcases List.mem_append.mp hmem with hmem | hmem
  · exact hlater e'' hmem
  · exact List.mem_singleton.mp hmem ▸ other

/-- A successful operation that activates is among those that make an activation. -/
theorem Emits.not_activates {tenant : String} {e : ControlEvent} {marks : List Mark}
    (h : Emits e.1 e.2 marks)
    (hm : ∀ actor policyId restored, .activated actor tenant policyId restored∉marks) :
    activates tenant e = false := by
  obtain ⟨q, r⟩ := e
  unfold activates
  split
  · rename_i tenant' actor policyId response heq
    obtain ⟨rfl, rfl⟩ := Prod.mk.inj heq
    obtain ⟨restored, hmem⟩ := h.activation (Or.inl rfl)
    exact decide_eq_false fun ht => hm _ _ _ (ht ▸ hmem)
  · rename_i tenant' actor policyId response heq
    obtain ⟨rfl, rfl⟩ := Prod.mk.inj heq
    obtain ⟨restored, hmem⟩ := h.activation (Or.inr rfl)
    exact decide_eq_false fun ht => hm _ _ _ (ht ▸ hmem)
  · rfl

theorem FourEyes.step {tenant : String} {es : List ControlEvent} {e : ControlEvent}
    (h : FourEyes tenant es m.plane) (hstep : ControlStep world m e m') (others : RestoresOthers m e.1) :
    FourEyes tenant (es++[e]) m'.plane := by
  obtain ⟨marks, hemits, hrun⟩ := hstep.changes
  by_cases hmark : ∃ actor policyId restored, Mark.activated actor tenant policyId restored∈marks
  · obtain ⟨actor, policyId, restored, hmem⟩ := hmark
    obtain ⟨hq, ⟨policy, hr⟩, event, rfl⟩ := hemits.activated_by hmem
    obtain ⟨u, hfirst, hlast⟩ := hrun.pair
    obtain ⟨found, t, hfound, hauthor, hplane⟩ := hfirst.activation
    have hsame : (m'.plane.policiesOf tenant).filter PolicyVersion.isActive =
      (u.plane.policiesOf tenant).filter PolicyVersion.isActive := hlast.active (by simp)
    intro p hp hs
    have hin : p∈(u.plane.policiesOf tenant).filter PolicyVersion.isActive := by
      rw [← hsame]
      exact List.mem_filter.mpr ⟨hp, by simp [PolicyVersion.isActive, hs]⟩
    obtain ⟨rfl, hcreated, happroved⟩ := activated_policy hfound (hplane ▸ (List.mem_filter.mp hin).1) hs
    obtain ⟨q, r⟩ := e
    obtain rfl : r = .ok (.policy policy) := hr
    cases restored with
    | false =>
      obtain rfl : q = .approvePolicy tenant actor p.policyId := hq
      exact ⟨es, [], _, actor, rfl, by simp [activates], by simp, Or.inl rfl, happroved,
        hcreated ▸ (hauthor rfl).symm⟩
    | true =>
      obtain rfl : q = .rollback tenant actor p.policyId := hq
      exact ⟨es, [], _, actor, rfl, by simp [activates], by simp, Or.inr rfl, happroved,
        hcreated ▸ (others found hfound).symm⟩
  · have hnone : ∀ actor policyId restored, .activated actor tenant policyId restored∉marks :=
      fun actor policyId restored hmem => hmark ⟨actor, policyId, restored, hmem⟩
    exact h.still (active_run hrun hnone) (hemits.not_activates hnone)

/-- In every run whose rollbacks restore the policies of others. -/
theorem ControlPlane.four_eyes {es : List ControlEvent}
    (h : Run (fun m e m' => ControlStep world m e m' ∧ RestoresOthers m e.1) {} es m)
    (tenant : String) : FourEyes tenant es m.plane :=
  Run.invariant (I := fun es m => FourEyes tenant es m.plane) (fun _ hp => by simp [policiesOf] at hp)
    (fun _ _ _ _ _ hi hstep => hi.step hstep.1 hstep.2) h

theorem ControlPlane.four_eyes_sample :
    FourEyes "tenant" (served sampleWorld {} sampleRequests).1
      (served sampleWorld {} sampleRequests).2.plane :=
  ControlPlane.four_eyes (served_where sampleWorld {} (by simp [sampleRequests, RestoresOthers])) "tenant"

def sampleAuthor : Actor := ⟨"author", [.admin, .approver], none, ["tenant"], none⟩

/-- Another approver approves two policies of the author, who then restores the first. -/
def selfRestored : List ControlRequest :=
  [.createDraft "tenant" sampleAuthor samplePolicy, .submitPolicy "tenant" sampleAuthor "",
    .approvePolicy "tenant" sampleApprover "", .createDraft "tenant" sampleAuthor samplePolicy,
    .submitPolicy "tenant" sampleAuthor "iiii", .approvePolicy "tenant" sampleApprover "iiii",
    .rollback "tenant" sampleAuthor ""]

theorem ControlPlane.four_eyes_restored :
    ¬∀ es m, ControlRun sampleWorld {} es m → ∀ tenant, FourEyes tenant es m.plane := by
  intro h
  have hfour := h _ _ (served_run sampleWorld {} selfRestored) "tenant"
  have hactive : ∃ p∈(served sampleWorld {} selfRestored).2.plane.policiesOf "tenant",
      p.status=.active ∧ p.createdBy="author" ∧ p.approvedBy = some "author" := by decide +kernel
  obtain ⟨p, hp, hs, hcreated, happroved⟩ := hactive
  obtain ⟨_, _, _, actor, _, _, _, _, hactor, hne⟩ := hfour p hp hs
  rw [happroved] at hactor
  exact hne ((Option.some.inj hactor).symm.trans hcreated.symm)

end TraceGuard
