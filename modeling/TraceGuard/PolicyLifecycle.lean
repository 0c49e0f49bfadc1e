import TraceGuard.ExecutionRuns

/-! The life of policies: their versions, who submitted and approved them, and the epoch, whose
number stands for one authority of the tenant. -/
namespace TraceGuard
open Stateful Traces ControlPlane ControlState

def PolicyVersion.isActive (p : PolicyVersion) : Bool := p.status=.active

/-- What a version keeps for ever. -/
def PolicyVersion.fixed (p : PolicyVersion) : String × String × Nat × PolicyDraft × String × Instant :=
  (p.policyId, p.tenantId, p.version, p.draft, p.createdBy, p.createdAt)

section
variable {policyId : String} {f : PolicyVersion → PolicyVersion} {ps : List PolicyVersion}
  {p q : PolicyVersion}

/-- What a change of one policy makes of the list. -/
theorem mem_changePolicy (h : q∈changePolicy policyId f ps) :
    q∈ps ∨ ∃ p, ps.find? (fun p => p.policyId=policyId) = some p ∧ q=f p := by
  induction ps with
  | nil => simp [changePolicy] at h
  | cons x xs ih =>
    unfold changePolicy at h
    by_cases hx : x.policyId=policyId
    · rw [if_pos hx] at h
      rcases List.mem_cons.mp h with rfl | hq
      · exact Or.inr ⟨x, by simp [hx], rfl⟩
      · exact Or.inl (List.mem_cons_of_mem _ hq)
    · rw [if_neg hx] at h
      rcases List.mem_cons.mp h with rfl | hq
      · exact Or.inl List.mem_cons_self
      · rcases ih hq with hq | ⟨p, hp, rfl⟩
        · exact Or.inl (List.mem_cons_of_mem _ hq)
        · exact Or.inr ⟨p, by simpa [hx] using hp, rfl⟩

theorem map_changePolicy {α : Type} {g : PolicyVersion → α} (hf : ∀ p, g (f p) = g p) :
    (changePolicy policyId f ps).map g = ps.map g := by
  induction ps with
  | nil => rfl
  | cons x xs ih =>
    unfold changePolicy
    split <;> simp [hf, ih]

/-- A change between inactive policies leaves the active ones. -/
theorem active_changePolicy (hfound : ps.find? (fun p => p.policyId=policyId) = some p)
    (hp : p.isActive = false) (hf : (f p).isActive = false) :
    (changePolicy policyId f ps).filter PolicyVersion.isActive = ps.filter PolicyVersion.isActive := by
  induction ps with
  | nil => rfl
  | cons x xs ih =>
    unfold changePolicy
    by_cases hx : x.policyId=policyId
    · obtain rfl : x=p := by simpa [hx] using hfound
      simp [hx, hp, hf]
    · simp [hx, List.filter_cons, ih (by simpa [hx] using hfound)]

/-- Where no policy is active, a change makes at most one active. -/
theorem single_changePolicy (h : ps.filter PolicyVersion.isActive = []) :
    ((changePolicy policyId f ps).filter PolicyVersion.isActive).length ≤ 1 := by
  induction ps with
  | nil => simp [changePolicy]
  | cons x xs ih =>
    have hnone := List.filter_eq_nil_iff.mp h
    have hx : x.isActive = false := by simpa using hnone x List.mem_cons_self
    have hxs : xs.filter PolicyVersion.isActive = [] :=
      List.filter_eq_nil_iff.mpr fun q hq => hnone q (List.mem_cons_of_mem _ hq)
    unfold changePolicy
    split
    · rw [List.filter_cons, hxs]
      split <;> simp
    · rw [List.filter_cons, hx]
      exact ih hxs

theorem retire_inactive (p : PolicyVersion) : p.retire.isActive = false := by
  unfold PolicyVersion.retire PolicyVersion.isActive
  split
  · rfl
  · simpa using ‹¬p.status=.active›

theorem active_retired (ps : List PolicyVersion) :
    (ps.map PolicyVersion.retire).filter PolicyVersion.isActive = [] := by
  induction ps with
  | nil => rfl
  | cons x xs ih => simp [retire_inactive, ih]

@[simp] theorem retire_fixed (p : PolicyVersion) : p.retire.fixed = p.fixed := by
  unfold PolicyVersion.retire
  split <;> rfl

end

theorem activePolicy_filter (s : ControlState) (tenant : String) :
    s.activePolicy tenant = ((s.policiesOf tenant).filter PolicyVersion.isActive).getLast? := by
  unfold ControlState.activePolicy PolicyVersion.isActive
  rw [← List.head?_filter, List.filter_reverse, List.head?_reverse]

theorem epoch_advance (s : ControlState) (tenant tenant' : String) :
    (s.advance tenant).epoch tenant' = if tenant'=tenant then s.epoch tenant+1 else s.epoch tenant' := by
  unfold advance ControlState.epoch
  rw [SortedMap.get?_insert]
  split <;> rfl

/-- The laws of two states, the first before the second, for one tenant. -/
structure PoliciesKept (tenant : String) (s s' : ControlState) : Prop where
  fixed : (s.policiesOf tenant).map PolicyVersion.fixed <+: (s'.policiesOf tenant).map PolicyVersion.fixed
  epoch : s.epoch tenant ≤ s'.epoch tenant
  /-- One epoch number stands for one authority. -/
  authority : s.epoch tenant = s'.epoch tenant → s.activePolicy tenant = s'.activePolicy tenant ∧
    (∀ credential, s.revoked tenant credential = s'.revoked tenant credential) ∧
    s.suspended tenant = s'.suspended tenant

namespace PoliciesKept
variable {tenant : String} {s t u : ControlState}

theorem refl (s : ControlState) : PoliciesKept tenant s s :=
  ⟨List.prefix_refl _, le_rfl, fun _ => ⟨rfl, fun _ => rfl, rfl⟩⟩

theorem trans (h : PoliciesKept tenant s t) (h' : PoliciesKept tenant t u) :
    PoliciesKept tenant s u := by
  refine ⟨h.fixed.trans h'.fixed, h.epoch.trans h'.epoch, fun he => ?_⟩
  have hst : s.epoch tenant = t.epoch tenant := by
    have := h.epoch
    have := h'.epoch
    omega
  obtain ⟨hactive, hrevoked, hsuspended⟩ := h.authority hst
  obtain ⟨hactive', hrevoked', hsuspended'⟩ := h'.authority (hst.symm.trans he)
  exact ⟨hactive.trans hactive', fun c => (hrevoked c).trans (hrevoked' c), hsuspended.trans hsuspended'⟩

theorem of_eq (policies : t.policies = s.policies) (epochs : t.epochs = s.epochs)
    (revoked : t.revokedCredentials = s.revokedCredentials)
    (suspended : t.suspendedTenants = s.suspendedTenants) : PoliciesKept tenant s t := by
  have hps : t.policiesOf tenant = s.policiesOf tenant := by rw [policiesOf, policiesOf, policies]
  refine ⟨hps ▸ List.prefix_refl _, ?_, fun _ => ⟨?_, fun _ => ?_, ?_⟩⟩
  · rw [ControlState.epoch, ControlState.epoch, epochs]
  · rw [activePolicy, activePolicy, hps]
  · rw [ControlState.revoked, ControlState.revoked, revoked]
  · rw [ControlState.suspended, ControlState.suspended, suspended]

/-- A change of one tenant's policies that keeps the active one. -/
theorem of_policies {tenant' : String} {ps : List PolicyVersion}
    (fixed : (s.policiesOf tenant').map PolicyVersion.fixed <+: ps.map PolicyVersion.fixed)
    (active : ps.filter PolicyVersion.isActive =
      (s.policiesOf tenant').filter PolicyVersion.isActive) :
    PoliciesKept tenant s (s.setPolicies tenant' ps) := by
  refine ⟨?_, le_rfl, fun _ => ⟨?_, fun _ => rfl, rfl⟩⟩
  · rw [policiesOf_setPolicies]
    split
    · rename_i h
      exact h ▸ fixed
    · exact List.prefix_refl _
  · rw [activePolicy_filter, activePolicy_filter, policiesOf_setPolicies]
    split
    · rename_i h
      rw [active, h]
    · rfl

/-- A new authority of a tenant, whatever has changed for it. -/
theorem of_advance {tenant' : String} (epochs : t.epochs = s.epochs)
    (fixed : (s.policiesOf tenant').map PolicyVersion.fixed <+:
      (t.policiesOf tenant').map PolicyVersion.fixed)
    (other : tenant≠tenant' → PoliciesKept tenant s t) : PoliciesKept tenant s (t.advance tenant') := by
  have he : (t.advance tenant').epoch tenant = if tenant=tenant' then s.epoch tenant'+1
      else s.epoch tenant := by
    rw [epoch_advance, ControlState.epoch, ControlState.epoch, epochs]
    rfl
  by_cases ht : tenant=tenant'
  · subst ht
    rw [if_pos rfl] at he
    exact ⟨fixed, by omega, fun hsame => by omega⟩
  · have hkept := other ht
    rw [if_neg ht] at he
    refine ⟨hkept.fixed, he.ge, fun _ => hkept.authority ?_⟩
    rw [ControlState.epoch, ControlState.epoch, epochs]

end PoliciesKept

theorem fixed_activatePolicy (s : ControlState) (tenant subject policyId : String) (t : Instant) :
    (changePolicy policyId (PolicyVersion.activate subject t)
      ((s.policiesOf tenant).map PolicyVersion.retire)).map PolicyVersion.fixed =
        (s.policiesOf tenant).map PolicyVersion.fixed := by
  rw [map_changePolicy, List.map_map]
  · exact List.map_congr_left fun p _ => retire_fixed p
  · exact fun _ => rfl

/-- Every policy is then the activated one or a retired one. -/
theorem mem_activatePolicy {s : ControlState} {tenant subject policyId : String} {t : Instant}
    {p q : PolicyVersion} (found : s.policy tenant policyId = .ok p)
    (hq : q∈(s.activatePolicy tenant subject policyId t).policiesOf tenant) :
    (∃ q'∈s.policiesOf tenant, q = q'.retire) ∨ q = p.retire.activate subject t := by
  rw [policiesOf_activatePolicy, if_pos rfl] at hq
  rcases mem_changePolicy hq with hq | ⟨p', hp', rfl⟩
  · obtain ⟨q', hq', rfl⟩ := List.mem_map.mp hq
    exact Or.inl ⟨q', hq', rfl⟩
  · rw [List.find?_map] at hp'
    obtain ⟨p'', hp'', rfl⟩ := Option.map_eq_some_iff.mp hp'
    simp only [Function.comp_def, retire_policyId] at hp''
    rw [policy_found.mp found] at hp''
    cases hp''
    exact Or.inr rfl

/-- An activation, by approval or by rollback. -/
theorem PoliciesKept.activated (s : ControlState) (tenant tenant' subject policyId : String)
    (t : Instant) : PoliciesKept tenant s (s.activatePolicy tenant' subject policyId t) := by
  refine .of_advance rfl ?_ fun ht => ?_
  · rw [policiesOf_setPolicies, if_pos rfl, fixed_activatePolicy]
  · refine ⟨?_, le_rfl, fun _ => ⟨?_, fun _ => rfl, rfl⟩⟩
    · rw [policiesOf_setPolicies, if_neg ht]
    · rw [activePolicy, activePolicy, policiesOf_setPolicies, if_neg ht]

variable {world : World} {m m' : Machine} {mark : Mark}

theorem Change.policiesKept (tenant : String) (h : Change world m mark m') :
    PoliciesKept tenant m.plane m'.plane := by
  cases h with
  | drew | recorded | opened | received | expired | resolved | registered | bound =>
    exact .of_eq rfl rfl rfl rfl
  | granted =>
    rw [recordGrant_eq]
    exact .of_eq rfl rfl rfl rfl
  | @revoked _ tenant' credentialId =>
    refine .of_advance rfl (List.prefix_refl _) fun ht => ⟨List.prefix_refl _, le_rfl, fun _ =>
      ⟨rfl, fun credential => ?_, rfl⟩⟩
    unfold ControlState.revoked
    rw [SortedMap.get?_insert_ne]
    simp [ht]
  | @suspension _ tenant' suspended =>
    refine .of_advance rfl (List.prefix_refl _) fun ht => ⟨List.prefix_refl _, le_rfl, fun _ =>
      ⟨rfl, fun _ => rfl, ?_⟩⟩
    unfold ControlState.suspended
    cases suspended with
    | true => simp [SortedMap.get?_insert_ne _ _ ht]
    | false => simp [SortedMap.get?_erase, ht]
  | drafted =>
    exact .of_policies (by simp) (by simp [Machine.drafted, PolicyVersion.isActive])
  | submitted _ found _ status =>
    refine .of_policies ?_ ?_
    · rw [map_changePolicy]
      exact fun _ => rfl
    · exact active_changePolicy (policy_found.mp found) (by simp [PolicyVersion.isActive, status]) rfl
  | approved | restored => exact .activated _ _ _ _ _ _

theorem policiesKept_run (tenant : String) {marks : List Mark} (h : Run (Change world) m marks m') :
    PoliciesKept tenant m.plane m'.plane :=
  (Run.related (R := fun m m' => PoliciesKept tenant m.plane m'.plane) (I := fun _ => True)
    (fun _ => .refl _) (fun _ _ _ => .trans) (fun _ _ _ _ _ => trivial)
    (fun _ _ _ _ hc => hc.policiesKept tenant) h trivial).1

/-- The author has submitted the policy. -/
def SubmittedIn (tenant : String) (p : PolicyVersion) (marks : List Mark) : Prop :=
  ∃ a b author, marks = a++.submitted author tenant p.policyId :: b ∧ author.subject=p.createdBy

/-- The author has submitted the policy, and another approver has approved it later. -/
def ApprovedIn (tenant : String) (p : PolicyVersion) (marks : List Mark) : Prop :=
  ∃ a b c author approver,
    marks = (a++.submitted author tenant p.policyId :: b)++
      .activated approver tenant p.policyId false :: c ∧
    author.subject=p.createdBy ∧ approver.subject≠p.createdBy ∧ Role.approver∈approver.roles

theorem SubmittedIn.snoc {tenant : String} {p : PolicyVersion} {marks : List Mark}
    (h : SubmittedIn tenant p marks) (mark : Mark) : SubmittedIn tenant p (marks++[mark]) := by
  obtain ⟨a, b, author, rfl, hauthor⟩ := h
  exact ⟨a, b++[mark], author, by simp, hauthor⟩

theorem ApprovedIn.snoc {tenant : String} {p : PolicyVersion} {marks : List Mark}
    (h : ApprovedIn tenant p marks) (mark : Mark) : ApprovedIn tenant p (marks++[mark]) := by
  obtain ⟨a, b, c, author, approver, rfl, hrest⟩ := h
  exact ⟨a, b, c++[mark], author, approver, by simp, hrest⟩

theorem SubmittedIn.approve {tenant : String} {p : PolicyVersion} {marks : List Mark} {actor : Actor}
    (h : SubmittedIn tenant p marks) (other : actor.subject≠p.createdBy)
    (role : Role.approver∈actor.roles) :
    ApprovedIn tenant p (marks++[.activated actor tenant p.policyId false]) := by
  obtain ⟨a, b, author, rfl, hauthor⟩ := h
  exact ⟨a, b, [], author, actor, rfl, hauthor, other, role⟩

theorem require_ok {s : ControlState} {actor : Actor} {role : Role} {tenant : String}
    (h : s.require actor role tenant = .ok ()) : tenant∈actor.tenantIds ∧ role∈actor.roles := by
  unfold require at h
  split_ifs at h with htenant hrole
  exact ⟨htenant, hrole⟩

/-- The laws of one state of a tenant's policies after the changes. -/
structure PolicyLaws (tenant : String) (marks : List Mark) (s : ControlState) : Prop where
  single : ((s.policiesOf tenant).filter PolicyVersion.isActive).length≤1
  versions : (s.policiesOf tenant).map PolicyVersion.version =
    List.range' 1 (s.policiesOf tenant).length
  submitted : ∀ p∈s.policiesOf tenant, p.status=.pendingApproval → SubmittedIn tenant p marks
  approved : ∀ p∈s.policiesOf tenant, p.status=.active ∨ p.status=.rolledBack → ApprovedIn tenant p marks
  epoch : (∃ p∈s.policiesOf tenant, p.status=.active ∨ p.status=.rolledBack) → 1 ≤ s.epoch tenant

namespace PolicyLaws
variable {tenant : String} {marks : List Mark} {s t : ControlState}

theorem snoc (h : PolicyLaws tenant marks s) (mark : Mark)
    (policies : t.policiesOf tenant = s.policiesOf tenant) (epoch : s.epoch tenant≤t.epoch tenant) :
    PolicyLaws tenant (marks++[mark]) t := by
  refine ⟨?_, ?_, ?_, ?_, ?_⟩
  · rw [policies]
    exact h.single
  · rw [policies]
    exact h.versions
  · rw [policies]
    exact fun p hp hs => (h.submitted p hp hs).snoc mark
  · rw [policies]
    exact fun p hp hs => (h.approved p hp hs).snoc mark
  · rw [policies]
    exact fun hever => (h.epoch hever).trans epoch

theorem drafted (h : PolicyLaws tenant marks s) (mark : Mark) {p : PolicyVersion}
    (status : p.status=.draft) (version : p.version = (s.policiesOf tenant).length+1) :
    PolicyLaws tenant (marks++[mark]) (s.setPolicies tenant (s.policiesOf tenant++[p])) := by
  have hps : (s.setPolicies tenant (s.policiesOf tenant++[p])).policiesOf tenant =
      s.policiesOf tenant++[p] := by rw [policiesOf_setPolicies, if_pos rfl]
  have hold : ∀ q∈s.policiesOf tenant++[p], q.status≠.draft → q∈s.policiesOf tenant := by
    intro q hq hne
    rcases List.mem_append.mp hq with hq | hq
    · exact hq
    · rw [List.mem_singleton.mp hq] at hne
      exact absurd status hne
  refine ⟨?_, ?_, ?_, ?_, ?_⟩
  · rw [hps, List.filter_append]
    simpa [PolicyVersion.isActive, status] using h.single
  · rw [hps, List.map_append, h.versions, List.length_append, List.map_singleton, version,
      List.length_singleton, List.range'_concat, Nat.add_comm 1, Nat.one_mul]
  · rw [hps]
    exact fun q hq hs => (h.submitted q (hold q hq (by simp [hs])) hs).snoc mark
  · rw [hps]
    exact fun q hq hs => (h.approved q (hold q hq (by rcases hs with hs | hs <;> simp [hs])) hs).snoc mark
  · rw [hps]
    rintro ⟨q, hq, hs⟩
    exact h.epoch ⟨q, hold q hq (by rcases hs with hs | hs <;> simp [hs]), hs⟩

theorem submit (h : PolicyLaws tenant marks s) {actor : Actor} {policyId : String} {p : PolicyVersion}
    (found : s.policy tenant policyId = .ok p) (author : p.createdBy=actor.subject)
    (status : p.status=.draft) :
    PolicyLaws tenant (marks++[.submitted actor tenant policyId]) (s.submit tenant policyId) := by
  have hfind := policy_found.mp found
  have hid : p.policyId=policyId := by simpa using List.find?_some hfind
  have hps : (s.submit tenant policyId).policiesOf tenant = changePolicy policyId
      (fun p => { p with status := .pendingApproval }) (s.policiesOf tenant) := by
    rw [ControlState.submit, policiesOf_setPolicies, if_pos rfl]
  have hactive := active_changePolicy (f := fun p => { p with status := .pendingApproval }) hfind
    (by simp [PolicyVersion.isActive, status]) rfl
  have hversion : ((s.submit tenant policyId).policiesOf tenant).map PolicyVersion.version =
      (s.policiesOf tenant).map PolicyVersion.version := by
    rw [hps, map_changePolicy]
    exact fun _ => rfl
  have hlength : ((s.submit tenant policyId).policiesOf tenant).length =
      (s.policiesOf tenant).length := by simpa using congrArg List.length hversion
  -- a policy that is no longer a draft was none before, or it is the submitted one
  have hcase : ∀ q∈(s.submit tenant policyId).policiesOf tenant, q∈s.policiesOf tenant ∨
      q = { p with status := .pendingApproval } := by
    rw [hps]
    intro q hq
    rcases mem_changePolicy hq with hq | ⟨p', hp', rfl⟩
    · exact Or.inl hq
    · rw [hfind] at hp'
      cases hp'
      exact Or.inr rfl
  refine ⟨?_, ?_, fun q hq hs => ?_, fun q hq hs => ?_, fun hin => ?_⟩
  · rw [hps, hactive]
    exact h.single
  · rw [hversion, hlength]
    exact h.versions
  · rcases hcase q hq with hq | rfl
    · exact (h.submitted q hq hs).snoc _
    · exact ⟨marks, [], actor, by rw [hid], author.symm⟩
  · rcases hcase q hq with hq | rfl
    · exact (h.approved q hq hs).snoc _
    · simp at hs
  · obtain ⟨q, hq, hs⟩ := hin
    rcases hcase q hq with hq | rfl
    · exact h.epoch ⟨q, hq, hs⟩
    · simp at hs

theorem activate (h : PolicyLaws tenant marks s) {mark : Mark} {subject policyId : String} {t : Instant}
    {p : PolicyVersion} (found : s.policy tenant policyId = .ok p)
    (approved : ApprovedIn tenant p (marks++[mark])) :
    PolicyLaws tenant (marks++[mark]) (s.activatePolicy tenant subject policyId t) := by
  have hps := policiesOf_activatePolicy s tenant subject policyId t tenant
  rw [if_pos rfl] at hps
  have hfixed := fixed_activatePolicy s tenant subject policyId t
  rw [← hps] at hfixed
  have hversion : ((s.activatePolicy tenant subject policyId t).policiesOf tenant).map
      PolicyVersion.version = (s.policiesOf tenant).map PolicyVersion.version := by
    have hmap := congrArg (List.map fun k => k.2.2.1) hfixed
    rw [List.map_map, List.map_map] at hmap
    exact hmap
  have hlength : ((s.activatePolicy tenant subject policyId t).policiesOf tenant).length =
      (s.policiesOf tenant).length := by simpa using congrArg List.length hversion
  have hcase := fun q (hq : q∈(s.activatePolicy tenant subject policyId t).policiesOf tenant) =>
    mem_activatePolicy found hq
  refine ⟨?_, ?_, fun q hq hs => ?_, fun q hq hs => ?_, fun _ => ?_⟩
  · rw [hps]
    exact single_changePolicy (active_retired _)
  · rw [hversion, hlength]
    exact h.versions
  · rcases hcase q hq with ⟨q', hq', rfl⟩ | rfl
    · unfold PolicyVersion.retire at hs ⊢
      split at hs
      · simp at hs
      · rw [if_neg ‹_›]
        exact (h.submitted q' hq' hs).snoc _
    · simp [PolicyVersion.activate] at hs
  · rcases hcase q hq with ⟨q', hq', rfl⟩ | rfl
    · have hever : q'.status=.active ∨ q'.status=.rolledBack := by
        unfold PolicyVersion.retire at hs
        split at hs
        · exact Or.inl ‹_›
        · exact hs
      have happroved := (h.approved q' hq' hever).snoc mark
      unfold PolicyVersion.retire
      split <;> exact happroved
    · unfold PolicyVersion.retire
      split <;> exact approved
  · have he := epoch_advance (s.setPolicies tenant (changePolicy policyId
      (PolicyVersion.activate subject t) ((s.policiesOf tenant).map PolicyVersion.retire))) tenant tenant
    rw [if_pos rfl] at he
    exact he ▸ Nat.le_add_left _ _

end PolicyLaws

theorem policies_elsewhere {s : ControlState} {tenant tenant' : String} {ps : List PolicyVersion}
    (h : tenant≠tenant') : (s.setPolicies tenant' ps).policiesOf tenant = s.policiesOf tenant := by
  rw [policiesOf_setPolicies, if_neg h]

theorem Change.policyLaws {tenant : String} {marks : List Mark} (h : Change world m mark m')
    (laws : PolicyLaws tenant marks m.plane) : PolicyLaws tenant (marks++[mark]) m'.plane := by
  have hepoch := (h.policiesKept tenant).epoch
  cases h with
  | drew | recorded | opened | received | expired | resolved | registered | bound | revoked
    | suspension => exact laws.snoc _ rfl hepoch
  | granted =>
    refine laws.snoc _ ?_ hepoch
    rw [recordGrant_eq]
    rfl
  | @drafted _ tenant' =>
    by_cases ht : tenant=tenant'
    · subst ht
      exact laws.drafted _ rfl rfl
    · exact laws.snoc _ (policies_elsewhere ht) hepoch
  | @submitted _ tenant' policyId policy role found author status =>
    by_cases ht : tenant=tenant'
    · subst ht
      exact laws.submit found author status
    · exact laws.snoc _ (policies_elsewhere ht) hepoch
  | @approved actor tenant' policyId policy role found status author =>
    by_cases ht : tenant=tenant'
    · subst ht
      have hfind := policy_found.mp found
      obtain rfl : policy.policyId=policyId := by simpa using List.find?_some hfind
      exact laws.activate found ((laws.submitted policy (List.mem_of_find?_eq_some hfind) status).approve
        author.symm (require_ok role).2)
    · exact laws.snoc _ (policies_elsewhere ht) hepoch
  | @restored actor tenant' policyId policy role found status =>
    by_cases ht : tenant=tenant'
    · subst ht
      have hmem := List.mem_of_find?_eq_some (policy_found.mp found)
      exact laws.activate found ((laws.approved policy hmem (Or.inr status)).snoc _)
    · exact laws.snoc _ (policies_elsewhere ht) hepoch

theorem policyLaws_run (tenant : String) {marks : List Mark} (h : Run (Change world) {} marks m) :
    PolicyLaws tenant marks m.plane :=
  Run.invariant (I := fun marks m => PolicyLaws tenant marks m.plane)
    ⟨by simp [policiesOf], by simp [policiesOf], by simp [policiesOf], by simp [policiesOf],
      by simp [policiesOf]⟩
    (fun _ _ _ _ _ laws hc => hc.policyLaws laws) h

/-- The laws of a state that the history has led to: at most one policy is active, versions are
numbered from one, and an active policy was submitted by its author and then approved by another
approver. -/
structure PolicyState (tenant : String) (history : List ControlEvent) (s : ControlState) : Prop where
  single : ((s.policiesOf tenant).filter PolicyVersion.isActive).length≤1
  versions : (s.policiesOf tenant).map PolicyVersion.version =
    List.range' 1 (s.policiesOf tenant).length
  approved : ∀ p∈s.policiesOf tenant, p.status=.active →
    ∃ a b c author approver submitted approved,
      history = (a++(.submitPolicy tenant author p.policyId, .ok (.policy submitted)) :: b)++
        (.approvePolicy tenant approver p.policyId, .ok (.policy approved)) :: c ∧
      author.subject=p.createdBy ∧ approver.subject≠p.createdBy ∧ Role.approver∈approver.roles
  epoch : (∃ p∈s.policiesOf tenant, p.status=.active ∨ p.status=.rolledBack) → 1 ≤ s.epoch tenant

/-- The operations behind the changes. -/
theorem ApprovedIn.events {tenant : String} {p : PolicyVersion} {marks : List Mark}
    {history : List ControlEvent} (h : ApprovedIn tenant p marks) (ht : Traced history marks) :
    ∃ a b c author approver submitted approved,
      history = (a++(.submitPolicy tenant author p.policyId, .ok (.policy submitted)) :: b)++
        (.approvePolicy tenant approver p.policyId, .ok (.policy approved)) :: c ∧
      author.subject=p.createdBy ∧ approver.subject≠p.createdBy ∧ Role.approver∈approver.roles := by
  obtain ⟨a, b, c, author, approver, hmarks, hrest⟩ := h
  obtain ⟨es, e, after, a₁, a₂, b₁, rfl, hbefore, hsplit, hemits⟩ := ht.split hmarks
  obtain ⟨hq, ⟨approved, hr⟩, event, hall⟩ := hemits.activated_by (List.mem_append_right _ List.mem_cons_self)
  obtain ⟨q, r⟩ := e
  obtain rfl : q = .approvePolicy tenant approver p.policyId := by simpa using hq
  obtain rfl : r = .ok (.policy approved) := hr
  -- the submission is not among the changes of the approval
  obtain rfl : a₂ = [] := by
    cases a₂ with
    | nil => rfl
    | cons x xs => cases xs <;> simp at hall
  rw [List.append_nil] at hsplit
  obtain ⟨es', e', between, _, _, _, rfl, _, _, hemits'⟩ := hbefore.split hsplit.symm
  obtain ⟨hq', ⟨submitted, hr'⟩, _⟩ := hemits'.submitted_by (List.mem_append_right _ List.mem_cons_self)
  obtain ⟨q', r'⟩ := e'
  obtain rfl : q' = .submitPolicy tenant author p.policyId := hq'
  obtain rfl : r' = .ok (.policy submitted) := hr'
  exact ⟨es', between, after, author, approver, submitted, approved, rfl, hrest⟩

theorem ControlPlane.policy_lifecycle {es fs : List ControlEvent} (h : ControlRun world {} es m)
    (h' : ControlRun world m fs m') (tenant : String) :
    PolicyState tenant (es++fs) m'.plane ∧ PoliciesKept tenant m.plane m'.plane := by
  obtain ⟨marks, htraced, hrun⟩ := ControlRun.changes (h.append h')
  obtain ⟨_, _, hrest⟩ := h'.changes
  have laws := policyLaws_run tenant hrun
  exact ⟨⟨laws.single, laws.versions, fun p hp hs => (laws.approved p hp (Or.inl hs)).events htraced,
    laws.epoch⟩, policiesKept_run tenant hrest⟩

def samplePolicy : PolicyDraft where
  name := "reads"
  rules := [⟨"rule", "reads", 0, {}, .block, "withheld", none, false,
    PolicyRule.unrewritten .block Decision.block_ne, by simp⟩]
  nonempty := by simp
  distinct := by simp
  withholds := PolicyDraft.blocks

def sampleApprover : Actor := ⟨"approver", [.approver], none, ["tenant"], none⟩

/-- The admin drafts and submits a policy, and the approver approves it. -/
def sampleRequests : List ControlRequest :=
  [.createDraft "tenant" sampleAdmin samplePolicy, .submitPolicy "tenant" sampleAdmin "",
    .approvePolicy "tenant" sampleApprover ""]

theorem ControlPlane.policy_lifecycle_sample :
    (served sampleWorld {} sampleRequests).2.plane.activePolicy "tenant" ≠ none ∧
      PolicyState "tenant" (served sampleWorld {} sampleRequests).1
        (served sampleWorld {} sampleRequests).2.plane :=
  ⟨by decide +kernel,
    (ControlPlane.policy_lifecycle (.nil _) (served_run sampleWorld {} sampleRequests) "tenant").1⟩

end TraceGuard
