import TraceGuard.ControlRuns
import TraceGuard.PolicyBundle
import TraceGuard.RuleSelection
import TraceGuard.StorageRuns

/-! Offline decisions are contained in the online ones: a permission from an installed bundle is one
that the control plane gives, and a cache never goes back to an older authority. -/
namespace TraceGuard
open Stateful Traces Raising

/-! The bundle's policy is the active one, less permissions for other operations. -/

/-- What a bundle's policy shares with the active policy. -/
structure Restricts (policy bundled : PolicyVersion) (actor : Actor) : Prop where
  id : bundled.policyId=policy.policyId
  version : bundled.version=policy.version
  rules : ∀ r, r∈bundled.draft.rules ↔ r∈policy.draft.rules ∧
    ∀ operations, actor.allowedOperations = some operations → permitted operations r = true

theorem bundlePolicy_ok {s : ControlState} {tenant : String} {actor : Actor} {bundled : PolicyVersion}
    (h : bundlePolicy s tenant actor = .ok bundled) :
    ∃ policy, s.activePolicy tenant = some policy ∧ Restricts policy bundled actor := by
  unfold bundlePolicy at h
  split at h
  · cases h
  rename_i policy hpolicy
  refine ⟨policy, hpolicy, ?_⟩
  split at h
  · rename_i hoperations
    cases h
    exact ⟨rfl, rfl, fun r => by simp [hoperations]⟩
  · rename_i operations hoperations
    obtain ⟨draft, hdraft, h⟩ := bind_ok h
    cases h
    unfold PolicyDraft.restrict at hdraft
    split at hdraft
    · cases hdraft
    cases hdraft
    exact ⟨rfl, rfl, fun r => by simp [hoperations]⟩

/-- What a bundle says about the state it was signed in. -/
structure SignedFrom (bundle : SignedPolicyBundle) (s : ControlState) (tenant : String)
    (actor : Actor) : Prop where
  allowed : s.require actor .agent tenant = .ok ()
  credential : actor.serviceKeyId = some bundle.serviceKeyId
  tenantId : bundle.tenantId=tenant
  policy : ∃ policy, s.activePolicy tenant = some policy ∧ Restricts policy bundle.policy actor

namespace ControlPlane
variable {world : World}

theorem draftBundle_ok {s : ControlState} {signer : PolicySigner} {tenant credential : String}
    {actor : Actor} {ttl : Nat} {policy : PolicyVersion} {issuedAt : Instant}
    {bundle : SignedPolicyBundle}
    (h : draftBundle s signer tenant actor credential ttl policy issuedAt = .ok bundle) :
    bundle.tenantId=tenant ∧ bundle.serviceKeyId=credential ∧ bundle.policy=policy := by
  unfold draftBundle at h
  split at h
  · cases h
  split at h
  · cases h
    exact ⟨rfl, rfl, rfl⟩
  · cases h

theorem signBundle_ok {signer : PolicySigner} {draft bundle : SignedPolicyBundle}
    (h : signBundle world signer draft = .ok bundle) :
    bundle.tenantId=draft.tenantId ∧ bundle.serviceKeyId=draft.serviceKeyId ∧
      bundle.policy=draft.policy := by
  unfold signBundle at h
  split at h
  · cases h
  · cases h
    exact ⟨rfl, rfl, rfl⟩

theorem signedBundle_ok {signer : PolicySigner} {tenant : String} {actor : Actor} {ttl : Int}
    {m m' : Machine} {bundle : SignedPolicyBundle}
    (h : outcome (signedBundle world signer tenant actor ttl) m = (.ok bundle, m')) :
    SignedFrom bundle m.plane tenant actor := by
  unfold signedBundle at h
  rcases inspect_bind h with ⟨_, -, he, -⟩ | ⟨⟨credential, policy⟩, hchecks, h⟩
  · cases he
  obtain ⟨_, hallowed, hchecks⟩ := bind_ok hchecks
  split at hchecks
  · cases hchecks
  rename_i credential' hcredential
  obtain ⟨-, hchecks⟩ := guard_ok hchecks
  obtain ⟨policy', hpolicy, hchecks⟩ := bind_ok hchecks
  cases hchecks
  rw [now_bind, inspect, outcome_check] at h
  obtain ⟨hbundle, -⟩ := Prod.mk.inj h
  obtain ⟨draft, hdraft, hsigned⟩ := bind_ok hbundle
  obtain ⟨htenant, hkey, hdrafted⟩ := draftBundle_ok hdraft
  obtain ⟨htenant', hkey', hsame⟩ := signBundle_ok hsigned
  exact ⟨hallowed, by rw [hkey', hkey, hcredential], htenant'.trans htenant,
    by rw [hsame, hdrafted]; exact bundlePolicy_ok hpolicy⟩

end ControlPlane

/-! The cache. -/

/-- An attempt to install a bundle at some time. -/
structure Installation where
  t : Instant
  bundle : SignedPolicyBundle
  accepted : Bool

/-- A refused bundle leaves the cache as it was. -/
inductive InstallStep (world : World) (c : SignedPolicyCache) :
    Installation → SignedPolicyCache → Prop where
  | accepted {t : Instant} {bundle : SignedPolicyBundle} {next : SignedPolicyCache}
      (install : c.install world t bundle = .ok next) : InstallStep world c ⟨t, bundle, true⟩ next
  | refused {t : Instant} {bundle : SignedPolicyBundle} {e : PolicyUnavailable}
      (install : c.install world t bundle = .error e) : InstallStep world c ⟨t, bundle, false⟩ c

namespace SignedPolicyCache
variable {world : World} {c c' : SignedPolicyCache}

/-- An installed bundle is the one that the cache decides by; its epoch is the new minimum. -/
theorem install_ok {t : Instant} {bundle : SignedPolicyBundle}
    (h : c.install world t bundle = .ok c') :
    c'.bundle = some bundle ∧ c'.minimumEpoch=bundle.policyEpoch ∧
      c.minimumEpoch ≤ c'.minimumEpoch ∧ c'.tenantId=c.tenantId ∧ bundle.tenantId=c.tenantId := by
  unfold install at h
  split at h
  · cases h
  rename_i hkey
  split at h
  · cases h
  rename_i haddressed
  split at h
  · cases h
  cases h
  simp only [not_or, ne_eq, not_not, Bool.not_eq_false] at hkey haddressed
  simp only [addressed, Bool.and_eq_true, decide_eq_true_eq] at haddressed
  have hplain : bundle.unsigned.plain = true := by
    by_contra hn
    have hverified := hkey.2
    simp [Crypto.verifyValue, canonical, Json.dumps, hn] at hverified
  have hdumps := @Json.dumps_plain modelStyle _ (SignedPolicyBundle.plain_members hplain)
  refine ⟨?_, rfl, haddressed.2, rfl, haddressed.1.1.1.1.1⟩
  simp only [SignedPolicyCache.bundle, hdumps, Option.bind_eq_bind, Option.bind_some,
    Json.loads_dumps hdumps, SignedPolicyBundle.codec.read]

/-- What is decided offline was permitted by a matching rule that nothing overrides. -/
theorem evaluate_ok {t : Instant} {action : ActionRequest} {response : DecisionResponse}
    (h : c.evaluate world t action = .ok response) :
    ∃ bundle rule, c.bundle = some bundle ∧ action.tenantId=c.tenantId ∧
      ControlPlane.selectRule world bundle.policy action = some rule ∧ rule.decision=.allow ∧
      rule.cacheEligible = true ∧ response.decision=.allow ∧
      response.policyId = some bundle.policy.policyId ∧
      response.policyVersion = some bundle.policy.version := by
  unfold evaluate at h
  split at h
  · cases h
  rename_i bundle hbundle
  split at h
  · cases h
  rename_i hlive
  split at h
  · cases h
  split at h
  · rename_i rule hrule
    split at h
    · rename_i hallow
      cases h
      exact ⟨bundle, rule, hbundle, by simpa using (not_or.mp hlive).2, hrule, hallow.1, hallow.2, rfl,
        rfl, rfl⟩
    · cases h
  · cases h

end SignedPolicyCache

/-! From an offline decision to the online one. -/

namespace ControlPlane
variable {world : World}

/-- A decision that is not escalated is returned as it was taken. -/
theorem evaluateNew_decided {actor : Actor} {credential : String} {action : ActionRequest}
    {m : Machine} (hd : (decideAction world m.plane action).decision≠.escalate) :
    ∃ auditId m', outcome (evaluateNew world actor credential action) m =
      (.ok { decideAction world m.plane action with auditId := auditId }, m') := by
  unfold evaluateNew
  rw [get_bind, appendAudit_bind, if_neg hd]
  exact ⟨_, _, rfl⟩

theorem agentCredential_of {s : ControlState} {actor : Actor} {action : ActionRequest}
    {credential : String} (allowed : s.require actor .agent action.tenantId = .ok ())
    (key : actor.serviceKeyId = some credential)
    (within : ∀ operations, actor.allowedOperations = some operations →
      action.operation∈operations) : agentCredential s actor action = .ok credential := by
  have hin : (actor.allowedOperations.map fun operations =>
      decide (action.operation∈operations))≠some false := by
    cases ho : actor.allowedOperations with
    | none => simp
    | some operations => simpa using within operations ho
  unfold agentCredential
  rw [allowed]
  dsimp only [bind, Except.bind]
  rw [if_neg hin, key]
  rfl

/-- A matching permission of a bundle that nothing in the bundle overrides is one that nothing in
the active policy overrides: bundles leave out permissions only. -/
theorem selectRule_restricted {policy bundled : PolicyVersion} {actor : Actor}
    {action : ActionRequest} {rule : PolicyRule} (hr : Restricts policy bundled actor)
    (hrule : selectRule world bundled action = some rule) (ha : rule.decision=.allow) :
    ∃ r, selectRule world policy action = some r ∧ r.decision=.allow := by
  obtain ⟨hmem, hbest⟩ := selectRule_some hrule
  obtain ⟨hin, hmatch⟩ := mem_matching.mp hmem
  refine selectRule_allow.mpr ⟨⟨rule, mem_matching.mpr ⟨((hr.rules rule).mp hin).1, hmatch⟩⟩, ?_⟩
  intro x hx
  obtain ⟨hxin, hxmatch⟩ := mem_matching.mp hx
  by_contra hne
  have hkept : x∈bundled.draft.rules := (hr.rules x).mpr ⟨hxin, fun _ _ => by simp [permitted, hne]⟩
  have hle := hbest x (mem_matching.mpr ⟨hkept, hxmatch⟩)
  rw [ha] at hle
  exact hne (allow_of_precedence hle)

/-- A cached permission is for an operation of the credential. -/
theorem operation_permitted {policy bundled : PolicyVersion} {actor : Actor} {action : ActionRequest}
    {rule : PolicyRule} (hr : Restricts policy bundled actor)
    (hrule : selectRule world bundled action = some rule) (ha : rule.decision=.allow)
    (he : rule.cacheEligible = true) :
    ∀ operations, actor.allowedOperations = some operations → action.operation∈operations := by
  intro operations ho
  obtain ⟨hin, hmatch⟩ := mem_matching.mp (selectRule_some hrule).1
  have hpermitted := ((hr.rules rule).mp hin).2 operations ho
  obtain ⟨operation, hoperation⟩ : ∃ operation, rule.criteria.operation = some operation := by
    obtain ⟨-, -, hget | hhead, -⟩ := rule.eligible he
    · exact ⟨_, hget⟩
    · exact ⟨_, hhead⟩
  have hsame : operation=action.operation := by
    simp only [ruleMatches, hoperation, Bool.and_eq_true, decide_eq_true_eq] at hmatch
    exact hmatch.1.1.1.2
  simpa [permitted, ha, hoperation, hsame] using hpermitted

/-- What a cache permits under a bundle, the state that the bundle was signed in permits. -/
theorem evaluate_contained {bundle : SignedPolicyBundle} {rule : PolicyRule} {action : ActionRequest}
    {actor : Actor} {m : Machine} (signed : SignedFrom bundle m.plane action.tenantId actor)
    (hrule : selectRule world bundle.policy action = some rule) (ha : rule.decision=.allow)
    (he : rule.cacheEligible = true)
    (unused : m.plane.idempotent.get? (receiptKey actor bundle.serviceKeyId action) = none) :
    ∃ result m', outcome (ControlPlane.evaluate world actor action) m = (.ok result, m') ∧
      result.decision=.allow ∧ result.policyId = some bundle.policy.policyId ∧
      result.policyVersion = some bundle.policy.version := by
  obtain ⟨policy, hpolicy, hr⟩ := signed.policy
  obtain ⟨r, hselect, hallow⟩ := selectRule_restricted hr hrule ha
  have hdecided : decideAction world m.plane action =
      decision world action .allow r.reason (some policy) r.rewrite := by
    unfold decideAction
    rw [hpolicy]
    dsimp only
    rw [hselect]
    dsimp only
    rw [hallow]
  have hnot : (decideAction world m.plane action).decision≠.escalate := by
    rw [hdecided]
    exact fun h => by cases h
  have hcredential := agentCredential_of signed.allowed signed.credential
    (operation_permitted hr hrule ha he)
  obtain ⟨auditId, m', hnew⟩ := @evaluateNew_decided world actor bundle.serviceKeyId action m hnot
  refine ⟨{ decideAction world m.plane action with auditId := auditId }, m', ?_, ?_⟩
  · unfold ControlPlane.evaluate
    rw [inspect, outcome_bind, outcome_check, hcredential]
    dsimp only
    rw [get_bind, unused]
    exact hnew
  · rw [hdecided]
    exact ⟨rfl, congrArg some hr.id.symm, congrArg some hr.version.symm⟩

end ControlPlane

/-! Runs of a cache. -/

/-- Since the start of a run no older bundle was accepted than the one that decides. -/
structure Freshest (c : SignedPolicyCache) (es : List Installation) : Prop where
  installed : ∀ bundle, c.bundle = some bundle →
    bundle.policyEpoch=c.minimumEpoch ∧ bundle.tenantId=c.tenantId ∧
      ∃ e∈es, e.accepted = true ∧ e.bundle=bundle
  bounded : ∀ e∈es, e.accepted = true → e.bundle.policyEpoch ≤ c.minimumEpoch

theorem InstallStep.minimum {world : World} {c c' : SignedPolicyCache} {e : Installation}
    (h : InstallStep world c e c') : c.minimumEpoch ≤ c'.minimumEpoch := by
  cases h with
  | accepted install => exact (SignedPolicyCache.install_ok install).2.2.1
  | refused install => exact le_rfl

theorem InstallStep.freshest {world : World} {c c' : SignedPolicyCache} {e : Installation}
    {es : List Installation} (h : InstallStep world c e c') (fresh : Freshest c es) :
    Freshest c' (es++[e]) := by
  have hmin := h.minimum
  cases h with
  | accepted install =>
    obtain ⟨hbundle, hepoch, -, htenant, hsame⟩ := SignedPolicyCache.install_ok install
    refine ⟨fun bundle hb => ?_, fun f hf hacc => ?_⟩
    · cases hbundle.symm.trans hb
      exact ⟨hepoch.symm, hsame.trans htenant.symm, _,
        List.mem_append_right _ (List.mem_singleton_self _), rfl, rfl⟩
    · rcases List.mem_append.mp hf with hf | hf
      · exact (fresh.bounded f hf hacc).trans hmin
      · obtain rfl := List.mem_singleton.mp hf
        exact hepoch.ge
  | refused install =>
    refine ⟨fun bundle hb => ?_, fun f hf hacc => ?_⟩
    · obtain ⟨hepoch, htenant, f, hf, hacc⟩ := fresh.installed bundle hb
      exact ⟨hepoch, htenant, f, by simp [hf], hacc⟩
    · rcases List.mem_append.mp hf with hf | hf
      · exact fresh.bounded f hf hacc
      · obtain rfl := List.mem_singleton.mp hf
        cases hacc

def sampleRule : PolicyRule where
  ruleId := "read"
  name := "read"
  priority := 0
  criteria := { kind := some .http, operation := some "GET", targetPrefix := some "https://docs" }
  decision := .allow
  reason := "documents"
  cacheEligible := true
  rewrites := PolicyRule.unrewritten .allow Decision.allow_ne
  eligible := by simp

def sampleBundled : PolicyVersion where
  policyId := "policy"
  tenantId := "tenant"
  version := 1
  draft := ⟨"documents", [sampleRule], .block, by simp, by simp, PolicyDraft.blocks⟩
  status := .active
  createdBy := "author"
  createdAt := ⟨0, Instant.zero_range⟩

def unsignedBundle : SignedPolicyBundle where
  tenantId := "tenant"
  policy := sampleBundled
  issuedAt := .utc ⟨0, Instant.zero_range⟩
  expiresAt := .utc ⟨seconds 300, by decide⟩
  keyId := "development-ed25519-v1"
  signature := ""
  audience := "agent"
  serviceKeyId := "credential"
  policyEpoch := 1
  positive := le_rfl

def sampleBundle (signature : String) : SignedPolicyBundle :=
  { unsignedBundle with signature := signature }

def sampleCache : SignedPolicyCache where
  publicKey := "key"
  tenantId := "tenant"
  audience := "agent"
  serviceKeyId := "credential"

theorem sample_verifies {v : Json} (h : v.plain = true) (key : String) :
    sampleWorld.crypto.verifyValue key v (Json.text Json.compact v) = true := by
  unfold Crypto.verifyValue canonical
  rw [Json.dumps_plain h]
  exact decide_eq_true rfl

theorem sample_install {signature : String}
    (h : sampleWorld.crypto.verifyValue "key" unsignedBundle.unsigned signature = true) :
    ∃ c, sampleCache.install sampleWorld (sampleWorld.clock 0) (sampleBundle signature) = .ok c := by
  have hkey : ¬((sampleBundle signature).keyId≠sampleCache.keyId ∨
      sampleWorld.crypto.verifyValue sampleCache.publicKey (sampleBundle signature).unsigned
        (sampleBundle signature).signature = false) := by
    rintro (hk | hv)
    · exact hk rfl
    · cases h.symm.trans hv
  refine ⟨_, (if_neg hkey).trans ((if_neg ?_).trans (if_neg ?_))⟩
  · rw [show sampleCache.addressed (sampleBundle signature) = true from rfl]
    decide
  · rw [show SignedPolicyCache.lively (sampleWorld.clock 0) (sampleBundle signature) = true from rfl]
    decide

end TraceGuard
