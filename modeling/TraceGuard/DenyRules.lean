import TraceGuard.GrantCurrency
import TraceGuard.OfflineAuthorization
import TraceGuard.UrlScopes

/-! What a rule that blocks a URL blocks besides: everything below it, under the same query. -/
namespace TraceGuard
open Stateful

/-- Further segments of the path. -/
def Destination.Deeper (d d' : Destination) : Prop :=
  ∃ further : String, (further.toList.head? = some '/' ∨ d.path.toList.getLast? = some '/') ∧
    d' = { d with path := d.path++further }

theorem Destination.Within.deeper {a d d' : Destination} (h : d.Within a) (hd : d.Deeper d') :
    d'.Within a := by
  obtain ⟨further, hpart, rfl⟩ := hd
  refine ⟨h.origin, h.query, ?_⟩
  rw [String.toList_append]
  exact h.path.append hpart

namespace ControlPlane
variable {world : World} {m m' : Machine}

/-- Only the target differs, and both are in the rule's scope or neither is. -/
theorem ruleMatches_target {criteria : RuleMatch} {action : ActionRequest} {scope : String}
    (target : String) (hgiven : criteria.targetPrefix = some scope) (hhttp : action.kind=.http)
    (hmatch : ruleMatches world criteria action = true) :
    targetWithinScope world.platform scope (action.target.getD "") = true ∧
      ruleMatches world criteria { action with target := some target } =
        targetWithinScope world.platform scope target := by
  simp only [ruleMatches, hgiven, hhttp, if_true, Bool.and_eq_true] at hmatch ⊢
  obtain ⟨⟨⟨⟨hkind, hoperation⟩, hscope⟩, harguments⟩, hinstructions⟩ := hmatch
  refine ⟨hscope, ?_⟩
  rw [hkind, hoperation, harguments, hinstructions]
  simp

theorem evaluateNew_decision {actor : Actor} {credential : String} {action : ActionRequest}
    {d : DecisionResponse} (h : outcome (evaluateNew world actor credential action) m = (.ok d, m')) :
    d.decision = (decideAction world m.plane action).decision := by
  unfold evaluateNew at h
  rw [get_bind, appendAudit_bind] at h
  by_cases hd : (decideAction world m.plane action).decision=.escalate
  · rw [if_pos hd] at h
    rcases bind_cases h with ⟨_, _, he⟩ | ⟨_, _, _, h⟩
    · cases he
    · cases (Prod.mk.inj h).1
      rfl
  · rw [if_neg hd] at h
    cases (Prod.mk.inj h).1
    rfl

theorem decideAction_allow {s : ControlState} {action : ActionRequest} {policy : PolicyVersion}
    (hpolicy : s.activePolicy action.tenantId = some policy) :
    (decideAction world s action).decision=.allow ↔
      ∃ r, selectRule world policy action = some r ∧ r.decision=.allow := by
  unfold decideAction
  rw [hpolicy]
  dsimp only
  cases selectRule world policy action with
  | none =>
    constructor
    · intro h
      rcases policy.draft.withholds with hd | hd <;> cases hd.symm.trans h
    · rintro ⟨_, hno, _⟩
      cases hno
  | some r =>
    constructor
    · exact fun h => ⟨r, rfl, h⟩
    · rintro ⟨_, hr, h⟩
      cases hr
      exact h

theorem evaluate_new {actor : Actor} {action : ActionRequest} {credential : String}
    (hcredential : agentCredential m.plane actor action = .ok credential)
    (hnew : m.plane.idempotent.get? (receiptKey actor credential action) = none) :
    outcome (evaluate world actor action) m = outcome (evaluateNew world actor credential action) m := by
  unfold evaluate
  rw [inspect, outcome_bind, outcome_check, hcredential]
  dsimp only
  rw [get_bind, hnew]

/-- A new decision of an authorized agent's action. -/
theorem evaluate_allow {actor : Actor} (action : ActionRequest) {credential : String}
    {policy : PolicyVersion} {d : DecisionResponse}
    (hpolicy : m.plane.activePolicy action.tenantId = some policy)
    (hcredential : agentCredential m.plane actor action = .ok credential)
    (hnew : m.plane.idempotent.get? (receiptKey actor credential action) = none)
    (h : outcome (evaluate world actor action) m = (.ok d, m')) :
    d.decision=.allow ↔ (∃ x∈policy.draft.rules, ruleMatches world x.criteria action = true ∧
        x.decision=.allow) ∧
      ∀ x∈policy.draft.rules, ruleMatches world x.criteria action = true → x.decision=.allow := by
  rw [evaluate_new hcredential hnew] at h
  rw [evaluateNew_decision h, decideAction_allow hpolicy, selectRule_allow]
  constructor
  · rintro ⟨⟨x, hx⟩, hall⟩
    obtain ⟨hin, hmatches⟩ := mem_matching.mp hx
    exact ⟨⟨x, hin, hmatches, hall x hx⟩, fun y hy hm => hall y (mem_matching.mpr ⟨hy, hm⟩)⟩
  · rintro ⟨⟨x, hin, hmatches, _⟩, hall⟩
    exact ⟨⟨x, mem_matching.mpr ⟨hin, hmatches⟩⟩, fun y hy =>
      hall y (mem_matching.mp hy).1 (mem_matching.mp hy).2⟩

/-- What a rule blocks, it blocks below as well; under another query, the other rules decide. -/
theorem deny_rules {actor : Actor} {action : ActionRequest} {target credential scope : String}
    {policy : PolicyVersion} {rule : PolicyRule} {s d d' : Destination} {response : DecisionResponse}
    (hpolicy : m.plane.activePolicy action.tenantId = some policy)
    (hrule : rule∈policy.draft.rules) (hblock : rule.decision=.block)
    (hgiven : rule.criteria.targetPrefix = some scope)
    (hscope : destination world.platform scope = some s) (hquery : s.query="")
    (hhttp : action.kind=.http) (hmatch : ruleMatches world rule.criteria action = true)
    (hd : destination world.platform (action.target.getD "") = some d)
    (hd' : destination world.platform target = some d')
    (hcredential : agentCredential m.plane actor { action with target := some target } = .ok credential)
    (hnew : m.plane.idempotent.get?
      (receiptKey actor credential { action with target := some target }) = none)
    (h : outcome (evaluate world actor { action with target := some target }) m = (.ok response, m')) :
    (d'=d ∨ d.Deeper d' → response.decision≠.allow) ∧
      ∀ query≠"", d' = { d with query := query } →
        ruleMatches world rule.criteria { action with target := some target } = false ∧
        (response.decision=.allow ↔
          (∃ x∈policy.draft.rules, x.decision=.allow ∧
            ruleMatches world x.criteria { action with target := some target } = true) ∧
          ∀ x∈policy.draft.rules, x.decision≠.allow →
            ruleMatches world x.criteria { action with target := some target } = false) := by
  obtain ⟨hin, hsame⟩ := ruleMatches_target target hgiven hhttp hmatch
  have hallow := evaluate_allow { action with target := some target } hpolicy hcredential hnew h
  obtain ⟨a, b, ha, hb, hwithin⟩ := targetWithinScope_iff.mp hin
  obtain rfl := Option.some.inj (hscope.symm.trans ha)
  obtain rfl := Option.some.inj (hd.symm.trans hb)
  refine ⟨fun hdeeper hallowed => ?_, fun query hne he => ⟨?_, ?_⟩⟩
  · have hwithin' : d'.Within s := hdeeper.elim (fun he => he ▸ hwithin) hwithin.deeper
    have hstill : ruleMatches world rule.criteria { action with target := some target } = true :=
      hsame.trans (targetWithinScope_iff.mpr ⟨_, _, hscope, hd', hwithin'⟩)
    have hno := (hallow.mp hallowed).2 rule hrule hstill
    rw [hblock] at hno
    cases hno
  · rw [hsame, Bool.eq_false_iff]
    intro hstill
    obtain ⟨a', b', ha', hb', hwithin'⟩ := targetWithinScope_iff.mp hstill
    obtain rfl := Option.some.inj (hscope.symm.trans ha')
    obtain rfl := Option.some.inj (hd'.symm.trans hb')
    have hsame := hwithin'.query
    rw [he, hquery] at hsame
    exact hne hsame
  · rw [hallow]
    constructor
    · rintro ⟨⟨x, hx, hm, hallows⟩, hall⟩
      refine ⟨⟨x, hx, hallows, hm⟩, fun y hy hno => ?_⟩
      rw [Bool.eq_false_iff]
      exact fun hm => hno (hall y hy hm)
    · rintro ⟨⟨x, hx, hallows, hm⟩, hall⟩
      refine ⟨⟨x, hx, hm, hallows⟩, fun y hy hm => ?_⟩
      by_contra hno
      rw [hall y hy hno] at hm
      cases hm

/-! A permission for everything and a prohibition of one URL. -/

def sampleNet : World := { sampleWorld with platform := sampleUrls }

def sampleAllowing : PolicyRule :=
  ⟨"allow", "allow", 0, {}, .allow, "permit", none, false,
    PolicyRule.unrewritten .allow Decision.allow_ne, PolicyRule.uncached .allow⟩

def sampleDenying : PolicyRule :=
  ⟨"deny", "deny", 0, { targetPrefix := some "https://h/" }, .block, "deny", none,
    false, PolicyRule.unrewritten .block Decision.block_ne, by simp⟩

def sampleDeny : PolicyDraft where
  name := "deny"
  rules := [sampleAllowing, sampleDenying]
  nonempty := by simp
  distinct := by decide
  withholds := PolicyDraft.blocks

def sampleFetch (target : String) : ActionRequest where
  tenantId := "tenant"
  idempotencyKey := "first-key"
  actionId := "action"
  kind := .http
  operation := "GET"
  target := some target

def sampleDenied : Machine :=
  (served sampleNet {} [.createDraft "tenant" sampleAdmin sampleDeny, .submitPolicy "tenant" sampleAdmin "",
    .approvePolicy "tenant" sampleApprover ""]).2

theorem sample_denied : ∃ policy, sampleDenied.plane.activePolicy "tenant" = some policy ∧
    policy.draft=sampleDeny := ⟨_, rfl, rfl⟩

theorem sample_credential (target : String) :
    agentCredential sampleDenied.plane sampleSender (sampleFetch target) = .ok "credential" := rfl

theorem sample_unused (target : String) : sampleDenied.plane.idempotent.get?
    (receiptKey sampleSender "credential" (sampleFetch target)) = none := rfl

theorem sample_blocked : ruleMatches sampleNet sampleDenying.criteria (sampleFetch "https://h/") = true := by
  have hscope : targetWithinScope sampleNet.platform "https://h/" "https://h/" = true :=
    targetWithinScope_iff.mpr ⟨_, _, sample_scope, sample_scope, rfl, rfl, .refl⟩
  simp only [ruleMatches, sampleDenying, sampleFetch, Option.getD_some, if_true, hscope]
  rfl

theorem sample_unblocked :
    ruleMatches sampleNet sampleDenying.criteria (sampleFetch "https://h/?q=%2F") = false := by
  have hmatch := (ruleMatches_target "https://h/?q=%2F" rfl rfl sample_blocked).2
  refine hmatch.trans ?_
  rw [Bool.eq_false_iff]
  intro h
  obtain ⟨a, b, ha, hb, hwithin⟩ := targetWithinScope_iff.mp h
  obtain rfl := Option.some.inj (sample_scope.symm.trans ha)
  obtain rfl := Option.some.inj (sample_query.symm.trans hb)
  exact absurd hwithin.query (by decide)

theorem sample_fetched {policy : PolicyVersion} (hpolicy : sampleDenied.plane.activePolicy "tenant" = some policy)
    (hdraft : policy.draft=sampleDeny) : ∃ response m', outcome (evaluate sampleNet sampleSender
      (sampleFetch "https://h/?q=%2F")) sampleDenied = (.ok response, m') ∧ response.decision=.allow := by
  have hdecision : (decideAction sampleNet sampleDenied.plane
      (sampleFetch "https://h/?q=%2F")).decision=.allow := by
    have hallowing : ruleMatches sampleNet sampleAllowing.criteria (sampleFetch "https://h/?q=%2F") = true := rfl
    have hmatching : matching sampleNet policy (sampleFetch "https://h/?q=%2F") = [sampleAllowing] := by
      simp [matching, hdraft, sampleDeny, hallowing, sample_unblocked]
    refine (decideAction_allow hpolicy).mpr (selectRule_allow.mpr ?_)
    rw [hmatching]
    exact ⟨⟨_, List.mem_singleton_self _⟩, fun x hx => by rw [List.mem_singleton.mp hx]; rfl⟩
  have hnot : (decideAction sampleNet sampleDenied.plane
      (sampleFetch "https://h/?q=%2F")).decision≠.escalate := by
    rw [hdecision]
    decide
  obtain ⟨auditId, m', hnew⟩ := @evaluateNew_decided sampleNet sampleSender "credential" _ _ hnot
  rw [← evaluate_new (sample_credential _) (sample_unused _)] at hnew
  exact ⟨_, m', hnew, hdecision⟩

/-- A rule that blocks a URL does not block it with a query. -/
theorem deny_evaded : ∃ (world : World) (m m' : Machine) (actor : Actor) (action : ActionRequest)
    (target credential scope : String) (policy : PolicyVersion) (rule : PolicyRule)
    (s d d' : Destination) (response : DecisionResponse),
    m.plane.activePolicy action.tenantId = some policy ∧ rule∈policy.draft.rules ∧
    rule.decision=.block ∧ rule.criteria.targetPrefix = some scope ∧
    destination world.platform scope = some s ∧ s.query="" ∧ action.kind=.http ∧
    ruleMatches world rule.criteria action = true ∧
    destination world.platform (action.target.getD "") = some d ∧
    destination world.platform target = some d' ∧ d' = { d with query := d'.query } ∧
    agentCredential m.plane actor { action with target := some target } = .ok credential ∧
    m.plane.idempotent.get? (receiptKey actor credential { action with target := some target }) = none ∧
    outcome (evaluate world actor { action with target := some target }) m = (.ok response, m') ∧
    response.decision=.allow := by
  obtain ⟨policy, hpolicy, hdraft⟩ := sample_denied
  obtain ⟨response, m', hresponse, hallow⟩ := sample_fetched hpolicy hdraft
  exact ⟨sampleNet, sampleDenied, m', sampleSender, sampleFetch "https://h/", "https://h/?q=%2F", "credential",
    "https://h/", policy, sampleDenying, _, _, _, response, hpolicy, by simp [hdraft, sampleDeny], rfl, rfl,
    sample_scope, rfl, rfl, sample_blocked, sample_scope, sample_query, rfl, sample_credential _,
    sample_unused _, hresponse, hallow⟩

theorem deny_rules_sample :
    ruleMatches sampleNet sampleDenying.criteria (sampleFetch "https://h/?q=%2F") = false := by
  obtain ⟨policy, hpolicy, hdraft⟩ := sample_denied
  obtain ⟨response, m', hresponse, _⟩ := sample_fetched hpolicy hdraft
  exact ((@deny_rules sampleNet sampleDenied m' sampleSender (sampleFetch "https://h/") "https://h/?q=%2F"
    "credential" "https://h/" policy sampleDenying _ _ _ response hpolicy (by simp [hdraft, sampleDeny]) rfl rfl
    sample_scope rfl rfl sample_blocked sample_scope sample_query (sample_credential _) (sample_unused _)
    hresponse).2 "q=%2F" (by decide) rfl).1

end ControlPlane
end TraceGuard
