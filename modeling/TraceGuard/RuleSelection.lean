import Mathlib.Data.List.MinMax
import Mathlib.Data.Prod.Lex
import TraceGuard.ControlPlane

/-! The selected rule is the one with the greatest key of precedence, priority and id: it does not depend
on the order of the rules, and what withholds comes before what allows. -/
namespace List
variable {α β : Type} [LinearOrder β] {f : α → β} {l l' : List α}

/-- Where the key tells the elements apart, their order does not matter. -/
theorem argmax_perm (h : l.Perm l') (hinj : ∀ a∈l, ∀ b∈l, f a=f b → a=b) : l.argmax f=l'.argmax f := by
  cases hm : l.argmax f with
  | none =>
    obtain rfl := argmax_eq_none.mp hm
    obtain rfl := h.nil_eq
    rfl
  | some m =>
    have hmem : m∈l := argmax_mem hm
    cases hm' : l'.argmax f with
    | none =>
      obtain rfl := argmax_eq_none.mp hm'
      rw [h.eq_nil] at hmem
      cases hmem
    | some m' =>
      have hmem' : m'∈l' := argmax_mem hm'
      have hle : f m' ≤ f m := le_of_mem_argmax (h.mem_iff.mpr hmem') hm
      have hge : f m ≤ f m' := le_of_mem_argmax (h.mem_iff.mp hmem) hm'
      rw [hinj m hmem m' (h.mem_iff.mpr hmem') (le_antisymm hge hle)]

theorem argmax_isSome {a : α} (h : a∈l) : ∃ m, l.argmax f = some m := by
  cases hm : l.argmax f with
  | none =>
    rw [argmax_eq_none.mp hm] at h
    cases h
  | some m => exact ⟨m, rfl⟩

end List

namespace TraceGuard.ControlPlane
variable {world : World}

/-- What `max` compares. -/
def ruleKey (r : PolicyRule) : Nat ×ₗ Nat ×ₗ String :=
  toLex (precedence r.decision, toLex (r.priority, r.ruleId))

theorem outranks_iff {r r' : PolicyRule} : outranks r r' = true ↔ ruleKey r' < ruleKey r := by
  simp only [outranks, ruleKey, Prod.Lex.toLex_lt_toLex, Bool.or_eq_true, Bool.and_eq_true,
    decide_eq_true_eq]

theorem precedence_of_key {r r' : PolicyRule} (h : ruleKey r ≤ ruleKey r') :
    precedence r.decision ≤ precedence r'.decision := by
  rcases Prod.Lex.toLex_le_toLex.mp h with hlt | ⟨he, _⟩
  · exact le_of_lt hlt
  · exact le_of_eq he

theorem id_of_key {r r' : PolicyRule} (h : ruleKey r = ruleKey r') : r.ruleId=r'.ruleId := by
  have h := congrArg (fun k => (ofLex (ofLex k).2).2) h
  exact h

def matching (world : World) (policy : PolicyVersion) (action : ActionRequest) : List PolicyRule :=
  policy.draft.rules.filter fun rule => ruleMatches world rule.criteria action

theorem mem_matching {policy : PolicyVersion} {action : ActionRequest} {x : PolicyRule} :
    x∈matching world policy action ↔
      x∈policy.draft.rules ∧ ruleMatches world x.criteria action = true := List.mem_filter

theorem selectRule_eq (policy : PolicyVersion) (action : ActionRequest) :
    selectRule world policy action = (matching world policy action).argmax ruleKey := by
  unfold selectRule List.argmax matching
  congr 1
  funext best rule
  cases best with
  | none => rfl
  | some b =>
    simp only [outranks_iff]
    rfl

/-- The selected rule matches, and no matching rule comes before it in precedence. -/
theorem selectRule_some {policy : PolicyVersion} {action : ActionRequest} {r : PolicyRule}
    (h : selectRule world policy action = some r) : r∈matching world policy action ∧
      ∀ x∈matching world policy action, precedence x.decision ≤ precedence r.decision := by
  rw [selectRule_eq] at h
  exact ⟨List.argmax_mem h, fun x hx => precedence_of_key (List.le_of_mem_argmax hx h)⟩

theorem selectRule_isSome {policy : PolicyVersion} {action : ActionRequest} {x : PolicyRule}
    (hx : x∈matching world policy action) : ∃ r, selectRule world policy action = some r := by
  rw [selectRule_eq]
  exact List.argmax_isSome hx

theorem selectRule_none {policy : PolicyVersion} {action : ActionRequest} :
    selectRule world policy action = none ↔
      ∀ x∈policy.draft.rules, ruleMatches world x.criteria action = false := by
  rw [selectRule_eq, List.argmax_eq_none, matching, List.filter_eq_nil_iff]
  simp only [Bool.not_eq_true]

theorem allow_of_precedence {d : Decision} (h : precedence d ≤ precedence .allow) : d=.allow := by
  cases d
  · rfl
  all_goals exact absurd h (by decide)

/-- A rule that no precedence can lose to: nothing that withholds matches. -/
theorem selectRule_allow {policy : PolicyVersion} {action : ActionRequest} :
    (∃ r, selectRule world policy action = some r ∧ r.decision=.allow) ↔
      (∃ x, x∈matching world policy action) ∧ ∀ x∈matching world policy action, x.decision=.allow := by
  constructor
  · rintro ⟨r, hr, hallow⟩
    obtain ⟨hmem, hall⟩ := selectRule_some hr
    exact ⟨⟨r, hmem⟩, fun x hx => allow_of_precedence (hallow ▸ hall x hx)⟩
  · rintro ⟨⟨x, hx⟩, hall⟩
    obtain ⟨r, hr⟩ := selectRule_isSome hx
    exact ⟨r, hr, hall r (selectRule_some hr).1⟩

/-- The rules of a draft have different keys. -/
theorem ruleKey_injective {policy : PolicyVersion} {r r' : PolicyRule} (hr : r∈policy.draft.rules)
    (hr' : r'∈policy.draft.rules) (h : ruleKey r = ruleKey r') : r=r' :=
  List.inj_on_of_nodup_map policy.draft.distinct hr hr' (id_of_key h)

/-- The selection depends on neither the order of the rules nor, beyond their precedence, on what they
allow; a rule that is added never lowers the decision. -/
theorem rule_selection (world : World) (action : ActionRequest) :
    (∀ policy policy' : PolicyVersion, policy.draft.rules.Perm policy'.draft.rules →
        selectRule world policy action = selectRule world policy' action) ∧
      (∀ policy : PolicyVersion, selectRule world policy action = none ↔
        ∀ rule∈policy.draft.rules, ruleMatches world rule.criteria action = false) ∧
      (∀ (policy : PolicyVersion) rule, selectRule world policy action = some rule →
        rule.decision=.allow →
        (∃ x∈policy.draft.rules, ruleMatches world x.criteria action = true ∧ x.decision=.allow) ∧
          ∀ x∈policy.draft.rules, ruleMatches world x.criteria action = true → x.decision=.allow) ∧
      (∀ (policy policy' : PolicyVersion) further rule,
        policy'.draft.rules.Perm (further :: policy.draft.rules) →
        selectRule world policy action = some rule →
        ∃ rule', selectRule world policy' action = some rule' ∧
          precedence rule.decision ≤ precedence rule'.decision) ∧
      ∀ policy policy' : PolicyVersion, policy'.draft.rules.Sublist policy.draft.rules →
        (∀ rule∈policy.draft.rules, rule∉policy'.draft.rules → rule.decision=.allow) →
        (∃ rule, selectRule world policy' action = some rule ∧ rule.decision=.allow) →
        ∃ rule, selectRule world policy action = some rule ∧ rule.decision=.allow := by
  refine ⟨fun policy policy' h => ?_, fun policy => selectRule_none, fun policy rule h hallow => ?_,
    fun policy policy' further rule h hrule => ?_, fun policy policy' hsub hremoved hallowed => ?_⟩
  · rw [selectRule_eq, selectRule_eq]
    refine List.argmax_perm (h.filter _) fun a ha b hb hkey => ?_
    exact ruleKey_injective (mem_matching.mp ha).1 (mem_matching.mp hb).1 hkey
  · obtain ⟨hmem, hall⟩ := selectRule_some h
    obtain ⟨hrule, hmatches⟩ := mem_matching.mp hmem
    exact ⟨⟨rule, hrule, hmatches, hallow⟩, fun x hx hm =>
      allow_of_precedence (hallow ▸ hall x (mem_matching.mpr ⟨hx, hm⟩))⟩
  · obtain ⟨hrules, hmatches⟩ := mem_matching.mp (selectRule_some hrule).1
    have hmem : rule∈matching world policy' action :=
      mem_matching.mpr ⟨h.mem_iff.mpr (List.mem_cons_of_mem _ hrules), hmatches⟩
    obtain ⟨rule', hrule'⟩ := selectRule_isSome hmem
    exact ⟨rule', hrule', (selectRule_some hrule').2 rule hmem⟩
  · obtain ⟨⟨x, hx⟩, hall⟩ := selectRule_allow.mp hallowed
    obtain ⟨hrule, hmatches⟩ := mem_matching.mp hx
    refine selectRule_allow.mpr ⟨⟨x, mem_matching.mpr ⟨hsub.subset hrule, hmatches⟩⟩, fun y hy => ?_⟩
    obtain ⟨hy, hym⟩ := mem_matching.mp hy
    by_cases hkept : y∈policy'.draft.rules
    · exact hall y (mem_matching.mpr ⟨hkept, hym⟩)
    · exact hremoved y hy hkept

end TraceGuard.ControlPlane
