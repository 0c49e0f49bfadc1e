import Mathlib.Data.List.MinMax
import TraceGuard.Supervision

/-! What combining outputs keeps of its members. The decision and the risk are the strictest ones; the flags
are the last winner's alone, and the target is that of the riskiest member with a profile. -/
namespace TraceGuard

theorem firstMax_argmax {α : Type} (key : α → Nat) (best : α) (items : List α) :
    (best :: items).argmax key = some (firstMax key best items) := by
  induction items generalizing best with
  | nil => rfl
  | cons item items ih =>
    unfold firstMax
    rw [← ih]
    -- `argmax` folds from the left with the same comparison
    unfold List.argmax
    simp only [List.foldl_cons, List.argAux]
    split <;> rfl

theorem le_firstMax {α : Type} (key : α → Nat) (best : α) (items : List α) :
    ∀ item∈best :: items, key item≤key (firstMax key best items) :=
  fun _ hm => List.le_of_mem_argmax hm (firstMax_argmax key best items)

/-- Among equals the last one is chosen. -/
theorem lastMax_getLast {α : Type} (key : α → Nat) (best : α) (items : List α) (n : Nat)
    (h : ∀ item∈best :: items, key item=n) :
    lastMax key best items=(best :: items).getLast (by simp) := by
  induction items generalizing best with
  | nil => rfl
  | cons item items ih =>
    unfold lastMax
    have hbest := h best (by simp)
    have hitem := h item (by simp)
    rw [if_neg (by omega), ih item fun other hm => h other (List.mem_cons_of_mem _ hm)]
    exact (List.getLast_cons (by simp)).symm

namespace SupervisorOutput

/-- What a safeguard reports besides the risk. -/
def flagged (out : SupervisorOutput) : Bool :=
  out.policyViolation || out.goalRelevance=.irrelevant || out.goalNecessity=.unnecessary

theorem inconsistent_iff {out : SupervisorOutput} :
    out.inconsistent = true ↔ 1 < out.risk.rank ∨ out.flagged = true := by
  cases hr : out.risk <;> simp [inconsistent, flagged, hr, RiskLevel.rank, or_assoc]

theorem consistent_iff {out : SupervisorOutput} :
    out.inconsistent = false ↔ out.risk.rank≤1 ∧ out.flagged = false := by
  rw [← Bool.not_eq_true, inconsistent_iff, not_or, Bool.not_eq_true, not_lt]

theorem contains_of_container {out : SupervisorOutput} (h : out.executionTarget=some .container) :
    out.contains = true := by
  obtain ⟨profile, hne, hp⟩ := out.profiled h
  simpa [contains, h, hp] using hne

theorem enforceAllowInvariants_risk (out : SupervisorOutput) :
    out.enforceAllowInvariants.risk=out.risk := by
  unfold enforceAllowInvariants
  split <;> rfl

theorem enforceAllowInvariants_of {out : SupervisorOutput}
    (h : out.decision=.allow → out.inconsistent = false) : out.enforceAllowInvariants=out := by
  unfold enforceAllowInvariants
  refine if_neg fun hn => ?_
  simp only [Bool.and_eq_true, decide_eq_true_eq] at hn
  simp [h hn.1] at hn

/-- What does not withhold was not changed. -/
theorem enforceAllowInvariants_proceeds {out : SupervisorOutput}
    (h : out.enforceAllowInvariants.decision.withholds = false) :
    out.enforceAllowInvariants=out ∧ (out.decision=.allow → out.inconsistent = false) := by
  rcases out.enforceAllowInvariants_cases with hsame | ⟨-, hesc⟩
  · exact hsame
  · rw [hesc] at h
    cases h

theorem precedence_enforceAllowInvariants (out : SupervisorOutput) :
    out.decision.precedence≤out.enforceAllowInvariants.decision.precedence := by
  rcases out.enforceAllowInvariants_cases with ⟨hsame, -⟩ | ⟨ha, hesc⟩
  · exact le_of_eq (by rw [hsame])
  · simp [ha, hesc, Decision.precedence]

end SupervisorOutput

theorem Decision.proceeds_cases {decision : Decision} :
    decision.withholds = false ↔ decision=.allow ∨ decision=.rewrite := by
  cases decision <;> decide

theorem Decision.precedence_allow {decision : Decision} (h : decision.precedence≤0) : decision=.allow := by
  cases decision <;> simp [Decision.precedence] at h ⊢

theorem Decision.withholds_precedence {decision : Decision} :
    decision.withholds = true ↔ 1 < decision.precedence := by
  cases decision <;> decide

theorem RiskLevel.rank_inj {risk risk' : RiskLevel} (h : risk.rank=risk'.rank) : risk=risk' := by
  cases risk <;> cases risk' <;> simp [RiskLevel.rank] at h ⊢

/-- The riskiest of the outputs with a target and a profile, the first of equally risky ones. -/
def riskiestContained (outputs : List SupervisorOutput) : Option SupervisorOutput :=
  (outputs.filter SupervisorOutput.contains).argmax fun out => out.risk.rank

/-- What is merged before the last check. -/
structure Combined (outputs : List SupervisorOutput) (out : SupervisorOutput) : Prop where
  strictest : ∀ other∈outputs, other.decision.precedence≤out.decision.precedence
  follows : ∃ winner∈outputs, out.decision=winner.decision
  riskiest : ∃ other∈outputs, other.risk=out.risk
  risk : ∀ other∈outputs, other.risk.rank≤out.risk.rank
  flags : (∀ other∈outputs, other.decision=.allow) → ∀ last∈outputs.getLast?, out.flagged=last.flagged
  placed : out.decision.withholds = false → ∀ contained∈riskiestContained outputs,
    out.executionTarget=contained.executionTarget ∧ out.containerProfile=contained.containerProfile

theorem mergeOutputs_combined {outputs : List SupervisorOutput} (hne : outputs≠[]) :
    ∃ out, Combined outputs out ∧ mergeOutputs outputs = some out.enforceAllowInvariants := by
  cases outputs with
  | nil => exact absurd rfl hne
  | cons first outputs =>
    have hmem := lastMax_mem (fun out : SupervisorOutput => out.decision.precedence) first outputs
    have hmax := le_lastMax (fun out : SupervisorOutput => out.decision.precedence) first outputs
    have hrisk := le_firstMax (fun out : SupervisorOutput => out.risk.rank) first outputs
    have hrisky := firstMax_mem (fun out : SupervisorOutput => out.risk.rank) first outputs
    have hlast : (∀ other∈first :: outputs, other.decision=.allow) →
        ∀ last∈(first :: outputs).getLast?,
          (lastMax (fun out : SupervisorOutput => out.decision.precedence) first outputs)=last := by
      intro hall last hl
      rw [lastMax_getLast _ first outputs 0 fun other hm => by simp [hall other hm, Decision.precedence]]
      exact List.getLast_of_mem_getLast? hl
    -- the winner is the strictest one with the greatest risk, wherever it is placed
    have combine (out : SupervisorOutput)
        (hd : out.decision=
          (lastMax (fun out : SupervisorOutput => out.decision.precedence) first outputs).decision)
        (hr : out.risk=(firstMax (fun out : SupervisorOutput => out.risk.rank) first outputs).risk)
        (hf : out.flagged=
          (lastMax (fun out : SupervisorOutput => out.decision.precedence) first outputs).flagged)
        (hp : out.decision.withholds = false → ∀ contained∈riskiestContained (first :: outputs),
          out.executionTarget=contained.executionTarget ∧
            out.containerProfile=contained.containerProfile) :
        Combined (first :: outputs) out := {
      strictest := fun other hm => by rw [hd]; exact hmax other hm
      follows := ⟨_, hmem, hd⟩
      riskiest := ⟨_, hrisky, hr.symm⟩
      risk := fun other hm => by rw [hr]; exact hrisk other hm
      flags := fun hall last hl => by rw [hf, hlast hall last hl]
      placed := hp }
    unfold mergeOutputs
    dsimp only
    split
    · rename_i hnone
      refine ⟨_, ?_, rfl⟩
      exact combine _ rfl rfl rfl fun _ r hr => by simp [riskiestContained, hnone] at hr
    rename_i contained others hsome
    split
    · rename_i hw
      refine ⟨_, ?_, rfl⟩
      exact combine _ rfl rfl rfl fun hn => by simp [hw] at hn
    · refine ⟨_, ?_, rfl⟩
      refine combine _ rfl rfl rfl fun _ r hr => ?_
      rw [riskiestContained, hsome, firstMax_argmax] at hr
      cases Option.some.inj hr
      exact ⟨rfl, rfl⟩

/-- The merged call may run, as it is or rewritten. -/
def Proceeds (outputs : List SupervisorOutput) : Prop :=
  (∀ out∈outputs, out.decision.withholds = false) ∧
    ((∃ out∈outputs, out.decision=.rewrite) ∨
      (∀ out∈outputs, out.risk.rank≤1) ∧ ∀ last∈outputs.getLast?, last.flagged = false)

/-- What merging is to keep of every member. -/
structure Conservative (outputs : List SupervisorOutput) (merged : SupervisorOutput) : Prop where
  decision : ∀ out∈outputs, out.decision.precedence ≤ merged.decision.precedence
  risk : (∃ out∈outputs, merged.risk=out.risk) ∧ ∀ out∈outputs, out.risk.rank ≤ merged.risk.rank
  consistent : merged.decision=.allow → ∀ out∈outputs, out.inconsistent = false
  contained : merged.decision=.allow ∨ merged.decision=.rewrite →
    (∃ out∈outputs, out.executionTarget=some .container) →
    merged.executionTarget=some .container ∧ ∃ out∈outputs, out.executionTarget=some .container ∧
      merged.containerProfile=out.containerProfile

/-- No flag is raised before the last of calmly allowing members, and a container is not the lesser of two
profiles. -/
structure Settled (outputs : List SupervisorOutput) : Prop where
  flags : (∀ out∈outputs, out.decision=.allow) → Proceeds outputs →
    ∀ out∈outputs, out.flagged = false
  contained : Proceeds outputs → (∃ out∈outputs, out.executionTarget=some .container) →
    ∀ riskiest∈riskiestContained outputs, riskiest.executionTarget=some .container

namespace Combined
variable {outputs : List SupervisorOutput} {out : SupervisorOutput}

theorem allow (h : Combined outputs out) (ha : out.decision=.allow) :
    ∀ other∈outputs, other.decision=.allow := by
  intro other hm
  have := h.strictest other hm
  rw [ha] at this
  exact Decision.precedence_allow this

theorem proceeds_iff (h : Combined outputs out) :
    out.enforceAllowInvariants.decision.withholds = false ↔ Proceeds outputs := by
  constructor
  · intro hw
    obtain ⟨hsame, hok⟩ := SupervisorOutput.enforceAllowInvariants_proceeds hw
    rw [hsame] at hw
    refine ⟨fun other hm => ?_, ?_⟩
    · by_contra hn
      have hother := Decision.withholds_precedence.mp (Bool.not_eq_false _ ▸ hn)
      have := Decision.withholds_precedence.mpr (lt_of_lt_of_le hother (h.strictest other hm))
      rw [hw] at this
      cases this
    rcases Decision.proceeds_cases.mp hw with ha | hr
    · obtain ⟨hrank, hflag⟩ := SupervisorOutput.consistent_iff.mp (hok ha)
      refine Or.inr ⟨fun other hm => (h.risk other hm).trans hrank, fun last hl => ?_⟩
      rw [← h.flags (h.allow ha) last hl]
      exact hflag
    · obtain ⟨winner, hm, hd⟩ := h.follows
      exact Or.inl ⟨winner, hm, hd.symm.trans hr⟩
  · rintro ⟨hproceed, hcase⟩
    obtain ⟨winner, hm, hd⟩ := h.follows
    rw [SupervisorOutput.enforceAllowInvariants_of, hd]
    · exact hproceed winner hm
    intro ha
    rcases hcase with ⟨other, hother, hr⟩ | ⟨hrank, hflag⟩
    · rw [h.allow ha other hother] at hr
      cases hr
    · obtain ⟨risky, hrisky, he⟩ := h.riskiest
      have hlast := List.getLast?_eq_some_getLast (List.ne_nil_of_mem hm)
      refine SupervisorOutput.consistent_iff.mpr ⟨he ▸ hrank risky hrisky, ?_⟩
      rw [h.flags (h.allow ha) _ hlast]
      exact hflag _ hlast

theorem conservative_iff (h : Combined outputs out) :
    Conservative outputs out.enforceAllowInvariants ↔ Settled outputs := by
  constructor
  · intro hc
    refine ⟨fun hall hp other hm => ?_, fun hp hexists riskiest hr => ?_⟩
    · have hw := h.proceeds_iff.mpr hp
      obtain ⟨winner, hwm, hd⟩ := h.follows
      have ha : out.enforceAllowInvariants.decision=.allow := by
        rw [(SupervisorOutput.enforceAllowInvariants_proceeds hw).1, hd]
        exact hall winner hwm
      exact (SupervisorOutput.consistent_iff.mp (hc.consistent ha other hm)).2
    · have hw := h.proceeds_iff.mpr hp
      have ht := (hc.contained (Decision.proceeds_cases.mp hw) hexists).1
      rw [(SupervisorOutput.enforceAllowInvariants_proceeds hw).1] at ht hw
      rw [← (h.placed hw riskiest hr).1]
      exact ht
  · intro hs
    have hsame (hw : out.enforceAllowInvariants.decision.withholds = false) :=
      SupervisorOutput.enforceAllowInvariants_proceeds hw
    refine ⟨fun other hm => ?_, ⟨?_, fun other hm => ?_⟩, fun ha other hm => ?_, fun hd hexists => ?_⟩
    · exact (h.strictest other hm).trans out.precedence_enforceAllowInvariants
    · obtain ⟨risky, hm, he⟩ := h.riskiest
      exact ⟨risky, hm, by rw [out.enforceAllowInvariants_risk, he]⟩
    · rw [out.enforceAllowInvariants_risk]
      exact h.risk other hm
    · have hw := Decision.proceeds_cases.mpr (Or.inl ha)
      obtain ⟨he, hok⟩ := hsame hw
      rw [he] at ha
      have hrank := (SupervisorOutput.consistent_iff.mp (hok ha)).1
      exact SupervisorOutput.consistent_iff.mpr ⟨(h.risk other hm).trans hrank,
        hs.flags (h.allow ha) (h.proceeds_iff.mp hw) other hm⟩
    · have hw := Decision.proceeds_cases.mpr hd
      have hp := h.proceeds_iff.mp hw
      obtain ⟨contained, hm, ht⟩ := hexists
      cases hr : riskiestContained outputs with
      | none =>
        have hnone := List.argmax_eq_none.mp hr
        have : contained∈outputs.filter SupervisorOutput.contains :=
          List.mem_filter.mpr ⟨hm, SupervisorOutput.contains_of_container ht⟩
        rw [hnone] at this
        cases this
      | some riskiest =>
        have htarget := hs.contained hp ⟨contained, hm, ht⟩ riskiest hr
        obtain ⟨he, -⟩ := hsame hw
        rw [he] at hw ⊢
        obtain ⟨hrt, hrp⟩ := h.placed hw riskiest hr
        exact ⟨hrt.trans htarget, riskiest, (List.mem_filter.mp (List.argmax_mem hr)).1, htarget, hrp⟩

end Combined

theorem mergeOutputs_conservative {outputs : List SupervisorOutput} (hne : outputs≠[]) :
    (∃ merged, mergeOutputs outputs = some merged ∧ Conservative outputs merged) ↔ Settled outputs := by
  obtain ⟨out, hout, he⟩ := mergeOutputs_combined hne
  constructor
  · rintro ⟨merged, hm, hc⟩
    rw [he] at hm
    cases Option.some.inj hm
    exact hout.conservative_iff.mp hc
  · intro hs
    exact ⟨_, he, hout.conservative_iff.mpr hs⟩

def calm (target : Option ExecutionTarget) (profile : Option String)
    (profiled : target=some .container → ∃ p≠"", profile=some p) : SupervisorOutput where
  decision := .allow
  risk := .low
  policyViolation := false
  goalRelevance := .strong
  goalNecessity := .necessary
  reason := "Within the task."
  executionTarget := target
  containerProfile := profile
  rewrites := SupervisorOutput.unrewritten .allow Decision.allow_ne
  profiled := profiled

def sampleOutputs : List SupervisorOutput :=
  [calm (some .container) (some "box") (by simp), calm none none SupervisorOutput.unprofiled]

theorem mergeOutputs_sample :
    ∃ merged, mergeOutputs sampleOutputs = some merged ∧ Conservative sampleOutputs merged := by
  refine (mergeOutputs_conservative (by simp [sampleOutputs])).mpr ⟨fun _ _ => ?_, fun _ _ r hr => ?_⟩
  · decide
  · cases Option.some.inj hr
    rfl

/-- A violation that only the first member reports is lost. -/
def droppedFlag : List SupervisorOutput :=
  [{ calm none none SupervisorOutput.unprofiled with policyViolation := true }, calm none none SupervisorOutput.unprofiled]

/-- A riskier member with a profile but no container replaces the container. -/
def movedOut : List SupervisorOutput :=
  [calm (some .container) (some "box") (by simp),
    { calm (some .default) (some "host") (by simp) with risk := .medium }]

theorem mergeOutputs_drops :
    ¬ (∃ merged, mergeOutputs droppedFlag = some merged ∧ Conservative droppedFlag merged) ∧
      ¬ (∃ merged, mergeOutputs movedOut = some merged ∧ Conservative movedOut merged) := by
  constructor
  · rintro ⟨merged, hm, hc⟩
    cases Option.some.inj hm
    have := hc.consistent rfl _ (List.mem_cons_self ..)
    cases this
  · rintro ⟨merged, hm, hc⟩
    cases Option.some.inj hm
    have := (hc.contained (Or.inl rfl) ⟨_, List.mem_cons_self .., rfl⟩).1
    cases this

end TraceGuard
