import TraceGuard.Merging
import TraceGuard.QwenSupervisor

/-! A provider only narrows: what it answers may withhold what the guard lets through, and lets through
nothing that the guard withholds. -/
namespace Json

theorem Exact.le_total {a b : Exact} (ha : a≠.nan) (hb : b≠.nan) :
    a.le b = true ∨ b.le a = true := by
  cases a with
  | nan => exact absurd rfl ha
  | units m =>
    cases b with
    | nan => exact absurd rfl hb
    | units n => simpa [Exact.le] using Int.le_total m n
    | infinity t => cases t <;> simp [Exact.le]
  | infinity s =>
    cases b with
    | nan => exact absurd rfl hb
    | units n => cases s <;> simp [Exact.le]
    | infinity t => cases s <;> cases t <;> simp [Exact.le]

theorem exactFloat_nan {x : Double} : exactFloat x=.nan ↔ x=.nan := by
  cases x <;> simp [exactFloat]

end Json

namespace TraceGuard
open Raising Dialogue

/-! Numbers. -/

theorem Confidence.not_nan (confidence : Confidence) : confidence.value≠.nan := by
  intro h
  have := confidence.nonnegative
  simp [h, PyNumber.le, PyNumber.zero, PyNumber.exact, Json.exactInt, Json.exactFloat, Json.Exact.le] at this

/-- What is not below a threshold reaches it, when the threshold is a number. -/
theorem Confidence.reaches {confidence : Confidence} {threshold : Double}
    (h : confidence.below threshold = false) (hn : threshold≠.nan) :
    PyNumber.le (.float threshold) (.float confidence.value) = true := by
  simp only [below, PyNumber.lt, Bool.and_eq_false_iff, Bool.not_eq_false'] at h
  rcases h with h | h
  · have htotal := Json.Exact.le_total (a := Json.exactFloat threshold)
      (b := Json.exactFloat confidence.value) (fun he => hn (Json.exactFloat_nan.mp he))
      (fun he => confidence.not_nan (Json.exactFloat_nan.mp he))
    rcases htotal with hle | hle
    · exact hle
    · rw [PyNumber.le] at h
      exact absurd (h.symm.trans hle) (by decide)
  · exact h

theorem Confidence.of_ok {x : Double} {confidence : Confidence} (h : Confidence.of x = .ok confidence) :
    confidence.value=x := by
  unfold Confidence.of at h
  split at h
  · cases h
    rfl
  · cases h

/-! Decisions and risks. -/

theorem RiskLevel.rank_maxRisk (a b : RiskLevel) :
    a.rank≤(QwenSupervisor.maxRisk a b).rank ∧ b.rank≤(QwenSupervisor.maxRisk a b).rank := by
  have h := le_firstMax RiskLevel.rank a [b]
  exact ⟨h a (by simp), h b (by simp)⟩

theorem Denial.not_rewrite (denial : Denial) : denial.decision≠.rewrite := by
  rcases denial.denies with h | h <;> simp [h]

namespace CompiledAuthority

/-- An evaluation grants, denies or asks for a review; it rewrites nothing. -/
theorem evaluate_not_rewrite {self : CompiledAuthority} {platform : Platform} {crypto : Crypto}
    {goal : String} {call : ToolCall} {observations : List Observation} {previousCalls : List ToolCall}
    {out : SupervisorOutput}
    (h : self.evaluate platform crypto goal call observations previousCalls = .ok out) :
    out.decision≠.rewrite := by
  unfold evaluate at h
  obtain ⟨schemas, -, h⟩ := bind_ok h
  split at h
  · cases h
    decide
  split at h
  · cases h
    decide
  · cases h
  obtain ⟨form, -, h⟩ := bind_ok h
  split at h
  · cases h
    decide
  obtain ⟨authority, -, h⟩ := bind_ok h
  obtain ⟨denied, -, h⟩ := bind_ok h
  cases denied with
  | none =>
    cases h
    decide
  | some denial =>
    cases h
    exact denial.not_rewrite

end CompiledAuthority

namespace QwenSupervisor
variable {self : QwenSupervisor} {platform : Platform} {crypto : Crypto} {userTask : String}
  {call : ToolCall} {observations : List Observation} {guard : SupervisorOutput}

theorem deterministicGuard_not_rewrite {out : SupervisorOutput}
    (h : self.deterministicGuard platform crypto userTask call observations = .ok out) :
    out.decision≠.rewrite := by
  unfold deterministicGuard at h
  split at h
  · split at h
    · cases h
      decide
    · obtain ⟨compiled, -, h⟩ := bind_ok h
      exact CompiledAuthority.evaluate_not_rewrite h
  · obtain ⟨denied, -, h⟩ := bind_ok h
    split at h
    · cases h
      exact Denial.not_rewrite _
    · cases h
      decide

theorem deterministic_not_rewrite
    (h : self.deterministic platform crypto userTask call observations = .ok guard) :
    guard.decision≠.rewrite := by
  unfold deterministic at h
  obtain ⟨repeated, -, h⟩ := bind_ok h
  split at h
  · cases h
    exact Denial.not_rewrite _
  · split at h
    · exact deterministicGuard_not_rewrite h
    · cases h
      decide

/-- A guard that lets the call through allows it. -/
theorem deterministic_allow
    (h : self.deterministic platform crypto userTask call observations = .ok guard)
    (hw : guard.decision.withholds = false) : guard.decision=.allow :=
  (Decision.proceeds_cases.mp hw).resolve_right (deterministic_not_rewrite h)

/-- What is used of an answer is the answer itself, given with enough confidence, or a review. -/
theorem confident_cases (self : QwenSupervisor) (response : ProviderResponse) :
    ((self.confident response)=response ∧ (response.decision.withholds = false →
        response.confidence.below self.confidenceThreshold = false)) ∨
      (response.decision.withholds = false ∧ (self.confident response).decision=.escalate) := by
  unfold confident
  split
  · rename_i h
    simp only [Bool.and_eq_true, Bool.or_eq_true, decide_eq_true_eq] at h
    exact Or.inr ⟨Decision.proceeds_cases.mpr h.1, rfl⟩
  · rename_i h
    refine Or.inl ⟨rfl, fun hw => ?_⟩
    have hd := Decision.proceeds_cases.mp hw
    simpa [hd] using h

theorem toRuntimeOutput_precedence (response : ProviderResponse) :
    response.decision.precedence≤(toRuntimeOutput response guard call).decision.precedence := by
  unfold toRuntimeOutput
  refine le_trans ?_ (SupervisorOutput.precedence_enforceAllowInvariants _)
  exact le_rfl

theorem toRuntimeOutput_risk (response : ProviderResponse) :
    (toRuntimeOutput response guard call).risk=maxRisk guard.risk response.riskLevel :=
  SupervisorOutput.enforceAllowInvariants_risk _

theorem toRuntimeOutput_proceeds {response : ProviderResponse}
    (h : (toRuntimeOutput response guard call).decision.withholds = false) :
    (toRuntimeOutput response guard call).decision=response.decision ∧
      (response.decision=.allow → (toRuntimeOutput response guard call).inconsistent = false) ∧
      ∀ rewritten, response.decision=.rewrite → response.rewrittenCall=some rewritten →
        (toRuntimeOutput response guard call).rewrittenCall=some { call with
          toolName := rewritten.toolName
          arguments := rewritten.arguments } := by
  obtain ⟨hsame, hok⟩ := SupervisorOutput.enforceAllowInvariants_proceeds h
  refine ⟨congrArg SupervisorOutput.decision hsame, fun ha => ?_, fun rewritten hr hw => ?_⟩
  · exact (congrArg SupervisorOutput.inconsistent hsame).trans (hok ha)
  · refine (congrArg SupervisorOutput.rewrittenCall hsame).trans ?_
    simp [hr, hw]

/-- What an answer may do to a guard that lets the call through. -/
structure Narrows (supervisor : QwenSupervisor) (platform : Platform) (userTask : String)
    (observations : List Observation) (guard : SupervisorOutput)
    (answer : Except String ProviderResponse) (out : SupervisorOutput) : Prop where
  guarded : guard.decision.precedence≤out.decision.precedence
  answered : ∀ response, answer=.ok response →
    response.decision.precedence≤out.decision.precedence
  proceeds : out.decision=.allow ∨ out.decision=.rewrite → ∃ response, answer=.ok response ∧
    response.decision=out.decision ∧
    PyNumber.le (.float supervisor.confidenceThreshold) (.float response.confidence.value) = true ∧
    guard.risk.rank≤out.risk.rank ∧ response.riskLevel.rank≤out.risk.rank
  consistent : out.decision=.allow → out.inconsistent = false
  rewritten : out.decision=.rewrite → supervisor.enableRewrite = true ∧ supervisor.stepAlreadyRewritten = false ∧
    ∃ replacement, out.rewrittenCall=some replacement ∧
      checkAuthority platform userTask replacement observations supervisor.taskAuthority [] = Check.pass

/-- How an evaluation ends: the guard withholds and nobody is asked, the provider's answer narrows the
guard, or the guard, the threshold or the check of a rewrite raises. -/
inductive Evaluated (self : QwenSupervisor) (platform : Platform) (crypto : Crypto)
    (provider : SupervisorProvider) (userTask : String) (call : ToolCall)
    (observations : List Observation) (s : Session (Option SupervisorEvaluationLog) Consultation) :
    Except PyError SupervisorOutput → Session (Option SupervisorEvaluationLog) Consultation → Prop where
  | withheld {guard : SupervisorOutput} {t : Session (Option SupervisorEvaluationLog) Consultation}
      (decided : self.deterministic platform crypto userTask call observations = .ok guard)
      (withholds : guard.decision=.escalate ∨ guard.decision=.block) (asked : Adds s [] t) :
      Evaluated self platform crypto provider userTask call observations s (.ok guard) t
  | narrowed {guard out : SupervisorOutput} {request : ProviderRequest}
      {t : Session (Option SupervisorEvaluationLog) Consultation}
      (decided : self.deterministic platform crypto userTask call observations = .ok guard)
      (allows : guard.decision=.allow)
      (asked : Adds s [.evaluated request (provider.evaluate s.log request)] t)
      (narrows : self.Narrows platform userTask observations guard
        (provider.evaluate s.log request) out) :
      Evaluated self platform crypto provider userTask call observations s (.ok out) t
  | raised {e : PyError} {t : Session (Option SupervisorEvaluationLog) Consultation}
      (cause : self.deterministic platform crypto userTask call observations = .error e ∨
        Confidence.of self.confidenceThreshold = .error e ∨
        ∃ request response, provider.evaluate s.log request = .ok response ∧
          response.decision=.rewrite ∧ (∀ message, e≠.schema message) ∧
          validateRewriteAgainstRequest platform response.toSupervisorResponse
            request.toSupervisorRequest = .error e) :
      Evaluated self platform crypto provider userTask call observations s (.error e) t

/-- The fields of a request that a rewrite is checked against. -/
theorem request_ok {request : ProviderRequest}
    (h : self.request platform userTask call observations = .ok request) :
    (∃ confidence, Confidence.of self.confidenceThreshold = .ok confidence) ∧
      request.userGoal=userTask ∧ request.proposedCall=call ∧ request.observations=observations ∧
      request.taskAuthority=self.taskAuthority ∧
      request.stepAlreadyRewritten=self.stepAlreadyRewritten ∧
      request.enableRewrite=(self.enableRewrite && !self.stepAlreadyRewritten) := by
  obtain ⟨threshold, hthreshold, h⟩ := bind_ok h
  cases h
  exact ⟨⟨threshold, hthreshold⟩, rfl, rfl, rfl, rfl, rfl, rfl⟩

theorem validateRewriteAgainstRequest_other {response : SupervisorResponse}
    {request : SupervisorRequest} (h : response.decision≠.rewrite) :
    validateRewriteAgainstRequest platform response request = .ok () := by
  unfold validateRewriteAgainstRequest
  rw [if_pos h]
  rfl

theorem narrows_review {answer : Except String ProviderResponse} {out : SupervisorOutput}
    (hguard : guard.decision=.allow) (hout : out.decision=.escalate)
    (h : ∀ response, answer=.ok response → response.decision.precedence≤Decision.escalate.precedence) :
    self.Narrows platform userTask observations guard answer out := by
  refine ⟨?_, fun response hr => hout ▸ h response hr, fun hw => ?_, fun ha => ?_, fun hr => ?_⟩
  · rw [hguard]
    exact Nat.zero_le _
  · rw [hout] at hw
    exact absurd hw (by decide)
  · rw [hout] at ha
    cases ha
  · rw [hout] at hr
    cases hr

/-- Only a rewrite is refused, and it is the provider's own. -/
theorem refused_rewrite {request : SupervisorRequest} {response : ProviderResponse} {e : PyError}
    (h : validateRewriteAgainstRequest platform (self.confident response).toSupervisorResponse request =
      .error e) : self.confident response=response ∧ response.decision=.rewrite := by
  by_cases hrw : (self.confident response).decision=.rewrite
  · rcases self.confident_cases response with ⟨hsame, -⟩ | ⟨-, hesc⟩
    · exact ⟨hsame, hsame ▸ hrw⟩
    · rw [hrw] at hesc
      cases hesc
  · rw [validateRewriteAgainstRequest_other hrw] at h
    cases h

/-- What the supervisor makes of an answer. -/
theorem conclude_narrows {request : ProviderRequest} {response : ProviderResponse}
    {out : SupervisorOutput} (hallow : guard.decision=.allow)
    (hrequest : self.request platform userTask call observations = .ok request)
    (h : conclude platform request (self.confident response) guard = .ok out) :
    self.Narrows platform userTask observations guard (.ok response) out := by
  obtain ⟨⟨confidence, hconfidence⟩, hgoal, hcall, hobs, hauthority, hrewritten, henable⟩ :=
    request_ok hrequest
  have hthreshold : self.confidenceThreshold≠.nan :=
    Confidence.of_ok hconfidence ▸ confidence.not_nan
  have hguard (d : Decision) : guard.decision.precedence≤d.precedence := by
    rw [hallow]
    exact Nat.zero_le _
  unfold conclude at h
  split at h
  · rename_i hvalid
    cases h
    have hle : _≤(toRuntimeOutput (self.confident response) guard request.proposedCall).decision.precedence :=
      toRuntimeOutput_precedence (self.confident response)
    have hused := self.confident_cases response
    -- a run that proceeds follows the answer itself
    have follow (hw : (toRuntimeOutput (self.confident response) guard request.proposedCall).decision=.allow ∨
        (toRuntimeOutput (self.confident response) guard request.proposedCall).decision=.rewrite) :
        self.confident response=response ∧ response.confidence.below self.confidenceThreshold = false := by
      obtain ⟨hd, -, -⟩ := toRuntimeOutput_proceeds (Decision.proceeds_cases.mpr hw)
      rcases hused with ⟨hsame, hconf⟩ | ⟨-, hesc⟩
      · rw [hsame] at hd hw
        exact ⟨hsame, hconf (Decision.proceeds_cases.mpr (hd ▸ hw))⟩
      · rw [hd, hesc] at hw
        exact absurd hw (by decide)
    refine ⟨hguard _, fun r hr => ?_, fun hw => ?_, fun ha => ?_, fun hr => ?_⟩
    · cases hr
      rcases hused with ⟨hsame, -⟩ | ⟨hw, hesc⟩
      · rwa [hsame] at hle ⊢
      · refine le_trans ?_ hle
        rw [hesc]
        rcases Decision.proceeds_cases.mp hw with hd | hd <;> simp [hd, Decision.precedence]
    · obtain ⟨hsame, hconf⟩ := follow hw
      obtain ⟨hd, -, -⟩ := toRuntimeOutput_proceeds (Decision.proceeds_cases.mpr hw)
      have hrisk := RiskLevel.rank_maxRisk guard.risk response.riskLevel
      rw [toRuntimeOutput_risk]
      rw [hsame] at hd ⊢
      exact ⟨response, rfl, hd.symm, Confidence.reaches hconf hthreshold, hrisk.1, hrisk.2⟩
    · obtain ⟨hd, hok, -⟩ := toRuntimeOutput_proceeds (Decision.proceeds_cases.mpr (Or.inl ha))
      exact hok (hd.symm.trans ha)
    · obtain ⟨hd, -, hcarry⟩ := toRuntimeOutput_proceeds (Decision.proceeds_cases.mpr (Or.inr hr))
      have hrw : (self.confident response).decision=.rewrite := hd.symm.trans hr
      obtain ⟨rewritten, hcarried⟩ :=
        Option.isSome_iff_exists.mp ((self.confident response).payload.mp hrw)
      have hadmits := validateRewriteAgainstRequest_ok hvalid hrw hcarried
      have henabled := hadmits.enabled
      rw [henable, Bool.and_eq_true, Bool.not_eq_true'] at henabled
      refine ⟨henabled.1, henabled.2, _, hcarry rewritten hrw hcarried, ?_⟩
      have hpass := hadmits.authority
      rwa [hgoal, hobs, hauthority] at hpass
  · rename_i hbad
    cases h
    refine narrows_review hallow rfl fun r hr => ?_
    cases hr
    rw [(refused_rewrite hbad).2]
    decide
  · cases h

theorem ends_ask {α : Type} {provider : SupervisorProvider} {request : ProviderRequest}
    {s : Session (Option SupervisorEvaluationLog) Consultation}
    {f : Except String ProviderResponse → Talk PyError (Option SupervisorEvaluationLog) Consultation α}
    {q : Except PyError α → Session (Option SupervisorEvaluationLog) Consultation → Prop}
    (h : Ends (f (provider.evaluate s.log request))
      { s with log := s.log++[.evaluated request (provider.evaluate s.log request)] } q) :
    Ends (ask provider request >>= f) s q := h

theorem evaluate_evaluated (self : QwenSupervisor) (platform : Platform) (crypto : Crypto)
    (provider : SupervisorProvider) (userTask : String) (call : ToolCall)
    (observations : List Observation) (s : Session (Option SupervisorEvaluationLog) Consultation) :
    Ends (self.evaluate platform crypto provider userTask call observations) s
      (self.Evaluated platform crypto provider userTask call observations s) := by
  unfold evaluate
  refine ends_lift_bind (fun guard hdecided => ?_) fun e he => .raised (Or.inl he)
  dsimp only
  split
  · rename_i hw
    refine ends_update_bind (ends_pure (.withheld hdecided ?_ (Adds.refl s)))
    simpa [Decision.withholds, or_comm] using hw
  rename_i hw
  have hallow := deterministic_allow hdecided (Bool.not_eq_true _ ▸ hw)
  refine ends_lift_bind (fun request hrequest => ?_) fun e he => ?_
  · refine ends_ask ?_
    split
    · rename_i message hanswer
      refine ends_update_bind (ends_pure (@Evaluated.narrowed _ _ _ _ _ _ _ _ guard _ request _ hdecided
        hallow rfl ?_))
      rw [hanswer]
      exact narrows_review hallow rfl fun _ h => by cases h
    · rename_i response hanswer
      refine ends_lift_bind (fun out hout => ?_) fun e he => ?_
      · refine ends_update_bind (ends_pure (@Evaluated.narrowed _ _ _ _ _ _ _ _ guard _ request _
          hdecided hallow rfl ?_))
        rw [hanswer]
        exact conclude_narrows hallow hrequest hout
      · refine .raised (Or.inr (Or.inr ⟨request, response, hanswer, ?_⟩))
        unfold conclude at he
        split at he
        · cases he
        · cases he
        · rename_i hother hbad
          cases he
          obtain ⟨hsame, hrw⟩ := refused_rewrite hbad
          rw [hsame] at hbad
          exact ⟨hrw, hother, hbad⟩
  · refine .raised (Or.inr (Or.inl ?_))
    rcases bind_error he with he | ⟨_, -, he⟩
    · exact he
    · cases he

/-- What makes a result accepted after a run. -/
structure AcceptsResult (supervisor : QwenSupervisor) (platform : Platform) (provider : SupervisorProvider)
    (userTask : String) (call : ToolCall) (evidence : SandboxEvidence) (log : List Consultation) :
    Prop where
  deterministic : (deterministicPostRunAssessment platform evidence).disposition=.acceptResult
  provider : supervisor.postRunProviderEnabled = true → ∃ response,
    provider.evaluatePostRun log ⟨userTask, call, evidence⟩ = .ok response ∧
    response.disposition=.acceptResult ∧ response.confidence.below supervisor.confidenceThreshold = false ∧
    (supervisor.confidenceThreshold≠.nan →
      PyNumber.le (.float supervisor.confidenceThreshold) (.float response.confidence.value) = true)

theorem reevaluate_accepts (self : QwenSupervisor) (platform : Platform)
    (provider : SupervisorProvider) (userTask : String) (call : ToolCall) (evidence : SandboxEvidence)
    (s : Session (Option SupervisorEvaluationLog) Consultation) :
    Ends (self.reevaluate platform provider userTask call evidence) s fun r _ =>
      ∃ assessment, r = .ok assessment ∧ (assessment.disposition=.acceptResult →
        self.AcceptsResult platform provider userTask call evidence s.log) := by
  unfold reevaluate
  dsimp only
  split
  · rename_i h
    refine ends_pure ⟨_, rfl, fun ha => ⟨ha, fun hp => ?_⟩⟩
    simp [ha, hp] at h
  rename_i h
  simp only [Bool.or_eq_true, decide_eq_true_eq, not_or, not_not] at h
  refine ends_consult_bind (ends_note_bind ?_)
  split
  · refine ends_pure ⟨_, rfl, fun ha => ?_⟩
    cases ha
  · rename_i response hanswer
    refine ends_pure ⟨_, rfl, fun ha => ⟨h.1, fun _ => ⟨response, hanswer, ?_⟩⟩⟩
    unfold assess at ha
    split at ha
    · cases ha
    rename_i hsure
    have hbelow : response.confidence.below self.confidenceThreshold = false := by
      simpa [show response.disposition=.acceptResult from ha] using hsure
    exact ⟨ha, hbelow, Confidence.reaches hbelow⟩

/-- A provider only narrows, before a call and after it. -/
theorem provider_narrows (self : QwenSupervisor) (platform : Platform) (crypto : Crypto)
    (provider : SupervisorProvider) (userTask : String) (call : ToolCall)
    (observations : List Observation) (evidence : SandboxEvidence)
    (s : Session (Option SupervisorEvaluationLog) Consultation) :
    Ends (self.evaluate platform crypto provider userTask call observations) s
        (self.Evaluated platform crypto provider userTask call observations s) ∧
      Ends (self.reevaluate platform provider userTask call evidence) s fun r _ =>
        ∃ assessment, r = .ok assessment ∧ (assessment.disposition=.acceptResult →
          self.AcceptsResult platform provider userTask call evidence s.log) :=
  ⟨self.evaluate_evaluated platform crypto provider userTask call observations s,
    self.reevaluate_accepts platform provider userTask call evidence s⟩

end QwenSupervisor
end TraceGuard
