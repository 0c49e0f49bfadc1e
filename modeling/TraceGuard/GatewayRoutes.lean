import TraceGuard.Gateway
import TraceGuard.Merging
import TraceGuard.Noninterference
import TraceGuard.StrictReads

/-! The same call by three ways: the compiled authority, the deterministic supervisor and the deterministic
gateway. A read is brought into its normal form once; what is normal stays as it is. -/
namespace TraceGuard
open Raising Stateful Dialogue

theorem sortedSet_congr {xs ys : List String} (h : ∀ x, x∈xs ↔ x∈ys) : sortedSet xs = sortedSet ys := by
  have hperm : xs.dedup.Perm ys.dedup := by
    refine (List.perm_ext_iff_of_nodup xs.nodup_dedup ys.nodup_dedup).mpr fun x => ?_
    simpa using h x
  refine List.Perm.eq_of_sortedLE List.sortedLE_insertionSort List.sortedLE_insertionSort ?_
  exact ((List.perm_insertionSort _ _).trans hperm).trans (List.perm_insertionSort _ _).symm

/-! Normal forms. -/

theorem fillResources_present {reviewed : ReadAdapter} {fields : List String} {arguments : Dict Json}
    (h : ∀ field∈fields, ∃ value≠Json.null, arguments.get field = some value) :
    fillResources reviewed fields arguments = .ok arguments := by
  induction fields with
  | nil => rfl
  | cons field fields ih =>
    obtain ⟨⟨value, hne, hvalue⟩, hrest⟩ := List.forall_mem_cons.mp h
    have hkey : field∈arguments.keys := (arguments.get_isSome field).mp (by simp [hvalue])
    have hstep : fillResources reviewed (field :: fields) arguments =
        fillResources reviewed fields arguments := by
      rw [fillResources]
      cases reviewed.defaultFor field with
      | none =>
        dsimp only
        rw [hvalue]
        cases value with
        | null => exact absurd rfl hne
        | bool | int | float | str | arr | obj => rfl
      | some text =>
        dsimp only
        rw [Dict.setDefault_same hkey, hvalue]
        cases value with
        | null => exact absurd rfl hne
        | bool | int | float | str | arr | obj => rfl
    rw [hstep]
    exact ih hrest

/-- A read in normal form is its own normal form. -/
theorem ReadAdapter.normalize_again {reviewed : ReadAdapter} {call normalized : ToolCall}
    (h : reviewed.normalize call = .ok normalized) : reviewed.normalize normalized = .ok normalized := by
  have hreads := ReadAdapter.normalize_ok h
  have hfill : fillResources reviewed reviewed.resources normalized.arguments =
      .ok normalized.arguments := by
    refine fillResources_present fun field hf => ?_
    obtain ⟨value, hsel⟩ := hreads.selectors field hf
    exact ⟨value, hsel.not_null, hsel.present⟩
  have hrequested : sortedSet (normalized.requestedResources++reviewed.implicit.getD []) =
      normalized.requestedResources := by
    obtain ⟨arguments, -, h⟩ := bind_ok h
    cases h
    refine sortedSet_congr fun x => ?_
    simp only [List.mem_append, mem_sortedSet]
    tauto
  unfold normalize
  rw [hfill, hrequested]
  rfl

theorem scopedReadCall_again {crypto : Crypto} {schema : Schema} {call normalized : ToolCall}
    (h : scopedReadCall crypto call schema = .ok normalized) :
    scopedReadCall crypto normalized schema = .ok normalized := by
  have htool := scopedReadCall_tool h
  unfold scopedReadCall at h ⊢
  obtain ⟨⟨binding, adapterId⟩, hbinding, h⟩ := bind_ok h
  obtain ⟨⟨reviewed, verified⟩, hbind, h⟩ := bind_ok h
  dsimp only at hbind h
  split at h
  · cases h
  rename_i hsame
  rw [htool, hbinding]
  dsimp only [bind, Except.bind]
  rw [hbind]
  dsimp only
  rw [if_neg hsame]
  exact ReadAdapter.normalize_again h

/-- A call in the form in which it was checked is checked in that form. -/
theorem CompiledAuthority.readForm_again {crypto : Crypto} {schema : Schema} {call normalized : ToolCall}
    (h : readForm crypto call schema = .ok (some normalized)) :
    readForm crypto normalized schema = .ok (some normalized) := by
  unfold readForm at h
  obtain ⟨effect, heffect, h⟩ := bind_ok h
  cases effect with
  | read =>
    dsimp only at h
    split at h
    · rename_i found hread
      cases h
      obtain ⟨reviewed, hbound, hreads⟩ := scopedReadCall_ok hread
      obtain ⟨id, digest, -, hbind⟩ := hbound.binding
      obtain ⟨hadapter, -, -⟩ := bindReadSchema_ok hbind
      obtain ⟨_, rows, -, hrows, hrow⟩ := reviewedAdapter_some hadapter
      have htool : normalized.toolName∈EffectRegistry.read :=
        hreads.tool ▸ (adapters_select _ hrows _ hrow).1
      have hagain : toolEffect normalized = .ok .read := by
        unfold toolEffect
        rw [if_pos htool]
        rfl
      unfold readForm
      rw [hagain]
      dsimp only [bind, Except.bind]
      rw [scopedReadCall_again hread]
      rfl
    · cases h
    · cases h
  | mutate | command | unknown =>
    cases h
    exact readForm_effect heffect (by decide)

theorem CompiledAuthority.normalizeRead_form {self : CompiledAuthority} {crypto : Crypto}
    {schemas : Schemas} {schema : Schema} {call normalized : ToolCall} (hs : self.schemas = .ok schemas)
    (hk : schemas.get? call.toolName = some schema)
    (h : readForm crypto call schema = .ok (some normalized)) :
    self.normalizeRead crypto call = .ok normalized := by
  unfold readForm at h
  obtain ⟨effect, heffect, h⟩ := bind_ok h
  unfold normalizeRead
  rw [heffect]
  cases effect with
  | read =>
    dsimp only [bind, Except.bind] at h ⊢
    rw [hs]
    dsimp only
    rw [hk]
    dsimp only
    split at h
    · cases h
      assumption
    · cases h
    · cases h
  | mutate | command | unknown =>
    cases h
    rfl

/-! What a call is about, whoever proposes it. -/

def ToolCall.identified (call : ToolCall) (consumed : List String) (callId : String) : ToolCall :=
  { call with
    consumedObservationIds := consumed
    callId := callId }

@[simp] theorem ToolCall.identified_toolName (call : ToolCall) (consumed : List String)
    (callId : String) : (call.identified consumed callId).toolName = call.toolName := rfl

@[simp] theorem ToolCall.identified_arguments (call : ToolCall) (consumed : List String)
    (callId : String) : (call.identified consumed callId).arguments = call.arguments := rfl

theorem toolEffect_identified (call : ToolCall) (consumed : List String) (callId : String) :
    toolEffect (call.identified consumed callId) = toolEffect call := rfl

theorem checkAuthority_identified {platform : Platform} {goal : String} {call : ToolCall}
    {observations : List Observation} {authority : TaskAuthority} {previousCalls : List ToolCall}
    (consumed : List String) (callId : String) :
    checkAuthority platform goal (call.identified consumed callId) observations authority previousCalls =
      checkAuthority platform goal call observations authority previousCalls := rfl

theorem ReadAdapter.normalize_identified (reviewed : ReadAdapter) (call : ToolCall)
    (consumed : List String) (callId : String) :
    reviewed.normalize (call.identified consumed callId) =
      (reviewed.normalize call).map fun normalized => normalized.identified consumed callId := by
  unfold normalize
  rw [ToolCall.identified_arguments]
  cases fillResources reviewed reviewed.resources call.arguments <;> rfl

theorem scopedReadCall_identified {crypto : Crypto} {schema : Schema} (call : ToolCall)
    (consumed : List String) (callId : String) :
    scopedReadCall crypto (call.identified consumed callId) schema =
      (scopedReadCall crypto call schema).map fun normalized => normalized.identified consumed callId := by
  unfold scopedReadCall
  cases bindingOf schema with
  | error e => rfl
  | ok binding =>
    dsimp only [bind, Except.bind]
    rw [ToolCall.identified_toolName]
    cases bindReadSchema crypto schema binding.2 call.toolName with
    | error e => rfl
    | ok bound =>
      dsimp only
      split
      · rfl
      · exact bound.1.normalize_identified call consumed callId

theorem CompiledAuthority.readForm_identified {crypto : Crypto} {schema : Schema} (call : ToolCall)
    (consumed : List String) (callId : String) :
    readForm crypto (call.identified consumed callId) schema =
      (readForm crypto call schema).map fun form =>
        form.map fun normalized => normalized.identified consumed callId := by
  unfold readForm
  rw [toolEffect_identified]
  cases toolEffect call with
  | error e => rfl
  | ok effect =>
    dsimp only [bind, Except.bind]
    cases effect with
    | read =>
      dsimp only
      rw [scopedReadCall_identified]
      cases scopedReadCall crypto call schema with
      | ok normalized => rfl
      | error e => cases e <;> rfl
    | mutate | command | unknown => rfl

/-- The ids of a call and what it consumed decide nothing. -/
theorem CompiledAuthority.evaluate_identified {self : CompiledAuthority} {platform : Platform}
    {crypto : Crypto} {goal : String} {call : ToolCall} {observations : List Observation}
    {previousCalls : List ToolCall} (consumed : List String) (callId : String) :
    self.evaluate platform crypto goal (call.identified consumed callId) observations previousCalls =
      self.evaluate platform crypto goal call observations previousCalls := by
  unfold evaluate
  refine bind_congr fun schemas => ?_
  rw [ToolCall.identified_toolName]
  cases schemas.get? call.toolName with
  | none => rfl
  | some schema =>
    dsimp only
    rw [ToolCall.identified_arguments]
    cases platform.validateArguments call.arguments schema with
    | error e => cases e <;> rfl
    | ok u =>
      dsimp only
      rw [readForm_identified]
      cases readForm crypto call schema with
      | error e => rfl
      | ok form => cases form <;> rfl

/-! The routes. -/

def Allows (result : Except PyError SupervisorOutput) : Prop :=
  ∃ out, result = .ok out ∧ out.decision=.allow

/-- A schema accepts its own calls after a read's defaults were filled in. -/
def Schemas.AcceptNormal (platform : Platform) (crypto : Crypto) (schemas : Schemas) : Prop :=
  ∀ call normalized schema, schemas.get? call.toolName = some schema →
    platform.validateArguments call.arguments schema = .ok () →
    scopedReadCall crypto call schema = .ok normalized →
    platform.validateArguments normalized.arguments schema = .ok ()

section
variable {platform : Platform} {crypto : Crypto} {goal : String} {call : ToolCall}
  {observations : List Observation} {previousCalls : List ToolCall}

theorem CompiledAuthority.readForm_valid {schemas : Schemas} {schema : Schema} {normalized : ToolCall}
    (h : schemas.AcceptNormal platform crypto) (hk : schemas.get? call.toolName = some schema)
    (hv : platform.validateArguments call.arguments schema = .ok ())
    (hf : readForm crypto call schema = .ok (some normalized)) :
    platform.validateArguments normalized.arguments schema = .ok () := by
  unfold readForm at hf
  obtain ⟨effect, -, hf⟩ := bind_ok hf
  cases effect with
  | read =>
    dsimp only at hf
    split at hf
    · cases hf
      exact h call normalized schema hk hv ‹_›
    · cases hf
    · cases hf
  | mutate | command | unknown =>
    cases hf
    exact hv

/-- The normal form of an allowed call is allowed, and in normal form. -/
theorem CompiledAuthority.Allowed.normal {compiled : CompiledAuthority} {schemas : Schemas}
    {schema : Schema} {normalized : ToolCall} {authority : TaskAuthority}
    (h : compiled.Allowed platform crypto goal call observations previousCalls schemas schema normalized
      authority) (hv : platform.validateArguments normalized.arguments schema = .ok ()) :
    compiled.Allowed platform crypto goal normalized observations previousCalls schemas schema
      normalized authority where
  parsed := h.parsed
  known := readForm_tool h.form ▸ h.known
  valid := hv
  form := readForm_again h.form
  grant := h.grant
  pass := h.pass

/-- The deterministic guard of a strict authority is its compiled form. -/
theorem QwenSupervisor.deterministicGuard_compiled {self : QwenSupervisor} {compiled : CompiledAuthority}
    (hc : CompiledAuthority.compile crypto self.taskAuthority self.availableTools = .ok compiled) :
    self.deterministicGuard platform crypto goal call observations =
      match compiled.evaluate platform crypto goal call observations self.previousCalls with
      | .error (.value _) =>
        .ok (output .escalate "invalid-strict-grant" "Strict grant compilation failed.")
      | result => result := by
  obtain ⟨hvalid, -, -⟩ := CompiledAuthority.compile_ok hc
  obtain ⟨tools, hv⟩ := TaskAuthority.validate_ok hvalid
  unfold deterministicGuard
  rw [if_pos hv.strict, hc]
  rfl

theorem QwenSupervisor.deterministicGuard_granted {self : QwenSupervisor} {compiled : CompiledAuthority}
    (hc : CompiledAuthority.compile crypto self.taskAuthority self.availableTools = .ok compiled)
    (h : compiled.evaluate platform crypto goal call observations self.previousCalls =
      .ok CompiledAuthority.granted) :
    self.deterministicGuard platform crypto goal call observations = .ok CompiledAuthority.granted := by
  rw [deterministicGuard_compiled hc, h]

theorem QwenSupervisor.deterministicGuard_allows {self : QwenSupervisor} {compiled : CompiledAuthority}
    (hc : CompiledAuthority.compile crypto self.taskAuthority self.availableTools = .ok compiled) :
    Allows (self.deterministicGuard platform crypto goal call observations) ↔
      Allows (compiled.evaluate platform crypto goal call observations self.previousCalls) := by
  rw [deterministicGuard_compiled hc]
  split
  · rename_i he
    rw [he]
    refine ⟨fun ⟨out, h, ha⟩ => ?_, fun ⟨out, h, _⟩ => (by cases h)⟩
    cases h
    cases ha
  · exact Iff.rfl

end

namespace SupervisionGateway
variable {platform : Platform} {crypto : Crypto}

/-- What a gateway without a supervisor of its own is made of. -/
structure Deterministic (gateway : SupervisionGateway crypto) (platform : Platform)
    (authority : TaskAuthority) (schemas : Schemas) (compiled : CompiledAuthority) : Prop where
  mode : gateway.mode=.deterministic
  supervisor : gateway.supervisor=gateway.deterministic.supervisor platform crypto
  authority : gateway.taskAuthority=authority
  schemas : gateway.availableTools=schemas
  compiled : gateway.compiled=compiled

theorem new_deterministic {authority : TaskAuthority} {schemas : Schemas} {compiled : CompiledAuthority}
    (hc : CompiledAuthority.compile crypto authority schemas = .ok compiled)
    (trustedPolicy : Dict Json) : ∃ gateway : SupervisionGateway crypto,
      new platform crypto trustedPolicy "deterministic" none schemas (some authority) = .ok gateway ∧
      gateway.Deterministic platform authority schemas compiled := by
  obtain ⟨hvalid, -, -⟩ := CompiledAuthority.compile_ok hc
  obtain ⟨tools, hv⟩ := TaskAuthority.validate_ok hvalid
  have hmode : SupervisorMode.parse "deterministic" = .ok .deterministic := rfl
  unfold new
  rw [hmode]
  dsimp only [bind, Except.bind, pure, Except.pure]
  rw [dif_pos hv.strict]
  split
  · rename_i e he
    rw [hc] at he
    cases he
  · rename_i compiled' hc'
    cases hc.symm.trans hc'
    exact ⟨_, rfl, rfl, rfl, rfl, rfl, rfl⟩

variable {self : SupervisionGateway crypto} {proposal : Proposal} {callId : String}
  {s : Session GatewayState Reply}

/-- What the compiled authority does not allow, the gateway does not. -/
theorem evaluate_withheld (hs : s.state.escalated = false)
    (h : ¬ Allows (self.compiled.evaluate platform crypto proposal.userGoal (proposal.call callId)
      proposal.observations s.state.history)) :
    Ends (self.evaluate platform proposal callId) s fun r _ =>
      ∀ returned out, r = .ok (returned, out) → out.decision≠.allow := by
  unfold evaluate
  refine ends_state_bind ?_
  rw [hs]
  refine ends_lift_bind (fun checked hchecked => ?_) fun e _ => ?_
  · have hnot : checked.decision≠.allow := fun ha => h ⟨checked, hchecked, ha⟩
    rw [if_pos hnot]
    refine ends_update_bind (ends_pure fun returned out he => ?_)
    cases he
    exact hnot
  · rintro _ _ ⟨⟩

/-- The supervisor's answer about a call that the authority allows. -/
theorem supervised (self : SupervisionGateway crypto) {schemas : Schemas} {schema : Schema}
    {normalized call : ToolCall} {authority : TaskAuthority} {goal : String}
    {observations : List Observation} {history : List ToolCall} {log : List Reply}
    (h : self.compiled.Allowed platform crypto goal call observations history schemas schema normalized
      authority) :
    self.deterministic.supervisor platform crypto log ⟨goal, call, observations, self.context history⟩ =
      .ok CompiledAuthority.granted :=
  QwenSupervisor.deterministicGuard_granted self.compiles (CompiledAuthority.evaluate_granted h)

/-- What it allows, a deterministic gateway allows in normal form. -/
theorem evaluate_grants {schemas : Schemas} {compiled : CompiledAuthority} {schema : Schema}
    {normalized : ToolCall} {authority : TaskAuthority}
    (hself : self.Deterministic platform authority schemas compiled)
    (hs : s.state.escalated = false)
    (h : compiled.Allowed platform crypto proposal.userGoal (proposal.call callId) proposal.observations
      s.state.history schemas schema normalized authority)
    (hv : platform.validateArguments normalized.arguments schema = .ok ()) :
    Ends (self.evaluate platform proposal callId) s fun r _ =>
      r = .ok (normalized, CompiledAuthority.granted) := by
  have hgranted := CompiledAuthority.evaluate_granted h
  have hnormal := h.normal hv
  have hform := CompiledAuthority.normalizeRead_form h.parsed h.known h.form
  have hfirst : duplicateMutation normalized s.state.history authority = .ok none :=
    firstDenial_pass.mp h.pass _ (by simp [Authority.checks])
  obtain ⟨hmode, hsupervisor, rfl, rfl, rfl⟩ := hself
  have hvalid : self.validate platform normalized = .ok () := by
    unfold validate
    rw [hnormal.known]
    exact hv
  have hgate : self.gate platform proposal.userGoal normalized proposal.observations s.state.history =
      .ok none := by
    unfold gate
    rw [hmode]
    rfl
  unfold evaluate
  refine ends_state_bind ?_
  rw [hs]
  refine ends_lift_ok hgranted ?_
  rw [if_neg (by decide)]
  refine ends_lift_ok hform (ends_lift_ok hfirst ?_)
  rw [hvalid]
  refine ends_lift_ok hgate (ends_ask_bind (fun decision hdecision => ?_) fun e he => ?_)
  · rw [hsupervisor, self.supervised hnormal] at hdecision
    cases hdecision
    exact ends_pure rfl
  · rw [hsupervisor, self.supervised hnormal] at he
    cases he

/-- What a gateway is asked about a call. -/
def proposalOf (call : ToolCall) (userGoal : String) (observations : List Observation) : Proposal where
  taskId := call.taskId
  stepId := call.stepId
  userGoal := userGoal
  toolName := call.toolName
  arguments := call.arguments
  observations := observations
  requestedResources := call.requestedResources

theorem call_proposalOf (call : ToolCall) (userGoal : String) (observations : List Observation)
    (callId : String) : (proposalOf call userGoal observations).call callId =
      call.identified (observations.map Observation.observationId) callId := rfl

/-- How the compiled authority, the deterministic supervisor and the gateway answer about one call. -/
structure Agree (compiled : CompiledAuthority) (platform : Platform) (crypto : Crypto)
    (gateway : SupervisionGateway crypto) (trustedPolicy : Dict Json) (context : SupervisorContext)
    (goal : String) (call : ToolCall) (observations : List Observation) (callId : String)
    (result : Except PyError (ToolCall × SupervisorOutput)) : Prop where
  supervisor : Allows ((DeterministicSupervisor.new trustedPolicy).evaluate platform crypto context goal
      call observations) ↔
    Allows (compiled.evaluate platform crypto goal call observations context.previousCalls)
  gateway : Allows (result.map Prod.snd) ↔
    Allows (compiled.evaluate platform crypto goal call observations context.previousCalls)
  normal : ∀ returned out, result = .ok (returned, out) → out.decision=.allow →
    compiled.normalizeRead crypto ((proposalOf call goal observations).call callId) = .ok returned ∧
    compiled.normalizeRead crypto returned = .ok returned ∧
    Allows (compiled.evaluate platform crypto goal returned observations context.previousCalls)

/-- The three routes of a strict authority agree on every call. -/
theorem routes_agree {authority : TaskAuthority} {schemas : Schemas} {compiled : CompiledAuthority}
    (hc : CompiledAuthority.compile crypto authority schemas = .ok compiled)
    (haccept : schemas.AcceptNormal platform crypto) (trustedPolicy : Dict Json) :
    ∃ gateway : SupervisionGateway crypto,
      new platform crypto trustedPolicy "deterministic" none schemas (some authority) = .ok gateway ∧
      ∀ (goal : String) (call : ToolCall) (observations : List Observation) (callId : String)
        (s : Session GatewayState Reply), s.state.escalated = false →
        Agree compiled platform crypto gateway trustedPolicy ⟨schemas, s.state.history, authority, false⟩
          goal call observations callId
          (outcome (gateway.evaluate platform (proposalOf call goal observations) callId) s).1 := by
  obtain ⟨gateway, hnew, hgateway⟩ := @new_deterministic platform crypto _ _ _ hc trustedPolicy
  obtain ⟨-, hscope, hschemas⟩ := CompiledAuthority.compile_ok hc
  refine ⟨gateway, hnew, fun goal call observations callId s hs => ?_⟩
  have hguard := @QwenSupervisor.deterministicGuard_allows platform crypto goal call observations
    { ((DeterministicSupervisor.new trustedPolicy).guard.setContext s.state.history authority) with
      availableTools := schemas } compiled hc
  have hproposed : compiled.evaluate platform crypto goal
        ((proposalOf call goal observations).call callId) observations s.state.history =
      compiled.evaluate platform crypto goal call observations s.state.history :=
    CompiledAuthority.evaluate_identified _ _
  by_cases hk : Allows (compiled.evaluate platform crypto goal call observations s.state.history)
  · obtain ⟨out, hout, ha⟩ := hk
    obtain ⟨rfl, schemas', schema, normalized, authority', hallowed⟩ :=
      CompiledAuthority.evaluate_allow (hproposed.trans hout) ha
    cases hschemas.symm.trans hallowed.parsed
    have hv := CompiledAuthority.readForm_valid haccept hallowed.known hallowed.valid hallowed.form
    have hnormal := hallowed.normal hv
    cases hscope.symm.trans hallowed.grant
    have hresult := @evaluate_grants _ _ _ (proposalOf call goal observations) _ _ _ _ _ _ _
      hgateway hs hallowed hv
    refine ⟨hguard, ?_, fun returned out he _ => ?_⟩
    · exact ⟨fun _ => ⟨_, hout, ha⟩, fun _ => ⟨_, by rw [hresult]; rfl, ha⟩⟩
    · cases hresult.symm.trans he
      exact ⟨CompiledAuthority.normalizeRead_form hallowed.parsed hallowed.known hallowed.form,
        CompiledAuthority.normalizeRead_form hnormal.parsed hnormal.known hnormal.form,
        _, CompiledAuthority.evaluate_granted hnormal, ha⟩
  · have hsame := hgateway.compiled
    have hwithheld := @evaluate_withheld platform crypto gateway (proposalOf call goal observations) callId s
      hs (by rw [hsame]; exact fun h => hk (hproposed ▸ h))
    refine ⟨hguard, ⟨fun hg => ?_, fun hk' => absurd hk' hk⟩, fun returned out he ha => ?_⟩
    · obtain ⟨out, hmap, ha⟩ := hg
      obtain ⟨decided, he, rfl⟩ := map_ok hmap
      exact absurd ha (hwithheld decided.1 decided.2 he)
    · exact absurd ha (hwithheld returned out he)

/-! A search of the documents, without the corpus it reads. -/

theorem search_accepts : CompiledAuthority.searchSchemas.AcceptNormal CompiledAuthority.samplePlatform
    CompiledAuthority.searchCrypto := by
  intro call normalized schema hk hv h
  have hentry : (call.toolName, schema)∈CompiledAuthority.searchSchemas.entries := SortedMap.mem_entries.mpr hk
  obtain ⟨htool, rfl⟩ := Prod.mk.inj (List.mem_singleton.mp hentry)
  have harguments : normalized.arguments=call.arguments := by
    obtain ⟨_, _, _, _, _, _, _⟩ := call
    cases htool
    cases h
    rfl
  rw [harguments]
  exact hv

theorem routes_agree_sample : ∃ compiled, CompiledAuthority.compile CompiledAuthority.searchCrypto
      CompiledAuthority.searchAuthority CompiledAuthority.searchSchemas = .ok compiled ∧
    ∃ gateway : SupervisionGateway CompiledAuthority.searchCrypto,
      new CompiledAuthority.samplePlatform CompiledAuthority.searchCrypto .empty "deterministic" none
        CompiledAuthority.searchSchemas (some CompiledAuthority.searchAuthority) = .ok gateway ∧
      Agree compiled CompiledAuthority.samplePlatform CompiledAuthority.searchCrypto gateway .empty
        ⟨CompiledAuthority.searchSchemas, [], CompiledAuthority.searchAuthority, false⟩ "Find the report"
        (CompiledAuthority.searchCall []) [] "call" (outcome (gateway.evaluate
          CompiledAuthority.samplePlatform (proposalOf (CompiledAuthority.searchCall []) "Find the report" [])
          "call") ⟨{}, []⟩).1 := by
  obtain ⟨compiled, hc⟩ : ∃ compiled, CompiledAuthority.compile CompiledAuthority.searchCrypto
      CompiledAuthority.searchAuthority CompiledAuthority.searchSchemas = .ok compiled :=
    CompiledAuthority.compile_plain (by decide +kernel) (by decide +kernel) (by decide +kernel)
  obtain ⟨gateway, hnew, hagree⟩ := routes_agree hc search_accepts .empty
  exact ⟨compiled, hc, gateway, hnew, hagree "Find the report" _ [] "call" ⟨{}, []⟩ rfl⟩

end SupervisionGateway
end TraceGuard
