import TraceGuard.GatewayRoutes
import TraceGuard.Narrowing

/-! An optional supervisor only narrows: whatever it answers, an allowed call is one that the authority allows
with the history of the gateway, and that the supervisor allowed itself. -/
namespace TraceGuard.SupervisionGateway
open Raising Stateful Dialogue
variable {platform : Platform} {crypto : Crypto}

/-- What a call has passed without the supervisor. -/
structure Cleared (gateway : SupervisionGateway crypto) (platform : Platform) (userGoal : String)
    (observations : List Observation) (history : List ToolCall) (call : ToolCall) : Prop where
  authority : Allows (gateway.compiled.evaluate platform crypto userGoal call observations history)
  fresh : duplicateMutation call history gateway.taskAuthority = Check.pass
  schema : gateway.validate platform call = .ok ()

/-- The supervisor allowed the call, in answer to a question that was added to the log. -/
def Approved (self : SupervisionGateway crypto) (userGoal : String) (observations : List Observation)
    (call : ToolCall) (s t : Session GatewayState Reply) : Prop :=
  ∃ before reply after, t.log=s.log++before++reply :: after ∧
    reply.question.userTask=userGoal ∧ reply.question.call=call ∧
    reply.question.observations=observations ∧
    reply.answer=self.supervisor (s.log++before) reply.question ∧ Allows reply.answer

/-- A call that keeps what a proposed one is, with no more resources than the given ones. -/
structure Keeps (proposed call : ToolCall) (resources : String → Prop) : Prop where
  callId : call.callId=proposed.callId
  observed : call.consumedObservationIds=proposed.consumedObservationIds
  taskId : call.taskId=proposed.taskId
  stepId : call.stepId=proposed.stepId
  resources : ∀ resource∈call.requestedResources, resources resource

/-- What is decided about a call that is cleared: it, or a cleared replacement of it, may run only if the
supervisor allows it; nothing is rewritten. -/
structure Decided (gateway : SupervisionGateway crypto) (platform : Platform) (userGoal : String)
    (observations : List Observation) (history : List ToolCall) (call : ToolCall)
    (s t : Session GatewayState Reply) (returned : ToolCall) (out : SupervisorOutput) : Prop where
  final : out.decision≠.rewrite
  allowed : out.decision=.allow →
    gateway.Cleared platform userGoal observations history returned ∧
      gateway.Approved userGoal observations returned s t ∧
      Keeps call returned (·∈call.requestedResources)

theorem keeps_self (call : ToolCall) : Keeps call call (·∈call.requestedResources) :=
  ⟨rfl, rfl, rfl, rfl, fun _ h => h⟩

section
variable {self : SupervisionGateway crypto} {userGoal : String} {observations : List Observation}
  {history : List ToolCall} {call replacement : ToolCall} {s : Session GatewayState Reply}

theorem decided_withheld {t : Session GatewayState Reply} {out : SupervisorOutput}
    (h : out.decision=.escalate ∨ out.decision=.block) :
    self.Decided platform userGoal observations history call s t call out := by
  refine ⟨fun hr => ?_, fun ha => ?_⟩
  · rw [hr] at h
    exact absurd h (by decide)
  · rw [ha] at h
    exact absurd h (by decide)

theorem recheck_none
    (h : self.recheck platform userGoal replacement observations history = .ok none) :
    Allows (self.compiled.evaluate platform crypto userGoal replacement observations history) ∧
      duplicateMutation replacement history self.taskAuthority = Check.pass := by
  unfold recheck at h
  obtain ⟨repeated, hfresh, h⟩ := bind_ok h
  cases repeated with
  | some denied => cases h
  | none =>
    obtain ⟨checked, hchecked, h⟩ := bind_ok h
    split at h
    · cases h
    · rename_i ha
      exact ⟨⟨checked, hchecked, not_not.mp ha⟩, hfresh⟩

/-- The supervisor's answer, and where it is recorded. -/
theorem ends_consult {α : Type} {question : Question} {f : SupervisorOutput → Act α}
    {q : Except PyError α → Session GatewayState Reply → Prop}
    (ok : ∀ out, self.supervisor s.log question = .ok out →
      Ends (f out) { s with log := s.log++[⟨question, .ok out⟩] } q)
    (error : ∀ e t, q (.error e) t) : Ends (self.consult question >>= f) s q :=
  ends_ask_bind ok fun e _ => error e _

theorem reconsider_decided (hkeeps : Keeps call replacement (·∈call.requestedResources))
    (hvalid : self.validate platform replacement = .ok ()) :
    Ends (self.reconsider platform userGoal call replacement observations history) s fun r t =>
      ∀ returned out, r = .ok (returned, out) →
        self.Decided platform userGoal observations history call s t returned out := by
  unfold reconsider
  refine ends_lift_bind (fun checked hchecked => ?_) fun e _ => ?_
  · cases checked with
    | some checked =>
      refine ends_pure fun returned out he => ?_
      cases he
      exact decided_withheld (Or.inl rfl)
    | none =>
      obtain ⟨hauthority, hfresh⟩ := recheck_none hchecked
      refine ends_consult (fun out hout => ?_) fun e _ => ?_
      · split
        · rename_i ha
          refine ends_pure fun returned final he => ?_
          cases he
          refine ⟨by simp [ha], fun _ => ⟨⟨hauthority, hfresh, hvalid⟩, ?_, hkeeps⟩⟩
          refine ⟨[], ⟨⟨userGoal, replacement, observations, self.context history true⟩, .ok out⟩, [], ?_⟩
          exact ⟨by simp, rfl, rfl, rfl, by simpa using hout.symm, out, rfl, ha⟩
        · refine ends_pure fun returned final he => ?_
          cases he
          exact decided_withheld (Or.inl rfl)
      · rintro returned out ⟨⟩
  · rintro returned out ⟨⟩

/-- The last check makes nothing looser. -/
theorem Decided.settled {t u : Session GatewayState Reply} {returned : ToolCall} {out : SupervisorOutput}
    (h : self.Decided platform userGoal observations history call s t returned out)
    (hlog : u.log=t.log) :
    self.Decided platform userGoal observations history call s u returned out.enforceAllowInvariants := by
  rcases out.enforceAllowInvariants_cases with ⟨hsame, -⟩ | ⟨-, hesc⟩
  · rw [hsame]
    refine ⟨h.final, fun ha => ?_⟩
    obtain ⟨hcleared, ⟨before, reply, after, hadded, hreply⟩, hkeeps⟩ := h.allowed ha
    exact ⟨hcleared, ⟨before, reply, after, hlog.trans hadded, hreply⟩, hkeeps⟩
  · exact ⟨by simp [hesc], fun ha => by rw [hesc] at ha; cases ha⟩

theorem Decided.earlier {s' t : Session GatewayState Reply} {returned : ToolCall}
    {out : SupervisorOutput} {more : List Reply}
    (h : self.Decided platform userGoal observations history call s' t returned out)
    (hlog : s'.log=s.log++more) :
    self.Decided platform userGoal observations history call s t returned out := by
  refine ⟨h.final, fun ha => ?_⟩
  obtain ⟨hcleared, ⟨before, reply, after, hadded, hgoal, hcall, hobs, hanswer, hallows⟩, hkeeps⟩ :=
    h.allowed ha
  refine ⟨hcleared, ⟨more++before, reply, after, ?_, hgoal, hcall, hobs, ?_, hallows⟩, hkeeps⟩
  · rw [hadded, hlog, List.append_assoc s.log]
  · rw [hanswer, hlog, List.append_assoc]

theorem settle_ends (decided : ToolCall × SupervisorOutput) (s : Session GatewayState Reply) :
    Ends (settle decided) s fun r t => t.log=s.log ∧
      r = .ok (decided.1, decided.2.enforceAllowInvariants) := by
  unfold settle
  dsimp only
  split
  · exact ⟨rfl, rfl⟩
  · exact ⟨rfl, rfl⟩

theorem allowed_consistent {out : SupervisorOutput} (h : out.enforceAllowInvariants.decision=.allow) :
    out.enforceAllowInvariants.inconsistent = false := by
  rcases out.enforceAllowInvariants_cases with ⟨hsame, hok⟩ | ⟨-, hesc⟩
  · rw [hsame] at h ⊢
    exact hok h
  · rw [hesc] at h
    cases h

/-- What is returned, with what the last check leaves. -/
def Returned (self : SupervisionGateway crypto) (platform : Platform) (userGoal : String)
    (observations : List Observation) (history : List ToolCall) (call : ToolCall)
    (s : Session GatewayState Reply) (r : Except PyError (ToolCall × SupervisorOutput))
    (t : Session GatewayState Reply) : Prop :=
  ∀ returned out, r = .ok (returned, out) →
    self.Decided platform userGoal observations history call s t returned out ∧
      (out.decision=.allow → out.inconsistent = false)

theorem settle_returned {decided : ToolCall × SupervisorOutput} {t : Session GatewayState Reply}
    (h : self.Decided platform userGoal observations history call s t decided.1 decided.2) :
    Ends (settle decided) t (self.Returned platform userGoal observations history call s) := by
  refine (settle_ends decided t).mono fun r u hu returned out he => ?_
  cases hu.2.symm.trans he
  exact ⟨h.settled hu.1, allowed_consistent⟩

theorem returned_withheld {out : SupervisorOutput} {t : Session GatewayState Reply}
    (h : out.decision=.escalate ∨ out.decision=.block) :
    self.Returned platform userGoal observations history call s (.ok (call, out)) t := by
  rintro returned final he
  cases he
  refine ⟨decided_withheld h, fun ha => ?_⟩
  rw [ha] at h
  exact absurd h (by decide)

theorem supervise_returned (hcleared : self.Cleared platform userGoal observations history call) :
    Ends (self.supervise platform userGoal call observations history) s
      (self.Returned platform userGoal observations history call s) := by
  unfold supervise
  refine ends_consult (fun decision hdecision => ?_) fun e _ => ?_
  · have hadded : self.Approved userGoal observations call s
          { s with log := s.log++[⟨⟨userGoal, call, observations, self.context history⟩, .ok decision⟩] } ∨
        decision.decision≠.allow := by
      by_cases ha : decision.decision=.allow
      · refine Or.inl ⟨[], ⟨⟨userGoal, call, observations, self.context history⟩, .ok decision⟩, [], ?_⟩
        exact ⟨by simp, rfl, rfl, rfl, by simpa using hdecision.symm, decision, rfl, ha⟩
      · exact Or.inr ha
    split
    · rename_i replacement hrewrite hreplacement
      split
      · exact ends_update_bind (ends_pure (returned_withheld (Or.inl rfl)))
      · rintro returned out ⟨⟩
      · rename_i hvalid
        have hreplaces := validateReplacement_ok hvalid
        have hschema : self.validate platform replacement = .ok () := by
          obtain ⟨schema, hknown, hschema⟩ := hreplaces.schema
          unfold validate
          rw [hknown]
          exact hschema
        have hkeeps : Keeps call replacement (·∈call.requestedResources) :=
          ⟨hreplaces.callId, hreplaces.observed, hreplaces.taskId, hreplaces.stepId, hreplaces.resources⟩
        refine (reconsider_decided hkeeps hschema).bind (fun decided t h => ?_) fun e t _ => ?_
        · exact settle_returned ((h decided.1 decided.2 rfl).earlier rfl)
        · rintro returned out ⟨⟩
    · rename_i hother
      refine settle_returned ⟨fun hr => ?_, fun ha => ?_⟩
      · obtain ⟨replacement, hreplacement⟩ := Option.isSome_iff_exists.mp (decision.rewrites hr)
        exact hother replacement hr hreplacement
      · exact ⟨hcleared, hadded.resolve_right fun hn => hn ha, keeps_self call⟩
  · rintro returned out ⟨⟩

theorem gate_some {checked : SupervisorOutput}
    (h : self.gate platform userGoal call observations history = .ok (some checked)) :
    checked.decision=.escalate ∨ checked.decision=.block := by
  unfold gate at h
  split at h
  · obtain ⟨out, -, h⟩ := bind_ok h
    split at h
    · rename_i hw
      cases h
      simpa [Decision.withholds, or_comm] using hw
    · cases h
  · cases h

theorem consider_returned (hauthority : self.validate platform call = .ok () →
      Allows (self.compiled.evaluate platform crypto userGoal call observations history)) :
    Ends (self.consider platform userGoal call observations history) s
      (self.Returned platform userGoal observations history call s) := by
  unfold consider
  refine ends_lift_bind (fun repeated hfresh => ?_) fun e _ => ?_
  · cases repeated with
    | some denied => exact ends_pure (returned_withheld denied.denies.symm)
    | none =>
      dsimp only
      split
      · exact ends_update_bind (ends_pure (returned_withheld (Or.inl rfl)))
      · rintro returned out ⟨⟩
      · rename_i hvalid
        refine ends_lift_bind (fun checked hgate => ?_) fun e _ => ?_
        · cases checked with
          | some checked => exact ends_update_bind (ends_pure (returned_withheld (gate_some hgate)))
          | none => exact supervise_returned ⟨hauthority hvalid, hfresh, hvalid⟩
        · rintro returned out ⟨⟩
  · rintro returned out ⟨⟩

end

/-- What the reviewed adapter of a tool reads besides its selectors. -/
def Implicit (self : SupervisionGateway crypto) (tool resource : String) : Prop :=
  ∃ schema reviewed, self.availableTools.get? tool = some schema ∧ schema.Bound crypto tool reviewed ∧
    resource∈reviewed.implicit.getD []

theorem readForm_keeps {self : SupervisionGateway crypto} {call normalized : ToolCall} {schema : Schema}
    (hk : self.availableTools.get? call.toolName = some schema)
    (h : CompiledAuthority.readForm crypto call schema = .ok (some normalized)) :
    Keeps call normalized fun resource =>
      resource∈call.requestedResources ∨ self.Implicit call.toolName resource := by
  unfold CompiledAuthority.readForm at h
  obtain ⟨effect, -, h⟩ := bind_ok h
  cases effect with
  | read =>
    dsimp only at h
    split at h
    · rename_i found hread
      cases h
      obtain ⟨reviewed, hbound, hreads⟩ := scopedReadCall_ok hread
      have hresources : ∀ resource∈normalized.requestedResources,
          resource∈call.requestedResources ∨ self.Implicit call.toolName resource :=
        fun resource hm => ((hreads.requested resource).mp hm).imp_right
          fun hi => ⟨schema, reviewed, hk, hbound, hi⟩
      unfold scopedReadCall at hread
      obtain ⟨_, -, hread⟩ := bind_ok hread
      obtain ⟨_, -, hread⟩ := bind_ok hread
      obtain ⟨-, hread⟩ := guard_ok hread
      obtain ⟨_, -, hread⟩ := bind_ok hread
      cases hread
      exact ⟨rfl, rfl, rfl, rfl, hresources⟩
    · cases h
    · cases h
  | mutate | command | unknown =>
    cases h
    exact ⟨rfl, rfl, rfl, rfl, fun _ hm => Or.inl hm⟩

theorem Keeps.trans {a b c : ToolCall} {p : String → Prop} (h : Keeps a b p)
    (h' : Keeps b c (·∈b.requestedResources)) : Keeps a c p :=
  ⟨h'.callId.trans h.callId, h'.observed.trans h.observed, h'.taskId.trans h.taskId,
    h'.stepId.trans h.stepId, fun _ hm => h.resources _ (h'.resources _ hm)⟩

/-- What a supervisor that answers as it likes can obtain. -/
structure Supervised (gateway : SupervisionGateway crypto) (platform : Platform) (proposal : Proposal)
    (callId : String) (s t : Session GatewayState Reply) (returned : ToolCall) (out : SupervisorOutput) :
    Prop where
  final : out.decision≠.rewrite
  cleared : out.decision=.allow →
    gateway.Cleared platform proposal.userGoal proposal.observations s.state.history returned
  approved : out.decision=.allow →
    gateway.Approved proposal.userGoal proposal.observations returned s t
  consistent : out.decision=.allow → out.inconsistent = false
  keeps : out.decision=.allow → Keeps (proposal.call callId) returned fun resource =>
    resource∈proposal.requestedResources ∨ gateway.Implicit proposal.toolName resource

theorem supervised_withheld {self : SupervisionGateway crypto} {proposal : Proposal} {callId : String}
    {s t : Session GatewayState Reply} {call : ToolCall} {out : SupervisorOutput}
    (hr : out.decision≠.rewrite) (ha : out.decision≠.allow) :
    self.Supervised platform proposal callId s t call out :=
  ⟨hr, fun h => absurd h ha, fun h => absurd h ha, fun h => absurd h ha, fun h => absurd h ha⟩

/-- An optional supervisor only narrows. -/
theorem evaluate_supervised (self : SupervisionGateway crypto) (platform : Platform) (proposal : Proposal)
    (callId : String) (s : Session GatewayState Reply) :
    Ends (self.evaluate platform proposal callId) s fun r t => ∀ returned out,
      r = .ok (returned, out) → self.Supervised platform proposal callId s t returned out := by
  obtain ⟨-, -, hschemas⟩ := CompiledAuthority.compile_ok self.compiles
  unfold evaluate
  refine ends_state_bind ?_
  split
  · refine ends_pure fun returned out he => ?_
    cases he
    exact supervised_withheld (by decide) (by decide)
  refine ends_lift_bind (fun checked hchecked => ?_) fun e _ => ?_
  · split
    · rename_i hnot
      refine ends_update_bind (ends_pure fun returned out he => ?_)
      cases he
      exact supervised_withheld (CompiledAuthority.evaluate_not_rewrite hchecked) hnot
    rename_i hnot
    obtain ⟨-, schemas, schema, normalized, authority, hallowed⟩ :=
      CompiledAuthority.evaluate_allow hchecked (not_not.mp hnot)
    cases hschemas.symm.trans hallowed.parsed
    have hform := CompiledAuthority.normalizeRead_form hallowed.parsed hallowed.known hallowed.form
    refine ends_lift_ok hform ((consider_returned fun hvalid => ?_).mono fun r t h returned out he => ?_)
    · unfold validate at hvalid
      rw [CompiledAuthority.readForm_tool hallowed.form, hallowed.known] at hvalid
      exact ⟨_, CompiledAuthority.evaluate_granted (hallowed.normal hvalid), rfl⟩
    · obtain ⟨hdecided, hconsistent⟩ := h returned out he
      have hkeeps := readForm_keeps hallowed.known hallowed.form
      exact ⟨hdecided.final, fun ha => (hdecided.allowed ha).1, fun ha => (hdecided.allowed ha).2.1,
        hconsistent, fun ha => hkeeps.trans (hdecided.allowed ha).2.2⟩
  · rintro returned out ⟨⟩

end TraceGuard.SupervisionGateway
