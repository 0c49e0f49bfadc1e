import TraceGuard.PolicyBundle
import TraceGuard.RecordJson
import TraceGuard.TenantCalls

/-! Tenant isolation. Runs of calls of several tenants, each with the times and the identifiers that it
is given: no tenant's call changes what another one's calls return. -/
namespace TraceGuard
open Json (Codec)
open Stateful Traces ControlPlane ExecutionAuthority ControlState Isolation

/-- The key of a control plane's audit exports. -/
structure AuditSigner where
  seed : String
  keyId : String

/-- What `export_audit` returns, beside the algorithm. -/
structure AuditExport where
  tenantId : String
  events : List AuditEvent
  signature : String
  keyId : String

namespace ControlPlane
variable (world : World)

/-- The signed part of an export. -/
def exportPayload (tenant : String) (events : List AuditEvent) : Json :=
  .obj [("tenant_id", .str tenant), ("events", .arr (events.map AuditEvent.codec.enc)),
    ("count", .int events.length), ("head_hash", optional (events.getLast?.map AuditEvent.eventHash)),
    ("schema_version", .str "audit-v2")]

def exportAudit (signer : AuditSigner) (tenant : String) (actor : Actor) : Operation AuditExport :=
  inspect fun s => do
    s.require actor .auditor tenant
    if !(← verifyAuditChain world s tenant) then throw (.value "audit integrity check failed")
    match canonical (exportPayload tenant (s.auditsOf tenant)) with
    | none => throw (.value "Out of range float values are not JSON compliant")
    | some message =>
      return ⟨tenant, s.auditsOf tenant, world.crypto.sign signer.seed message, signer.keyId++":audit-v2"⟩

end ControlPlane

/-- What a tenant can call. -/
inductive TenantRequest where
  | control (q : ControlRequest)
  | activePolicy (tenant : String)
  | verifyAuditChain (tenant : String)
  | signedBundle (signer : PolicySigner) (tenant : String) (actor : Actor) (ttl : Int)
  | exportAudit (signer : AuditSigner) (tenant : String) (actor : Actor)

inductive TenantResponse where
  | control (r : ControlResponse)
  | policy (p : Option PolicyVersion)
  | verified (b : Bool)
  | bundle (b : SignedPolicyBundle)
  | exported (e : AuditExport)

/-- The tenant that the operation is called for. -/
def ControlRequest.tenant : ControlRequest → String
  | .revokeCredential tenant _ _ | .suspendTenant tenant _ _ | .createDraft tenant _ _
  | .submitPolicy tenant _ _ | .approvePolicy tenant _ _ | .rollback tenant _ _
  | .resolveReview tenant _ _ _ _ | .register tenant _ _ | .bindLegacyDomain tenant _ _ _ _ => tenant
  | .evaluate _ action | .issue _ _ action _ _ | .validate _ _ action _ => action.tenantId

def TenantRequest.tenant : TenantRequest → String
  | .control q => q.tenant
  | .activePolicy tenant | .verifyAuditChain tenant | .signedBundle _ tenant _ _
  | .exportAudit _ tenant _ => tenant

def perform (world : World) : TenantRequest → Operation TenantResponse
  | .control q => .control <$> serve world q
  | .activePolicy tenant => .policy <$> inspect fun s => .ok (s.activePolicy tenant)
  | .verifyAuditChain tenant => .verified <$> inspect fun s => verifyAuditChain world s tenant
  | .signedBundle signer tenant actor ttl => .bundle <$> signedBundle world signer tenant actor ttl
  | .exportAudit signer tenant actor => .exported <$> exportAudit world signer tenant actor

/-- What the clock and `uuid4` give a call. -/
structure Supply where
  clock : Nat → Instant
  uuid : Nat → String
  fresh : Function.Injective uuid

structure TenantCall where
  request : TenantRequest
  supply : Supply

def World.supplied (world : World) (supply : Supply) : World :=
  { world with clock := supply.clock, uuid := supply.uuid, fresh := supply.fresh }

namespace TenantCall

def tenant (c : TenantCall) : String := c.request.tenant

/-- The result of a call, and the state that it leaves. -/
def exec (world : World) (s : ControlState) (c : TenantCall) :
    Except ServiceError TenantResponse × ControlState :=
  let after := outcome (perform (world.supplied c.supply) c.request) ⟨s, 0, 0⟩
  (after.1, after.2.plane)

/-- No identifier is generated twice. -/
def Distinct (calls : List TenantCall) : Prop :=
  calls.Pairwise fun c c' => ∀ i j, c.supply.uuid i≠c'.supply.uuid j

end TenantCall

section
variable {world : World} {m : Machine}

theorem verifyAuditChain_project (s : ControlState) (t : String) :
    verifyAuditChain world (s.project t) t = verifyAuditChain world s t := by
  unfold verifyAuditChain
  simp only [auditsOf_project, heads_project]

theorem local_signedBundle (signer : PolicySigner) (t : String) (actor : Actor) (ttl : Int) :
    Local t (signedBundle world signer t actor ttl) m := by
  refine local_inspect_bind ?_ fun a _ => local_now_bind (local_inspect ?_)
  · unfold bundlePolicy
    simp only [require_project, activePolicy_project]
  · unfold draftBundle
    simp only [epochs_project]

theorem local_exportAudit (signer : AuditSigner) (t : String) (actor : Actor) :
    Local t (exportAudit world signer t actor) m := by
  refine local_inspect ?_
  simp only [require_project, verifyAuditChain_project, auditsOf_project]

theorem local_serve (collisionFree : Function.Injective world.crypto.sha256) (q : ControlRequest)
    (sound : Sound world.crypto m.plane) (spare : Spare world m) : Local q.tenant (serve world q) m := by
  cases q with
  | revokeCredential => exact (local_revokeCredential _ _).map _
  | suspendTenant => exact (local_suspendTenant _ _).map _
  | createDraft => exact (local_createDraft _ _).map _
  | submitPolicy => exact (local_submitPolicy _ _).map _
  | approvePolicy => exact (local_approvePolicy _ _).map _
  | rollback => exact (local_rollback _ _).map _
  | evaluate => exact (local_evaluate _ _ spare).map _
  | resolveReview => exact (local_resolveReview _ _ _ _ sound).map _
  | register => exact (local_register _ _).map _
  | bindLegacyDomain => exact (local_bindLegacyDomain _ _ _ _).map _
  | issue => exact (local_issue _ _ _ _ _ sound spare).map _
  | validate => exact (local_validate collisionFree _ _ _ _ sound).map _

theorem local_perform (collisionFree : Function.Injective world.crypto.sha256) (q : TenantRequest)
    (sound : Sound world.crypto m.plane) (spare : Spare world m) : Local q.tenant (perform world q) m := by
  cases q with
  | control q => exact (local_serve collisionFree q sound spare).map _
  | activePolicy tenant =>
    refine (local_inspect (t := tenant) ?_).map _
    rw [activePolicy_project]
  | verifyAuditChain => exact (local_inspect (verifyAuditChain_project _ _)).map _
  | signedBundle => exact (local_signedBundle _ _ _ _).map _
  | exportAudit => exact (local_exportAudit _ _ _).map _

theorem perform_changes (q : TenantRequest) :
    ∃ marks, Run (Change world) m marks (outcome (perform world q) m).2 := by
  cases q with
  | control q =>
    have hstep : ControlStep world m (q, (outcome (serve world q) m).1) (outcome (serve world q) m).2 :=
      rfl
    obtain ⟨marks, _, hrun⟩ := hstep.changes
    rw [perform, outcome_map]
    exact ⟨marks, hrun⟩
  | signedBundle signer tenant actor ttl =>
    rw [perform, outcome_map]
    show ∃ marks, Run _ m marks (outcome (signedBundle world signer tenant actor ttl) m).2
    rcases inspect_bind (Prod.mk.eta.symm : outcome (signedBundle world signer tenant actor ttl) m = _)
      with ⟨_, _, _, hm⟩ | ⟨_, _, h⟩
    · rw [hm]
      exact ⟨[], .nil _⟩
    · rw [now_bind, inspect, outcome_check] at h
      rw [← (Prod.mk.inj h).2]
      exact ⟨[.drew], .single (.drew 1 0)⟩
  | _ =>
    rw [perform, outcome_map]
    refine ⟨[], ?_⟩
    simp only [exportAudit, inspect, outcome_check]
    exact .nil _

end

/-- The records are sound, and the calls to come have identifiers of their own. -/
structure Ready (world : World) (s : ControlState) (calls : List TenantCall) : Prop where
  sound : Sound world.crypto s
  distinct : TenantCall.Distinct calls
  absent : ∀ c∈calls, ∀ k, Absent s (c.supply.uuid k)

section
variable {world : World}

theorem ready_empty {calls : List TenantCall} (h : TenantCall.Distinct calls) : Ready world {} calls :=
  ⟨sound_empty _, h, fun _ _ _ => ⟨rfl, rfl⟩⟩

theorem Ready.spare {s : ControlState} {c : TenantCall} {calls : List TenantCall}
    (h : Ready world s (c :: calls)) : Spare (world.supplied c.supply) ⟨s, 0, 0⟩ :=
  fun k _ => h.absent c List.mem_cons_self k

theorem Ready.keep {s : ControlState} {c : TenantCall} {calls : List TenantCall}
    (h : Ready world s (c :: calls)) : Ready world (c.exec world s).2 calls := by
  obtain ⟨marks, hrun⟩ := @perform_changes (world.supplied c.supply) ⟨s, 0, 0⟩ c.request
  obtain ⟨hapart, hdistinct⟩ := List.pairwise_cons.mp h.distinct
  refine ⟨(sound_run hrun h.sound h.spare).1, hdistinct, fun c' hc' k => ?_⟩
  exact absent_run hrun h.sound h.spare (h.absent c' (List.mem_cons_of_mem _ hc') k) fun j hj =>
    hapart c' hc' j k hj.symm

theorem Ready.drop {s : ControlState} {calls calls' : List TenantCall} (h : Ready world s calls)
    (hsub : calls'.Sublist calls) : Ready world s calls' :=
  ⟨h.sound, h.distinct.sublist hsub, fun c hc => h.absent c (hsub.subset hc)⟩

/-- Every call stays within its tenant's part. -/
theorem TenantCall.within (collisionFree : Function.Injective world.crypto.sha256) {s : ControlState}
    {c : TenantCall} {calls : List TenantCall} (h : Ready world s (c :: calls)) :
    Local c.tenant (perform (world.supplied c.supply) c.request) ⟨s, 0, 0⟩ :=
  @local_perform (world.supplied c.supply) ⟨s, 0, 0⟩ collisionFree c.request h.sound h.spare

theorem tenants_isolated (collisionFree : Function.Injective world.crypto.sha256) :
    Isolated (TenantCall.exec world) TenantCall.tenant (fun t s => s.project t) (Ready world) where
  keep := Ready.keep
  drop := Ready.drop
  alike := by
    intro s s' c calls calls' h h' hview
    have hsame := (TenantCall.within collisionFree h).same
    have hsame' := (TenantCall.within collisionFree h').same
    have hparts : Machine.part c.tenant ⟨s, 0, 0⟩ = Machine.part c.tenant ⟨s', 0, 0⟩ :=
      congrArg (fun p => (⟨p, 0, 0⟩ : Machine)) hview
    rw [hparts, hsame'] at hsame
    obtain ⟨hresult, hpart⟩ := Prod.mk.inj hsame
    exact ⟨hresult.symm, (congrArg Machine.plane hpart).symm⟩
  apart h hu := (TenantCall.within collisionFree h).unseen _ hu

/-- Tenants are isolated: a call leaves what other tenants see, its result and what its tenant sees after
it depend on what its tenant saw before it, and a tenant's results are those of its own calls alone. -/
theorem ControlPlane.tenant_isolation (world : World)
    (collisionFree : Function.Injective world.crypto.sha256) :
    (∀ past c, TenantCall.Distinct (past++[c]) →
      let s := after (TenantCall.exec world) {} past
      (∀ u, u≠c.tenant → (c.exec world s).2.project u = s.project u) ∧
      ∀ past', TenantCall.Distinct (past'++[c]) →
        let s' := after (TenantCall.exec world) {} past'
        s.project c.tenant = s'.project c.tenant →
          (c.exec world s).1 = (c.exec world s').1 ∧
          (c.exec world s).2.project c.tenant = (c.exec world s').2.project c.tenant) ∧
    ∀ t calls, TenantCall.Distinct calls →
      seen (TenantCall.exec world) TenantCall.tenant t {} calls =
        answers (TenantCall.exec world) {} (purge TenantCall.tenant t calls) := by
  have hisolated := tenants_isolated collisionFree
  have hready {past : List TenantCall} {c : TenantCall} (h : TenantCall.Distinct (past++[c])) :
      Ready world (after (TenantCall.exec world) {} past) [c] := hisolated.after (ready_empty h)
  refine ⟨fun past c h => ⟨fun u hu => hisolated.apart (hready h) hu, fun past' h' hview =>
    hisolated.alike (hready h) (hready h') hview⟩, fun t calls h => ?_⟩
  exact hisolated.noninterference t (ready_empty h)
    ((ready_empty h).drop List.filter_sublist) rfl

end

/-- Identifiers that begin with a letter of their own. -/
def sampleSupply (c : Char) : Supply where
  clock _ := ⟨0, Instant.zero_range⟩
  uuid k := String.ofList (c :: List.replicate k 'i')
  fresh i j h := by
    have hlength := congrArg List.length (String.ofList_injective h)
    simpa using hlength

/-- A tenant asks for the policy of another one. -/
def sampleCalls : List TenantCall :=
  [⟨.control (.createDraft "other" ⟨"admin", [.admin], none, ["other"], none⟩ samplePermit),
      sampleSupply 'a'⟩,
    ⟨.control (.createDraft "tenant" sampleAdmin samplePermit), sampleSupply 'b'⟩,
    ⟨.control (.submitPolicy "tenant" sampleAdmin "a"), sampleSupply 'c'⟩]

theorem sample_calls : TenantCall.Distinct sampleCalls := by
  have hne {c c' : Char} (h : c≠c') (i j : Nat) : (sampleSupply c).uuid i≠(sampleSupply c').uuid j :=
    fun hsame => h (List.cons.inj (String.ofList_injective hsame)).1
  simp only [TenantCall.Distinct, sampleCalls, List.pairwise_cons, List.mem_cons, List.not_mem_nil,
    or_false, forall_eq_or_imp, forall_eq]
  exact ⟨⟨hne (by decide), hne (by decide)⟩, hne (by decide), by simp, .nil⟩

theorem ControlPlane.tenant_isolation_sample :
    (seen (TenantCall.exec sampleWorld) TenantCall.tenant "tenant" {} sampleCalls =
      answers (TenantCall.exec sampleWorld) {} (purge TenantCall.tenant "tenant" sampleCalls)) ∧
    (purge TenantCall.tenant "tenant" sampleCalls).length = 2 :=
  ⟨(ControlPlane.tenant_isolation sampleWorld fun _ _ h => h).2 _ _ sample_calls, rfl⟩

end TraceGuard
