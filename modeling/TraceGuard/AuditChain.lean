import TraceGuard.ControlJson
import TraceGuard.ExecutionRuns

/-! The audit chain: what every run records verifies, and a list that verifies against a recorded
head is the recorded list. -/
namespace TraceGuard
open Stateful Traces ControlPlane

/-- The event follows the others. -/
structure Links (world : World) (events : List AuditEvent) (e : AuditEvent) : Prop where
  previous : e.previousHash = events.getLast?.map AuditEvent.eventHash
  position : e.sequence = events.length+1
  plain : e.body.plain = true
  hashed : e.eventHash = world.crypto.digest e.body

inductive Chain (world : World) : List AuditEvent → Prop
  | nil : Chain world []
  | snoc {events : List AuditEvent} {e : AuditEvent} (past : Chain world events)
      (last : Links world events e) : Chain world (events++[e])

/-- The head that a list of events has. -/
def chainHead (events : List AuditEvent) : Option (Nat × String) :=
  events.getLast?.map fun e => (events.length, e.eventHash)

section
variable {world : World}

theorem verifyEvents_cons (previous : Option String) (n : Nat) (e : AuditEvent)
    (events : List AuditEvent) :
    verifyEvents world previous n (e :: events) = .ok true ↔
      (e.previousHash = previous ∧ e.sequence = n ∧ e.body.plain = true ∧
        e.eventHash = world.crypto.digest e.body) ∧
      verifyEvents world (some e.eventHash) (n+1) events = .ok true := by
  rw [verifyEvents]
  by_cases hl : e.previousHash≠previous ∨ e.sequence≠n
  · rw [if_pos hl]
    simp only [Except.ok.injEq, Bool.false_eq_true, false_iff]
    rintro ⟨⟨hp, hs, _⟩, _⟩
    rcases hl with h | h
    · exact h hp
    · exact h hs
  · rw [if_neg hl]
    obtain ⟨hp, hs⟩ := not_or.mp hl
    by_cases hplain : e.body.plain = true
    · by_cases hh : e.eventHash=world.crypto.digest e.body
      · have hh' : ¬e.eventHash≠world.crypto.sha256 (Json.text Json.compact e.body) := not_not.mpr hh
        simp only [canonical, Json.dumps_plain hplain, if_neg hh']
        simp [not_not.mp hp, not_not.mp hs, hplain, ← hh]
      · have hh' : e.eventHash≠world.crypto.sha256 (Json.text Json.compact e.body) := hh
        simp [canonical, Json.dumps_plain hplain, if_pos hh', hh]
    · simp [canonical, Json.dumps, hplain]

theorem verifyEvents_snoc (previous : Option String) (n : Nat) (e : AuditEvent)
    (events : List AuditEvent) :
    verifyEvents world previous n (events++[e]) = .ok true ↔
      verifyEvents world previous n events = .ok true ∧
      (e.previousHash = (events.getLast?.map AuditEvent.eventHash).or previous ∧
        e.sequence = n+events.length ∧ e.body.plain = true ∧
        e.eventHash = world.crypto.digest e.body) := by
  induction events generalizing previous n with
  | nil =>
    rw [List.nil_append, verifyEvents_cons]
    simp [verifyEvents]
  | cons x xs ih =>
    rw [List.cons_append, verifyEvents_cons, verifyEvents_cons, ih, ← and_assoc]
    have hprevious : (xs.getLast?.map AuditEvent.eventHash).or (some x.eventHash) =
        (((x :: xs).getLast?.map AuditEvent.eventHash).or previous) := by
      rw [List.getLast?_cons]
      cases xs.getLast? <;> rfl
    have hposition : n+1+xs.length = n+(x :: xs).length := by
      simp only [List.length_cons]
      omega
    rw [hprevious, hposition]

theorem verifyEvents_chain (events : List AuditEvent) :
    verifyEvents world none 1 events = .ok true ↔ Chain world events := by
  induction events using List.reverseRecOn with
  | nil => exact ⟨fun _ => .nil, fun _ => rfl⟩
  | append_singleton events e ih =>
    rw [verifyEvents_snoc, ih, Option.or_none, Nat.add_comm 1]
    refine ⟨fun ⟨hpast, hp, hs, hplain, hh⟩ => .snoc hpast ⟨hp, hs, hplain, hh⟩, fun h => ?_⟩
    generalize hall : events++[e] = all at h
    cases h with
    | nil => simp at hall
    | snoc past last =>
      obtain ⟨rfl, he⟩ := List.append_inj' hall rfl
      obtain rfl : e=_ := by simpa using he
      exact ⟨past, last.previous, last.position, last.plain, last.hashed⟩

theorem verifyAuditChain_true (s : ControlState) (tenant : String) :
    verifyAuditChain world s tenant = .ok true ↔
      Chain world (s.auditsOf tenant) ∧ s.auditHeads.get? tenant = chainHead (s.auditsOf tenant) := by
  rw [← verifyEvents_chain]
  simp only [verifyAuditChain, chainHead]
  cases hv : verifyEvents world none 1 (s.auditsOf tenant) with
  | error e => simp [bind, Except.bind]
  | ok verified =>
    cases verified with
    | false => simp [bind, Except.bind, pure, Except.pure]
    | true => cases (s.auditsOf tenant).getLast? <;> simp [bind, Except.bind, pure, Except.pure]

/-- Two chains with one head are one chain. -/
theorem Chain.unique (collisionFree : Function.Injective world.crypto.sha256)
    {events events' : List AuditEvent} (h : Chain world events) (h' : Chain world events')
    (hhead : chainHead events = chainHead events') : events=events' := by
  induction h generalizing events' with
  | nil =>
    cases h' with
    | nil => rfl
    | snoc past last => simp [chainHead] at hhead
  | @snoc events e past last ih =>
    cases h' with
    | nil => simp [chainHead] at hhead
    | @snoc events' e' past' last' =>
      have hboth : events.length = events'.length ∧ e.eventHash = e'.eventHash := by
        simpa [chainHead] using hhead
      have hhash := hboth.2
      rw [last.hashed, last'.hashed] at hhash
      have hbody := Json.text_inj last.plain last'.plain (collisionFree hhash)
      obtain rfl : e=e' := AuditEvent.body_inj hbody hboth.2
      -- the link to the previous event fixes the head of the rest
      have hrest : chainHead events = chainHead events' := by
        have hp := last.previous.symm.trans last'.previous
        unfold chainHead
        rw [hboth.1]
        cases hl : events.getLast? <;> cases hl' : events'.getLast? <;> simp_all
      rw [ih past' hrest]

theorem auditsOf_record (s : ControlState) (e : AuditEvent) (tenant : String) :
    (ControlState.record s e).auditsOf tenant = if tenant=e.tenantId then s.auditsOf e.tenantId++[e]
      else s.auditsOf tenant := by
  unfold ControlState.record ControlState.auditsOf
  rw [SortedMap.get?_insert]
  split <;> rfl

theorem heads_record (s : ControlState) (e : AuditEvent) (tenant : String) :
    (ControlState.record s e).auditHeads.get? tenant = if tenant=e.tenantId then
      some (e.sequence, e.eventHash) else s.auditHeads.get? tenant :=
  SortedMap.get?_insert _ _ _ _

/-- The next event follows the recorded ones. -/
theorem event_links (world : World) (m : Machine) (tenant eventType actor : String)
    (payload : Arguments) :
    Links world (m.plane.auditsOf tenant) (m.event world tenant eventType actor payload) where
  previous := rfl
  position := rfl
  plain := by
    have hpayload := Re.redactMembers_plain world.platform.toRe payload.members payload.plain
    have hdoc := Json.plain_sorted (.obj (world.platform.redactMembers payload.members)) hpayload
    simpa [AuditEvent.body, AuditEvent.bodyMembers, Machine.event, nextEvent, Json.plain,
      Json.plainMembers, optional_plain, instantJson, Json.Doc.of] using hdoc
  hashed := rfl

/-- Every tenant's events are a chain with the recorded head. -/
def Audited (world : World) (s : ControlState) : Prop :=
  ∀ tenant, Chain world (s.auditsOf tenant) ∧ s.auditHeads.get? tenant = chainHead (s.auditsOf tenant)

theorem Audited.record {m : Machine} (h : Audited world m.plane) (tenant eventType actor : String)
    (payload : Arguments) :
    Audited world (m.recorded world tenant eventType actor payload).plane := by
  intro tenant'
  show Chain world ((ControlState.record m.plane _).auditsOf tenant') ∧
    (ControlState.record m.plane _).auditHeads.get? tenant' =
      chainHead ((ControlState.record m.plane _).auditsOf tenant')
  rw [auditsOf_record, heads_record]
  by_cases ht : tenant'=(m.event world tenant eventType actor payload).tenantId
  · rw [if_pos ht, if_pos ht]
    have hlinks := event_links world m tenant eventType actor payload
    refine ⟨.snoc (h _).1 hlinks, ?_⟩
    simp [chainHead, hlinks.position]
    rfl
  · rw [if_neg ht, if_neg ht]
    exact h tenant'

variable {m m' : Machine}

theorem Change.audits {mark : Mark} (h : Change world m mark m') :
    (m'.plane.audits = m.plane.audits ∧ m'.plane.auditHeads = m.plane.auditHeads) ∨
      ∃ tenant eventType actor payload, m' = m.recorded world tenant eventType actor payload := by
  cases h with
  | recorded => exact Or.inr ⟨_, _, _, _, rfl⟩
  | granted =>
    rw [recordGrant_eq]
    exact Or.inl ⟨rfl, rfl⟩
  | _ => exact Or.inl ⟨rfl, rfl⟩

theorem Change.audited {mark : Mark} (h : Change world m mark m') (ha : Audited world m.plane) :
    Audited world m'.plane := by
  rcases h.audits with ⟨haudits, hheads⟩ | ⟨tenant, eventType, actor, payload, rfl⟩
  · intro tenant
    rw [ControlState.auditsOf, haudits, hheads]
    exact ha tenant
  · exact ha.record tenant eventType actor payload

/-- The second state keeps the events of the first. -/
def Extends (m m' : Machine) : Prop := ∀ tenant, m.plane.auditsOf tenant <+: m'.plane.auditsOf tenant

theorem Extends.trans {m m' m'' : Machine} (h : Extends m m') (h' : Extends m' m'') : Extends m m'' :=
  fun tenant => (h tenant).trans (h' tenant)

theorem Change.extends {mark : Mark} (h : Change world m mark m') : Extends m m' := by
  intro tenant
  rcases h.audits with ⟨haudits, _⟩ | ⟨tenant', eventType, actor, payload, rfl⟩
  · rw [ControlState.auditsOf, ControlState.auditsOf, haudits]
  · rw [Machine.recorded, auditsOf_record]
    split
    · rename_i ht
      rw [ht]
      exact List.prefix_append _ _
    · exact List.prefix_refl _

theorem audited_run {marks : List Mark} (h : Run (Change world) m marks m')
    (ha : Audited world m.plane) : Extends m m' ∧ Audited world m'.plane :=
  Run.related (R := Extends) (I := fun m => Audited world m.plane) (fun _ _ => List.prefix_refl _)
    (fun _ _ _ => Extends.trans) (fun _ _ _ ha hc => hc.audited ha) (fun _ _ _ _ hc => hc.extends) h ha

theorem audited_start : Audited world ({} : Machine).plane := fun _ => ⟨.nil, rfl⟩

/-- In every run, every tenant's chain verifies and only grows. Where digests do not collide, the
recorded list is the only one that verifies against the recorded head. -/
theorem ControlPlane.audit_chain {es fs : List ControlEvent} (h : ControlRun world {} es m)
    (h' : ControlRun world m fs m') :
    (∀ tenant, verifyAuditChain world m'.plane tenant = .ok true) ∧
      (∀ tenant, m.plane.auditsOf tenant <+: m'.plane.auditsOf tenant) ∧
      (Function.Injective world.crypto.sha256 → ∀ tenant events,
        verifyAuditChain world { m'.plane with audits := m'.plane.audits.insert tenant events } tenant =
          .ok true → events = m'.plane.auditsOf tenant) := by
  obtain ⟨_, _, hpast⟩ := h.changes
  obtain ⟨_, _, hrest⟩ := h'.changes
  obtain ⟨hgrows, haudited⟩ := audited_run hrest (audited_run hpast audited_start).2
  refine ⟨fun tenant => (verifyAuditChain_true _ _).mpr (haudited tenant), hgrows,
    fun collisionFree tenant events hverified => ?_⟩
  obtain ⟨hchain, hhead⟩ := (verifyAuditChain_true _ _).mp hverified
  have hevents : ControlState.auditsOf
      { m'.plane with audits := m'.plane.audits.insert tenant events } tenant = events := by
    simp [ControlState.auditsOf]
  rw [hevents] at hchain hhead
  exact hchain.unique collisionFree (haudited tenant).1 (hhead.symm.trans (haudited tenant).2)

end

/-- The state after a suspension of the tenant. -/
def suspendedState : ControlState :=
  (served sampleWorld {} [.suspendTenant "tenant" sampleAdmin true]).2.plane

theorem ControlPlane.audit_chain_sample :
    verifyAuditChain sampleWorld suspendedState "tenant" = .ok true ∧
      ∀ events, verifyAuditChain sampleWorld
          { suspendedState with audits := suspendedState.audits.insert "tenant" events } "tenant" =
            .ok true → events = suspendedState.auditsOf "tenant" := by
  have h := ControlPlane.audit_chain (.nil _)
    (served_run sampleWorld {} [.suspendTenant "tenant" sampleAdmin true])
  exact ⟨h.1 "tenant", h.2.2 (fun _ _ he => he) "tenant"⟩

end TraceGuard
