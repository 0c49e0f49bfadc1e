import TraceGuard.ExecutorRuns

/-! When `dispatch` is invoked: once for a grant, once for a key, once for an effect that no
grant repeats, and not while an earlier call of the task is uncertain. -/
namespace TraceGuard.MediatedExecutor
open Traces ExecutionLedger Dispatching Raising

def fresh (db : Database) : System := ⟨db, fun _ => .idle⟩

/-- What a reservation carries over from its request. -/
theorem Request.Books.fields {crypto : Crypto} {q : Request} {r : Reservation}
    (h : q.Books crypto r) :
    r.nonce=q.grant.nonce ∧ r.idempotencyKey=q.action.idempotencyKey ∧
      r.effectDigest=crypto.effectDigest q.action ∧ r.repeatable=q.grant.repeatable ∧
      r.scope=⟨q.action.tenantId, q.principal.subject, q.principal.serviceKeyId.getD "",
        q.action.taskId⟩ := by
  obtain ⟨amount, -, h⟩ := bind_ok h
  split_ifs at h
  cases h
  exact ⟨rfl, rfl, rfl, rfl, rfl⟩

def Request.inTask (tenant task : String) (q : Request) : Bool :=
  q.action.tenantId=tenant && q.action.taskId=task

def Request.hasEffect (crypto : Crypto) (tenant task effect : String) (q : Request) : Bool :=
  q.inTask tenant task && crypto.effectDigest q.action=effect

theorem Request.Books.inTask {crypto : Crypto} {q : Request} {r : Reservation}
    (h : q.Books crypto r) (tenant task : String) :
    ExecutionLedger.inTask tenant task (pendingRow r) = q.inTask tenant task := by
  have hscope : (pendingRow r).scope=_ := h.fields.2.2.2.2
  simp [ExecutionLedger.inTask, hscope, Request.inTask]

theorem Request.Books.ofEffect {crypto : Crypto} {q : Request} {r : Reservation}
    (h : q.Books crypto r) (tenant task effect : String) :
    Dispatching.ofEffect tenant task effect (pendingRow r).toReserved =
      q.hasEffect crypto tenant task effect := by
  have hscope : (pendingRow r).scope=_ := h.fields.2.2.2.2
  have heffect : (pendingRow r).effectDigest=_ := h.fields.2.2.1
  simp [Dispatching.ofEffect, hscope, heffect, Request.hasEffect, Request.inTask]

section
variable {crypto : Crypto} {re : Re} {storeId : String} {db : Database}
  {es : List (Input × Output)} {s : System}

theorem run_booked (h : Run (Step crypto re) (fresh db) es s) : Booked crypto es s := by
  refine h.invariant (I := Booked crypto) ?_ fun _ _ _ _ _ hi hs => step_booked hi hs
  exact ⟨fun _ => trivial, by simp⟩

theorem run_site (h : Run (Step crypto re) (fresh db) es s) :
    Run Dispatching.Step (start db) (es.filterMap action) s.site :=
  Run.simulate System.site (fun _ _ _ hs => step_refines hs) h

theorem dispatched_action (es : List (Input × Output)) :
    Dispatching.dispatched (es.filterMap action) = (dispatched es).map Prod.snd := by
  simp only [Dispatching.dispatched, dispatched, List.filterMap_filterMap, List.map_filterMap]
  refine List.filterMap_congr fun e _ => ?_
  obtain ⟨input, output⟩ := e
  cases input <;> cases output <;> rfl

theorem mem_dispatched {d : Request × Reservation} :
    d∈dispatched es ↔ ∃ id, (.dispatch id, .dispatched d.1 d.2)∈es := by
  simp only [dispatched, List.mem_filterMap]
  constructor
  · rintro ⟨e, he, hd⟩
    split at hd <;> cases hd
    exact ⟨_, he⟩
  · rintro ⟨id, he⟩
    exact ⟨_, he, rfl⟩

theorem dispatched_books (h : Run (Step crypto re) (fresh db) es s) {d : Request × Reservation}
    (hd : d∈dispatched es) : d.1.Books crypto d.2 := by
  obtain ⟨id, he⟩ := mem_dispatched.mp hd
  exact ((run_booked h).outputs _ he).2

theorem dispatched_request (h : Run (Step crypto re) (fresh db) es s) {r : Reservation}
    (hr : r∈Dispatching.dispatched (es.filterMap action)) :
    ∃ q, (q, r)∈dispatched es ∧ q.Books crypto r := by
  rw [dispatched_action] at hr
  obtain ⟨⟨q, r⟩, hd, rfl⟩ := List.mem_map.mp hr
  exact ⟨q, hd, dispatched_books h hd⟩

theorem settled_action (es : List (Input × Output)) {v : Resolution} {row : Execution}
    (h : .reconcile v row∈es.filterMap action) : row∈settled es := by
  obtain ⟨e, he, ha⟩ := List.mem_filterMap.mp h
  refine List.mem_filterMap.mpr ⟨e, he, ?_⟩
  unfold action at ha
  split at ha <;> cases ha
  rfl

theorem reserve_action (h : Run (Step crypto re) (fresh db) es s) {id : Nat} {r : Reservation}
    (hr : .reserve id r∈es.filterMap action) : ∃ q∈requests es, q.Books crypto r := by
  obtain ⟨e, he, ha⟩ := List.mem_filterMap.mp hr
  have hout := (run_booked h).outputs e he
  unfold action at ha
  split at ha <;> cases ha
  exact hout

/-- Two invocations that agree on a finer name are one invocation. -/
theorem dispatched_nodup {α β : Type} {key : Reservation → α}
    (hk : ((Dispatching.dispatched (es.filterMap action)).map key).Nodup) (f : Request → β)
    (hf : ∀ d∈dispatched es, ∀ d'∈dispatched es, f d.1 = f d'.1 → key d.2 = key d'.2) :
    ((dispatched es).map fun d => f d.1).Nodup := by
  rw [dispatched_action, List.map_map] at hk
  exact nodup_of_key (fun d => f d.1) hk hf

theorem dispatched_nonce (hp : provision storeId = .ok db)
    (h : Run (Step crypto re) (fresh db) es s) :
    ((dispatched es).map fun d => d.1.grant.nonce).Nodup := by
  refine dispatched_nodup (run_owned hp (run_site h)).once (fun q => q.grant.nonce)
    fun d hd d' hd' he => ?_
  rw [(dispatched_books h hd).fields.1, (dispatched_books h hd').fields.1]
  exact he

/-- The name under which a caller may not repeat an action. -/
def Request.key (q : Request) : String × String × Option String × String × String :=
  (q.action.tenantId, q.principal.subject, q.principal.serviceKeyId, q.action.taskId,
    q.action.idempotencyKey)

theorem dispatched_key (hp : provision storeId = .ok db)
    (h : Run (Step crypto re) (fresh db) es s) :
    ((dispatched es).map fun d => d.1.key).Nodup := by
  refine dispatched_nodup (run_owned hp (run_site h)).once_per_key Request.key
    fun d hd d' hd' he => ?_
  obtain ⟨-, hkey, -, -, hscope⟩ := (dispatched_books h hd).fields
  obtain ⟨-, hkey', -, -, hscope'⟩ := (dispatched_books h hd').fields
  simp only [Request.key, Prod.mk.injEq] at he
  rw [hkey, hkey', hscope, hscope']
  simp [he]

theorem dispatched_effect (hp : provision storeId = .ok db)
    (h : Run (Step crypto re) (fresh db) es s) {tenant task effect : String}
    (hrep : ∀ q∈requests es, q.hasEffect crypto tenant task effect = true →
      q.grant.repeatable=false)
    (hdeny : ∀ row∈settled es, ofEffect tenant task effect row.toReserved = true →
      row.status≠.notDispatched) :
    (dispatched es).countP (fun d => d.1.hasEffect crypto tenant task effect)≤1 := by
  have hex : ∀ a∈es.filterMap action, Exclusive tenant task effect a := by
    refine fun a ha => ⟨fun id r he hr => ?_, fun v row he => ?_⟩
    · subst he
      obtain ⟨q, hq, hb⟩ := reserve_action h ha
      rw [hb.ofEffect] at hr
      exact hb.fields.2.2.2.1.trans (hrep q hq hr)
    · subst he
      exact hdeny row (settled_action es ha)
  have hone := (run_oneLive hp (run_site h) hex).once
  rw [dispatched_action, List.countP_map] at hone
  refine le_trans (List.countP_mono_left fun d hd he => ?_) hone
  simpa [(dispatched_books h hd).ofEffect] using he

/-- At an invocation, the row of every earlier invocation of the task is settled. -/
theorem dispatched_hold (hp : provision storeId = .ok db)
    (h : Run (Step crypto re) (fresh db) es s) {tenant task : String}
    (hrec : ∀ row∈settled es, ExecutionLedger.inTask tenant task row = false)
    {id : Nat} {q : Request} {r : Reservation} {t : System}
    (hs : Step crypto re s (.dispatch id, .dispatched q r) t)
    (hq : q.inTask tenant task = true) {d : Request × Reservation} (hd : d∈dispatched es)
    (ht : d.1.inTask tenant task = true) :
    ∃ row∈s.db.executions.rows, row.nonce=d.1.grant.nonce ∧
      row.status≠.pending ∧ row.status≠.unknown := by
  have hw : Waits tenant task (es.filterMap action) s.site := by
    refine run_waits hp (run_site h) fun a ha v row he => ?_
    subst he
    exact hrec row (settled_action es ha)
  have hbooks : q.Books crypto r := (dispatched_books (h.snoc hs)
    (d := (q, r)) (mem_dispatched.mpr ⟨id, by simp⟩))
  have hhold : s.site.workers id = .holding r := by
    simp only [Step, next] at hs
    split at hs
    · rename_i hc
      cases hs
      simp [System.site, hc, Phase.hold]
    · cases hs
  have hdr : d.2∈Dispatching.dispatched (es.filterMap action) := by
    rw [dispatched_action]
    exact List.mem_map_of_mem hd
  have hbd := dispatched_books h hd
  obtain ⟨row, hrow, hsame, hset⟩ := hw.settled hhold (by rw [hbooks.inTask, hq]) hdr
    (by rw [hbd.inTask, ht])
  exact ⟨row, hrow, (congrArg Reserved.nonce hsame : row.nonce=d.2.nonce).trans hbd.fields.1, hset⟩

/-- Single use under every interleaving and crash. -/
theorem mediated_dispatch (hp : provision storeId = .ok db)
    (h : Run (Step crypto re) (fresh db) es s) :
    ((dispatched es).map fun d => d.1.grant.nonce).Nodup ∧
    ((dispatched es).map fun d => d.1.key).Nodup ∧
    (∀ tenant task effect,
      (∀ q∈requests es, q.hasEffect crypto tenant task effect = true → q.grant.repeatable=false) →
      (∀ row∈settled es, ofEffect tenant task effect row.toReserved = true →
        row.status≠.notDispatched) →
      (dispatched es).countP (fun d => d.1.hasEffect crypto tenant task effect)≤1) ∧
    ∀ tenant task, (∀ row∈settled es, ExecutionLedger.inTask tenant task row = false) →
      ∀ id q r t, Step crypto re s (.dispatch id, .dispatched q r) t →
        q.inTask tenant task = true → ∀ d∈dispatched es, d.1.inTask tenant task = true →
          ∃ row∈s.db.executions.rows, row.nonce=d.1.grant.nonce ∧
            row.status≠.pending ∧ row.status≠.unknown := by
  refine ⟨dispatched_nonce hp h, dispatched_key hp h, fun tenant task effect hrep hdeny =>
    dispatched_effect hp h hrep hdeny, ?_⟩
  intro tenant task hrec id q r t hs hq d hd ht
  exact dispatched_hold hp h hrec hs hq hd ht

end

/-! One call on fixed inputs, from its start to its stored receipt. -/

def sampleCrypto : Crypto := ⟨fun _ => "digest", id, fun _ _ => "signature", fun _ _ _ => true⟩

def sampleRe : Re := ⟨fun _ _ => false, fun _ _ text => text⟩

def sampleExecutor : MediatedExecutor where
  identity := { subject := "executor", roles := [.executor], serviceKeyId := some "executor-key" }
  separate := by decide
  publicKey := "public"
  keyId := "execution-ed25519-v1"
  adapterDigest := "adapter"
  ledger := sampleLedger

def sampleGrant : ExecutionGrant where
  nonce := "nonce"
  tenantId := "tenant"
  taskId := "task"
  agentSubject := "agent"
  serviceKeyId := "agent-key"
  audience := "executor"
  executionDomain := "store"
  actionDigest := "digest"
  authorityDigest := "authority"
  adapterDigest := "adapter"
  policyId := "policy"
  policyEpoch := 1
  issuedAt := .utc ⟨0, Instant.zero_range⟩
  expiresAt := .utc ⟨60000000, by decide⟩
  keyId := "execution-ed25519-v1"
  signature := "signature"

def samplePrincipal : Actor where
  subject := "agent"
  roles := [.agent]
  serviceKeyId := some "agent-key"
  tenantIds := ["tenant"]

def sampleAction : ActionRequest where
  tenantId := "tenant"
  idempotencyKey := "key-0001"
  taskId := "task"
  actionId := "action"
  kind := .tool
  operation := "send_email"

def sampleCall : Request := ⟨sampleExecutor, samplePrincipal, sampleAction, sampleGrant⟩

def sampleBooking : Reservation where
  scope := ⟨"tenant", "agent", "agent-key", "task"⟩
  nonce := "nonce"
  idempotencyKey := "key-0001"
  digest := "digest"
  effectDigest := "digest"
  resultPolicy := "sanitized-receipt-v1:adapter"

def sampleBooked : Database :=
  { sampleStart with executions := ⟨[pendingRow sampleBooking], by decide, by decide⟩ }

theorem sample_admitted : admitted sampleCrypto sampleCall ⟨0, by decide⟩ = .authorizing sampleCall :=
  if_pos (by decide)

theorem sample_validated :
    validated sampleCrypto sampleCall true = .ready sampleCall sampleBooking := rfl

def sampleReady : System := (fresh sampleStart).set 0 (.ready sampleCall sampleBooking)

theorem sample_ready : Run (Step sampleCrypto sampleRe) (fresh sampleStart)
    [(.begin 0 sampleCall ⟨0, by decide⟩, .quiet), (.validated 0 true, .quiet)] sampleReady := by
  refine .cons (t := (fresh sampleStart).set 0 (.authorizing sampleCall)) ?_ (.single ?_)
  · exact congrArg (fun phase => some ((fresh sampleStart).set 0 phase, Output.quiet)) sample_admitted
  · have hset : ((fresh sampleStart).set 0 (.authorizing sampleCall)).set 0
        (.ready sampleCall sampleBooking) = sampleReady := by
      simp [System.set, sampleReady]
    rw [← hset]
    rfl

def sampleEvents : List (Input × Output) :=
  [(.begin 0 sampleCall ⟨0, by decide⟩, .quiet), (.validated 0 true, .quiet),
    (.reserve 0 .rowid, .reserving sampleBooking), (.revalidated 0 true, .quiet),
    (.dispatch 0, .dispatched sampleCall sampleBooking)]

theorem sample_dispatched : Run (Step sampleCrypto sampleRe) (fresh sampleStart) sampleEvents
    (({ sampleReady with db := sampleBooked }.set 0 (.reserved sampleCall sampleBooking)).set 0
      (.cleared sampleCall sampleBooking) |>.set 0 (.dispatching sampleCall sampleBooking)) :=
  sample_ready.append (.cons rfl (.cons rfl (.single rfl)))

theorem mediated_dispatch_sample :
    ((dispatched sampleEvents).map fun d => d.1.grant.nonce).Nodup ∧
      (dispatched sampleEvents).countP
        (fun d => d.1.hasEffect sampleCrypto "tenant" "task" "digest")≤1 := by
  have h := mediated_dispatch sample_provision sample_dispatched
  refine ⟨h.1, h.2.2.1 "tenant" "task" "digest" ?_ (by simp [settled, sampleEvents])⟩
  simp [requests, sampleEvents, sampleCall, sampleGrant]

end TraceGuard.MediatedExecutor
