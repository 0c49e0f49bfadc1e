import TraceGuard.GrantText
import TraceGuard.PolicyLifecycle

/-! The history of an execution grant on record, and of its tenant's epoch and its task. -/
namespace TraceGuard
open Stateful Traces ControlPlane ExecutionAuthority ControlState

variable {world : World} {m m' : Machine}

/-- The operation gave the tenant a new authority. -/
def advances (tenant : String) : ControlEvent → Bool
  | (.approvePolicy tenant' _ _, .ok _) | (.rollback tenant' _ _, .ok _)
  | (.revokeCredential tenant' _ _, .ok _) | (.suspendTenant tenant' _ _, .ok _) => tenant'=tenant
  | _ => false

/-- The operation gave the task an execution domain. -/
def rebinds (tenant taskId : String) : ControlEvent → Bool
  | (.bindLegacyDomain tenant' _ taskId' _ _, .ok _) => tenant'=tenant && taskId'=taskId
  | _ => false

/-- The change gives the tenant a new authority. -/
def Mark.advances (tenant : String) : Mark → Bool
  | .activated _ tenant' _ _ | .revoked _ tenant' _ | .suspension _ tenant' _ => tenant'=tenant
  | _ => false

theorem Change.advances {tenant : String} {mark : Mark} (h : Change world m mark m')
    (hm : mark.advances tenant = true) : m'.plane.epoch tenant = m.plane.epoch tenant+1 := by
  cases h with
  | revoked | suspension =>
    obtain rfl : _ = tenant := of_decide_eq_true hm
    exact (epoch_advance _ _ _).trans (if_pos rfl)
  | approved | restored =>
    obtain rfl : _ = tenant := of_decide_eq_true hm
    exact (epoch_advance _ _ _).trans (if_pos rfl)
  | _ => cases hm

@[simp] theorem advances_error (tenant : String) (q : ControlRequest) (e : ServiceError) :
    advances tenant (q, .error e) = false := by
  cases q <;> rfl

@[simp] theorem rebinds_error (tenant taskId : String) (q : ControlRequest) (e : ServiceError) :
    rebinds tenant taskId (q, .error e) = false := by
  cases q <;> rfl

theorem Emits.advances {tenant : String} {e : ControlEvent} {marks : List Mark} (h : Emits e.1 e.2 marks)
    (he : advances tenant e = true) :
    ∃ mark event, marks = [mark, .recorded event] ∧ mark.advances tenant = true := by
  obtain ⟨q, r⟩ := e
  cases h with
  | revoked | suspension | approved | restored => exact ⟨_, _, rfl, he⟩
  | refused | late =>
    rw [advances_error] at he
    cases he
  | _ => cases he

theorem epoch_of_advances {tenant : String} {e : ControlEvent} (h : ControlStep world m e m')
    (he : advances tenant e = true) : m.plane.epoch tenant < m'.plane.epoch tenant := by
  obtain ⟨marks, hemits, hrun⟩ := h.changes
  obtain ⟨mark, event, rfl, hmark⟩ := hemits.advances he
  obtain ⟨u, hfirst, hlast⟩ := hrun.pair
  have hnext := hfirst.advances hmark
  have hmono := (hlast.policiesKept tenant).epoch
  omega

theorem epoch_run (tenant : String) {es : List ControlEvent} (h : ControlRun world m es m') :
    m.plane.epoch tenant ≤ m'.plane.epoch tenant := by
  obtain ⟨_, _, hrun⟩ := ControlRun.changes h
  exact (policiesKept_run tenant hrun).epoch

/-- While the epoch stays, no operation of the run advances it. -/
theorem quiet_of_epoch {tenant : String} {es : List ControlEvent} (h : ControlRun world m es m')
    (same : m'.plane.epoch tenant = m.plane.epoch tenant) : ∀ e∈es, advances tenant e = false := by
  intro e he
  obtain ⟨a, b, rfl⟩ := List.append_of_mem he
  rw [Bool.eq_false_iff]
  intro hadvances
  obtain ⟨u, hbefore, hrest⟩ := Run.split h
  obtain ⟨v, hone, hafter⟩ := Run.split (show Run _ u ([e]++b) m' from hrest)
  have h1 := epoch_run tenant hbefore
  have h2 := epoch_of_advances hone.step_single hadvances
  have h3 := epoch_run tenant hafter
  omega

/-- A grant on record was there before, or is new; a new execution domain drops a task's grants. -/
theorem Change.issued_cases {mark : Mark} {nonce text : String} (h : Change world m mark m')
    (hget : m'.plane.executionIssued.get? nonce = some text) :
    (m.plane.executionIssued.get? nonce = some text ∧ ∀ actor tenant taskId domain,
        mark = .bound actor tenant taskId domain → grantedTask text≠some (tenant, taskId)) ∨
      ∃ actor action grant review, mark = .granted actor action grant review ∧ grant.dumpJson=text := by
  cases h with
  | bound =>
    refine Or.inl ?_
    change (m.plane.executionIssued.filter _).get? nonce = some text at hget
    rw [SortedMap.get?_filter] at hget
    obtain ⟨hold, hkept⟩ := Option.filter_eq_some_iff.mp hget
    refine ⟨hold, fun actor tenant taskId domain hmark => ?_⟩
    cases hmark
    simpa using hkept
  | @granted self actor action audience decision reviewId review task draft =>
    rw [recordGrant_eq, SortedMap.get?_insert] at hget
    split at hget
    · exact Or.inr ⟨_, _, _, _, rfl, Option.some.inj hget⟩
    · exact Or.inl ⟨hget, fun _ _ _ _ hmark => by cases hmark⟩
  | _ => exact Or.inl ⟨hget, fun _ _ _ _ hmark => by cases hmark⟩

theorem issued_run {marks : List Mark} {nonce text : String} (h : Run (Change world) m marks m')
    (hget : m'.plane.executionIssued.get? nonce = some text) :
    (m.plane.executionIssued.get? nonce = some text ∧ ∀ actor tenant taskId domain,
        .bound actor tenant taskId domain∈marks → grantedTask text≠some (tenant, taskId)) ∨
      ∃ actor action grant review, .granted actor action grant review∈marks ∧ grant.dumpJson=text := by
  induction h with
  | nil => exact Or.inl ⟨hget, fun _ _ _ _ hmem => by cases hmem⟩
  | snoc past last ih =>
    rcases last.issued_cases hget with ⟨hmiddle, hlast⟩ | ⟨actor, action, grant, review, rfl, ht⟩
    · rcases ih hmiddle with ⟨hfirst, hpast⟩ | ⟨actor, action, grant, review, hmem, ht⟩
      · refine Or.inl ⟨hfirst, fun actor tenant taskId domain hmem => ?_⟩
        rcases List.mem_append.mp hmem with hmem | hmem
        · exact hpast actor tenant taskId domain hmem
        · exact hlast actor tenant taskId domain (List.mem_singleton.mp hmem).symm
      · exact Or.inr ⟨actor, action, grant, review, List.mem_append_left _ hmem, ht⟩
    · exact Or.inr ⟨actor, action, grant, review, by simp, ht⟩

theorem Emits.rebinds {tenant taskId : String} {e : ControlEvent} {marks : List Mark}
    (h : Emits e.1 e.2 marks) (he : rebinds tenant taskId e = true) :
    ∃ actor domain, .bound actor tenant taskId domain∈marks := by
  obtain ⟨q, r⟩ := e
  cases h with
  | bound =>
    obtain ⟨rfl, rfl⟩ : _=tenant ∧ _=taskId := by simpa [TraceGuard.rebinds] using he
    exact ⟨_, _, List.mem_cons_self⟩
  | refused | late =>
    rw [rebinds_error] at he
    cases he
  | _ => cases he

/-- An earlier operation of the run issued the grant, and its task has kept its domain since. -/
inductive IssuedIn (world : World) (grant : ExecutionGrant) : List ControlEvent → Machine → Prop
  | intro {a b : List ControlEvent} {m₀ m₁ m : Machine} {authority : ExecutionAuthority} {actor : Actor}
      {action : ActionRequest} {audience : String} {reviewId : Option String}
      (before : ControlRun world {} a m₀)
      (issue : ControlStep world m₀
        (.issue authority actor action audience reviewId, .ok (.granted grant)) m₁)
      (after : ControlRun world m₁ b m)
      (kept : ∀ e∈b, rebinds grant.tenantId grant.taskId e = false) :
      IssuedIn world grant
        (a++(.issue authority actor action audience reviewId, .ok (.granted grant)) :: b) m

theorem issued_history {es : List ControlEvent} (h : ControlRun world {} es m) :
    ∀ nonce text, m.plane.executionIssued.get? nonce = some text →
      ∃ grant, grant.dumpJson=text ∧ IssuedIn world grant es m := by
  refine Run.invariant (I := fun es m => ∀ nonce text,
    m.plane.executionIssued.get? nonce = some text →
      ∃ grant, grant.dumpJson=text ∧ IssuedIn world grant es m) ?_ ?_ h
  · intro nonce text hget
    cases hget
  · intro es t e u past ih hstep nonce text hget
    obtain ⟨marks, hemits, hrun⟩ := hstep.changes
    rcases issued_run hrun hget with ⟨hold, hbound⟩ | ⟨actor, action, grant, review, hmem, ht⟩
    · obtain ⟨grant, rfl, hissued⟩ := ih nonce text hold
      obtain @⟨a, b, m₀, m₁, _, authority, actor, action, audience, reviewId, hbefore, hissue, hafter,
        hkept⟩ := hissued
      refine ⟨grant, rfl, ?_⟩
      rw [List.append_assoc, List.cons_append]
      refine .intro hbefore hissue (.snoc hafter hstep) fun e' he' => ?_
      rcases List.mem_append.mp he' with he' | he'
      · exact hkept e' he'
      · rw [List.mem_singleton.mp he', Bool.eq_false_iff]
        intro hrebinds
        obtain ⟨actor', domain, hmem⟩ := hemits.rebinds hrebinds
        exact hbound _ _ _ _ hmem grant.grantedTask_dumpJson
    · obtain ⟨authority, audience, reviewId, hq, hr⟩ := hemits.granted_by hmem
      obtain ⟨q, r⟩ := e
      obtain rfl : q = .issue authority actor action audience reviewId := hq
      obtain rfl : r = .ok (.granted grant) := hr
      exact ⟨grant, ht, .intro past hstep (.nil _) (by simp)⟩

/-- A task with an execution domain is kept as it is. -/
theorem Change.task_kept {mark : Mark} {key : List String} {task : RegisteredTask}
    (h : Change world m mark m') (hget : m.plane.executionTasks.get? key = some task)
    (domain : task.executionDomain≠"") : m'.plane.executionTasks.get? key = some task := by
  cases h with
  | registered _ absent =>
    refine (SortedMap.get?_insert_ne _ _ ?_).trans hget
    rintro rfl
    rw [absent] at hget
    cases hget
  | bound _ found legacy =>
    refine (SortedMap.get?_insert_ne _ _ ?_).trans hget
    rintro rfl
    rw [found] at hget
    cases hget
    exact domain legacy
  | granted =>
    rw [recordGrant_eq]
    exact hget
  | _ => exact hget

theorem task_run {marks : List Mark} {key : List String} {task : RegisteredTask}
    (h : Run (Change world) m marks m') (hget : m.plane.executionTasks.get? key = some task)
    (domain : task.executionDomain≠"") : m'.plane.executionTasks.get? key = some task := by
  induction h with
  | nil => exact hget
  | snoc past last ih => exact last.task_kept ih domain

end TraceGuard
