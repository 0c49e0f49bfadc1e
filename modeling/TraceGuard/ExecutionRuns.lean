import TraceGuard.ControlRuns

/-! The changes that the execution authority's operations make, and those of any run. -/
namespace TraceGuard
open Stateful Traces ControlPlane ExecutionAuthority

namespace ExecutionAuthority
variable {world : World} {m m' : Machine}

theorem register_changes {tenant : String} {actor : Actor} {registration : TaskRegistration}
    {r : Except ServiceError String}
    (h : outcome (register world tenant actor registration) m = (r, m')) :
    ∃ marks, Emits (.register tenant actor registration) (r.map .digest) marks ∧
      Run (Change world) m marks m' := by
  unfold register at h
  by_cases hd : registration.authority.delegatedFields.entries≠[]
  · rw [if_pos hd] at h
    obtain ⟨rfl, rfl⟩ := Prod.mk.inj h
    exact ⟨[], .refused, .nil _⟩
  · rw [if_neg hd] at h
    rcases inspect_bind h with ⟨e, _, rfl, rfl⟩ | ⟨compiled, _, h⟩
    · exact ⟨[], .refused, .nil _⟩
    · rcases inspect_bind h with ⟨e, _, rfl, rfl⟩ | ⟨_, hguard, h⟩
      · exact ⟨[], .refused, .nil _⟩
      · obtain ⟨_, hrole, hguard⟩ := Raising.bind_ok hguard
        obtain ⟨habsent, _⟩ := Raising.guard_ok hguard
        obtain ⟨rfl, rfl⟩ := Prod.mk.inj h
        exact ⟨_, .registered, .cons (.registered hrole (by simpa using habsent))
          (.single (.recorded _ _ _ _))⟩

theorem bindLegacyDomain_changes {tenant taskId domain : String} {actor : Actor} {fenced : Bool}
    {r : Except ServiceError Unit}
    (h : outcome (bindLegacyDomain world tenant actor taskId domain fenced) m = (r, m')) :
    ∃ marks, Emits (.bindLegacyDomain tenant actor taskId domain fenced) (r.map fun _ => .done) marks ∧
      Run (Change world) m marks m' := by
  unfold bindLegacyDomain at h
  by_cases hd : fenced = false ∨ domain="" ∨ 128<domain.length
  · rw [if_pos hd] at h
    obtain ⟨rfl, rfl⟩ := Prod.mk.inj h
    exact ⟨[], .refused, .nil _⟩
  · rw [if_neg hd] at h
    rcases inspect_bind h with ⟨e, _, rfl, rfl⟩ | ⟨task, hguard, h⟩
    · exact ⟨[], .refused, .nil _⟩
    · obtain ⟨_, hrole, hguard⟩ := Raising.bind_ok hguard
      cases hfound : m.plane.executionTasks.get? [tenant, taskId] with
      | none => rw [hfound] at hguard; cases hguard
      | some found =>
        rw [hfound] at hguard
        obtain ⟨hlegacy, hguard⟩ := Raising.guard_ok hguard
        cases hguard
        obtain ⟨rfl, rfl⟩ := Prod.mk.inj h
        exact ⟨_, .bound, .cons (.bound hrole hfound (not_not.mp hlegacy)
          fun hempty => hd (Or.inr (Or.inl hempty))) (.single (.recorded _ _ _ _))⟩

theorem validate_changes {self : ExecutionAuthority} {executor : Actor} {action : ActionRequest}
    {grant : ExecutionGrant} {r : Except ServiceError Unit}
    (h : outcome (self.validate world executor action grant) m = (r, m')) :
    ∃ marks, Emits (.validate self executor action grant) (r.map fun _ => .done) marks ∧
      Run (Change world) m marks m' := by
  unfold validate at h
  rw [now_bind, inspect, outcome_check] at h
  obtain ⟨rfl, rfl⟩ := Prod.mk.inj h
  have hdrew : Run (Change world) m [.drew] { m with readings := m.readings+1 } :=
    .single (.drew 1 0)
  cases self.admissible world m.plane executor action grant (world.clock m.readings) with
  | error e => exact ⟨_, .late, hdrew⟩
  | ok _ => exact ⟨_, .validated, hdrew⟩

/-- What `_task` has checked. -/
structure TaskAllows (world : World) (s : ControlState) (actor : Actor) (action : ActionRequest)
    (task : RegisteredTask) : Prop where
  role : s.require actor .agent action.tenantId = .ok ()
  typed : action.kind=.tool
  found : s.executionTasks.get? [action.tenantId, action.taskId] = some task
  subject : actor.subject = task.principal
  credential : actor.serviceKeyId = some task.credential
  domain : task.executionDomain≠""
  allowed : ∃ verdict, task.compiled.evaluate world.platform world.crypto "" (toolCall action) [] =
    .ok verdict ∧ verdict.decision=.allow

theorem raise_ok {α : Type} {x : Except PyError α} {a : α} (h : raise x = .ok a) : x = .ok a := by
  cases x with
  | error e => cases h
  | ok b => exact congrArg _ (Except.ok.inj h)

theorem taskFor_ok {s : ControlState} {actor : Actor} {action : ActionRequest} {task : RegisteredTask}
    (h : taskFor world s actor action = .ok task) : TaskAllows world s actor action task := by
  obtain ⟨_, hrole, h⟩ := Raising.bind_ok h
  obtain ⟨htyped, h⟩ := Raising.guard_ok h
  cases hfound : s.executionTasks.get? [action.tenantId, action.taskId] with
  | none => rw [hfound] at h; cases h
  | some found =>
    rw [hfound] at h
    obtain ⟨hprincipal, h⟩ := Raising.guard_ok h
    obtain ⟨hdomain, h⟩ := Raising.guard_ok h
    obtain ⟨verdict, hverdict, h⟩ := Raising.bind_ok h
    obtain ⟨hallowed, h⟩ := Raising.guard_ok h
    cases h
    obtain ⟨hsubject, hcredential⟩ := Prod.mk.inj (not_not.mp hprincipal)
    exact ⟨hrole, not_not.mp htyped, hfound, hsubject, hcredential, hdomain, verdict,
      raise_ok hverdict, not_not.mp hallowed⟩

/-- An issuance that returned a grant: its evaluation, and the state `now` that permits it. -/
structure Issued (world : World) (issuer : ExecutionAuthority) (actor : Actor) (action : ActionRequest)
    (audience : String) (reviewId : Option String) (m : Machine) (grant : ExecutionGrant)
    (m' : Machine) where
  task : RegisteredTask
  decision : DecisionResponse
  evaluated : Machine
  readings : Nat
  review : Option Review
  draft : ExecutionGrant
  allows : TaskAllows world m.plane actor action task
  evaluation : outcome (ControlPlane.evaluate world actor action) m = (.ok decision, evaluated)
  permitted : Permitted world { evaluated with readings := evaluated.readings+readings } actor action
    decision reviewId review
  made : draftGrant world evaluated.plane actor action audience task
    (world.uuid evaluated.identifiers) (world.clock (evaluated.readings+readings))
    (world.clock (evaluated.readings+readings+1)) = .ok draft
  signs : grant = issuer.signed world draft
  ends : m' = Machine.recorded world
    ⟨recordGrant evaluated.plane grant review, evaluated.readings+readings+2, evaluated.identifiers+1⟩
    action.tenantId "execution.granted" actor.subject (grantPayload grant reviewId)

theorem permitIssue_cases {actor : Actor} {action : ActionRequest} {decision : DecisionResponse}
    {reviewId : Option String} {r : Except ServiceError (Option Review)}
    (h : outcome (permitIssue world actor action decision reviewId) m = (r, m')) :
    ∃ k, m' = { m with readings := m.readings+k } ∧
      ∀ review, r = .ok review → Permitted world m' actor action decision reviewId review := by
  unfold permitIssue at h
  cases hd : decision.decision with
  | escalate =>
    rw [hd] at h
    rw [now_bind] at h
    rcases inspect_bind h with ⟨e, _, rfl, rfl⟩ | ⟨review, hgranting, h⟩
    · exact ⟨1, rfl, fun _ he => by cases he⟩
    · obtain ⟨rfl, rfl⟩ := Prod.mk.inj h
      refine ⟨1, rfl, fun _ he => ?_⟩
      cases he
      exact ⟨hd, m.readings, Nat.lt_succ_self _, hgranting⟩
  | allow =>
    rw [hd] at h
    obtain ⟨rfl, rfl⟩ := Prod.mk.inj h
    refine ⟨0, rfl, fun _ he => ?_⟩
    cases he
    exact hd
  | block =>
    rw [hd] at h
    obtain ⟨rfl, rfl⟩ := Prod.mk.inj h
    exact ⟨0, rfl, fun _ he => by cases he⟩
  | rewrite =>
    rw [hd] at h
    obtain ⟨rfl, rfl⟩ := Prod.mk.inj h
    exact ⟨0, rfl, fun _ he => by cases he⟩

theorem issue_cases {self : ExecutionAuthority} {actor : Actor} {action : ActionRequest}
    {audience : String} {reviewId : Option String} {r : Except ServiceError ExecutionGrant}
    (h : outcome (self.issue world actor action audience reviewId) m = (r, m')) :
    (∃ e r' marks, r = .error e ∧ Evaluated r' marks ∧ Run (Change world) m (marks++[.drew]) m') ∨
      ∃ grant, r = .ok grant ∧ Nonempty (Issued world self actor action audience reviewId m grant m') := by
  have hstill (n : Machine) (i j : Nat) :
      Run (Change world) n [.drew] ⟨n.plane, n.readings+i, n.identifiers+j⟩ := .single (.drew i j)
  unfold issue at h
  rcases inspect_bind h with ⟨e, _, rfl, rfl⟩ | ⟨task, htask, h⟩
  · exact Or.inl ⟨e, .error e, [], rfl, .refused, hstill m' 0 0⟩
  · rcases bind_cases h with ⟨e, heval, rfl⟩ | ⟨decision, evaluated, heval, h⟩
    · obtain ⟨marks, hmarks, hrun⟩ := evaluate_changes heval
      exact Or.inl ⟨e, _, marks, rfl, hmarks, hrun.append (hstill m' 0 0)⟩
    · obtain ⟨marks, hmarks, hrun⟩ := evaluate_changes heval
      rcases bind_cases h with ⟨e, hpermit, rfl⟩ | ⟨review, u, hpermit, h⟩
      · obtain ⟨k, rfl, _⟩ := permitIssue_cases hpermit
        exact Or.inl ⟨e, _, marks, rfl, hmarks, hrun.append (hstill evaluated k 0)⟩
      · obtain ⟨k, rfl, hpermitted⟩ := permitIssue_cases hpermit
        rw [now_bind, uuid4_bind, now_bind] at h
        rcases inspect_bind h with ⟨e, _, rfl, rfl⟩ | ⟨draft, hdraft, h⟩
        · exact Or.inl ⟨e, _, marks, rfl, hmarks, hrun.append (hstill evaluated (k+1+1) 1)⟩
        · obtain ⟨rfl, rfl⟩ := Prod.mk.inj h
          exact Or.inr ⟨_, rfl, ⟨task, decision, evaluated, k, review, draft, taskFor_ok htask, heval,
            hpermitted review rfl, hdraft, rfl, rfl⟩⟩

theorem issued_of_step {authority : ExecutionAuthority} {actor : Actor} {action : ActionRequest}
    {audience : String} {reviewId : Option String} {grant : ExecutionGrant}
    (h : ControlStep world m (.issue authority actor action audience reviewId, .ok (.granted grant)) m') :
    Nonempty (Issued world authority actor action audience reviewId m grant m') := by
  unfold ControlStep at h
  rw [serve, outcome_map] at h
  obtain ⟨hreturned, hm⟩ := Prod.mk.inj h
  obtain ⟨_, hissue, hgrant⟩ := Raising.map_ok hreturned
  cases hgrant
  rcases issue_cases (Prod.ext hissue hm) with ⟨_, _, _, he, _⟩ | ⟨_, hok, hissued⟩
  · cases he
  · cases hok
    exact hissued

theorem Issued.changes {self : ExecutionAuthority} {actor : Actor} {action : ActionRequest}
    {audience : String} {reviewId : Option String} {grant : ExecutionGrant}
    (i : Issued world self actor action audience reviewId m grant m') {marks : List Mark}
    (hmarks : Evaluated (.ok i.decision) marks) (hrun : Run (Change world) m marks i.evaluated) :
    ∃ event, Run (Change world) m
      (marks++[.drew, .granted actor action grant i.review, .recorded event]) m' := by
  obtain ⟨task, decision, evaluated, readings, review, draft, allows, _, permitted, made, rfl, rfl⟩ := i
  have htasks := (minor_run hrun hmarks.minor).tasks
  have hgranted : Change world { evaluated with readings := evaluated.readings+readings }
      (.granted actor action (self.signed world draft) review) _ :=
    .granted (htasks ▸ allows.found) ⟨allows.subject, allows.credential⟩ allows.domain permitted made
  exact ⟨_, hrun.append (.cons (.drew readings 0) (.cons hgranted (.single (.recorded _ _ _ _))))⟩

theorem issue_changes {self : ExecutionAuthority} {actor : Actor} {action : ActionRequest}
    {audience : String} {reviewId : Option String} {r : Except ServiceError ExecutionGrant}
    (h : outcome (self.issue world actor action audience reviewId) m = (r, m')) :
    ∃ marks, Emits (.issue self actor action audience reviewId) (r.map .granted) marks ∧
      Run (Change world) m marks m' := by
  rcases issue_cases h with ⟨e, r', marks, rfl, hmarks, hrun⟩ | ⟨grant, rfl, ⟨i⟩⟩
  · exact ⟨_, .unissued hmarks, hrun⟩
  · obtain ⟨marks, hmarks, hrun⟩ := evaluate_changes i.evaluation
    obtain ⟨event, hall⟩ := i.changes hmarks hrun
    exact ⟨_, .issued hmarks, hall⟩

end ExecutionAuthority

section
variable {world : World} {m m' : Machine}

/-- The history and the last state of a list of requests. -/
def served (world : World) (m : Machine) : List ControlRequest → List ControlEvent × Machine
  | [] => ([], m)
  | q :: qs =>
    let next := outcome (serve world q) m
    let rest := served world next.2 qs
    ((q, next.1) :: rest.1, rest.2)

/-- The requests have a run; what holds of each of them in every state holds at every step. -/
theorem served_where {P : Machine → ControlRequest → Prop} (world : World) (m : Machine)
    {qs : List ControlRequest} (h : ∀ q∈qs, ∀ m, P m q) :
    Run (fun m e m' => ControlStep world m e m' ∧ P m e.1) m (served world m qs).1
      (served world m qs).2 := by
  induction qs generalizing m with
  | nil => exact .nil _
  | cons q qs ih =>
    have hstep : ControlStep world m (q, (outcome (serve world q) m).1) (outcome (serve world q) m).2 :=
      rfl
    exact .cons ⟨hstep, h q List.mem_cons_self m⟩ (ih _ fun q' hq' => h q' (List.mem_cons_of_mem _ hq'))

theorem served_run (world : World) (m : Machine) (qs : List ControlRequest) :
    ControlRun world m (served world m qs).1 (served world m qs).2 :=
  (served_where (P := fun _ _ => True) world m fun _ _ _ => trivial).mono fun _ _ _ h => h.1

/-- Every operation, also one that raises, makes a run of changes. -/
theorem ControlStep.changes {e : ControlEvent} (h : ControlStep world m e m') :
    ∃ marks, Emits e.1 e.2 marks ∧ Run (Change world) m marks m' := by
  obtain ⟨q, r⟩ := e
  unfold ControlStep at h
  cases q <;> rw [serve, outcome_map] at h <;> obtain ⟨rfl, rfl⟩ := Prod.mk.inj h
  case revokeCredential => exact revokeCredential_changes rfl
  case suspendTenant => exact suspendTenant_changes rfl
  case createDraft => exact createDraft_changes rfl
  case submitPolicy => exact submitPolicy_changes rfl
  case approvePolicy => exact approvePolicy_changes rfl
  case rollback => exact rollback_changes rfl
  case evaluate =>
    obtain ⟨marks, hmarks, hrun⟩ := evaluate_changes rfl
    exact ⟨marks, .evaluated hmarks, hrun⟩
  case resolveReview => exact resolveReview_changes rfl
  case register => exact register_changes rfl
  case bindLegacyDomain => exact bindLegacyDomain_changes rfl
  case issue => exact issue_changes rfl
  case validate => exact validate_changes rfl

/-- The changes of a history of operations, in order. -/
inductive Traced : List ControlEvent → List Mark → Prop
  | nil : Traced [] []
  | snoc {es : List ControlEvent} {marks marks' : List Mark} {e : ControlEvent} (past : Traced es marks)
      (last : Emits e.1 e.2 marks') : Traced (es++[e]) (marks++marks')

/-- The operation that made a change, and what came before and after it. -/
theorem Traced.split {es : List ControlEvent} {marks a b : List Mark} {mark : Mark}
    (h : Traced es marks) (hmarks : marks = a++mark :: b) :
    ∃ es₁ e es₂ a₁ a₂ b₁, es = es₁++e :: es₂ ∧ Traced es₁ a₁ ∧ a = a₁++a₂ ∧
      Emits e.1 e.2 (a₂++mark :: b₁) := by
  induction h generalizing b with
  | nil => simp at hmarks
  | @snoc es past marks' e htraced last ih =>
    rcases List.append_eq_append_iff.mp hmarks with ⟨c, rfl, rfl⟩ | ⟨c, rfl, hc⟩
    · exact ⟨es, e, [], past, c, b, rfl, htraced, rfl, last⟩
    · cases c with
      | nil =>
        obtain rfl : marks' = mark :: b := by simpa using hc.symm
        exact ⟨es, e, [], a, [], b, rfl, by simpa using htraced, by simp, last⟩
      | cons x c =>
        obtain ⟨rfl, -⟩ := List.cons.inj hc
        obtain ⟨es₁, e', es₂, a₁, a₂, b₁, rfl, hrest⟩ := ih rfl
        exact ⟨es₁, e', es₂++[e], a₁, a₂, b₁, by simp, hrest⟩

/-- Only these operations submit or activate a policy. -/
theorem Emits.submitted_by {q : ControlRequest} {r : Except ServiceError ControlResponse}
    {marks : List Mark} {actor : Actor} {tenant policyId : String} (h : Emits q r marks)
    (hm : Mark.submitted actor tenant policyId∈marks) :
    q = .submitPolicy tenant actor policyId ∧ (∃ policy, r = .ok (.policy policy)) ∧
      ∃ event, marks = [.submitted actor tenant policyId, .recorded event] := by
  cases h with
  | evaluated changes => cases changes.minor _ hm
  | unissued changes | issued changes =>
    rcases List.mem_append.mp hm with hm | hm
    · cases changes.minor _ hm
    · simp at hm
  | submitted =>
    obtain ⟨rfl, rfl, rfl⟩ : actor=_ ∧ tenant=_ ∧ policyId=_ := by simpa using hm
    exact ⟨rfl, ⟨_, rfl⟩, _, rfl⟩
  | _ => simp at hm

theorem Emits.activated_by {q : ControlRequest} {r : Except ServiceError ControlResponse}
    {marks : List Mark} {actor : Actor} {tenant policyId : String} {restored : Bool}
    (h : Emits q r marks) (hm : Mark.activated actor tenant policyId restored∈marks) :
    q = (if restored then .rollback tenant actor policyId else .approvePolicy tenant actor policyId) ∧
      (∃ policy, r = .ok (.policy policy)) ∧
      ∃ event, marks = [.activated actor tenant policyId restored, .recorded event] := by
  cases h with
  | evaluated changes => cases changes.minor _ hm
  | unissued changes | issued changes =>
    rcases List.mem_append.mp hm with hm | hm
    · cases changes.minor _ hm
    · simp at hm
  | approved | restored =>
    obtain ⟨rfl, rfl, rfl, rfl⟩ : actor=_ ∧ tenant=_ ∧ policyId=_ ∧ restored=_ := by simpa using hm
    exact ⟨rfl, ⟨_, rfl⟩, _, rfl⟩
  | _ => simp at hm

theorem Emits.resolved_by {q : ControlRequest} {r : Except ServiceError ControlResponse}
    {marks : List Mark} {actor : Actor} {review : Review} {resolution : ReviewResolution}
    (h : Emits q r marks) (hm : Mark.resolved actor review resolution∈marks) :
    ∃ tenant reviewId reason after, q = .resolveReview tenant actor reviewId resolution reason ∧
      r = .ok (.reviewed after) := by
  cases h with
  | evaluated changes => cases changes.minor _ hm
  | unissued changes | issued changes =>
    rcases List.mem_append.mp hm with hm | hm
    · cases changes.minor _ hm
    · simp at hm
  | resolved =>
    obtain ⟨rfl, rfl, rfl⟩ : actor=_ ∧ review=_ ∧ resolution=_ := by simpa using hm
    exact ⟨_, _, _, _, rfl, rfl⟩
  | _ => simp at hm

theorem Emits.granted_by {q : ControlRequest} {r : Except ServiceError ControlResponse}
    {marks : List Mark} {actor : Actor} {action : ActionRequest} {grant : ExecutionGrant}
    {review : Option Review} (h : Emits q r marks)
    (hm : Mark.granted actor action grant review∈marks) :
    ∃ authority audience reviewId, q = .issue authority actor action audience reviewId ∧
      r = .ok (.granted grant) := by
  cases h with
  | evaluated changes => cases changes.minor _ hm
  | unissued changes =>
    rcases List.mem_append.mp hm with hm | hm
    · cases changes.minor _ hm
    · simp at hm
  | issued changes =>
    rcases List.mem_append.mp hm with hm | hm
    · cases changes.minor _ hm
    · obtain ⟨rfl, rfl, rfl, rfl⟩ : actor=_ ∧ action=_ ∧ grant=_ ∧ review=_ := by simpa using hm
      exact ⟨_, _, _, rfl, rfl⟩
  | _ => simp at hm

/-- A successful approval or rollback activates its policy. -/
theorem Emits.activation {q : ControlRequest} {response : ControlResponse} {marks : List Mark}
    {actor : Actor} {tenant policyId : String} (h : Emits q (.ok response) marks)
    (hq : q = .approvePolicy tenant actor policyId ∨ q = .rollback tenant actor policyId) :
    ∃ restored, Mark.activated actor tenant policyId restored∈marks := by
  rcases hq with rfl | rfl <;> cases h <;> exact ⟨_, List.mem_cons_self⟩

theorem ControlRun.changes {es : List ControlEvent} (h : ControlRun world m es m') :
    ∃ marks, Traced es marks ∧ Run (Change world) m marks m' := by
  induction h with
  | nil => exact ⟨[], .nil, .nil _⟩
  | snoc past last ih =>
    obtain ⟨marks, htraced, hrun⟩ := ih
    obtain ⟨marks', hemits, hrun'⟩ := last.changes
    exact ⟨_, .snoc htraced hemits, hrun.append hrun'⟩

end

/-- A world whose clock stands still, where texts are their own digests and signatures. -/
def sampleWorld : World where
  platform := {
    search := fun _ _ => false
    sub := fun _ _ text => text
    casefold := id
    str := fun _ => ""
    sum := fun _ => some .zero
    validates := fun _ _ => .ok true
    findall := fun _ _ => []
    groups := fun _ _ => none
    spans := fun _ _ _ => none
    fullmatch := fun _ _ => false
    urlsplit := fun _ => none
    idna := fun _ => none
    ipv6 := fun _ => false
    unquote := id }
  crypto := ⟨id, id, fun _ text => text, fun _ text signature => text=signature⟩
  clock _ := ⟨0, Instant.zero_range⟩
  uuid n := String.ofList (List.replicate n 'i')
  fresh := fun i j h => by simpa using congrArg (fun s => s.toList.length) h

def sampleAdmin : Actor := ⟨"admin", [.admin], none, ["tenant"], none⟩

end TraceGuard
