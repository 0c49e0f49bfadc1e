import TraceGuard.Executor

/-! Any interleaving of `execute` calls follows the reservation protocol, so the provider is
called once for a nonce and for a key, and never while an earlier call of the task is open. -/
namespace TraceGuard.MediatedExecutor
open Traces ExecutionLedger Dispatching

def Phase.hold : Phase → Hold
  | .reserved _ r | .rejected _ r | .cleared _ r => .holding r
  | .dispatching _ r | .returned _ r _ => .calling r
  | .idle | .authorizing _ | .ready .. | .done _ | .crashed => .free

def System.site (s : System) : Site := ⟨s.db, fun id => (s.calls id).hold⟩

def action : Input × Output → Option Action
  | (.reserve id _, .reserving r) => some (.reserve id r)
  | (.dispatch id, .dispatched _ r) => some (.dispatch id r)
  | (.finish id, _) => some (.close id)
  | (.crash id, _) => some (.crash id)
  | (.reconcile _ v, .reconciled row) => some (.reconcile v row)
  | _ => none

theorem site_set (s : System) (id : Nat) (phase : Phase) :
    (s.set id phase).site = s.site.set id phase.hold := by
  refine congrArg (Site.mk s.db) (funext fun id' => ?_)
  by_cases hid : id'=id
  · subst hid
    simp [System.set]
  · simp [System.set, hid, System.site]

theorem site_db (s : System) (db : Database) (id : Nat) (phase : Phase) :
    (({ s with db := db } : System).set id phase).site =
      ({ s.site with db := db } : Site).set id phase.hold :=
  site_set { s with db := db } id phase

/-- A step inside a call leaves the site as it is. -/
theorem site_set_same {s : System} {id : Nat} {phase : Phase}
    (h : phase.hold = (s.calls id).hold) : (s.set id phase).site = s.site := by
  rw [site_set, h]
  exact congrArg (Site.mk s.db) (Function.update_eq_self id _)

theorem admitted_hold (crypto : Crypto) (q : Request) (now : Instant) :
    (admitted crypto q now).hold = .free := by
  unfold admitted
  split <;> rfl

theorem validated_hold (crypto : Crypto) (q : Request) (accepted : Bool) :
    (validated crypto q accepted).hold = .free := by
  unfold validated
  split
  · split <;> rfl
  · rfl

theorem completion_hold {phase : Phase} {q : Request} {r : Reservation} {c : Completion}
    (h : completion phase = some (q, r, c)) :
    (phase.hold = .holding r ∧ c.status=.notDispatched ∧ c.result=none) ∨
      (phase.hold = .calling r ∧ c.status≠.notDispatched) := by
  unfold completion at h
  split at h
  · cases h
    exact Or.inl ⟨rfl, rfl, rfl⟩
  · cases h
    exact Or.inr ⟨rfl, by simp⟩
  · cases h
    exact Or.inr ⟨rfl, by simp⟩
  · cases h

/-- The ledger event of a `finish`, also when it raises. -/
theorem finish_step {ledger : ExecutionLedger} {db : Database} {nonce : String} {c : Completion} :
    (∀ next, ledger.finish nonce c.status c.result c.disposition db = .ok next →
      ExecutionLedger.Step db
        ⟨ledger, .rowid, .finish nonce c.status c.result c.disposition, .ok .done⟩ next) ∧
    ∀ e, ledger.finish nonce c.status c.result c.disposition db = .error e →
      ExecutionLedger.Step db
        ⟨ledger, .rowid, .finish nonce c.status c.result c.disposition, .error e⟩ db := by
  constructor <;> intro x hx <;> simp [ExecutionLedger.Step, exec, hx, Except.map]

theorem close_step {s : Site} {id : Nat} {r : Reservation} {c : Completion} {e : ExecutionLedger.Event}
    {db : Database} (hold : (s.workers id = .holding r ∧ c.status=.notDispatched ∧ c.result=none) ∨
      (s.workers id = .calling r ∧ c.status≠.notDispatched))
    (call : e.call=.finish r.nonce c.status c.result c.disposition)
    (step : ExecutionLedger.Step s.db e db) :
    Dispatching.Step s (.close id) (({ s with db := db } : Site).set id .free) := by
  rcases hold with ⟨hw, hs, hr⟩ | ⟨hw, hs⟩
  · rw [hs, hr] at call
    exact .released hw call step
  · exact .completed hw hs call step

theorem reserve_step {ledger : ExecutionLedger} {scan : Scan} {r : Reservation} {db next : Database}
    {reply : Option Replay} (h : ledger.reserve scan r db = .ok (reply, next)) :
    ExecutionLedger.Step db ⟨ledger, scan, .reserve r, .ok (.reserved reply)⟩ next := by
  simp [ExecutionLedger.Step, exec, h, Except.map]

/-- Every step of the executors is a step of the protocol, or invisible to it. -/
theorem step_refines {crypto : Crypto} {re : Re} {s t : System} {e : Input × Output}
    (h : Step crypto re s e t) :
    (∃ a, action e = some a ∧ Dispatching.Step s.site a t.site) ∨
      (action e = none ∧ t.site=s.site) := by
  obtain ⟨input, output⟩ := e
  unfold Step at h
  cases input with
  | begin id q now =>
    simp only [next] at h
    split at h
    · rename_i hc
      cases h
      exact Or.inr ⟨rfl, site_set_same (by rw [admitted_hold, hc]; rfl)⟩
    · cases h
  | validated id accepted =>
    simp only [next] at h
    split at h
    · rename_i hc
      cases h
      exact Or.inr ⟨rfl, site_set_same (by rw [validated_hold, hc]; rfl)⟩
    · cases h
  | reserve id scan =>
    simp only [next] at h
    split at h
    · rename_i q r hc
      have hfree : s.site.workers id = .free := by simp [System.site, hc, Phase.hold]
      split at h
      · rename_i db hr
        cases h
        refine Or.inl ⟨.reserve id r, rfl, ?_⟩
        rw [site_db]
        exact .reserved hfree rfl rfl (reserve_step hr)
      · rename_i replay db hr
        cases h
        refine Or.inl ⟨.reserve id r, rfl, ?_⟩
        rw [site_db]
        exact .refused hfree rfl (by simp) (reserve_step hr)
      · rename_i err hr
        cases h
        refine Or.inl ⟨.reserve id r, rfl, ?_⟩
        rw [site_set]
        refine .refused (e := ⟨q.self.ledger, scan, .reserve r, .error err⟩) hfree rfl (by simp) ?_
        simp [ExecutionLedger.Step, exec, hr, Except.map, System.site]
    · cases h
  | revalidated id accepted =>
    simp only [next] at h
    split at h
    · rename_i q r hc
      cases h
      refine Or.inr ⟨rfl, site_set_same ?_⟩
      rw [hc]
      split <;> rfl
    · cases h
  | dispatch id =>
    simp only [next] at h
    split at h
    · rename_i q r hc
      cases h
      refine Or.inl ⟨.dispatch id r, rfl, ?_⟩
      rw [site_set]
      exact .dispatch (by simp [System.site, hc, Phase.hold])
    · cases h
  | answered id result =>
    simp only [next] at h
    split at h
    · rename_i q r hc
      cases h
      exact Or.inr ⟨rfl, site_set_same (by rw [hc]; rfl)⟩
    · cases h
  | finish id =>
    simp only [next] at h
    split at h
    · rename_i q r c hc
      refine Or.inl ⟨.close id, rfl, ?_⟩
      have hold := completion_hold hc
      split at h
      · rename_i db hf
        cases h
        rw [site_db]
        exact close_step (s := s.site) hold rfl (finish_step.1 db hf)
      · rename_i err hf
        cases h
        rw [site_set]
        exact close_step (s := s.site) hold rfl (finish_step.2 err hf)
    · cases h
  | crash id =>
    simp only [next, Option.some.injEq, Prod.mk.injEq] at h
    obtain ⟨rfl, rfl⟩ := h
    exact Or.inl ⟨.crash id, rfl, by rw [site_set]; exact .crash _ _⟩
  | reconcile ledger v =>
    simp only [next] at h
    split at h
    · rename_i row db hr
      cases h
      refine Or.inl ⟨.reconcile v row, rfl, ?_⟩
      refine .reconcile (e := ⟨ledger, .rowid, .reconcile v, .ok (.reconciled row)⟩) rfl rfl ?_
      simp [ExecutionLedger.Step, exec, hr, Except.map, System.site]
    · cases h

/-! Which request a reservation was made for. -/

def requests (es : List (Input × Output)) : List Request :=
  es.filterMap fun
    | (.begin _ q _, _) => some q
    | _ => none

/-- The invocations of `dispatch`, in order. -/
def dispatched (es : List (Input × Output)) : List (Request × Reservation) :=
  es.filterMap fun
    | (.dispatch _, .dispatched q r) => some (q, r)
    | _ => none

/-- The rows that operators settled. -/
def settled (es : List (Input × Output)) : List Execution :=
  es.filterMap fun
    | (.reconcile .., .reconciled row) => some row
    | _ => none

def Request.Books (crypto : Crypto) (q : Request) (r : Reservation) : Prop :=
  q.self.reservation crypto q.principal q.action q.grant = .ok r

def Phase.Booked (crypto : Crypto) (qs : List Request) : Phase → Prop
  | .authorizing q => q∈qs
  | .ready q r | .reserved q r | .rejected q r | .cleared q r | .dispatching q r
  | .returned q r _ => q∈qs ∧ q.Books crypto r
  | .idle | .done _ | .crashed => True

def Output.Booked (crypto : Crypto) (qs : List Request) : Output → Prop
  | .reserving r => ∃ q∈qs, q.Books crypto r
  | .dispatched q r => q∈qs ∧ q.Books crypto r
  | .quiet | .reconciled _ => True

structure Booked (crypto : Crypto) (es : List (Input × Output)) (s : System) : Prop where
  calls : ∀ id, (s.calls id).Booked crypto (requests es)
  outputs : ∀ e∈es, e.2.Booked crypto (requests es)

theorem Phase.Booked.mono {crypto : Crypto} {qs qs' : List Request} (h : qs⊆qs') {p : Phase}
    (hp : p.Booked crypto qs) : p.Booked crypto qs' := by
  cases p with
  | idle | done | crashed => trivial
  | authorizing q => exact h hp
  | ready | reserved | rejected | cleared | dispatching | returned => exact ⟨h hp.1, hp.2⟩

theorem Output.Booked.mono {crypto : Crypto} {qs qs' : List Request} (h : qs⊆qs') {o : Output}
    (ho : o.Booked crypto qs) : o.Booked crypto qs' := by
  cases o with
  | quiet | reconciled => trivial
  | reserving r => exact ho.imp fun q hq => ⟨h hq.1, hq.2⟩
  | dispatched q r => exact ⟨h ho.1, ho.2⟩

theorem requests_append (es : List (Input × Output)) (e : Input × Output) :
    requests es ⊆ requests (es++[e]) := by
  simp [requests, List.filterMap_append]

theorem Booked.step {crypto : Crypto} {es : List (Input × Output)} {s t : System}
    {e : Input × Output} (h : Booked crypto es s) (id : Nat) {phase : Phase}
    (hother : ∀ id', id'≠id → t.calls id' = s.calls id') (hthis : t.calls id = phase)
    (hphase : phase.Booked crypto (requests (es++[e])))
    (hout : e.2.Booked crypto (requests (es++[e]))) : Booked crypto (es++[e]) t := by
  constructor
  · intro id'
    by_cases hid : id'=id
    · subst hid
      rwa [hthis]
    · rw [hother id' hid]
      exact (h.calls id').mono (requests_append es e)
  · intro e' he'
    rw [List.mem_append, List.mem_singleton] at he'
    rcases he' with hold | rfl
    · exact (h.outputs e' hold).mono (requests_append es e)
    · exact hout

/-- A step that moves one call. -/
theorem Booked.set {crypto : Crypto} {es : List (Input × Output)} {s : System} (db : Database)
    {e : Input × Output} (h : Booked crypto es s) {id : Nat} {phase : Phase}
    (hphase : phase.Booked crypto (requests (es++[e])))
    (hout : e.2.Booked crypto (requests (es++[e]))) :
    Booked crypto (es++[e]) (({ s with db := db } : System).set id phase) :=
  h.step id (fun id' hid => by simp [System.set, hid]) (by simp [System.set]) hphase hout

theorem validated_booked {crypto : Crypto} {qs : List Request} {q : Request} (accepted : Bool)
    (h : q∈qs) : (validated crypto q accepted).Booked crypto qs := by
  unfold validated
  split
  · split
    · rename_i r hr
      exact ⟨h, hr⟩
    · trivial
  · trivial

theorem step_booked {crypto : Crypto} {re : Re} {es : List (Input × Output)} {s t : System}
    {e : Input × Output} (hb : Booked crypto es s) (h : Step crypto re s e t) :
    Booked crypto (es++[e]) t := by
  obtain ⟨input, output⟩ := e
  have here (id : Nat) : (s.calls id).Booked crypto (requests (es++[(input, output)])) :=
    (hb.calls id).mono (requests_append es _)
  unfold Step at h
  cases input with
  | begin id q now =>
    simp only [next] at h
    split at h
    · cases h
      refine hb.set s.db ?_ trivial
      unfold admitted
      split
      · simp [Phase.Booked, requests]
      · trivial
    · cases h
  | validated id accepted =>
    have hid := here id
    simp only [next] at h
    split at h
    · rename_i q hc
      rw [hc] at hid
      cases h
      exact hb.set s.db (validated_booked accepted hid) trivial
    · cases h
  | reserve id scan =>
    have hid := here id
    simp only [next] at h
    split at h
    · rename_i q r hc
      rw [hc] at hid
      split at h
      · cases h
        exact hb.set _ hid ⟨q, hid⟩
      · cases h
        exact hb.set _ trivial ⟨q, hid⟩
      · cases h
        exact hb.set s.db trivial ⟨q, hid⟩
    · cases h
  | revalidated id accepted =>
    have hid := here id
    simp only [next] at h
    split at h
    · rename_i q r hc
      rw [hc] at hid
      cases h
      refine hb.set s.db ?_ trivial
      split <;> exact hid
    · cases h
  | dispatch id =>
    have hid := here id
    simp only [next] at h
    split at h
    · rename_i q r hc
      rw [hc] at hid
      cases h
      exact hb.set s.db hid hid
    · cases h
  | answered id result =>
    have hid := here id
    simp only [next] at h
    split at h
    · rename_i q r hc
      rw [hc] at hid
      cases h
      exact hb.set s.db hid trivial
    · cases h
  | finish id =>
    simp only [next] at h
    split at h
    · split at h
      · cases h
        exact hb.set _ trivial trivial
      · cases h
        exact hb.set s.db trivial trivial
    · cases h
  | crash id =>
    simp only [next, Option.some.injEq, Prod.mk.injEq] at h
    obtain ⟨rfl, rfl⟩ := h
    exact hb.set s.db trivial trivial
  | reconcile ledger v =>
    simp only [next] at h
    split at h
    · cases h
      exact hb.step 0 (fun _ _ => rfl) rfl (here 0) trivial
    · cases h

end TraceGuard.MediatedExecutor
