import TraceGuard.Dispatching

/-! Whole runs of the reservation protocol: one call for each nonce and each key, one live row
for an effect nobody may repeat, and a hold on the task while a call is uncertain. -/
namespace TraceGuard.Dispatching
open Traces ExecutionLedger

/-! What a held row's status can become. -/

theorem stored_row {db : Database} {r : Reservation} {p : Status → Prop} (h : Stored db r p)
    {row : Execution} (hrow : row∈db.executions.rows) (hn : row.nonce=r.nonce) :
    row.toReserved=(pendingRow r).toReserved ∧ p row.status := by
  obtain ⟨row', hrow', hsame, hp⟩ := h
  have hn' : row'.nonce=r.nonce := congrArg Reserved.nonce hsame
  obtain rfl := db.executions.eq_of_nonce hrow hrow' (hn.trans hn'.symm)
  exact ⟨hsame, hp⟩

theorem Stored.step {db db' : Database} {e : Event} {r : Reservation} {p : Status → Prop}
    (h : Stored db r p) (hs : ExecutionLedger.Step db e db')
    (ht : ∀ status, targets e.call = some (r.nonce, status) → p status) :
    Stored db' r p := by
  obtain ⟨row, hrow, hsame, hp⟩ := h
  obtain ⟨row', hrow', hsame', hst⟩ := step_status hs hrow
  have hn : row.nonce=r.nonce := congrArg Reserved.nonce hsame
  refine ⟨row', hrow', hsame'.trans hsame, ?_⟩
  rcases hst with he | he
  · exact he ▸ hp
  · exact ht row'.status (hn ▸ he)

/-- The reconciliations of an action leave the rows of a reservation at a status in `p`. -/
def Spares (p : Status → Prop) (r : Reservation) (a : Action) : Prop :=
  ∀ v row, a=.reconcile v row → row.toReserved=(pendingRow r).toReserved → p row.status

theorem Stored.reconciled {db db' : Database} {e : Event} {r : Reservation} {p : Status → Prop}
    {v : Resolution} {row : Execution} (h : Stored db r p)
    (hs : ExecutionLedger.Step db e db') (hcall : e.call=.reconcile v)
    (hok : e.outcome=.ok (.reconciled row)) (spare : Spares p r (.reconcile v row)) :
    Stored db' r p := by
  obtain ⟨hmem, hn, hst⟩ := step_reconciled hs hcall hok
  refine h.step hs fun status ht => ?_
  simp only [hcall, targets, Option.some.injEq, Prod.mk.injEq] at ht
  have hkept : Stored db' r fun _ => True := by
    obtain ⟨row, hrow, hsame, -⟩ := h
    exact Stored.keep ⟨row, hrow, hsame, trivial⟩ (step_keepsRows hs)
  have hrow := (stored_row hkept hmem (hn.trans ht.1)).1
  exact ht.2 ▸ hst ▸ spare v row rfl hrow

/-- What holds of a pending row and is spared by the operator holds while the row is owned. -/
theorem step_held {es : List Action} {s t : Site} {a : Action} {p : Status → Prop}
    {id : Nat} {r : Reservation} (h : Owned es s) (hs : Step s a t) (start : p .pending)
    (spare : Spares p r a) (ho : (t.workers id).Owns r)
    (before : (s.workers id).Owns r → Stored s.db r p) :
    Stored t.db r p := by
  -- another worker's completion names another nonce
  have others {id' : Nat} {r' : Reservation} {db : Database} {e : Event} {status : Status}
      {result : Option String} {disposition : Disposition} (hown : (s.workers id').Owns r')
      (call : e.call=.finish r'.nonce status result disposition)
      (step : ExecutionLedger.Step s.db e db)
      (ho : ((({ s with db := db } : Site).set id' .free).workers id).Owns r) :
      Stored db r p := by
    have hid : id≠id' := by
      rintro rfl
      rw [Site.set_same] at ho
      cases ho
    rw [Site.set_other _ _ hid] at ho
    refine (before ho).step step fun status ht => ?_
    simp only [call, targets, Option.some.injEq, Prod.mk.injEq] at ht
    exact absurd (h.apart id id' r r' ho hown ht.1.symm) hid
  cases hs with
  | @reserved id' r' e db idle call fresh step =>
    by_cases hid : id=id'
    · subst hid
      rw [Site.set_same] at ho
      cases ho
      exact ⟨pendingRow r, by simp [(step_reserved step call fresh).1], rfl, start⟩
    · rw [Site.set_other _ _ hid] at ho
      exact (before ho).step step (by simp [call, targets])
  | @refused id' r' e db idle call other step =>
    have hid : id≠id' := by
      rintro rfl
      rw [Site.set_same] at ho
      cases ho
    rw [Site.set_other _ _ hid] at ho
    exact (before ho).step step (by simp [call, targets])
  | @dispatch id' r' held =>
    by_cases hid : id=id'
    · subst hid
      rw [Site.set_same] at ho
      cases ho
      exact before (held ▸ .holding r)
    · rw [Site.set_other _ _ hid] at ho
      exact before ho
  | released held call step => exact others (held ▸ .holding _) call step ho
  | completed busy kept call step => exact others (busy ▸ .calling _) call step ho
  | crash id' =>
    have hid : id≠id' := by
      rintro rfl
      rw [Site.set_same] at ho
      cases ho
    rw [Site.set_other _ _ hid] at ho
    exact before ho
  | reconcile call done step => exact (before ho).reconciled step call done spare

/-- A started call keeps a row that is live, unless an operator denies it. -/
theorem step_called {es : List Action} {s t : Site} {a : Action} {d : Reservation}
    (h : Owned es s) (hs : Step s a t) (spare : Spares (·≠.notDispatched) d a)
    (hd : d∈dispatched es) (before : Stored s.db d (·≠.notDispatched)) :
    Stored t.db d (·≠.notDispatched) := by
  cases hs with
  | reserved idle call fresh step => exact before.step step (by simp [call, targets])
  | refused idle call other step => exact before.step step (by simp [call, targets])
  | dispatch held => exact before
  | released held call step =>
    refine before.step step fun status ht => ?_
    simp only [call, targets, Option.some.injEq, Prod.mk.injEq] at ht
    exact absurd ht.1.symm (h.ahead _ _ held d hd)
  | completed busy kept call step =>
    refine before.step step fun status ht => ?_
    simp only [call, targets, Option.some.injEq, Prod.mk.injEq] at ht
    exact ht.2 ▸ kept
  | crash id => exact before
  | reconcile call done step => exact before.reconciled step call done spare

/-! Whole runs. -/

def start (db : Database) : Site := ⟨db, fun _ => .free⟩

theorem start_owned {storeId : String} {db : Database} (hp : provision storeId = .ok db) :
    Owned [] (start db) := by
  refine ⟨provision_sound hp, ?_, by simp [dispatched], ?_, ?_, by simp [dispatched]⟩
  · intro id r ho
    cases ho
  · intro id id' r r' ho
    cases ho
  · intro id r hh
    cases hh

theorem run_owned {storeId : String} {db : Database} {es : List Action} {s : Site}
    (hp : provision storeId = .ok db) (h : Run Step (start db) es s) : Owned es s :=
  h.invariant (I := Owned) (start_owned hp) fun _ _ _ _ _ hi hs => step_owned hi hs

/-- What separates members more finely than a key without repetition has none either. -/
theorem nodup_of_key {α β γ : Type} {xs : List α} {key : α → β} (f : α → γ)
    (h : (xs.map key).Nodup) (hf : ∀ x∈xs, ∀ y∈xs, f x = f y → key x = key y) :
    (xs.map f).Nodup := by
  refine List.Nodup.map_on (fun x hx y hy he => ?_) (List.Nodup.of_map _ h)
  exact List.inj_on_of_nodup_map h hx hy (hf x hx y hy he)

/-- One call for each nonce, and one for each key. -/
theorem Owned.once_per_key {es : List Action} {s : Site} (h : Owned es s) :
    ((dispatched es).map fun d => (d.scope, d.idempotencyKey)).Nodup := by
  refine nodup_of_key _ h.once fun d hd d' hd' he => ?_
  obtain ⟨row, hrow, hsame, -⟩ := h.called d hd
  obtain ⟨row', hrow', hsame', -⟩ := h.called d' hd'
  have hk : (row.scope, row.idempotencyKey)=(row'.scope, row'.idempotencyKey) := by
    have h1 : (row.scope, row.idempotencyKey)=(d.scope, d.idempotencyKey) :=
      congrArg (fun x : Reserved => (x.scope, x.idempotencyKey)) hsame
    have h2 : (row'.scope, row'.idempotencyKey)=(d'.scope, d'.idempotencyKey) :=
      congrArg (fun x : Reserved => (x.scope, x.idempotencyKey)) hsame'
    exact h1.trans (he.trans h2.symm)
  obtain rfl := List.inj_on_of_nodup_map s.db.executions.uniqueKey hrow hrow' hk
  exact congrArg Reserved.nonce (hsame.symm.trans hsame')

/-! One effect of a task. -/

def ofEffect (tenant task effect : String) (r : Reserved) : Bool :=
  r.scope.tenant=tenant && r.scope.task=task && r.effectDigest=effect

/-- Reservations of the effect are not repeatable, and no operator denies one of its rows. -/
def Exclusive (tenant task effect : String) (a : Action) : Prop :=
  (∀ id r, a=.reserve id r → ofEffect tenant task effect (pendingRow r).toReserved = true →
      r.repeatable=false) ∧
    ∀ v row, a=.reconcile v row → ofEffect tenant task effect row.toReserved = true →
      row.status≠.notDispatched

structure OneLive (tenant task effect : String) (es : List Action) (s : Site) : Prop where
  owned : Owned es s
  single : ∀ row∈s.db.executions.rows, ∀ row'∈s.db.executions.rows,
    ofEffect tenant task effect row.toReserved = true →
    ofEffect tenant task effect row'.toReserved = true →
    live row = true → live row' = true → row.nonce=row'.nonce
  held : ∀ id r, (s.workers id).Owns r →
    ofEffect tenant task effect (pendingRow r).toReserved = true → Stored s.db r (·≠.notDispatched)
  called : ∀ d∈dispatched es, ofEffect tenant task effect (pendingRow d).toReserved = true →
    Stored s.db d (·≠.notDispatched)

/-- Where a live row of the effect comes from. -/
theorem step_single {tenant task effect : String} {db db' : Database} {e : Event}
    (h : ExecutionLedger.Step db e db')
    (once : ∀ r, e.call=.reserve r → e.outcome=.ok (.reserved none) →
      ofEffect tenant task effect (pendingRow r).toReserved = true → r.repeatable=false)
    (hi : ∀ row∈db.executions.rows, ∀ row'∈db.executions.rows,
      ofEffect tenant task effect row.toReserved = true →
      ofEffect tenant task effect row'.toReserved = true →
      live row = true → live row' = true → row.nonce=row'.nonce)
    {row row' : Execution} (hrow : row∈db'.executions.rows) (hrow' : row'∈db'.executions.rows)
    (hm : ofEffect tenant task effect row.toReserved = true)
    (hm' : ofEffect tenant task effect row'.toReserved = true)
    (hl : live row = true) (hl' : live row' = true) : row.nonce=row'.nonce := by
  have old {x : Execution} (hx : x∈db'.executions.rows) (hlx : live x = true) :
      (∃ y∈db.executions.rows, x.toReserved=y.toReserved ∧ live y = true) ∨
        ∃ r, e.call=.reserve r ∧ e.outcome=.ok (.reserved none) ∧ x=pendingRow r := by
    refine (step_rows h hx).imp_left fun ⟨y, hy, hsame, hst⟩ => ⟨y, hy, hsame, ?_⟩
    rcases hst with he | ⟨hu, -⟩
    · simpa [live, he] using hlx
    · rcases (by simpa [uncertain] using hu : y.status=.pending ∨ y.status=.unknown) with he | he <;>
        simp [live, he]
  have fresh {y : Execution} {r : Reservation} (hy : y∈db.executions.rows) (hly : live y = true)
      (hmy : ofEffect tenant task effect y.toReserved = true) (hcall : e.call=.reserve r)
      (hok : e.outcome=.ok (.reserved none))
      (hmr : ofEffect tenant task effect (pendingRow r).toReserved = true) : False := by
    have hno := (step_reserved h hcall hok).2.2.2 (once r hcall hok hmr) y hy
    have hty : (y.scope.tenant=tenant ∧ y.scope.task=task) ∧ y.effectDigest=effect := by
      simpa [ofEffect] using hmy
    have htr : (r.scope.tenant=tenant ∧ r.scope.task=task) ∧ r.effectDigest=effect := by
      simpa using (show (decide (r.scope.tenant=tenant) && decide (r.scope.task=task) &&
        decide (r.effectDigest=effect)) = true from hmr)
    have := hno (by simp [sameTask, hty.1, htr.1]) (hty.2.trans htr.2.symm)
    simp [hly] at this
  rcases old hrow hl with ⟨y, hy, hs, hly⟩ | ⟨r, hcall, hok, rfl⟩ <;>
    rcases old hrow' hl' with ⟨y', hy', hs', hly'⟩ | ⟨r', hcall', hok', rfl⟩
  · have := hi y hy y' hy' (hs ▸ hm) (hs' ▸ hm') hly hly'
    exact (congrArg Reserved.nonce hs).trans (this.trans (congrArg Reserved.nonce hs').symm)
  · exact (fresh hy hly (hs ▸ hm) hcall' hok' hm').elim
  · exact (fresh hy' hly' (hs' ▸ hm') hcall hok hm).elim
  · rw [hcall] at hcall'
    cases hcall'
    rfl

/-- The ledger call behind an action, when it is not a reservation of the effect. -/
theorem step_oneLive {tenant task effect : String} {es : List Action} {s t : Site} {a : Action}
    (h : OneLive tenant task effect es s) (ha : Exclusive tenant task effect a)
    (hs : Step s a t) : OneLive tenant task effect (es++[a]) t := by
  have spare {r : Reservation}
      (hr : ofEffect tenant task effect (pendingRow r).toReserved = true) :
      Spares (·≠.notDispatched) r a :=
    fun v row he hsame => ha.2 v row he (hsame ▸ hr)
  refine ⟨step_owned h.owned hs, ?_, fun id r ho hr =>
    step_held h.owned hs (by simp) (spare hr) ho fun hb => h.held id r hb hr, ?_⟩
  · cases hs with
    | reserved idle call fresh step =>
      exact fun row hrow row' hrow' hm hm' hl hl' => step_single step
        (fun r hc _ hr => ha.1 _ r (by rw [call] at hc; cases hc; rfl) hr)
        h.single hrow hrow' hm hm' hl hl'
    | refused idle call other step =>
      exact fun row hrow row' hrow' hm hm' hl hl' => step_single step
        (fun r _ hok _ => absurd hok other) h.single hrow hrow' hm hm' hl hl'
    | dispatch held => exact h.single
    | released held call step =>
      exact fun row hrow row' hrow' hm hm' hl hl' => step_single step
        (by simp [call]) h.single hrow hrow' hm hm' hl hl'
    | completed busy kept call step =>
      exact fun row hrow row' hrow' hm hm' hl hl' => step_single step
        (by simp [call]) h.single hrow hrow' hm hm' hl hl'
    | crash id => exact h.single
    | reconcile call done step =>
      exact fun row hrow row' hrow' hm hm' hl hl' => step_single step
        (by simp [call]) h.single hrow hrow' hm hm' hl hl'
  · intro d hd hr
    by_cases hold : d∈dispatched es
    · exact step_called h.owned hs (spare hr) hold (h.called d hold hr)
    · cases hs with
      | @dispatch id r held =>
        rw [dispatched_dispatch, List.mem_append, List.mem_singleton] at hd
        obtain rfl := hd.resolve_left hold
        exact h.held id d (held ▸ .holding d) hr
      | reserved | refused | released | completed | crash | reconcile =>
        rw [dispatched_append _ _ (by simp)] at hd
        exact absurd hd hold

theorem run_oneLive {storeId tenant task effect : String} {db : Database} {es : List Action}
    {s : Site} (hp : provision storeId = .ok db) (h : Run Step (start db) es s)
    (ha : ∀ a∈es, Exclusive tenant task effect a) : OneLive tenant task effect es s := by
  refine h.invariant (I := fun es s => (∀ a∈es, Exclusive tenant task effect a) →
    OneLive tenant task effect es s) ?_ ?_ ha
  · refine fun _ => ⟨start_owned hp, ?_, ?_, by simp [dispatched]⟩
    · simp [start, (provision_ok hp).1, Executions.empty]
    · intro id r ho
      cases ho
  · intro es t a u _ hi hs hall
    exact step_oneLive (hi fun a ha => hall a (List.mem_append_left _ ha)) (hall a (by simp)) hs

theorem eq_of_length_le_one {α : Type} {xs : List α} (h : xs.length≤1) {x y : α} (hx : x∈xs)
    (hy : y∈xs) : x=y := by
  match xs with
  | [] => cases hx
  | [_] => simp_all
  | _ :: _ :: _ => simp at h

theorem length_le_one {α : Type} {xs : List α} (hn : xs.Nodup) (h : ∀ x∈xs, ∀ y∈xs, x=y) :
    xs.length≤1 := by
  match xs with
  | [] => simp
  | [_] => simp
  | x :: y :: _ =>
    obtain rfl := h x (by simp) y (by simp)
    simp at hn

/-- At most one call of an effect that nobody may repeat. -/
theorem OneLive.once {tenant task effect : String} {es : List Action} {s : Site}
    (h : OneLive tenant task effect es s) :
    (dispatched es).countP (fun d => ofEffect tenant task effect (pendingRow d).toReserved)≤1 := by
  have hsame : ∀ n∈((dispatched es).filter fun d =>
      ofEffect tenant task effect (pendingRow d).toReserved).map (fun d => d.nonce),
      ∀ m∈((dispatched es).filter fun d =>
      ofEffect tenant task effect (pendingRow d).toReserved).map (fun d => d.nonce), n=m := by
    intro n hn m hm
    obtain ⟨d, hd, rfl⟩ := List.mem_map.mp hn
    obtain ⟨d', hd', rfl⟩ := List.mem_map.mp hm
    obtain ⟨hd, hr⟩ := List.mem_filter.mp hd
    obtain ⟨hd', hr'⟩ := List.mem_filter.mp hd'
    obtain ⟨row, hrow, hs, hl⟩ := h.called d hd hr
    obtain ⟨row', hrow', hs', hl'⟩ := h.called d' hd' hr'
    have := h.single row hrow row' hrow' (hs ▸ hr) (hs' ▸ hr') (by simp [live, hl])
      (by simp [live, hl'])
    exact (congrArg Reserved.nonce hs).symm.trans (this.trans (congrArg Reserved.nonce hs'))
  have hnd := (List.filter_sublist (l := dispatched es) (p := fun d =>
    ofEffect tenant task effect (pendingRow d).toReserved)).map (fun d => d.nonce) |>.nodup
      h.owned.once
  rw [List.countP_eq_length_filter]
  simpa using length_le_one hnd hsame

/-! The hold on a task. -/

theorem inTask_reserved {tenant task : String} {row row' : Execution}
    (h : row.toReserved=row'.toReserved) : inTask tenant task row = inTask tenant task row' :=
  congrArg (fun x : Reserved => decide (x.scope.tenant=tenant) && decide (x.scope.task=task)) h

/-- No operator reconciles a row of the task. -/
def Untouched (tenant task : String) (a : Action) : Prop :=
  ∀ v row, a=.reconcile v row → inTask tenant task row = false

structure Waits (tenant task : String) (es : List Action) (s : Site) : Prop where
  owned : Owned es s
  held : ∀ id r, (s.workers id).Owns r → inTask tenant task (pendingRow r) = true →
    Stored s.db r (·=.pending)

theorem run_waits {storeId tenant task : String} {db : Database} {es : List Action} {s : Site}
    (hp : provision storeId = .ok db) (h : Run Step (start db) es s)
    (ha : ∀ a∈es, Untouched tenant task a) : Waits tenant task es s := by
  refine h.invariant (I := fun es s => (∀ a∈es, Untouched tenant task a) →
    Waits tenant task es s) ?_ ?_ ha
  · refine fun _ => ⟨start_owned hp, ?_⟩
    intro id r ho
    cases ho
  · intro es t a u _ hi hs hall
    have hw := hi fun a ha => hall a (List.mem_append_left _ ha)
    refine ⟨step_owned hw.owned hs, fun id r ho hr => ?_⟩
    refine step_held hw.owned hs rfl (fun v row he hsame => ?_) ho fun hb => hw.held id r hb hr
    have := hall a (by simp) v row he
    simp [inTask_reserved hsame, hr] at this

/-- When a call starts, the row of every earlier call of its task is settled. -/
theorem Waits.settled {tenant task : String} {es : List Action} {s : Site} {id : Nat}
    {r : Reservation} (h : Waits tenant task es s) (hh : s.workers id = .holding r)
    (hr : inTask tenant task (pendingRow r) = true) {d : Reservation} (hd : d∈dispatched es)
    (ht : inTask tenant task (pendingRow d) = true) :
    Stored s.db d fun status => status≠.pending ∧ status≠.unknown := by
  obtain ⟨mine, hmine, hsame, hpending⟩ := h.held id r (hh ▸ .holding r) hr
  obtain ⟨row, hrow, hs, -⟩ := h.owned.called d hd
  refine ⟨row, hrow, hs, uncertain_false.mp ?_⟩
  by_contra hu
  have hne : mine≠row := by
    rintro rfl
    exact h.owned.ahead id r hh d hd
      (congrArg Reserved.nonce (hs.symm.trans hsame) : d.nonce=r.nonce)
  have hone := h.owned.sound.uncertain tenant task
  rw [List.countP_eq_length_filter] at hone
  refine hne (eq_of_length_le_one hone ?_ ?_)
  · exact List.mem_filter.mpr ⟨hmine, by simp [inTask_reserved hsame, hr, uncertain, hpending]⟩
  · exact List.mem_filter.mpr ⟨hrow, by simpa [inTask_reserved hs, ht] using hu⟩

end TraceGuard.Dispatching
