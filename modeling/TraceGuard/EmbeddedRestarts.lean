import TraceGuard.EmbeddedExits
import TraceGuard.LedgerHistory

/-! Boundaries that come and go over one ledger: an effect that may not be repeated is dispatched again only after an
entry of the ledger said that it never was, whatever an instance remembers of earlier ones. -/
namespace TraceGuard
open Raising Stateful Dialogue ExecutionLedger

/-- What happens around a ledger: a call of some boundary, another instance that goes on with its own memory, and a
transaction of an operator or of other workers. -/
inductive Occurrence (crypto : Crypto) where
  | called (boundary : GuardedExecution crypto) (around : Surroundings) (request : CallRequest)
  | resumed (executedCalls : String → List ToolCall) (escalatedTasks : List String)
  | outside (ledger : ExecutionLedger) (scan : Scan) (call : ExecutionLedger.Call)

/-- An entry of the ledger that says that an effect was not dispatched. -/
def Exchange.releases (nonce : String) : Exchange → Prop
  | .ledger call (.ok _) => targets call=some (nonce, .notDispatched)
  | _ => False

namespace GuardedExecution
section
variable {crypto : Crypto} (platform : Platform)

def occur (s : Session BoundaryState Exchange) : Occurrence crypto → Session BoundaryState Exchange
  | .called boundary around request => (outcome (boundary.execute platform around request) s).2
  | .resumed executedCalls escalatedTasks => ⟨⟨executedCalls, escalatedTasks, s.state.database⟩, s.log⟩
  | .outside ledger scan call =>
    match ledger.exec scan s.state.database call with
    | .ok (reply, next) => ⟨{ s.state with database := next }, s.log++[.ledger call (.ok reply)]⟩
    | .error e => ⟨s.state, s.log++[.ledger call (.error e)]⟩

def history (database : Database) (occurrences : List (Occurrence crypto)) : Session BoundaryState Exchange :=
  occurrences.foldl (occur platform) ⟨.new database, []⟩

/-- A request of a boundary gives the call to a tool or to the sandbox. -/
def Sends (boundary : GuardedExecution crypto) (around : Surroundings) (request : CallRequest)
    (s : Session BoundaryState Exchange) (call : ToolCall) : Prop :=
  ∃ news d, (outcome (boundary.execute platform around request) s).2.log=s.log++news ∧ d∈news ∧ d.dispatched=some call

end

/-- An effect that its boundary accounts for, under the digest of its payload. -/
structure Accounted {crypto : Crypto} (boundary : GuardedExecution crypto) (call : ToolCall) (effectDigest : String) :
    Prop where
  configured : boundary.effectLedger≠none
  effect : consequential call = .ok true
  digest : digest crypto (payload call) = .ok effectDigest

/-- Of two dispatches of one payload for a task, the second one, if it may not repeat the first, comes after an entry that
released the first. -/
def NeverRepeats (crypto : Crypto) (platform : Platform) (database : Database) : Prop :=
  ∀ (before mid : List (Occurrence crypto)) (boundary boundary' : GuardedExecution crypto) (around around' : Surroundings)
    (request request' : CallRequest) (call call' : ToolCall) (effectDigest : String),
    Sends platform boundary around request (history platform database before) call →
    Sends platform boundary' around' request'
      (history platform database (before++.called boundary around request :: mid)) call' →
    Accounted boundary call effectDigest → Accounted boundary' call' effectDigest →
    boundary.boundTaskId=boundary'.boundTaskId → call'.toolName∉boundary'.taskAuthority.repeatableTools →
    ∃ entries, (history platform database (before++.called boundary around request :: mid)).log=
        (history platform database (before++[.called boundary around request])).log++entries ∧
      ∃ entry∈entries, entry.releases call.callId

/-- A live row of an effect. -/
def Holds (nonce task effectDigest : String) (db : Database) : Prop :=
  ∃ row∈db.executions.rows, row.nonce=nonce ∧ row.scope.tenant="embedded" ∧ row.scope.task=task ∧
    row.effectDigest=effectDigest ∧ live row = true

section
variable {crypto : Crypto} {platform : Platform} {around : Surroundings} {boundary : GuardedExecution crypto}
  {request : CallRequest} {s : Session BoundaryState Exchange} {call : ToolCall} {db next : Database}
  {nonce task effectDigest : String} {news : List Exchange}

theorem holds_append {row : Execution} (h : Holds nonce task effectDigest db)
    (hrows : next.executions.rows=db.executions.rows++[row]) : Holds nonce task effectDigest next := by
  obtain ⟨found, mem, hrest⟩ := h
  exact ⟨found, hrows ▸ List.mem_append_left _ mem, hrest⟩

/-- Another status that is not the release of the row keeps it. -/
theorem holds_set {changed : String} {o : Outcome} (h : Holds nonce task effectDigest db)
    (hlive : changed=nonce → o.status≠.notDispatched) :
    Holds nonce task effectDigest (db.setOutcome changed o) := by
  obtain ⟨found, mem, hnonce, htenant, htask, hdigest, hfound⟩ := h
  by_cases hn : found.nonce=changed
  · refine ⟨found.set o, (Executions.mem_setOutcome ..).mpr ⟨found, mem, by rw [if_pos hn]⟩, hnonce, htenant, htask,
      hdigest, ?_⟩
    exact decide_eq_true (hlive (hn.symm.trans hnonce))
  · exact ⟨found, (Executions.mem_setOutcome ..).mpr ⟨found, mem, by rw [if_neg hn]⟩, hnonce, htenant, htask, hdigest,
      hfound⟩

/-- No call of a boundary releases what is held. -/
theorem holds_leaves (h : Holds nonce task effectDigest db) (hleaves : Leaves platform around db news next) :
    Holds nonce task effectDigest next := by
  by_cases hreserved : ∃ r, .reserves r∈news
  · obtain ⟨r, hr⟩ := hreserved
    obtain ⟨o, -, hrows⟩ := hleaves.reserved r hr
    exact holds_append h hrows
  · rcases hleaves.unreserved (not_exists.mp hreserved) with rfl | ⟨row, -, -, -, rfl⟩
    · exact h
    · exact holds_set h fun _ => by simp

/-- A transaction of others keeps what is held, or is its release. -/
theorem holds_effect {scan : Scan} {c : ExecutionLedger.Call} {reply : ExecutionLedger.Reply}
    (h : Holds nonce task effectDigest db)
    (heffect : ExecutionLedger.Effect scan db c reply next) :
    Holds nonce task effectDigest next ∨ (Exchange.ledger c (.ok reply)).releases nonce := by
  cases heffect with
  | replayed _ _ _ _ _ _ => exact .inl h
  | invalidated _ _ _ => exact .inl (holds_set h fun _ => by simp)
  | inserted _ _ _ _ rows => exact .inl (holds_append h rows)
  | @finished row status result disposition _ _ _ _ =>
    by_cases hrelease : row.nonce=nonce ∧ status=.notDispatched
    · obtain ⟨rfl, rfl⟩ := hrelease
      exact .inr rfl
    · exact .inl (holds_set h fun hn hs => hrelease ⟨hn, hs⟩)
  | decided _ _ _ _ _ => exact .inl (holds_set h fun _ => by simp)
  | @reconciled row reply v _ _ _ _ _ _ _ =>
    by_cases hrelease : v.nonce=nonce ∧ v.status=.notDispatched
    · right
      obtain ⟨rfl, hs⟩ := hrelease
      simp [Exchange.releases, targets, hs]
    · exact .inl (holds_set h fun hn hs => hrelease ⟨hn, hs⟩)

theorem occur_log (platform : Platform) (o : Occurrence crypto) (s : Session BoundaryState Exchange) :
    ∃ news, (occur platform s o).log=s.log++news := by
  cases o with
  | called boundary around request =>
    obtain ⟨news, hlog, -⟩ := execute_ends boundary platform around request s
    exact ⟨news, hlog⟩
  | resumed executedCalls escalatedTasks => exact ⟨[], (List.append_nil _).symm⟩
  | outside ledger scan call =>
    unfold occur
    dsimp only
    split
    · exact ⟨_, rfl⟩
    · exact ⟨_, rfl⟩

theorem occur_holds (platform : Platform) (o : Occurrence crypto) (h : Holds nonce task effectDigest s.state.database) :
    ∃ news, (occur platform s o).log=s.log++news ∧
      (Holds nonce task effectDigest (occur platform s o).state.database ∨ ∃ e∈news, e.releases nonce) := by
  cases o with
  | called boundary around request =>
    obtain ⟨news, hlog, hcourse⟩ := execute_ends boundary platform around request s
    exact ⟨news, hlog, .inl (holds_leaves h hcourse.leaves)⟩
  | resumed executedCalls escalatedTasks => exact ⟨[], (List.append_nil _).symm, .inl h⟩
  | outside ledger scan call =>
    unfold occur
    dsimp only
    cases hexec : ledger.exec scan s.state.database call with
    | error e => exact ⟨_, rfl, .inl h⟩
    | ok found =>
      obtain ⟨reply, next⟩ := found
      refine ⟨_, rfl, (holds_effect h (exec_effect hexec)).imp id fun hrelease => ?_⟩
      exact ⟨_, List.mem_singleton_self _, hrelease⟩

/-- What is dispatched is not released in its exit. -/
theorem exitRow_live {r : Reservation} {o : Option Outcome} {d : Exchange} (h : Exits platform around [d] o) :
    live (exitRow r o) = true := by
  cases h <;> rfl

theorem exitRow_reserved (r : Reservation) (o : Option Outcome) : (exitRow r o).toReserved=(pendingRow r).toReserved := by
  cases o <;> rfl

/-- What a request sends is dispatched once by its call. -/
theorem sends_dispatched (h : Sends platform boundary around request s call) :
    ∃ news before d after a plan, Leaves platform around s.state.database news
        (outcome (boundary.execute platform around request) s).2.state.database ∧ news=before++d :: after ∧
      news.filter Exchange.isDispatched=[d] ∧ call=a.effective ∧ Dispatched boundary platform around request.userTask
        request.call request.observations s.state before d a plan := by
  obtain ⟨news, sent, hsent, hmem, hcall⟩ := h
  obtain ⟨news', hlog, hcourse⟩ := execute_ends boundary platform around request s
  obtain rfl : news=news' := List.append_cancel_left (hsent.symm.trans hlog)
  have hsentd := Exchange.isDispatched_of_dispatched hcall
  rcases hcourse.dispatches with hnone | ⟨before, d, after, a, plan, hnews, hbefore, hafter, hd, hdispatched⟩
  · rw [hnone sent hmem] at hsentd
    cases hsentd
  · have hfilter : news.filter Exchange.isDispatched=[d] := by
      rw [hnews, List.filter_append, filter_quiet hbefore, List.filter_cons_of_pos hd, filter_quiet hafter,
        List.nil_append]
    have hone : sent=d := List.mem_singleton.mp (hfilter ▸ List.mem_filter.mpr ⟨hmem, hsentd⟩)
    subst hone
    exact ⟨news, before, sent, after, a, plan, hcourse.leaves, hnews, hfilter, (hdispatched.placement hcall).1,
      hdispatched⟩

/-- What is sent under a ledger holds its row afterwards. -/
theorem sends_holds (h : Sends platform boundary around request s call) (haccounted : Accounted boundary call effectDigest) :
    Holds call.callId boundary.boundTaskId effectDigest
      (outcome (boundary.execute platform around request) s).2.state.database := by
  obtain ⟨news, before, d, after, a, plan, hleaves, rfl, hfilter, rfl, hdispatched⟩ := sends_dispatched h
  obtain ⟨ledger, hledger⟩ := Option.ne_none_iff_exists'.mp haccounted.configured
  obtain ⟨policy, r, scan, next, -, hreserves, -, hmem⟩ := hdispatched.reserved hledger haccounted.effect
  obtain ⟨o, hexits, hrows⟩ := hleaves.reserved r (List.mem_append_left _ hmem)
  have hreserved := exitRow_reserved r o
  rw [hfilter] at hexits
  refine ⟨exitRow r o, by rw [hrows]; simp, (congrArg Reserved.nonce hreserved).trans hreserves.nonce, ?_, ?_, ?_,
    exitRow_live hexits⟩
  · have hscope := (congrArg Reserved.scope hreserved).trans hreserves.scope
    rw [hscope]
  · have hscope := (congrArg Reserved.scope hreserved).trans hreserves.scope
    rw [hscope]
    exact hdispatched.bound
  · have hdigest := (congrArg Reserved.effectDigest hreserved).trans hreserves.effectDigest
    exact hdigest.trans (Except.ok.inj (hreserves.digest.symm.trans haccounted.digest))

/-- Nothing that may not be repeated is sent while its row is held. -/
theorem sends_unheld (h : Sends platform boundary around request s call) (haccounted : Accounted boundary call effectDigest)
    (honce : call.toolName∉boundary.taskAuthority.repeatableTools) :
    ¬Holds nonce boundary.boundTaskId effectDigest s.state.database := by
  obtain ⟨news, before, d, after, a, plan, -, -, -, rfl, hdispatched⟩ := sends_dispatched h
  obtain ⟨ledger, hledger⟩ := Option.ne_none_iff_exists'.mp haccounted.configured
  obtain ⟨policy, r, scan, next, -, hreserves, hinserted, -⟩ := hdispatched.reserved hledger haccounted.effect
  rintro ⟨row, mem, -, htenant, htask, hdigest, hlive⟩
  have heffect := reserve_effect hinserted
  cases heffect with
  | inserted fresh free single budget rows =>
    have hfree := single (by rw [hreserves.repeatable]; exact decide_eq_false honce) row mem ?_ ?_
    · rw [hlive] at hfree
      cases hfree
    · simp [sameTask, hreserves.scope, htenant, htask, hdispatched.bound]
    · rw [hdigest, hreserves.effectDigest]
      exact Except.ok.inj (haccounted.digest.symm.trans hreserves.digest)

/-- Over any occurrences, what is held stays held unless it is released. -/
theorem occurs_holds (platform : Platform) (mid : List (Occurrence crypto)) (h : Holds nonce task effectDigest s.state.database) :
    ∃ news, (mid.foldl (occur platform) s).log=s.log++news ∧
      (Holds nonce task effectDigest (mid.foldl (occur platform) s).state.database ∨ ∃ e∈news, e.releases nonce) := by
  induction mid using List.reverseRecOn with
  | nil => exact ⟨[], (List.append_nil _).symm, .inl h⟩
  | append_singleton mid o ih =>
    obtain ⟨news, hlog, hnews⟩ := ih
    rw [List.foldl_append]
    rcases hnews with hholds | ⟨e, he, hrelease⟩
    · obtain ⟨more, hmore, hlast⟩ := occur_holds platform o hholds
      refine ⟨news++more, by rw [List.foldl_cons, List.foldl_nil, hmore, hlog, List.append_assoc], hlast.imp id ?_⟩
      rintro ⟨e, he, hrelease⟩
      exact ⟨e, List.mem_append_right _ he, hrelease⟩
    · obtain ⟨more, hmore⟩ := occur_log platform o (mid.foldl (occur platform) s)
      refine ⟨news++more, by rw [List.foldl_cons, List.foldl_nil, hmore, hlog, List.append_assoc], .inr ?_⟩
      exact ⟨e, List.mem_append_left _ he, hrelease⟩

/-- Whatever instances come and go, no effect that may not be repeated is sent twice without a release. -/
theorem history_repeats (crypto : Crypto) (platform : Platform) (database : Database) :
    NeverRepeats crypto platform database := by
  intro before mid boundary boundary' around around' request request' call call' effectDigest hsent hsent' haccounted
    haccounted' hbound honce
  have hheld := sends_holds hsent haccounted
  have hfirst : (history platform database (before++[.called boundary around request]))=
      (outcome (boundary.execute platform around request) (history platform database before)).2 := by
    rw [history, List.foldl_append]
    rfl
  have hrun : history platform database (before++.called boundary around request :: mid)=
      mid.foldl (occur platform) (history platform database (before++[.called boundary around request])) := by
    rw [history, List.append_cons, List.foldl_append]
    rfl
  rw [← hfirst] at hheld
  rw [hrun] at hsent' ⊢
  obtain ⟨news, hlog, hholds | hrelease⟩ := occurs_holds platform mid hheld
  · rw [hbound] at hholds
    exact absurd hholds (sends_unheld hsent' haccounted' honce)
  · exact ⟨news, hlog, hrelease⟩

end
end GuardedExecution
end TraceGuard
