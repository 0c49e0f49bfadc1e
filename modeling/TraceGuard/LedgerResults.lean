import TraceGuard.LedgerHistory

/-! Which stored results a ledger gives back. A result leaves only through the replay
branch of `reserve`, and a row once withheld or sent to review never opens again. -/
namespace TraceGuard.ExecutionLedger
open Traces

/-- The event is the call that made the row of `nonce` succeed with these bytes. -/
def Wrote (nonce bytes : String) (e : Event) : Prop :=
  (∃ reply, e.outcome=.ok reply) ∧
    ((∃ disposition, e.call=.finish nonce .succeeded (some bytes) disposition) ∨
      ∃ v : Resolution, e.call=.reconcile v ∧ v.nonce=nonce ∧ v.status=.succeeded ∧
        v.result=some bytes)

/-- Every stored result of a succeeded row was written by a call of the history. -/
def ResultsWritten (es : List Event) (db : Database) : Prop :=
  ∀ row∈db.executions.rows, row.status=.succeeded → ∀ bytes, row.result=some bytes →
    ∃ e∈es, Wrote row.nonce bytes e

/-- A succeeded row whose result was withheld or needs review. -/
def Sealed (row : Execution) : Prop :=
  row.status=.succeeded ∧ (row.disposition=.withheld ∨ row.disposition=.reviewRequired)

theorem resultsWritten_setOutcome {es : List Event} {db : Database} {row : Execution}
    {o : Outcome} (mem : row∈db.executions.rows) (hi : ResultsWritten es db) (e : Event)
    (ho : o.status=.succeeded → ∀ bytes, o.result=some bytes →
      (row.status=.succeeded ∧ row.result=some bytes) ∨ Wrote row.nonce bytes e) :
    ResultsWritten (es++[e]) (db.setOutcome row.nonce o) := by
  intro r' hr' hs bytes hb
  obtain ⟨r, hr, rfl⟩ := (Executions.mem_setOutcome _ _ _ _).mp hr'
  split at hs
  · rename_i hn
    obtain rfl := db.executions.eq_of_nonce hr mem hn
    rw [if_pos rfl] at hb ⊢
    rcases ho hs bytes hb with ⟨hrs, hrb⟩ | hw
    · obtain ⟨w, hw, hwrote⟩ := hi r hr hrs bytes hrb
      exact ⟨w, by simp [hw], hwrote⟩
    · exact ⟨e, by simp, hw⟩
  · rename_i hn
    rw [if_neg hn] at hb ⊢
    obtain ⟨w, hw, hwrote⟩ := hi r hr hs bytes hb
    exact ⟨w, by simp [hw], hwrote⟩

theorem resultsWritten_mono {es : List Event} {db db' : Database} (e : Event)
    (hi : ResultsWritten es db)
    (h : ∀ row∈db'.executions.rows, row.status=.succeeded → row∈db.executions.rows) :
    ResultsWritten (es++[e]) db' := by
  intro row hrow hs bytes hb
  obtain ⟨w, hw, hwrote⟩ := hi row (h row hrow hs) hs bytes hb
  exact ⟨w, by simp [hw], hwrote⟩

theorem step_resultsWritten {es : List Event} {db db' : Database} {e : Event}
    (h : Step db e db') (hi : ResultsWritten es db) : ResultsWritten (es++[e]) db' := by
  rcases step_cases h with ⟨_, -, rfl⟩ | ⟨reply, hok, he⟩
  · exact resultsWritten_mono e hi fun row hrow _ => hrow
  generalize hcall : e.call = call at he
  cases he with
  | replayed => exact resultsWritten_mono e hi fun row hrow _ => hrow
  | invalidated mem done accepted =>
    exact resultsWritten_setOutcome mem hi e fun _ bytes hb => Or.inl ⟨done, hb⟩
  | @inserted r executions fresh free single budget rows =>
    refine resultsWritten_mono e hi fun row hrow hs => ?_
    rw [rows, List.mem_append, List.mem_singleton] at hrow
    rcases hrow with hold | rfl
    · exact hold
    · simp [pendingRow] at hs
  | @finished row status result disposition mem waiting final accepted =>
    refine resultsWritten_setOutcome mem hi e fun hs bytes hb => Or.inr ⟨⟨_, hok⟩, ?_⟩
    simp only at hs hb
    exact Or.inl ⟨disposition, by rw [hcall, hs, hb]⟩
  | decided mem done waiting stored first =>
    exact resultsWritten_setOutcome mem hi e fun _ bytes hb => Or.inl ⟨done, hb⟩
  | @reconciled row _ v mem nonce open_ fenced definitive first accepted =>
    have := resultsWritten_setOutcome (o := ⟨v.status, v.result, v.disposition⟩) mem hi e
      fun hs bytes hb => Or.inr ⟨⟨_, hok⟩, Or.inr ⟨v, hcall, nonce.symm, hs, hb⟩⟩
    rw [nonce] at this
    exact this

theorem run_resultsWritten {storeId : String} {start db : Database} {es : List Event}
    (hp : provision storeId = .ok start) (h : Run Step start es db) : ResultsWritten es db := by
  refine h.invariant (I := ResultsWritten) ?_ fun _ _ _ _ _ hi hstep => step_resultsWritten hstep hi
  simp [ResultsWritten, (provision_ok hp).1, Executions.empty]

/-- No call opens a sealed row. -/
theorem effect_sealed {scan : Scan} {db db' : Database} {call : Call} {reply : Reply}
    (h : Effect scan db call reply db') {r : Execution} (hr : r∈db.executions.rows)
    (hs : Sealed r) : r∈db'.executions.rows := by
  have hclosed : r.status≠.pending ∧ r.status≠.unknown ∧ r.disposition≠.pendingReview ∧
      r.disposition≠.acceptedForAgent := by
    obtain ⟨h1, h2 | h2⟩ := hs <;> simp [h1, h2]
  -- a rewritten row is another row: it was waiting for its status or its first review
  have other {row : Execution} {nonce : String} {o : Outcome} (mem : row∈db.executions.rows)
      (hn : row.nonce=nonce) (hne : r≠row) : r∈(db.setOutcome nonce o).executions.rows := by
    refine (Executions.mem_setOutcome _ _ _ _).mpr ⟨r, hr, ?_⟩
    rw [if_neg fun he => hne (db.executions.eq_of_nonce hr mem (he.trans hn.symm))]
  cases h with
  | replayed => exact hr
  | invalidated mem done accepted =>
    exact other mem rfl fun he => hclosed.2.2.2 (he ▸ accepted)
  | inserted fresh free single budget rows => simp [rows, hr]
  | finished mem waiting final accepted => exact other mem rfl fun he => hclosed.1 (he ▸ waiting)
  | decided mem done waiting stored first =>
    exact other mem rfl fun he => hclosed.2.2.1 (he ▸ waiting)
  | reconciled mem nonce open_ fenced definitive first accepted =>
    refine other mem nonce fun he => ?_
    subst he
    simp [uncertain, hclosed.1, hclosed.2.1] at open_

theorem run_sealed {db later : Database} {es : List Event} (h : Run Step db es later)
    {row : Execution} (hrow : row∈db.executions.rows) (hs : Sealed row) :
    row∈later.executions.rows := by
  refine h.invariant (I := fun _ later => row∈later.executions.rows) hrow ?_
  intro _ t e u _ hi hstep
  rcases step_cases hstep with ⟨_, -, rfl⟩ | ⟨reply, -, he⟩
  · exact hi
  · exact effect_sealed he hi hs

/-- A replayed result is the result of an accepted row of the same effect and policy. -/
theorem effect_result {scan : Scan} {db db' : Database} {r : Reservation} {p : Replay}
    {bytes : String} (h : Effect scan db (.reserve r) (.reserved (some p)) db')
    (hb : p.result=some bytes) :
    ∃ row∈db.executions.rows, row.nonce=p.nonce ∧ sameKey r row = true ∧ row.digest=r.digest ∧
      row.scope=r.scope ∧ row.status=.succeeded ∧ row.disposition=.acceptedForAgent ∧
      row.result=some bytes ∧ row.resultPolicy=r.resultPolicy := by
  cases h with
  | @replayed _ row mem key digest scope done valid =>
    simp only at hb
    split at hb
    · rename_i ha
      exact ⟨row, mem, rfl, key, digest, scope, done, ha, hb, (valid ha).1⟩
    · cases hb
  | invalidated => cases hb

/-- A replay under another policy sends the accepted row back to review. -/
theorem effect_invalidates {scan : Scan} {db db' : Database} {r : Reservation} {p : Replay}
    (h : Effect scan db (.reserve r) (.reserved (some p)) db') {row : Execution}
    (hrow : row∈db.executions.rows) (hn : row.nonce=p.nonce)
    (ha : row.disposition=.acceptedForAgent) (hp : row.resultPolicy≠r.resultPolicy) :
    ∃ row'∈db'.executions.rows, row'.nonce=row.nonce ∧ Sealed row' := by
  cases h with
  | @replayed _ row' mem key digest scope done valid =>
    obtain rfl := db.executions.eq_of_nonce hrow mem hn
    exact absurd (valid ha).1 hp
  | @invalidated _ row' mem done accepted =>
    refine ⟨row'.set ⟨.succeeded, row'.result, .reviewRequired⟩,
      (Executions.mem_setOutcome _ _ _ _).mpr ⟨row', mem, by simp⟩, hn.symm, rfl, Or.inr rfl⟩

/-- Withheld results stay withheld: a returned result is the accepted, stored result of a
row of the same effect, scope and policy; a sealed row gives nothing back in any
continuation; and a request under another policy seals an accepted row. -/
theorem withheld_results {storeId : String} {start db : Database} {es : List Event}
    (hp : provision storeId = .ok start) (h : Run Step start es db) :
    (∀ e db' r p bytes, Step db e db' → e.call=.reserve r →
      e.outcome=.ok (.reserved (some p)) → p.result=some bytes →
      ∃ row∈db.executions.rows, row.nonce=p.nonce ∧ sameKey r row = true ∧
        row.digest=r.digest ∧ row.scope=r.scope ∧ row.status=.succeeded ∧
        row.disposition=.acceptedForAgent ∧ row.result=some bytes ∧
        row.resultPolicy=r.resultPolicy ∧ ∃ w∈es, Wrote row.nonce bytes w) ∧
    (∀ row∈db.executions.rows, Sealed row → ∀ es' later e db' p, Run Step db es' later →
      Step later e db' → e.outcome=.ok (.reserved (some p)) → p.nonce=row.nonce →
      p.result=none) ∧
    ∀ e db' r p, Step db e db' → e.call=.reserve r → e.outcome=.ok (.reserved (some p)) →
      ∀ row∈db.executions.rows, row.nonce=p.nonce → row.disposition=.acceptedForAgent →
      row.resultPolicy≠r.resultPolicy →
      ∃ row'∈db'.executions.rows, row'.nonce=row.nonce ∧ Sealed row' := by
  have reserved {s s' : Database} {e : Event} {p : Replay} (hstep : Step s e s')
      (ho : e.outcome=.ok (.reserved (some p))) :
      Effect e.scan s e.call (.reserved (some p)) s' := by
    rcases step_cases hstep with ⟨_, herr, -⟩ | ⟨reply, hok, he⟩
    · rw [ho] at herr
      cases herr
    · rw [ho] at hok
      cases hok
      exact he
  refine ⟨?_, ?_, ?_⟩
  · intro e db' r p bytes hstep hcall ho hb
    have he := reserved hstep ho
    rw [hcall] at he
    obtain ⟨row, hrow, hn, hk, hd, hs, hdone, ha, hres, hpol⟩ := effect_result he hb
    exact ⟨row, hrow, hn, hk, hd, hs, hdone, ha, hres, hpol,
      run_resultsWritten hp h row hrow hdone bytes hres⟩
  · intro row hrow hsealed es' later e db' p hrun hstep ho hn
    have hmem := run_sealed hrun hrow hsealed
    have he := reserved hstep ho
    by_contra hne
    obtain ⟨bytes, hb⟩ := Option.ne_none_iff_exists'.mp hne
    obtain ⟨r, hr⟩ : ∃ r, e.call=.reserve r := by
      generalize hcall : e.call = call at he
      cases he with
      | replayed => exact ⟨_, rfl⟩
      | invalidated => exact ⟨_, rfl⟩
    rw [hr] at he
    obtain ⟨row', hrow', hn', -, -, -, -, ha, -, -⟩ := effect_result he hb
    obtain rfl := later.executions.eq_of_nonce hrow' hmem (hn'.trans hn)
    rcases hsealed.2 with hd | hd <;> rw [hd] at ha <;> cases ha
  · intro e db' r p hstep hcall ho row hrow hn ha hpol
    have he := reserved hstep ho
    rw [hcall] at he
    exact effect_invalidates he hrow hn ha hpol

/-- The finished row of the sample history replays its receipt, written by `sampleFinish`. -/
theorem withheld_results_sample :
    ∃ w∈[sampleReserve, sampleFinish], Wrote "nonce" "receipt" w := by
  have h := withheld_results sample_provision sample_run
  have replay := h.1
    ⟨sampleLedger, .rowid, .reserve sampleRequest,
      .ok (.reserved (some ⟨"nonce", .succeeded, some "receipt", .acceptedForAgent⟩))⟩
    sampleFinished sampleRequest ⟨"nonce", .succeeded, some "receipt", .acceptedForAgent⟩ "receipt"
    ⟨rfl, rfl⟩ rfl rfl rfl
  obtain ⟨row, _, hn, _, _, _, _, _, _, _, hw⟩ := replay
  change row.nonce="nonce" at hn
  rwa [hn] at hw

end TraceGuard.ExecutionLedger
