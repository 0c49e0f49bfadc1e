import TraceGuard.ConfinedFiles
import TraceGuard.Raising
import TraceGuard.SecurityEvaluation

/-! When the analysis of an evaluation returns: just when the outcomes are one record for each key of the
protocol's matrix, in any order, and the report does not depend on the order. -/
namespace TraceGuard
open Json (Codec)
open Files Raising Groups

namespace SecurityEvaluation
variable {env : Environment} {files : EvidenceRoot} {protocol : Protocol} {sha256 : Json}
  {records records' : List (Key × Outcome)} {raw : Json} {row : Outcome}

/-! One outcome. -/

/-- An outcome that reads as a row of the protocol, within its budgets and with its evidence. -/
structure Admitted (env : Environment) (files : EvidenceRoot) (protocol : Protocol) (sha256 raw : Json)
    (row : Outcome) : Prop where
  reads : Outcome.modelValidate raw=some row
  matched : matched protocol sha256 row
  within : withinBudget protocol row
  trace : checkEvidence env files row.tracePath row.traceSha256=.ok ()
  effect : checkEvidence env files row.effectEvidencePath row.effectEvidenceSha256=.ok ()

theorem validated_ok {α : Type} {message : String} {value : Option α} {a : α} :
    validated message value=.ok a ↔ value=some a := by
  cases value with
  | none =>
    constructor
    · intro h
      cases h
    · intro h
      cases h
  | some b =>
    rw [validated, Except.ok.injEq, Option.some.injEq]

theorem record_ok : record env files protocol sha256 records raw=.ok records' ↔
    ∃ row, Admitted env files protocol sha256 raw row ∧ row.key∉records.map Prod.fst ∧
      records'=records++[(row.key, row)] := by
  rw [record]
  constructor
  · intro h
    obtain ⟨row, hreads, h⟩ := bind_ok h
    obtain ⟨hmatched, h⟩ := guard_ok h
    obtain ⟨hwithin, h⟩ := guard_ok h
    obtain ⟨hnew, h⟩ := guard_ok h
    obtain ⟨_, htrace, h⟩ := bind_ok h
    obtain ⟨_, heffect, h⟩ := bind_ok h
    cases h
    exact ⟨row, ⟨validated_ok.mp hreads, not_not.mp hmatched, not_not.mp hwithin, htrace, heffect⟩, hnew, rfl⟩
  · rintro ⟨row, ⟨hreads, hmatched, hwithin, htrace, heffect⟩, hnew, rfl⟩
    rw [validated_ok.mpr hreads]
    simp only [bind, Except.bind, hmatched, hwithin, hnew, htrace, heffect, not_true_eq_false, if_false, pure,
      Except.pure]

/-- The loop collects one record for each outcome, and refuses a key that it has. -/
theorem records_ok {outcomes : List Json} : outcomes.foldlM (record env files protocol sha256) records=.ok records' ↔
    ∃ rows, List.Forall₂ (Admitted env files protocol sha256) outcomes rows ∧
      (∀ row∈rows, row.key∉records.map Prod.fst) ∧ (rows.map Outcome.key).Nodup ∧
      records'=records++rows.map fun row => (row.key, row) := by
  induction outcomes generalizing records with
  | nil =>
    constructor
    · intro h
      cases h
      exact ⟨[], .nil, List.forall_mem_nil _, List.nodup_nil, (List.append_nil _).symm⟩
    · rintro ⟨rows, hrows, -, -, rfl⟩
      cases hrows
      rw [List.map_nil, List.append_nil]
      rfl
  | cons raw outcomes ih =>
    rw [List.foldlM_cons]
    constructor
    · intro h
      obtain ⟨next, hfirst, hrest⟩ := bind_ok h
      obtain ⟨row, hrow, hnew, rfl⟩ := record_ok.mp hfirst
      obtain ⟨rows, hrows, hnews, hdistinct, rfl⟩ := ih.mp hrest
      refine ⟨row :: rows, .cons hrow hrows, fun other hother => ?_, ?_, by simp⟩
      · cases List.mem_cons.mp hother with
        | inl heq => exact heq ▸ hnew
        | inr hin =>
          have := hnews other hin
          rw [List.map_append, List.mem_append, not_or] at this
          exact this.1
      · rw [List.map_cons, List.nodup_cons]
        refine ⟨fun hin => ?_, hdistinct⟩
        obtain ⟨other, hother, heq⟩ := List.mem_map.mp hin
        exact hnews other hother (by simp [heq])
    · rintro ⟨rows, hrows, hnews, hdistinct, rfl⟩
      cases hrows with
      | cons hrow hrows =>
        rename_i row rows
        rw [List.map_cons, List.nodup_cons] at hdistinct
        have hfirst := record_ok.mpr ⟨row, hrow, hnews row (List.mem_cons_self ..), rfl⟩
        refine (congrArg (· >>= _) hfirst).trans (ih.mpr ⟨rows, hrows, fun other hother => ?_, hdistinct.2, by simp⟩)
        rw [List.map_append, List.mem_append, not_or]
        refine ⟨hnews other (List.mem_cons_of_mem _ hother), fun hin => hdistinct.1 ?_⟩
        exact List.mem_map.mpr ⟨other, hother, by simpa using hin⟩

/-! The matrix. -/

theorem mem_matrix {key : Key} : key∈matrix protocol ↔
    key.1∈protocol.armRevisions.keys ∧ key.2.1∈protocol.tasks.keys ∧ key.2.2∈protocol.seeds := by
  obtain ⟨arm, task, seed⟩ := key
  simp only [matrix, List.mem_flatMap, List.mem_map, Prod.mk.injEq]
  constructor
  · rintro ⟨_, harm, _, htask, _, hseed, rfl, rfl, rfl⟩
    exact ⟨harm, htask, hseed⟩
  · rintro ⟨harm, htask, hseed⟩
    exact ⟨arm, harm, task, htask, seed, hseed, rfl, rfl, rfl⟩

theorem keys_nodup {α : Type} (m : SortedMap String α) : m.keys.Nodup :=
  (m.sorted.map Prod.fst fun _ _ h => h).nodup

theorem matrix_nodup (hseeds : protocol.seeds.Nodup) : (matrix protocol).Nodup := by
  rw [matrix, List.nodup_flatMap]
  refine ⟨fun arm _ => ?_, ?_⟩
  · rw [List.nodup_flatMap]
    refine ⟨fun task _ => hseeds.map fun a b h => by simpa using h, ?_⟩
    refine (keys_nodup protocol.tasks).imp fun {a b} hne key ha hb => hne ?_
    simp only [List.mem_map] at ha hb
    obtain ⟨s, -, rfl⟩ := ha
    obtain ⟨t, -, heq⟩ := hb
    simp at heq
    exact heq.1.symm
  · refine (keys_nodup protocol.armRevisions).imp fun {a b} hne key ha hb => hne ?_
    simp only [List.mem_flatMap, List.mem_map] at ha hb
    obtain ⟨task, -, s, -, rfl⟩ := ha
    obtain ⟨task', -, t, -, heq⟩ := hb
    simp at heq
    exact heq.1.symm

theorem count_matrix (hseeds : protocol.seeds.Nodup) (arm task : String) (seed : Int) :
    (matrix protocol).count (arm, task, seed)=
      if arm∈protocol.armRevisions.keys ∧ task∈protocol.tasks.keys ∧ seed∈protocol.seeds then 1 else 0 := by
  rw [(matrix_nodup hseeds).count]
  exact if_congr mem_matrix rfl rfl

/-- Keys that are distinct and just those asked for are those asked for, in some order. -/
theorem perm_matrix {keys : List Key} (hkeys : keys.Nodup) (hseeds : protocol.seeds.Nodup) :
    ((∀ key∈keys, key∈matrix protocol) ∧ ∀ key∈matrix protocol, key∈keys) ↔ keys.Perm (matrix protocol) := by
  rw [List.perm_ext_iff_of_nodup hkeys (matrix_nodup hseeds)]
  constructor
  · intro h key
    exact ⟨h.1 key, h.2 key⟩
  · intro h
    exact ⟨fun key => (h key).mp, fun key => (h key).mpr⟩

/-! The envelope. -/

theorem pyEq_text {s : String} {v : Json} (h : v.pyEq (.str s)=true) : v=.str s := by
  cases v with
  | str t => rw [of_decide_eq_true h]
  | _ => simp [Json.pyEq, Json.number] at h

theorem eqMembers_lookup {key : String} {v : Json} {ms ns : List (String × Json)}
    (h : Json.eqMembers ms ns=true) (hv : ms.lookup key=some v) :
    ∃ w, ns.lookup key=some w ∧ v.pyEq w=true := by
  induction ms with
  | nil => cases hv
  | cons m ms ih =>
    obtain ⟨name, value⟩ := m
    rw [Json.eqMembers, Bool.and_eq_true] at h
    rw [SortedMap.lookup_cons] at hv
    split at hv
    · rename_i hname
      cases hv
      subst hname
      cases hw : ns.lookup key with
      | none => simp [hw] at h
      | some w =>
        rw [hw] at h
        exact ⟨w, rfl, h.1⟩
    · exact ih h.2 hv

theorem item_ok {v value : Json} {key : String} (h : item v key=.ok value) :
    ∃ members, v=.obj members ∧ members.lookup key=some value := by
  cases v with
  | obj members =>
    cases hm : members.lookup key with
    | none => simp [item, Json.member, hm] at h
    | some w =>
      simp only [item, Json.member, hm] at h
      cases h
      exact ⟨members, rfl, hm⟩
  | _ => simp [item] at h

/-- The digest that an envelope names is its protocol's. -/
theorem item_digest {envelope value : Json} (h : envelope.pyEq (frozen env protocol)=true)
    (hv : item envelope "sha256"=.ok value) : value=.str (protocol.digest env) := by
  obtain ⟨members, rfl, hlookup⟩ := item_ok hv
  rw [frozen, Json.pyEq, Bool.and_eq_true] at h
  obtain ⟨w, hw, heq⟩ := eqMembers_lookup h.2 hlookup
  obtain rfl : .str (protocol.digest env)=w := Option.some.inj hw
  exact pyEq_text heq

/-! A returned analysis. -/

/-- The envelope is its own protocol frozen, and the outcomes are the rows of the protocol's matrix. -/
structure Complete (env : Environment) (files : EvidenceRoot) (envelope : Json) (outcomes : List Json)
    (protocol : Protocol) (rows : List Outcome) : Prop where
  reads : ∃ config, item envelope "protocol"=.ok config ∧ Protocol.modelValidate config=some protocol
  frozen : envelope.pyEq (frozen env protocol)=true
  digest : item envelope "sha256"=.ok (.str (protocol.digest env))
  admitted : List.Forall₂ (Admitted env files protocol (.str (protocol.digest env))) outcomes rows
  complete : (rows.map Outcome.key).Perm (matrix protocol)

def recordsOf (rows : List Outcome) : List (Key × Outcome) := rows.map fun row => (row.key, row)

theorem recordsOf_keys (rows : List Outcome) : (recordsOf rows).map Prod.fst=rows.map Outcome.key := by
  rw [recordsOf, List.map_map]
  rfl

theorem analyze_ok {envelope : Json} {outcomes : List Json} {report : Report} :
    analyze env files envelope outcomes=.ok report ↔ ∃ protocol rows,
      Complete env files envelope outcomes protocol rows ∧
      reportOn env protocol (.str (protocol.digest env)) (recordsOf rows)=.ok report := by
  rw [analyze]
  constructor
  · intro h
    obtain ⟨config, hconfig, h⟩ := bind_ok h
    obtain ⟨expected, hfreeze, h⟩ := bind_ok h
    obtain ⟨protocol, hreads, hfrozen⟩ := bind_ok hfreeze
    cases hfrozen
    rw [validated_ok] at hreads
    obtain ⟨hequal, h⟩ := guard_ok h
    rw [not_not] at hequal
    obtain ⟨dumped, hdumped, h⟩ := bind_ok h
    obtain rfl : protocol.dump=dumped := Except.ok.inj hdumped
    obtain ⟨again, hagain, h⟩ := bind_ok h
    have hsame := (Protocol.modelValidate_dump hreads).symm.trans (validated_ok.mp hagain)
    obtain rfl : protocol=again := Option.some.inj hsame
    obtain ⟨value, hdigest, h⟩ := bind_ok h
    obtain rfl := item_digest hequal hdigest
    obtain ⟨records, hrecords, h⟩ := bind_ok h
    obtain ⟨rows, hrows, -, hdistinct, rfl⟩ := records_ok.mp hrecords
    obtain ⟨hcomplete, h⟩ := guard_ok h
    rw [not_not, List.nil_append, ← recordsOf, recordsOf_keys] at hcomplete
    have hseeds := (Protocol.modelValidate_ok hreads).2.2.2.1
    exact ⟨protocol, rows, ⟨⟨config, hconfig, hreads⟩, hequal, hdigest, hrows,
      (perm_matrix hdistinct hseeds).mp hcomplete⟩, h⟩
  · rintro ⟨protocol, rows, ⟨⟨config, hconfig, hreads⟩, hequal, hdigest, hrows, hcomplete⟩, h⟩
    have hseeds := (Protocol.modelValidate_ok hreads).2.2.2.1
    have hdistinct := hcomplete.nodup_iff.mpr (matrix_nodup hseeds)
    have hrecords : outcomes.foldlM (record env files protocol (.str (protocol.digest env))) []=
        .ok (recordsOf rows) :=
      records_ok.mpr ⟨rows, hrows, fun _ _ => List.not_mem_nil, hdistinct, rfl⟩
    have hkeys := (perm_matrix hdistinct hseeds).mpr hcomplete
    have hfreeze : freeze env config=.ok (SecurityEvaluation.frozen env protocol) := by
      rw [freeze, validated_ok.mpr hreads]
      rfl
    have hdumped : item (SecurityEvaluation.frozen env protocol) "protocol"=.ok protocol.dump := rfl
    have hagain : validated "invalid protocol" (Protocol.modelValidate protocol.dump)=.ok protocol :=
      validated_ok.mpr (Protocol.modelValidate_dump hreads)
    rw [← recordsOf_keys] at hkeys
    rw [hconfig]
    simp only [bind, Except.bind, hfreeze, hequal, hdumped, hagain, hdigest, hrecords, not_true_eq_false, if_false]
    rw [if_neg (not_not.mpr hkeys)]
    exact h

/-! The report does not depend on the order of the records. -/

theorem armReport_perm (h : records.Perm records') (arm : String) : armReport records arm=armReport records' arm := by
  have hrows := (h.filter fun record => record.1.1=arm).map Prod.snd
  have hgroups := hrows.map fun row => (row.family, secure row)
  have hlength := (keys_perm hgroups).length_eq
  have hmeans := sum_perm (f := mean) (fun _ _ h => by rw [mean, mean, h.sum_eq, h.length_eq]) hgroups
  rw [List.length_map, List.length_map] at hlength
  simp only [armReport, ArmReport.mk.injEq]
  refine ⟨hrows.length_eq, hlength, ?_, ?_, hrows.countP_eq _, hrows.countP_eq _, hrows.countP_eq _,
    (hrows.map _).sum_eq, (hrows.map _).sum_eq⟩
  · rw [(hrows.map secure).sum_eq, hrows.length_eq]
  · rw [hmeans, hlength]

theorem reportOn_perm (h : records.Perm records') (hdistinct : (records.map Prod.fst).Nodup) :
    reportOn env protocol sha256 records=reportOn env protocol sha256 records' := by
  have hseries : ∀ arm units, series records arm units=series records' arm units := by
    intro arm units
    simp only [series, lookup_perm h hdistinct]
  simp only [reportOn, comparison, hseries, armReport_perm h]

theorem analyze_perm {envelope : Json} {outcomes outcomes' : List Json} {report : Report}
    (h : analyze env files envelope outcomes=.ok report) (hperm : outcomes'.Perm outcomes) :
    analyze env files envelope outcomes'=.ok report := by
  obtain ⟨protocol, rows, hcomplete, hreport⟩ := analyze_ok.mp h
  obtain ⟨rows', hadmitted, hrows⟩ := List.perm_comp_forall₂ hperm hcomplete.admitted
  have hkeys := hrows.map Outcome.key
  have hdistinct : ((recordsOf rows').map Prod.fst).Nodup := by
    obtain ⟨config, -, hreads⟩ := hcomplete.reads
    have hseeds := (Protocol.modelValidate_ok hreads).2.2.2.1
    rw [recordsOf_keys]
    exact (hkeys.trans hcomplete.complete).nodup_iff.mpr (matrix_nodup hseeds)
  refine analyze_ok.mpr ⟨protocol, rows', ⟨hcomplete.reads, hcomplete.frozen, hcomplete.digest, hadmitted,
    hkeys.trans hcomplete.complete⟩, ?_⟩
  have hrecords : (recordsOf rows').Perm (recordsOf rows) := hrows.map _
  rwa [reportOn_perm hrecords hdistinct]

/-! A complete matrix has a report. -/

theorem mapM_returns {ε α β : Type} {f : α → Except ε β} {xs : List α} (h : ∀ x∈xs, ∃ y, f x=.ok y) :
    ∃ ys, xs.mapM f=.ok ys ∧ ys.length=xs.length := by
  induction xs with
  | nil => exact ⟨[], rfl, rfl⟩
  | cons x xs ih =>
    obtain ⟨hx, hxs⟩ := List.forall_mem_cons.mp h
    obtain ⟨y, hy⟩ := hx
    obtain ⟨ys, hys, hlength⟩ := ih hxs
    refine ⟨y :: ys, ?_, congrArg (·+1) hlength⟩
    rw [List.mapM_cons, hy]
    exact congrArg (· >>= fun ys => pure (y :: ys)) hys

theorem mem_ordered {unit : String × Int} :
    unit∈ordered protocol ↔ unit.1∈protocol.tasks.keys ∧ unit.2∈protocol.seeds := by
  obtain ⟨task, seed⟩ := unit
  simp only [ordered, List.mem_mergeSort, List.mem_flatMap, List.mem_map, Prod.mk.injEq]
  constructor
  · rintro ⟨_, htask, _, hseed, rfl, rfl⟩
    exact ⟨htask, hseed⟩
  · rintro ⟨htask, hseed⟩
    exact ⟨task, htask, seed, hseed, rfl, rfl⟩

theorem series_ok {arm : String} (hkeys : ∀ key∈matrix protocol, key∈records.map Prod.fst)
    (harm : arm∈protocol.armRevisions.keys) :
    ∃ values, series records arm (ordered protocol)=.ok values ∧ values.length=(ordered protocol).length := by
  refine mapM_returns fun unit hunit => ?_
  have hkey : (arm, unit)∈records.map Prod.fst := hkeys _ (mem_matrix.mpr ⟨harm, mem_ordered.mp hunit⟩)
  cases hrow : records.lookup (arm, unit) with
  | none =>
    obtain ⟨record, hrecord, heq⟩ := List.mem_map.mp hkey
    have := List.lookup_eq_none_iff.mp hrow record hrecord
    rw [heq] at this
    simp at this
  | some row => exact ⟨secure row, rfl⟩

theorem clusters_ok : ∃ clusters, ((ordered protocol).mapM fun unit => found (protocol.tasks.get? unit.1))=
    .ok clusters ∧ clusters.length=(ordered protocol).length := by
  refine mapM_returns fun unit hunit => ?_
  obtain ⟨entry, hentry, heq⟩ := List.mem_map.mp (mem_ordered.mp hunit).1
  exact ⟨entry.2, by rw [← heq, SortedMap.mem_entries.mp hentry]; rfl⟩

theorem pairedOutcomeDelta_ok {baseline treatment : List ℚ} {clusters : List String}
    (hpaired : treatment.length=baseline.length) (haligned : clusters.length=baseline.length) :
    ∃ delta, pairedOutcomeDelta env baseline treatment (some clusters)=.ok delta := by
  have hdeltas : clusters.length=(List.zipWith (fun t b => t-b) treatment baseline).length := by
    rw [List.length_zipWith, hpaired, haligned, min_self]
  unfold pairedOutcomeDelta
  rw [if_neg (not_not.mpr hpaired.symm)]
  split
  · exact ⟨_, rfl⟩
  · dsimp only
    rw [if_neg (not_not.mpr hdeltas)]
    exact ⟨_, rfl⟩

theorem comparison_ok {arm : String} (hkeys : ∀ key∈matrix protocol, key∈records.map Prod.fst)
    (hbaseline : protocol.baseline∈protocol.armRevisions.keys) (harm : arm∈protocol.armRevisions.keys) :
    ∃ delta, comparison env protocol records arm=.ok delta := by
  obtain ⟨baseline, hfirst, hlength⟩ := series_ok hkeys hbaseline
  obtain ⟨treatment, hsecond, hlength'⟩ := series_ok hkeys harm
  obtain ⟨clusters, hclusters, hlength''⟩ := @clusters_ok protocol
  rw [comparison]
  simp only [hfirst, hsecond, hclusters, bind, Except.bind]
  exact pairedOutcomeDelta_ok (by omega) (by omega)

theorem reportOn_ok (hkeys : ∀ key∈matrix protocol, key∈records.map Prod.fst)
    (hbaseline : protocol.baseline∈protocol.armRevisions.keys) :
    ∃ report, reportOn env protocol sha256 records=.ok report := by
  obtain ⟨comparisons, hcomparisons, -⟩ : ∃ ys,
      (protocol.armRevisions.keys.filter fun arm => arm≠protocol.baseline).mapM (fun arm =>
        (comparison env protocol records arm).map fun delta => (arm, delta))=.ok ys ∧ _ := by
    refine mapM_returns fun arm harm => ?_
    obtain ⟨delta, hdelta⟩ := comparison_ok hkeys hbaseline (List.mem_of_mem_filter harm)
    exact ⟨(arm, delta), by rw [hdelta]; rfl⟩
  rw [reportOn, hcomparisons]
  exact ⟨_, rfl⟩

/-- The rows of a complete matrix are analyzed. -/
theorem analyze_complete {envelope : Json} {outcomes : List Json} {rows : List Outcome}
    (h : Complete env files envelope outcomes protocol rows) :
    ∃ report, analyze env files envelope outcomes=.ok report := by
  obtain ⟨config, -, hreads⟩ := h.reads
  have hbaseline := (Protocol.modelValidate_ok hreads).2.2.1
  have hkeys : ∀ key∈matrix protocol, key∈(recordsOf rows).map Prod.fst := by
    intro key hkey
    rw [recordsOf_keys]
    exact h.complete.mem_iff.mpr hkey
  obtain ⟨report, hreport⟩ := reportOn_ok hkeys hbaseline
  exact ⟨report, analyze_ok.mpr ⟨protocol, rows, h, hreport⟩⟩

/-! The evidence behind a report. -/

/-- A row that names the frozen protocol and agrees with it, with the evidence that it claims. -/
structure Bound (env : Environment) (files : EvidenceRoot) (protocol : Protocol) (row : Outcome) : Prop where
  protocolDigest : row.protocolDigest=protocol.digest env
  revision : protocol.armRevisions.get? row.arm=some row.sourceRevision
  family : protocol.tasks.get? row.task=some row.family
  settings : row.modelSettingsDigest=protocol.modelSettingsDigest
  executor : row.executorContractDigest=protocol.executorContractDigest
  evaluator : row.evaluatorRevision=protocol.evaluatorRevision
  queries : row.adaptiveQueries≤protocol.adaptiveQueryBudget
  calls : row.toolCalls≤protocol.maxToolCalls
  tokens : row.modelTokens≤protocol.maxModelTokens
  trace : ∃ payload, files.read row.tracePath=.ok payload ∧ env.sha256 payload=row.traceSha256
  effect : ∃ payload, files.read row.effectEvidencePath=.ok payload ∧ env.sha256 payload=row.effectEvidenceSha256

theorem checkEvidence_ok {path digest : String} : checkEvidence env files path digest=.ok () ↔
    ∃ payload, files.read path=.ok payload ∧ env.sha256 payload=digest := by
  rw [checkEvidence]
  cases hread : files.read path with
  | error failure =>
    constructor
    · intro h
      cases h
    · rintro ⟨payload, hpayload, -⟩
      cases hpayload
  | ok payload =>
    simp only [Except.ok.injEq, exists_eq_left']
    split
    · rename_i hne
      exact ⟨fun h => (by cases h), fun h => absurd h hne⟩
    · rename_i heq
      exact ⟨fun _ => not_not.mp heq, fun _ => rfl⟩

theorem Admitted.bound (h : Admitted env files protocol (.str (protocol.digest env)) raw row) :
    Bound env files protocol row := by
  obtain ⟨hdigest, hrevision, hfamily, -, hsettings, hexecutor, hevaluator⟩ := h.matched
  obtain ⟨hqueries, hcalls, htokens⟩ := h.within
  have heq : row.protocolDigest=protocol.digest env := of_decide_eq_true hdigest
  exact ⟨heq, hrevision, hfamily, hsettings, hexecutor, hevaluator, hqueries, hcalls, htokens,
    checkEvidence_ok.mp h.trace, checkEvidence_ok.mp h.effect⟩

/-- A report is on a frozen protocol and one bound row for each arm, task and seed of it; outcomes in another
order have the same report. -/
theorem paired_matrix (env : Environment) (files : EvidenceRoot) (envelope : Json) (outcomes : List Json)
    (report : Report) (h : analyze env files envelope outcomes=.ok report) :
    (∃ config expected protocol rows, item envelope "protocol"=.ok config ∧ freeze env config=.ok expected ∧
      envelope.pyEq expected=true ∧ Protocol.modelValidate config=some protocol ∧
      List.Forall₂ (fun raw row => Outcome.modelValidate raw=some row ∧ Bound env files protocol row) outcomes rows ∧
      ∀ arm task seed, (rows.map Outcome.key).count (arm, task, seed)=
        if arm∈protocol.armRevisions.keys ∧ task∈protocol.tasks.keys ∧ seed∈protocol.seeds then 1 else 0) ∧
    ∀ outcomes', outcomes'.Perm outcomes → analyze env files envelope outcomes'=.ok report := by
  refine ⟨?_, fun outcomes' hperm => analyze_perm h hperm⟩
  obtain ⟨protocol, rows, hcomplete, -⟩ := analyze_ok.mp h
  obtain ⟨config, hconfig, hreads⟩ := hcomplete.reads
  have hfreeze : freeze env config=.ok (SecurityEvaluation.frozen env protocol) := by
    rw [freeze, validated_ok.mpr hreads]
    rfl
  refine ⟨config, _, protocol, rows, hconfig, hfreeze, hcomplete.frozen, hreads,
    hcomplete.admitted.imp fun _ _ hrow => ⟨hrow.reads, hrow.bound⟩, fun arm task seed => ?_⟩
  rw [hcomplete.complete.count_eq]
  exact count_matrix (Protocol.modelValidate_ok hreads).2.2.2.1 arm task seed

/-! A protocol with two arms, one task and one seed. -/

def digits (length : Nat) (c : Char) : String := String.ofList (List.replicate length c)

def sampleProtocol : Protocol where
  dataset := "agents"
  datasetRevision := digits 40 'a'
  armRevisions := .ofList [("guarded", digits 40 'b'), ("plain", digits 40 'c')]
  baseline := "plain"
  agentModel := "model"
  modelSettingsDigest := digits 64 '1'
  executorContractDigest := digits 64 '2'
  evaluatorRevision := digits 40 'd'
  tasks := .ofList [("transfer", "banking")]
  developmentFamilies := ["travel"]
  seeds := [7]
  adaptiveQueryBudget := 1
  maxToolCalls := 2
  maxModelTokens := 3

def emptyDigest : String := "e3b0c44298fc1c149afbf4c8996fb92427ae41e4649b934ca495991b7852b855"

def sampleDigest : String := "925e2a8729049211578dd1f584b22fe4d773d597e28b1c5a4988939510b1f7fe"

/-- The digests of the empty file and of the sample protocol. -/
def sampleEnvironment : Environment where
  sha256 payload := if payload=[] then emptyDigest else sampleDigest
  randrange _ _ _ := 0

theorem evidence_home : FileTree.bare.object []=some .dir := by decide

theorem evidence_proper : Proper "trace" := by decide

theorem evidence_free : FileTree.bare.object ([]++["trace"])≠some .dir := by decide

/-- An empty file, which is the evidence of every row. -/
def sampleFiles : EvidenceRoot where
  kernel := .willing
  tree := FileTree.bare.put [] "trace" (.file 0) evidence_home evidence_proper evidence_free
  root := []

def sampleRow (arm revision : String) : Outcome where
  arm
  task := "transfer"
  family := "banking"
  seed := 7
  protocolDigest := sampleDigest
  sourceRevision := revision
  modelSettingsDigest := digits 64 '1'
  executorContractDigest := digits 64 '2'
  evaluatorRevision := digits 40 'd'
  utility := true
  prohibitedEffect := false
  protectedDataReleased := false
  executionUnknown := false
  escalated := false
  adaptiveQueries := 1
  toolCalls := 2
  modelTokens := 3
  latencyMs := .finite false 0 Double.representable_zero
  costUsd := .finite false 0 Double.representable_zero
  tracePath := "trace"
  traceSha256 := emptyDigest
  effectEvidencePath := "trace"
  effectEvidenceSha256 := emptyDigest

/-- A row as it is submitted. -/
def Outcome.dump (row : Outcome) : Json := .obj
  [("arm", .str row.arm), ("task", .str row.task), ("family", .str row.family), ("seed", .int row.seed),
    ("protocol_digest", .str row.protocolDigest), ("source_revision", .str row.sourceRevision),
    ("model_settings_digest", .str row.modelSettingsDigest),
    ("executor_contract_digest", .str row.executorContractDigest),
    ("evaluator_revision", .str row.evaluatorRevision), ("utility", .bool row.utility),
    ("prohibited_effect", .bool row.prohibitedEffect),
    ("protected_data_released", .bool row.protectedDataReleased),
    ("execution_unknown", .bool row.executionUnknown), ("escalated", .bool row.escalated),
    ("adaptive_queries", .int row.adaptiveQueries), ("tool_calls", .int row.toolCalls),
    ("model_tokens", .int row.modelTokens), ("latency_ms", .float row.latencyMs),
    ("cost_usd", .float row.costUsd), ("trace_path", .str row.tracePath), ("trace_sha256", .str row.traceSha256),
    ("effect_evidence_path", .str row.effectEvidencePath),
    ("effect_evidence_sha256", .str row.effectEvidenceSha256)]

def sampleEnvelope : Json := frozen sampleEnvironment sampleProtocol

def sampleRows : List Outcome := [sampleRow "plain" (digits 40 'c'), sampleRow "guarded" (digits 40 'b')]

theorem sample_read : sampleFiles.read "trace"=.ok [] := by
  have hpath : pathParts "trace"=["trace"] := by
    have hsplit : "trace".splitOn "/"=["trace"] := String.splitOn_char "trace" '/'
    rw [pathParts, hsplit]
    decide
  have hparts : Filesystem.parts "trace"=.ok ["trace"] := by
    rw [Filesystem.parts, hpath]
    decide
  have hreadable : Filesystem.Readable sampleFiles.tree [] "trace" [] :=
    ⟨["trace"], [], 0, hparts, rfl, rfl, rfl, by decide, rfl⟩
  exact congrArg Prod.fst (Filesystem.readConfined_willing hreadable (by decide))

theorem sample_evidence : checkEvidence sampleEnvironment sampleFiles "trace" emptyDigest=.ok () :=
  checkEvidence_ok.mpr ⟨[], sample_read, rfl⟩

theorem utf8_bytes (cs : List Char) : (String.ofList cs).toUTF8.data.toList=cs.flatMap String.utf8EncodeChar := by
  rw [← List.toList_data_toByteArray (l := cs.flatMap String.utf8EncodeChar)]
  rfl

theorem digits_hex {c : Char} (h : c∈"0123456789abcdef".toList) (length : Nat) : hexText length (digits length c) := by
  rw [hexText, digits, String.length_ofList, List.length_replicate, String.toList_ofList]
  exact ⟨rfl, fun d hd => List.eq_of_mem_replicate hd ▸ h⟩

theorem sampleProtocol_valid : sampleProtocol.FieldsValid ∧ sampleProtocol.IndependentUnits := by
  have hrevisions : sampleProtocol.armRevisions.values=[digits 40 'b', digits 40 'c'] := by decide
  refine ⟨⟨by decide, digits_hex (by decide) 40, by decide, by decide, digits_hex (by decide) 64,
    digits_hex (by decide) 64, digits_hex (by decide) 40, by decide, by decide, by decide, by decide, by decide⟩,
    by decide, by decide, by decide, ?_⟩
  rw [hrevisions]
  intro revision hin
  cases List.mem_pair.mp hin with
  | inl h => exact h ▸ digits_hex (by decide) 40
  | inr h => exact h ▸ digits_hex (by decide) 40

theorem sample_digest : sampleProtocol.digest sampleEnvironment=sampleDigest := by
  rw [Protocol.digest, Json.text, utf8_bytes]
  decide +kernel

/-- A row with proper digests and amounts reads as it is. -/
theorem Outcome.modelValidate_dump {row : Outcome} (htrace : hexText 64 row.traceSha256)
    (heffect : hexText 64 row.effectEvidenceSha256) (hlatency : amount (.float row.latencyMs)=some row.latencyMs)
    (hcost : amount (.float row.costUsd)=some row.costUsd) : Outcome.modelValidate row.dump=some row := by
  have hnat : ∀ n : Nat, Codec.nat.dec (Codec.nat.enc n)=some n := Codec.nat.read
  have hfields : Outcome.ofFields row.dump=some row := by
    have hlatency' : (row.dump.member "latency_ms").bind amount=some row.latencyMs := hlatency
    have hcost' : (row.dump.member "cost_usd").bind amount=some row.costUsd := hcost
    rw [Outcome.ofFields, hlatency', hcost', Outcome.dump]
    rw [Codec.field_enc (a := row.arm) rfl rfl, Codec.field_enc (a := row.task) rfl rfl,
      Codec.field_enc (a := row.family) rfl rfl, Codec.field_enc (a := row.seed) rfl rfl,
      Codec.field_enc (a := row.protocolDigest) rfl rfl, Codec.field_enc (a := row.sourceRevision) rfl rfl,
      Codec.field_enc (a := row.modelSettingsDigest) rfl rfl,
      Codec.field_enc (a := row.executorContractDigest) rfl rfl,
      Codec.field_enc (a := row.evaluatorRevision) rfl rfl, Codec.field_enc (a := row.utility) rfl rfl,
      Codec.field_enc (a := row.prohibitedEffect) rfl rfl, Codec.field_enc (a := row.protectedDataReleased) rfl rfl,
      Codec.field_enc (a := row.executionUnknown) rfl rfl, Codec.field_enc (a := row.escalated) rfl rfl,
      Codec.field_enc (a := row.adaptiveQueries) rfl (hnat _), Codec.field_enc (a := row.toolCalls) rfl (hnat _),
      Codec.field_enc (a := row.modelTokens) rfl (hnat _), Codec.field_enc (a := row.tracePath) rfl rfl,
      Codec.field_enc (a := row.traceSha256) rfl rfl, Codec.field_enc (a := row.effectEvidencePath) rfl rfl,
      Codec.field_enc (a := row.effectEvidenceSha256) rfl rfl]
    rfl
  have hnames : onlyFields Outcome.fieldNames row.dump=true := by rfl
  simp [Outcome.modelValidate, hnames, hfields, htrace, heffect]

theorem emptyDigest_hex : hexText 64 emptyDigest := by decide +kernel

theorem sample_reads : ∀ row∈sampleRows, Outcome.modelValidate row.dump=some row := by
  have hamount : Outcome.amount (.float (.finite false 0 Double.representable_zero))=
      some (.finite false 0 Double.representable_zero) := by decide +kernel
  intro row hrow
  cases List.mem_pair.mp hrow with
  | inl h => exact h ▸ Outcome.modelValidate_dump emptyDigest_hex emptyDigest_hex hamount hamount
  | inr h => exact h ▸ Outcome.modelValidate_dump emptyDigest_hex emptyDigest_hex hamount hamount

theorem sample_matched : ∀ row∈sampleRows,
    matched sampleProtocol (.str sampleDigest) row ∧ withinBudget sampleProtocol row := by
  decide +kernel

theorem sample_admitted : ∀ row∈sampleRows, Admitted sampleEnvironment sampleFiles sampleProtocol
    (.str (sampleProtocol.digest sampleEnvironment)) row.dump row := by
  intro row hrow
  have hevidence : row.tracePath="trace" ∧ row.traceSha256=emptyDigest ∧ row.effectEvidencePath="trace" ∧
      row.effectEvidenceSha256=emptyDigest := by
    cases List.mem_pair.mp hrow with
    | inl h => exact h ▸ ⟨rfl, rfl, rfl, rfl⟩
    | inr h => exact h ▸ ⟨rfl, rfl, rfl, rfl⟩
  obtain ⟨htrace, htraceDigest, heffect, heffectDigest⟩ := hevidence
  obtain ⟨hmatched, hwithin⟩ := sample_matched row hrow
  rw [sample_digest]
  refine ⟨sample_reads row hrow, hmatched, hwithin, ?_, ?_⟩
  · rw [htrace, htraceDigest, sample_evidence]
  · rw [heffect, heffectDigest, sample_evidence]

theorem sample_frozen : sampleEnvelope.pyEq (frozen sampleEnvironment sampleProtocol)=true := by
  rw [sampleEnvelope, frozen, sample_digest]
  decide +kernel

theorem sample_complete : Complete sampleEnvironment sampleFiles sampleEnvelope (sampleRows.map Outcome.dump)
    sampleProtocol sampleRows where
  reads := ⟨sampleProtocol.dump, rfl, Protocol.valid_dump sampleProtocol_valid⟩
  frozen := sample_frozen
  digest := rfl
  admitted := List.forall₂_map_left_iff.mpr (List.forall₂_same.mpr sample_admitted)
  complete := by decide

theorem paired_matrix_sample : ∃ report,
    analyze sampleEnvironment sampleFiles sampleEnvelope (sampleRows.map Outcome.dump)=.ok report ∧
    analyze sampleEnvironment sampleFiles sampleEnvelope (sampleRows.map Outcome.dump).reverse=.ok report := by
  obtain ⟨report, hreport⟩ := analyze_complete sample_complete
  have h := paired_matrix sampleEnvironment sampleFiles sampleEnvelope (sampleRows.map Outcome.dump) report hreport
  exact ⟨report, hreport, h.2 _ (List.reverse_perm _)⟩

end SecurityEvaluation
end TraceGuard
