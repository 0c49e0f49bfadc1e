import Mathlib.Data.List.TakeWhile
import Mathlib.Tactic.Linarith
import TraceGuard.RequestLimits
import TraceGuard.Windows

/-! Request budgets under interleaving. The invariant ties the counter to the coroutines that are past
admission and each bucket to the admitted arrivals of its principal. -/
namespace TraceGuard
namespace RequestLimits
open Windows Traces

/-! The bucket table, read by key. -/

variable {buckets : List (Key × List ℚ)} {key other : Key} {now : ℚ} {times : List ℚ}

theorem bucketOf_cons (bucket : Key × List ℚ) :
    bucketOf (bucket :: buckets) key=if key=bucket.1 then bucket.2 else bucketOf buckets key := by
  obtain ⟨first, times⟩ := bucket
  by_cases h : key=first
  · simp [bucketOf, h]
  · simp [bucketOf, List.lookup_cons, h, beq_eq_false_iff_ne.mpr h]

theorem bucketOf_mem (distinct : (buckets.map Prod.fst).Nodup) (h : (key, times)∈buckets) :
    bucketOf buckets key=times := by
  induction buckets with
  | nil => cases h
  | cons bucket rest ih =>
    obtain ⟨key', times'⟩ := bucket
    rw [List.map_cons, List.nodup_cons] at distinct
    rw [bucketOf_cons]
    cases List.mem_cons.mp h with
    | inl h =>
      cases h
      exact if_pos rfl
    | inr h =>
      have hne : key≠key' := fun he => distinct.1 (List.mem_map.mpr ⟨_, h, he⟩)
      rw [if_neg hne]
      exact ih distinct.2 h

theorem bucketOf_absent (h : key∉buckets.map Prod.fst) : bucketOf buckets key=[] := by
  induction buckets with
  | nil => rfl
  | cons bucket rest ih =>
    rw [List.map_cons, List.mem_cons, not_or] at h
    rw [bucketOf_cons, if_neg h.1]
    exact ih h.2

theorem live_distinct (h : (buckets.map Prod.fst).Nodup) : ((live buckets now).map Prod.fst).Nodup :=
  h.sublist (List.filter_sublist.map _)

/-- A key's bucket stays, or goes because nothing in it is recent. -/
theorem bucketOf_live (h : (buckets.map Prod.fst).Nodup) (now : ℚ) (key : Key) :
    bucketOf (live buckets now) key=bucketOf buckets key ∨
      (bucketOf (live buckets now) key=[] ∧ ∀ last∈(bucketOf buckets key).getLast?, last≤now-60) := by
  by_cases hk : key∈buckets.map Prod.fst
  · obtain ⟨⟨key', times⟩, hmem, rfl⟩ := List.mem_map.mp hk
    have hold := bucketOf_mem h hmem
    by_cases hl : times.getLast?.any fun last => now-60 < last
    · left
      rw [hold]
      exact bucketOf_mem (live_distinct h) (List.mem_filter.mpr ⟨hmem, hl⟩)
    · right
      refine ⟨bucketOf_absent fun hin => hl ?_, fun last hlast => ?_⟩
      · obtain ⟨⟨key'', times'⟩, hmem', heq⟩ := List.mem_map.mp hin
        obtain ⟨hmem', hl'⟩ := List.mem_filter.mp hmem'
        cases heq
        have : times'=times := (bucketOf_mem h hmem').symm.trans hold
        exact this ▸ hl'
      · rw [hold] at hlast
        rw [Option.mem_def.mp hlast] at hl
        simpa using hl
  · left
    rw [bucketOf_absent hk]
    exact bucketOf_absent fun hin => hk ((List.filter_sublist.map _).subset hin)

theorem store_distinct (h : (buckets.map Prod.fst).Nodup) : ((store buckets key times).map Prod.fst).Nodup := by
  rw [store]
  split
  · have : (buckets.map fun bucket => if bucket.1=key then (key, times) else bucket).map Prod.fst=
        buckets.map Prod.fst := by
      rw [List.map_map]
      refine List.map_congr_left fun bucket _ => ?_
      by_cases hk : bucket.1=key <;> simp [hk]
    rwa [this]
  · rename_i hk
    rw [List.map_append, List.nodup_append]
    refine ⟨h, by simp, ?_⟩
    intro a ha b hb
    cases List.mem_singleton.mp hb
    rintro rfl
    exact hk ha

theorem store_length_le {limit : Nat} (h : buckets.length≤limit)
    (room : ¬(key∉buckets.map Prod.fst ∧ limit≤buckets.length)) : (store buckets key times).length≤limit := by
  rw [store]
  split
  · simpa using h
  · rename_i hk
    have : ¬limit≤buckets.length := fun hl => room ⟨hk, hl⟩
    simp only [List.length_append, List.length_singleton]
    omega

theorem bucketOf_store_self : bucketOf (store buckets key times) key=times := by
  rw [store]
  split
  · rename_i hk
    induction buckets with
    | nil => cases hk
    | cons bucket rest ih =>
      rw [List.map_cons, bucketOf_cons]
      by_cases he : bucket.1=key
      · simp [he]
      · rw [if_neg he, if_neg (Ne.symm he)]
        rw [List.map_cons, List.mem_cons] at hk
        exact ih (hk.resolve_left fun h => he h.symm)
  · rename_i hk
    induction buckets with
    | nil => simp [bucketOf_cons]
    | cons bucket rest ih =>
      rw [List.map_cons, List.mem_cons, not_or] at hk
      rw [List.cons_append, bucketOf_cons, if_neg hk.1]
      exact ih hk.2

theorem bucketOf_store_ne (h : other≠key) : bucketOf (store buckets key times) other=bucketOf buckets other := by
  rw [store]
  split
  · rename_i hk
    clear hk
    induction buckets with
    | nil => rfl
    | cons bucket rest ih =>
      rw [List.map_cons, bucketOf_cons, bucketOf_cons, ih]
      by_cases he : bucket.1=key
      · simp [he, h]
      · rw [if_neg he]
  · rename_i hk
    clear hk
    induction buckets with
    | nil => simp [bucketOf_cons, h]
    | cons bucket rest ih => rw [List.cons_append, bucketOf_cons, bucketOf_cons, ih]

/-! The buckets hold what the rate needs of the arrivals. -/

/-- When a principal was admitted. -/
def timesOf (arrivals : List (Key × ℚ)) (key : Key) : List ℚ :=
  (arrivals.filter fun arrival => arrival.1=key).map Prod.snd

structure Tabled (limits : RequestLimits) (buckets : List (Key × List ℚ)) (arrivals : List (Key × ℚ))
    (clock : ℚ) : Prop where
  distinct : (buckets.map Prod.fst).Nodup
  few : buckets.length≤limits.maxPrincipals
  past : ∀ arrival∈arrivals, arrival.2 ≤ clock
  ordered : ∀ key, (timesOf arrivals key).Pairwise (·≤·)
  kept : ∀ key, Kept 60 clock (timesOf arrivals key) (bucketOf buckets key)
  paced : ∀ key, Paced 60 limits.requestsPerMinute (timesOf arrivals key)

variable {self : RequestLimits} {arrivals : List (Key × ℚ)} {clock : ℚ}

theorem timesOf_snoc_self : timesOf (arrivals++[(key, now)]) key=timesOf arrivals key++[now] := by
  simp [timesOf, List.filter_append]

theorem timesOf_snoc_ne (h : other≠key) : timesOf (arrivals++[(key, now)]) other=timesOf arrivals other := by
  simp [timesOf, List.filter_append, Ne.symm h]

theorem mem_timesOf {t : ℚ} (h : t∈timesOf arrivals key) : (key, t)∈arrivals := by
  obtain ⟨⟨key', t'⟩, hmem, rfl⟩ := List.mem_map.mp h
  obtain ⟨hin, hk⟩ := List.mem_filter.mp hmem
  obtain rfl : key'=key := of_decide_eq_true hk
  exact hin

namespace Tabled

theorem start : self.Tabled [] [] clock :=
  ⟨List.nodup_nil, Nat.zero_le _, nofun, fun _ => .nil, fun _ => .nil, fun _ => .nil⟩

theorem later (h : self.Tabled buckets arrivals clock) (hn : clock≤now) : self.Tabled buckets arrivals now where
  distinct := h.distinct
  few := h.few
  past := fun arrival ha => (h.past arrival ha).trans hn
  ordered := h.ordered
  kept := fun key => (h.kept key).later hn
  paced := h.paced

theorem bucket_ordered (h : self.Tabled buckets arrivals clock) (key : Key) :
    (bucketOf buckets key).Pairwise (·≤·) := by
  obtain ⟨old, heq, -⟩ := h.kept key
  have := h.ordered key
  rw [heq] at this
  exact (List.pairwise_append.mp this).2.1

/-- The buckets that are dropped hold nothing that counts. -/
theorem live (h : self.Tabled buckets arrivals now) : self.Tabled (live buckets now) arrivals now where
  distinct := live_distinct h.distinct
  few := (List.length_filter_le ..).trans h.few
  past := h.past
  ordered := h.ordered
  paced := h.paced
  kept := by
    intro key
    cases bucketOf_live h.distinct now key with
    | inl heq => exact heq ▸ h.kept key
    | inr heq =>
      obtain ⟨hnil, hlast⟩ := heq
      rw [hnil]
      have hk := h.kept key
      rw [← List.append_nil (bucketOf buckets key)] at hk
      refine hk.drop fun t ht => ?_
      have hne : bucketOf buckets key≠[] := List.ne_nil_of_mem ht
      have hsorted := h.bucket_ordered key
      rw [← List.dropLast_concat_getLast hne] at ht hsorted
      have hle := hlast _ (List.getLast?_eq_some_getLast hne)
      cases List.mem_append.mp ht with
      | inl ht => exact ((List.pairwise_append.mp hsorted).2.2 t ht _ (List.mem_singleton_self _)).trans hle
      | inr ht => exact List.mem_singleton.mp ht ▸ hle

theorem recent (h : self.Tabled buckets arrivals now) (key : Key) :
    Kept 60 now (timesOf arrivals key) (recent (bucketOf buckets key) now) := by
  have hk := h.kept key
  rw [← List.takeWhile_append_dropWhile (p := fun time => decide (time≤now-60)) (l := bucketOf buckets key)] at hk
  exact hk.drop fun t ht => of_decide_eq_true (p := t≤now-60)
    (List.mem_takeWhile_imp (p := fun time => decide (time≤now-60)) ht)

/-- A bucket may be replaced by what it keeps. -/
theorem store (h : self.Tabled buckets arrivals now) (hk : Kept 60 now (timesOf arrivals key) times)
    (room : ¬(key∉buckets.map Prod.fst ∧ self.maxPrincipals≤buckets.length)) :
    self.Tabled (store buckets key times) arrivals now where
  distinct := store_distinct h.distinct
  few := store_length_le h.few room
  past := h.past
  ordered := h.ordered
  paced := h.paced
  kept := by
    intro other
    by_cases ho : other=key
    · rw [ho, bucketOf_store_self]
      exact hk
    · rw [bucketOf_store_ne ho]
      exact h.kept other

/-- An arrival into a bucket that is not full. -/
theorem arrive (h : self.Tabled buckets arrivals now) (hk : Kept 60 now (timesOf arrivals key) times)
    (room : ¬(key∉buckets.map Prod.fst ∧ self.maxPrincipals≤buckets.length))
    (free : times.length < self.requestsPerMinute) :
    self.Tabled (RequestLimits.store buckets key (times++[now])) (arrivals++[(key, now)]) now where
  distinct := store_distinct h.distinct
  few := store_length_le h.few room
  past := by
    intro arrival ha
    cases List.mem_append.mp ha with
    | inl ha => exact h.past arrival ha
    | inr ha => exact List.mem_singleton.mp ha ▸ le_refl now
  ordered := by
    intro other
    by_cases ho : other=key
    · rw [ho, timesOf_snoc_self, List.pairwise_append]
      refine ⟨h.ordered key, List.pairwise_singleton .., fun t ht u hu => ?_⟩
      rw [List.mem_singleton.mp hu]
      exact h.past _ (mem_timesOf ht)
    · rw [timesOf_snoc_ne ho]
      exact h.ordered other
  paced := by
    intro other
    by_cases ho : other=key
    · rw [ho, timesOf_snoc_self]
      refine (h.paced key).snoc ?_
      have := hk.countP_le
      omega
    · rw [timesOf_snoc_ne ho]
      exact h.paced other
  kept := by
    intro other
    by_cases ho : other=key
    · rw [ho, bucketOf_store_self, timesOf_snoc_self]
      exact hk.snoc now
    · rw [bucketOf_store_ne ho, timesOf_snoc_ne ho]
      exact h.kept other

end Tabled

/-- The admission of a principal keeps the table, and an arrival is added just when it is admitted. -/
theorem admit_tabled (h : self.Tabled buckets arrivals clock) (hn : clock≤now) (inflight : Int)
    (key : Key) : ∃ shared : Shared,
    (∃ detail, self.admitRequest ⟨inflight, buckets⟩ key now=(shared, .rejected detail) ∧ shared.inflight=inflight ∧
      self.Tabled shared.buckets arrivals now) ∨
    (self.admitRequest ⟨inflight, buckets⟩ key now=(shared, .admitted) ∧ shared.inflight=inflight+1 ∧
      self.Tabled shared.buckets (arrivals++[(key, now)]) now) := by
  have hl := (h.later hn).live
  have hk := hl.recent key
  rw [admitRequest]
  split
  · exact ⟨_, .inl ⟨_, rfl, rfl, hl⟩⟩
  · rename_i room
    dsimp only
    split
    · exact ⟨_, .inl ⟨_, rfl, rfl, hl.store hk room⟩⟩
    · rename_i free
      exact ⟨_, .inr ⟨rfl, rfl, hl.arrive hk room (by omega)⟩⟩

/-- The ways through `__call__` to its first await. A call is admitted only while the counter is below its
bound. -/
theorem enter_tabled {shared : Shared} (h : self.Tabled shared.buckets arrivals clock) (hn : clock≤now)
    (identity : String → Identity) (headers : List (Bytes × Bytes)) : ∃ shared' : Shared,
    (∃ admission, self.enter shared identity headers now=(shared', admission) ∧ admission≠.admitted ∧
      shared'.inflight=shared.inflight ∧ self.Tabled shared'.buckets arrivals now) ∨
    (self.enter shared identity headers now=(shared', .admitted) ∧ shared.inflight < self.maxInflight ∧
      shared'.inflight=shared.inflight+1 ∧
      self.Tabled shared'.buckets (arrivals++arrival identity headers now) now) := by
  rw [enter, arrival]
  split
  · exact ⟨_, .inl ⟨_, rfl, nofun, rfl, h.later hn⟩⟩
  · rename_i room
    cases hs : sender identity headers with
    | raised => exact ⟨_, .inl ⟨_, rfl, nofun, rfl, h.later hn⟩⟩
    | refused => exact ⟨_, .inr ⟨rfl, by omega, rfl, by simpa using h.later hn⟩⟩
    | actor key =>
      obtain ⟨shared', h' | h'⟩ := admit_tabled h hn shared.inflight key
      · obtain ⟨detail, heq, hin, ht⟩ := h'
        exact ⟨shared', .inl ⟨_, heq, nofun, hin, ht⟩⟩
      · obtain ⟨heq, hin, ht⟩ := h'
        exact ⟨shared', .inr ⟨heq, by omega, hin, ht⟩⟩

/-! The counter. -/

/-- The requests past admission and not finished. -/
def admittedOf (running : List (Nat × Phase)) : Nat := running.countP fun r => r.2.admitted

structure Counted (limits : RequestLimits) (s : State) : Prop where
  distinct : (s.running.map Prod.fst).Nodup
  inflight : s.shared.inflight=admittedOf s.running
  few : s.shared.inflight≤limits.maxInflight

variable {running : List (Nat × Phase)} {id : Nat} {phase : Phase}

theorem phase_none {s : State} (h : s.phase id=none) : id∉s.running.map Prod.fst := by
  intro hin
  obtain ⟨r, hr, rfl⟩ := List.mem_map.mp hin
  simpa using List.lookup_eq_none_iff.mp h r hr

/-- The place of a coroutine among those that are running. -/
theorem running_split (h : running.lookup id=some phase) (distinct : (running.map Prod.fst).Nodup) :
    ∃ before after, running=before++(id, phase) :: after ∧ ∀ r∈before++after, r.1≠id := by
  obtain ⟨before, after, heq, -⟩ := List.lookup_eq_some_iff.mp h
  refine ⟨before, after, heq, fun r hr he => ?_⟩
  have hperm : running.Perm ((id, phase) :: (before++after)) := heq ▸ List.perm_middle
  have hcons := (hperm.map Prod.fst).nodup distinct
  rw [List.map_cons, List.nodup_cons] at hcons
  exact hcons.1 (List.mem_map.mpr ⟨r, hr, he⟩)

/-- A coroutine that moves on within its request changes no count. -/
theorem admittedOf_move (h : running.lookup id=some phase) (distinct : (running.map Prod.fst).Nodup)
    {phase' : Phase} (hp : phase'.admitted=phase.admitted) :
    admittedOf (running.map fun r => if r.1=id then (id, phase') else r)=admittedOf running := by
  obtain ⟨before, after, rfl, hne⟩ := running_split h distinct
  rw [admittedOf, List.countP_map]
  refine List.countP_congr fun r hr => ?_
  by_cases hid : r.1=id
  · have hr' : r=(id, phase) := by
      have := hne r
      simp only [List.mem_append, List.mem_cons] at hr this
      tauto
    simp [hr', hp]
  · simp [hid]

/-- With a coroutine its request goes from the count. -/
theorem admittedOf_filter (h : running.lookup id=some phase) (distinct : (running.map Prod.fst).Nodup) :
    admittedOf running=admittedOf (running.filter fun r => r.1≠id)+(if phase.admitted then 1 else 0) := by
  obtain ⟨before, after, rfl, hne⟩ := running_split h distinct
  have hb : before.filter (fun r => r.1≠id)=before :=
    List.filter_eq_self.mpr fun r hr => decide_eq_true (hne r (List.mem_append_left _ hr))
  have ha : after.filter (fun r => r.1≠id)=after :=
    List.filter_eq_self.mpr fun r hr => decide_eq_true (hne r (List.mem_append_right _ hr))
  rw [List.filter_append, List.filter_cons_of_neg (by simp), hb, ha]
  simp only [admittedOf, List.countP_append, List.countP_cons]
  omega

/-! The invariant of the system. -/

structure Invariant (limits : RequestLimits) (s : State) : Prop where
  counted : limits.Counted s
  tabled : limits.Tabled s.shared.buckets s.arrivals s.clock

theorem Counted.append {s t : State} (h : self.Counted s) (fresh : s.phase id=none)
    (hrun : t.running=s.running++[(id, phase)])
    (hin : t.shared.inflight=s.shared.inflight+(if phase.admitted then 1 else 0))
    (room : phase.admitted=true → s.shared.inflight < self.maxInflight) : self.Counted t where
  distinct := by
    rw [hrun, List.map_append, List.nodup_append]
    refine ⟨h.distinct, by simp, fun a ha b hb hab => phase_none fresh ?_⟩
    obtain rfl : b=id := List.mem_singleton.mp hb
    exact hab ▸ ha
  inflight := by
    rw [hin, hrun, h.inflight, admittedOf, admittedOf, List.countP_append, List.countP_singleton]
    split <;> simp
  few := by
    rw [hin]
    have := h.few
    cases hp : phase.admitted with
    | false => simpa using this
    | true =>
      have := room hp
      simp only [if_true]
      omega

theorem Counted.move {s : State} (h : self.Counted s) (hp : s.phase id=some phase) {phase' : Phase}
    (same : phase'.admitted=phase.admitted) (clock : ℚ) :
    self.Counted { s.move id phase' with clock } where
  distinct := by
    have : (s.running.map fun r => if r.1=id then (id, phase') else r).map Prod.fst=s.running.map Prod.fst := by
      rw [List.map_map]
      refine List.map_congr_left fun r _ => ?_
      by_cases hid : r.1=id <;> simp [hid]
    exact this ▸ h.distinct
  inflight := by
    have := admittedOf_move hp h.distinct same
    exact h.inflight.trans (by rw [← this]; rfl)
  few := h.few

theorem Counted.finish {s : State} (h : self.Counted s) (hp : s.phase id=some phase) (clock : ℚ) :
    self.Counted { s.finish id phase with clock } where
  distinct := h.distinct.sublist (List.filter_sublist.map _)
  inflight := by
    have := admittedOf_filter hp h.distinct
    have := h.inflight
    simp only [State.finish]
    split <;> simp_all
  few := by
    have := h.few
    simp only [State.finish]
    split <;> omega

theorem begin_invariant {s : State} (h : self.Invariant s) (fresh : s.phase id=none) {base later : ℚ}
    (hn : s.clock≤now) (hl : now≤later) (scope : Scope) (identity : String → Identity) :
    self.Invariant (self.begin s id scope identity now base later) := by
  cases scope with
  | other =>
    exact ⟨h.counted.append fresh rfl (by simp [begin, Phase.admitted]) nofun, h.tabled.later (hn.trans hl)⟩
  | http headers =>
    obtain ⟨shared, h' | h'⟩ := enter_tabled h.tabled hn identity headers
    · obtain ⟨admission, heq, hne, hin, ht⟩ := h'
      cases admission with
      | rejected detail =>
        simp only [begin, heq]
        exact ⟨h.counted.append fresh rfl (by simp [hin, Phase.admitted]) nofun, ht.later hl⟩
      | raised =>
        simp only [begin, heq]
        exact ⟨⟨h.counted.distinct, hin.trans h.counted.inflight, hin ▸ h.counted.few⟩, ht.later hl⟩
      | admitted => exact absurd rfl hne
    · obtain ⟨heq, room, hin, ht⟩ := h'
      simp only [begin, heq]
      have hp : (await [] (base+5) later).admitted=true := by
        rw [await]
        split <;> rfl
      exact ⟨h.counted.append fresh rfl (by simp [hin, hp]) fun _ => room, ht.later hl⟩

/-- A turn of the reading loop stays within the request. -/
theorem receive_admitted {payload : Bytes} {deadline : ℚ} {received : Received} {phase : Phase}
    (h : self.receive payload deadline received now=some phase) : phase.admitted=true := by
  have dispatched : ∀ payload phase, self.dispatch payload=some phase → phase.admitted=true := by
    intro payload phase h
    rw [dispatch] at h
    split at h
    · cases h
      rfl
    · split at h <;> cases h <;> rfl
  cases received with
  | disconnect => cases h
  | raised => cases h
  | timeout =>
    cases h
    rfl
  | message body moreBody =>
    rw [receive] at h
    split at h
    · cases h
      rfl
    · split at h
      · cases h
        rw [await]
        split <;> rfl
      · exact dispatched _ _ h

theorem step_invariant {s t : State} {e : Event} (h : self.Invariant s) (hs : self.Step s e t) :
    self.Invariant t := by
  cases e with
  | call id scope identity now base later =>
    simp only [Step, step, Option.ite_none_right_eq_some, Option.some.injEq] at hs
    obtain ⟨⟨fresh, hn, hb, hl⟩, rfl⟩ := hs
    exact begin_invariant h fresh hn (hb.trans hl) scope identity
  | received id received now =>
    simp only [Step, step] at hs
    split at hs
    · rename_i payload deadline hp
      simp only [Option.ite_none_right_eq_some] at hs
      obtain ⟨hn, hs⟩ := hs
      split at hs
      · rename_i phase hr
        cases hs
        exact ⟨h.counted.move hp (receive_admitted hr) now, h.tabled.later hn⟩
      · cases hs
        exact ⟨h.counted.finish hp now, h.tabled.later hn⟩
    · cases hs
  | proceed id =>
    simp only [Step, step] at hs
    split at hs
    · cases hs
    · cases hs
    · cases hs
      exact h
  | leave id =>
    simp only [Step, step] at hs
    split at hs
    · cases hs
    · cases hs
    · rename_i hp
      cases hs
      exact ⟨h.counted.finish hp s.clock, h.tabled⟩

theorem run_invariant {start : ℚ} {es : List Event} {s : State}
    (h : Run self.Step { clock := start } es s) : self.Invariant s := by
  apply h.invariant (I := fun _ s => self.Invariant s)
  · exact ⟨⟨List.nodup_nil, rfl, Int.natCast_nonneg _⟩, Tabled.start⟩
  · intro es t e u _ ht hs
    exact step_invariant ht hs

/-- How often a principal was admitted at the times of a window. -/
def admissions (s : State) (key : Key) (window : ℚ → Bool) : Nat :=
  s.arrivals.countP fun arrival => arrival.1=key ∧ window arrival.2

theorem admissions_timesOf (s : State) (key : Key) (window : ℚ → Bool) :
    admissions s key window=(timesOf s.arrivals key).countP window := by
  rw [admissions, timesOf, List.countP_map, List.countP_filter]
  refine List.countP_congr fun arrival _ => ?_
  simp [and_comm]

/-- In every interleaving the counter is the number of requests past admission, within its bound; there is
one bucket for a principal and no more than the bound; and in no window of 60 seconds, open at either end, is
a principal admitted more often than it may. -/
theorem requests_bounded {start : ℚ} {es : List Event} {s : State}
    (h : Run self.Step { clock := start } es s) :
    s.shared.inflight=admittedOf s.running ∧ s.shared.inflight ≤ self.maxInflight ∧
      (s.shared.buckets.map Prod.fst).Nodup ∧ s.shared.buckets.length ≤ self.maxPrincipals ∧
      ∀ key from', admissions s key (fun t => from'≤t ∧ t < from'+60) ≤ self.requestsPerMinute ∧
        admissions s key (fun t => from' < t ∧ t≤from'+60) ≤ self.requestsPerMinute := by
  obtain ⟨hc, ht⟩ := run_invariant h
  refine ⟨hc.inflight, hc.few, ht.distinct, ht.few, fun key from' => ⟨?_, ?_⟩⟩
  · rw [admissions_timesOf]
    refine (ht.paced key).window fun a b ha hb => ?_
    simp only [Bool.decide_and, Bool.and_eq_true, decide_eq_true_eq] at ha hb
    linarith [ha.1, hb.2]
  · rw [admissions_timesOf]
    refine (ht.paced key).window fun a b ha hb => ?_
    simp only [Bool.decide_and, Bool.and_eq_true, decide_eq_true_eq] at ha hb
    linarith [ha.1, hb.2]

/-- Two requests of one credential against a budget of one: the second is turned away. -/
def sample : RequestLimits where
  verdict := fun _ => .admitted
  requestsPerMinute := 1

def sampleCall (id : Nat) (now : ℚ) : Event := .call id (.http []) (fun _ => .actor ⟨"agent", "key"⟩) now now now

def sampleAdmitted : State :=
  sample.begin { clock := 0 } 0 (.http []) (fun _ => .actor ⟨"agent", "key"⟩) 1 1 1

def sampleRejected : State :=
  sample.begin sampleAdmitted 1 (.http []) (fun _ => .actor ⟨"agent", "key"⟩) 2 2 2

theorem requests_bounded_sample :
    Run sample.Step { clock := 0 } [sampleCall 0 1, sampleCall 1 2] sampleRejected ∧
      sampleRejected.running=[(0, .reading [] 6), (1, .rejecting 429 "credential request budget exhausted")] ∧
      admissions sampleRejected ⟨"agent", "key"⟩ (fun t => 0≤t ∧ t < 0+60)≤1 := by
  have first : sample.Step { clock := 0 } (sampleCall 0 1) sampleAdmitted := by rfl
  have second : sample.Step sampleAdmitted (sampleCall 1 2) sampleRejected := by rfl
  have h : Run sample.Step { clock := 0 } [sampleCall 0 1, sampleCall 1 2] sampleRejected :=
    .cons first (.single second)
  exact ⟨h, by decide +kernel, ((requests_bounded h).2.2.2.2 _ 0).1⟩

end RequestLimits
end TraceGuard
