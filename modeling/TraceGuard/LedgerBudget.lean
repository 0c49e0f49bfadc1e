import Mathlib.Algebra.Order.BigOperators.Group.List
import TraceGuard.LedgerHistory

/-! The task budget. The limit is compared with a sum of `Decimal` additions, so the exact
amounts stay below it only as long as no addition rounds down. -/
namespace TraceGuard
open Traces Raising

namespace Decimal

theorem fix_finite {neg : Bool} {coeff : Nat} {exp : Int} {d : Decimal}
    (h : fix neg coeff exp = .ok d) : ∃ coeff' exp', d = .finite neg coeff' exp' := by
  unfold fix at h
  dsimp only at h
  split_ifs at h <;> cases h <;> exact ⟨_, _, rfl⟩

theorem add_finite {n₁ n₂ : Bool} {c₁ c₂ : Nat} {e₁ e₂ : Int} {d : Decimal}
    (h : add (.finite n₁ c₁ e₁) (.finite n₂ c₂ e₂) = .ok d) : ∃ n c e, d = .finite n c e := by
  obtain ⟨c, e, hd⟩ := fix_finite h
  exact ⟨_, c, e, hd⟩

theorem toRat_nonneg {neg : Bool} {coeff : Nat} {exp : Int}
    (h : isNegative (.finite neg coeff exp) = false) : 0≤toRat (.finite neg coeff exp) := by
  have hpow : (0:ℚ)≤10^exp := (zpow_pos (by norm_num) _).le
  cases neg with
  | false => simpa [toRat, signed] using mul_nonneg (Nat.cast_nonneg coeff) hpow
  | true =>
    obtain rfl : coeff=0 := by simpa [isNegative] using h
    simp [toRat, signed]

/-- Multiples of `10^e` whose sum has at most 28 digits are added exactly. -/
theorem add_exact {e x y : Int} {c₁ c₂ : Nat} {n₂ : Bool} (low : etiny≤e) (hx : e≤x)
    (hx' : x≤etop) (hy : e≤y) (hpos : isNegative (.finite n₂ c₂ y) = false)
    (h : toRat (.finite false c₁ x)+toRat (.finite n₂ c₂ y) < 10^prec*(10:ℚ)^e) :
    ∃ c z, add (.finite false c₁ x) (.finite n₂ c₂ y) = .ok (.finite false c z) ∧
      toRat (.finite false c z) = toRat (.finite false c₁ x)+toRat (.finite n₂ c₂ y) ∧
      e≤z ∧ z≤etop := by
  set z := min x y with hz
  have hez : e≤z := le_min hx hy
  have hzt : z≤etop := (min_le_left x y).trans hx'
  set v := scaled false c₁ x z+scaled n₂ c₂ y z with hv
  have hpow : (0:ℚ)<(10:ℚ)^z := zpow_pos (by norm_num) _
  have hval : (v:ℚ)*(10:ℚ)^z = toRat (.finite false c₁ x)+toRat (.finite n₂ c₂ y) := by
    rw [← scaled_toRat false c₁ (min_le_left x y), ← scaled_toRat n₂ c₂ (min_le_right x y), ← hz,
      ← add_mul, hv, Int.cast_add]
  have hv0 : 0≤v := by
    have : 0≤(v:ℚ)*(10:ℚ)^z := hval ▸ add_nonneg (toRat_nonneg rfl) (toRat_nonneg hpos)
    exact_mod_cast nonneg_of_mul_nonneg_left this hpow
  have hnat : ((v.natAbs:Int)) = v := Int.natAbs_of_nonneg hv0
  have hlt : v.natAbs<10^prec := by
    have hle : (10:ℚ)^e≤(10:ℚ)^z := zpow_le_zpow_right₀ (by norm_num) hez
    have hmul : (v:ℚ)*(10:ℚ)^z<10^prec*(10:ℚ)^z :=
      hval ▸ h.trans_le (mul_le_mul_of_nonneg_left hle (by positivity))
    have hq : (v:ℚ)<10^prec := lt_of_mul_lt_mul_right hmul hpow.le
    rw [← hnat] at hq
    exact_mod_cast hq
  have hsign : (decide (v<0) || (decide (v=0) && false && n₂)) = false := by simp [hv0]
  have hadd : add (.finite false c₁ x) (.finite n₂ c₂ y) = fix false v.natAbs z := by
    change fix (decide (v<0) || (decide (v=0) && false && n₂)) v.natAbs z = _
    rw [hsign]
  refine ⟨v.natAbs, z, ?_, ?_, hez, hzt⟩
  · rw [hadd]
    by_cases h0 : v.natAbs=0
    · have hclamp : min (max z etiny) emax = z := by
        have htop : etop≤emax := by decide
        omega
      simp [fix, h0, hclamp]
    · exact fix_exact false hlt h0 (low.trans hez) hzt
  · rw [← hval, toRat, signed, if_neg (by simp), hnat]

/-- No addition in `total + d₁ + d₂ + …` rounds its exact sum down. -/
def NoneRoundsDown : Decimal → List Decimal → Prop
  | _, [] => True
  | total, d :: ds => ∀ sum, add total d = .ok sum →
      toRat total+toRat d≤toRat sum ∧ NoneRoundsDown sum ds

/-- Sums that fit into 28 digits of one unit are exact, in every order. -/
theorem noneRoundsDown_of_fits {e : Int} (low : etiny≤e) (ds : List Decimal)
    (hds : ∀ d∈ds, ∃ n c y, d = .finite n c y ∧ e≤y ∧ d.isNegative=false)
    {c : Nat} {x : Int} (hx : e≤x) (hx' : x≤etop)
    (h : toRat (.finite false c x)+(ds.map toRat).sum < 10^prec*(10:ℚ)^e) :
    NoneRoundsDown (.finite false c x) ds := by
  induction ds generalizing c x with
  | nil => trivial
  | cons d ds ih =>
    obtain ⟨n, k, y, rfl, hy, hpos⟩ := hds d (by simp)
    have hrest : 0≤(ds.map toRat).sum := by
      refine List.sum_nonneg fun q hq => ?_
      obtain ⟨d, hd, rfl⟩ := List.mem_map.mp hq
      obtain ⟨n, k, y, rfl, -, hpos⟩ := hds d (List.mem_cons_of_mem _ hd)
      exact toRat_nonneg hpos
    rw [List.map_cons, List.sum_cons, ← add_assoc] at h
    obtain ⟨c', z, hadd, hval, hz, hz'⟩ :=
      add_exact low hx hx' hy hpos (lt_of_le_of_lt (le_add_of_nonneg_right hrest) h)
    intro sum hsum
    rw [hadd, Except.ok.injEq] at hsum
    subst hsum
    refine ⟨hval.ge, ih (fun d hd => hds d (List.mem_cons_of_mem _ hd)) hz hz' ?_⟩
    rwa [hval]

end Decimal

namespace ExecutionLedger

/-- Exact value of a stored amount text. -/
def exactAmount (row : Execution) : ℚ := ((Decimal.ofText row.amount).map Decimal.toRat).getD 0

/-- Exact sum of the amounts of the task's rows that were not released. -/
def committed (tenant task : String) (db : Database) : ℚ :=
  ((db.executions.rows.filter fun row => inTask tenant task row && live row).map exactAmount).sum

/-- Every reservation made for the task named this limit and a finite amount from zero on. -/
def Budgeted (tenant task : String) (limit : Decimal) (es : List Event) : Prop :=
  ∀ e∈es, ∀ r, e.call=.reserve r → e.outcome=.ok (.reserved none) →
    r.scope.tenant=tenant → r.scope.task=task →
    (∃ text, r.budgetLimit=some text ∧ Decimal.ofText text = some limit) ∧
      r.amount.isFinite=true ∧ r.amount.isNegative=false

/-- The amounts a reservation adds up: the stored ones in scan order, then its own. -/
def addends (db : Database) (scan : Scan) (r : Reservation) : List Decimal :=
  (counted db scan r).filterMap (fun row => Decimal.ofText row.amount)++[r.amount]

/-- A reservation for the task makes no addition that rounds down. -/
def AddsUp (tenant task : String) (db : Database) (e : Event) : Prop :=
  ∀ r, e.call=.reserve r → r.scope.tenant=tenant → r.scope.task=task →
    Decimal.NoneRoundsDown (.ofNat 0) (addends db e.scan r)

def Charged (row : Execution) : Prop :=
  ∃ n c x, Decimal.ofText row.amount = some (.finite n c x) ∧ 0≤Decimal.toRat (.finite n c x)

theorem Charged.nonneg {row : Execution} (h : Charged row) : 0≤exactAmount row := by
  obtain ⟨n, c, x, htext, hpos⟩ := h
  simpa [exactAmount, htext] using hpos

structure WithinLimit (tenant task : String) (limit : ℚ) (db : Database) : Prop where
  charged : ∀ row∈db.executions.rows, inTask tenant task row = true → Charged row
  bound : committed tenant task db≤limit

/-- The running total is finite and not below the exact sum. -/
theorem spent_ge {rows : List Execution} (hrows : ∀ row∈rows, Charged row) (rest : List Decimal)
    {n : Bool} {c : Nat} {x : Int} {out : Decimal}
    (hdown : Decimal.NoneRoundsDown (.finite n c x)
      (rows.filterMap (fun row => Decimal.ofText row.amount)++rest))
    (h : spent rows (.finite n c x) = .ok out) :
    ∃ n' c' x', out = .finite n' c' x' ∧
      Decimal.toRat (.finite n c x)+(rows.map exactAmount).sum≤Decimal.toRat out ∧
      Decimal.NoneRoundsDown out rest := by
  induction rows generalizing n c x with
  | nil =>
    cases h
    exact ⟨n, c, x, rfl, by simp, hdown⟩
  | cons row rows ih =>
    obtain ⟨m, k, y, htext, -⟩ := hrows row (by simp)
    obtain ⟨amount, hamount, h⟩ := bind_ok h
    obtain rfl : Decimal.finite m k y = amount := by simpa [decimalOf, htext] using hamount
    obtain ⟨total, htotal, h⟩ := bind_ok h
    have hadd : Decimal.add (.finite n c x) (.finite m k y) = .ok total := by
      unfold addDecimal at htotal
      split at htotal
      · rename_i d hd
        cases htotal
        exact hd
      · cases htotal
    obtain ⟨n', c', x', rfl⟩ := Decimal.add_finite hadd
    simp only [List.filterMap_cons, htext, List.cons_append] at hdown
    obtain ⟨hle, hdown⟩ := hdown _ hadd
    obtain ⟨n'', c'', x'', hout, hsum, hrest⟩ :=
      ih (fun row hrow => hrows row (List.mem_cons_of_mem _ hrow)) hdown h
    refine ⟨n'', c'', x'', hout, ?_, hrest⟩
    have hrow : exactAmount row = Decimal.toRat (.finite m k y) := by simp [exactAmount, htext]
    rw [List.map_cons, List.sum_cons, hrow]
    linarith

/-- A reservation that passes the budget check keeps the exact sum within the limit. -/
theorem withinBudget_ok {rows : List Execution} (hrows : ∀ row∈rows, Charged row)
    {r : Reservation} {text : String} {n m : Bool} {c k : Nat} {x y : Int}
    (hamount : r.amount = .finite n c x) (hbudget : r.budgetLimit=some text)
    (hlimit : Decimal.ofText text = some (.finite m k y))
    (hdown : Decimal.NoneRoundsDown (.ofNat 0)
      (rows.filterMap (fun row => Decimal.ofText row.amount)++[r.amount]))
    (h : withinBudget rows r = .ok ()) :
    (rows.map exactAmount).sum+Decimal.toRat r.amount≤Decimal.toRat (.finite m k y) := by
  obtain ⟨total, htotal, h⟩ := bind_ok h
  obtain ⟨n₁, c₁, x₁, rfl, hsum, hlast⟩ := spent_ge hrows [r.amount] hdown htotal
  rw [hbudget] at h
  obtain ⟨total, hadd, h⟩ := bind_ok h
  obtain ⟨limit, hl, h⟩ := bind_ok h
  obtain rfl : Decimal.finite m k y = limit := by simpa [decimalOf, hlimit] using hl
  have hadd : Decimal.add (.finite n₁ c₁ x₁) r.amount = .ok total := by
    unfold addDecimal at hadd
    split at hadd
    · rename_i d hd
      cases hadd
      exact hd
    · cases hadd
  have hlast := (hlast total hadd).1
  rw [hamount] at hadd
  obtain ⟨n₂, c₂, x₂, rfl⟩ := Decimal.add_finite hadd
  have hle : Decimal.toRat (.finite n₂ c₂ x₂)≤Decimal.toRat (.finite m k y) := by
    obtain ⟨answer, hover, h⟩ := bind_ok h
    simp only [exceeds, Decimal.gt_finite, Except.ok.injEq] at hover
    split at h
    · cases h
    · rename_i hnot
      rw [← hover] at hnot
      simpa using hnot
  have hzero : Decimal.toRat (.finite false 0 0) = 0 := by simp [Decimal.toRat, Decimal.signed]
  rw [hzero] at hsum
  linarith

theorem committed_eq (tenant task : String) (db : Database) :
    committed tenant task db = (db.executions.rows.map fun row =>
      if inTask tenant task row && live row then exactAmount row else 0).sum := by
  unfold committed
  induction db.executions.rows with
  | nil => rfl
  | cons row rows ih =>
    rw [List.map_cons, List.sum_cons, ← ih, List.filter_cons]
    split <;> simp

theorem committed_insert {tenant task : String} {db : Database} {executions : Executions}
    {row : Execution} (h : executions.rows = db.executions.rows++[row]) :
    committed tenant task { db with executions := executions } = committed tenant task db+
      if inTask tenant task row && live row then exactAmount row else 0 := by
  simp [committed_eq, h]

/-- Rewriting an outcome releases an amount or leaves the sum as it is. -/
theorem withinLimit_setOutcome {tenant task : String} {limit : ℚ} {db : Database}
    {row : Execution} {o : Outcome} (mem : row∈db.executions.rows)
    (hi : WithinLimit tenant task limit db) (hlive : live row = true) :
    WithinLimit tenant task limit (db.setOutcome row.nonce o) := by
  constructor
  · intro r' hr' htask
    obtain ⟨r, hr, rfl⟩ := (Executions.mem_setOutcome _ _ _ _).mp hr'
    have := hi.charged r hr
    split at htask <;> split <;> exact this htask
  · refine le_trans ?_ hi.bound
    rw [committed_eq, committed_eq, Database.setOutcome, Executions.setOutcome_rows, List.map_map]
    refine List.sum_le_sum fun r hr => ?_
    simp only [Function.comp_apply]
    split
    · rename_i hn
      obtain rfl := db.executions.eq_of_nonce hr mem hn
      simp only [hlive, Bool.and_true]
      by_cases htask : inTask tenant task r = true
      · have hpos := (hi.charged r hr htask).nonneg
        have hset : inTask tenant task (r.set o) = true := htask
        have hamount : exactAmount (r.set o) = exactAmount r := rfl
        rw [hset, htask, hamount]
        cases live (r.set o) <;> simp [hpos]
      · have hset : ¬ inTask tenant task (r.set o) = true := htask
        simp [hset, htask]
    · exact le_rfl

theorem live_of_uncertain {row : Execution} (h : uncertain row = true) : live row = true := by
  simp only [uncertain, Bool.or_eq_true, decide_eq_true_eq] at h
  rcases h with h | h <;> simp [live, h]

theorem withinLimit_insert {tenant task : String} {limit : Decimal} {db : Database} {scan : Scan}
    {r : Reservation} {executions : Executions}
    (hlimit : limit.isFinite=true)
    (hi : WithinLimit tenant task limit.toRat db)
    (hb : r.scope.tenant=tenant → r.scope.task=task →
      (∃ text, r.budgetLimit=some text ∧ Decimal.ofText text = some limit) ∧
        r.amount.isFinite=true ∧ r.amount.isNegative=false)
    (hdown : r.scope.tenant=tenant → r.scope.task=task →
      Decimal.NoneRoundsDown (.ofNat 0) (addends db scan r))
    (budget : withinBudget (counted db scan r) r = .ok ())
    (rows : executions.rows = db.executions.rows++[pendingRow r]) :
    WithinLimit tenant task limit.toRat { db with executions := executions } := by
  by_cases htask : inTask tenant task (pendingRow r) = true
  · obtain ⟨rfl, rfl⟩ : (pendingRow r).scope.tenant=tenant ∧ (pendingRow r).scope.task=task := by
      simpa [inTask] using htask
    obtain ⟨⟨text, hbudget, htext⟩, hfinite, hpos⟩ := hb rfl rfl
    obtain ⟨n, c, x, hamount⟩ : ∃ n c x, r.amount = .finite n c x := by
      cases ha : r.amount with
      | finite n c x => exact ⟨n, c, x, rfl⟩
      | infinity | nan => simp [ha, Decimal.isFinite] at hfinite
    obtain ⟨m, k, y, rfl⟩ : ∃ m k y, limit = .finite m k y := by
      cases limit with
      | finite m k y => exact ⟨m, k, y, rfl⟩
      | infinity | nan => simp [Decimal.isFinite] at hlimit
    have hstored : Decimal.ofText (pendingRow r).amount = some (.finite n c x) := by
      rw [pendingRow, hamount, Decimal.ofText_str]
    have hcharged : Charged (pendingRow r) :=
      ⟨n, c, x, hstored, Decimal.toRat_nonneg (hamount ▸ hpos)⟩
    constructor
    · intro row hrow
      rw [rows, List.mem_append, List.mem_singleton] at hrow
      rcases hrow with hold | rfl
      · exact hi.charged row hold
      · exact fun _ => hcharged
    · have hcounted : ∀ row∈counted db scan r, Charged row := by
        intro row hrow
        obtain ⟨hmem, hp⟩ := (Executions.mem_select _ _ _ _).mp hrow
        simp only [Bool.and_eq_true] at hp
        exact hi.charged row hmem hp.1
      have hle := withinBudget_ok hcounted hamount hbudget htext (hdown rfl rfl) budget
      -- the scan order does not matter to the exact sum
      have hperm : ((counted db scan r).map exactAmount).sum =
          committed r.scope.tenant r.scope.task db :=
        (((scan.perm _).filter _).map _).sum_eq
      have hnew : exactAmount (pendingRow r) = r.amount.toRat := by
        simp [exactAmount, hstored, hamount]
      rw [committed_insert rows, if_pos (by simp [inTask, pendingRow, live]), hnew]
      rwa [hperm] at hle
  · constructor
    · intro row hrow hin
      rw [rows, List.mem_append, List.mem_singleton] at hrow
      rcases hrow with hold | rfl
      · exact hi.charged row hold hin
      · exact absurd hin htask
    · rw [committed_insert rows, if_neg (by simp [htask]), add_zero]
      exact hi.bound

theorem step_withinLimit {tenant task : String} {limit : Decimal} {db db' : Database} {e : Event}
    (hlimit : limit.isFinite=true) (h : Step db e db') (hb : Budgeted tenant task limit [e])
    (hdown : AddsUp tenant task db e) (hi : WithinLimit tenant task limit.toRat db) :
    WithinLimit tenant task limit.toRat db' := by
  rcases step_cases h with ⟨_, -, rfl⟩ | ⟨reply, hok, he⟩
  · exact hi
  generalize hcall : e.call = call at he
  cases he with
  | replayed => exact hi
  | invalidated mem done accepted => exact withinLimit_setOutcome mem hi (by simp [live, done])
  | @inserted r executions fresh free single budget rows =>
    exact withinLimit_insert hlimit hi (hb e (by simp) r hcall hok) (hdown r hcall) budget rows
  | finished mem waiting final accepted =>
    exact withinLimit_setOutcome mem hi (by simp [live, waiting])
  | decided mem done waiting stored first =>
    exact withinLimit_setOutcome mem hi (by simp [live, done])
  | @reconciled row _ v mem nonce open_ fenced definitive first accepted =>
    have := withinLimit_setOutcome (o := ⟨v.status, v.result, v.disposition⟩) mem hi
      (live_of_uncertain open_)
    rw [nonce] at this
    exact ⟨this.charged, this.bound⟩

/-- The task budget is kept by every history in which no reservation of the task adds with
a loss: the exact sum of the amounts not released is within the limit. -/
theorem task_budget {storeId tenant task : String} {limit : Decimal} {start db : Database}
    {es : List Event} (hp : provision storeId = .ok start) (hfinite : limit.isFinite=true)
    (hpos : limit.isNegative=false)
    (h : Run (fun db e db' => Step db e db' ∧ AddsUp tenant task db e) start es db)
    (hb : Budgeted tenant task limit es) : committed tenant task db≤limit.toRat := by
  have hall : Budgeted tenant task limit es → WithinLimit tenant task limit.toRat db := by
    refine h.invariant (I := fun es db => Budgeted tenant task limit es →
      WithinLimit tenant task limit.toRat db) ?_ ?_
    · intro _
      obtain ⟨m, k, y, rfl⟩ : ∃ m k y, limit = .finite m k y := by
        cases limit with
        | finite m k y => exact ⟨m, k, y, rfl⟩
        | infinity | nan => simp [Decimal.isFinite] at hfinite
      have hzero := Decimal.toRat_nonneg hpos
      constructor <;> simp [(provision_ok hp).1, Executions.empty, committed, hzero]
    · intro past t e u _ ih hstep hb
      have hbefore := ih fun e he => hb e (List.mem_append_left _ he)
      exact step_withinLimit hfinite hstep.1
        (fun e he => hb e (List.mem_append_right _ he)) hstep.2 hbefore
  exact (hall hb).bound

/-! Two payments on fixed inputs: the first is finished with an accepted result. -/

def payment (nonce : String) (amount : Decimal) (limit : String) : Reservation where
  scope := sampleRequest.scope
  nonce := nonce
  idempotencyKey := nonce
  digest := nonce
  effectDigest := nonce
  amount := amount
  budgetLimit := some limit

def payReserve (nonce : String) (amount : Decimal) (limit : String) : Event :=
  ⟨sampleLedger, .rowid, .reserve (payment nonce amount limit), .ok (.reserved none)⟩

def payFinish (nonce : String) : Event :=
  ⟨sampleLedger, .rowid, .finish nonce .succeeded (some "receipt") .acceptedForAgent, .ok .done⟩

def payments (first second : Decimal) (limit : String) : List Event :=
  [payReserve "first" first limit, payFinish "first", payReserve "second" second limit]

def paidOnce (first : Decimal) (limit : String) : Database :=
  { sampleStart with
    executions := ⟨[pendingRow (payment "first" first limit)], by simp, by simp⟩ }

def accepted : Outcome := ⟨.succeeded, some "receipt", .acceptedForAgent⟩

def paidTwice (first second : Decimal) (limit : String) : Database :=
  { sampleStart with
    executions := ⟨[(pendingRow (payment "first" first limit)).set accepted,
      pendingRow (payment "second" second limit)],
      by simp [pendingRow, payment, Execution.set], by simp [pendingRow, payment, Execution.set]⟩ }

theorem payments_budgeted (first second : Decimal) (text : String) (limit : Decimal)
    (hl : Decimal.ofText text = some limit)
    (h1 : first.isFinite=true ∧ first.isNegative=false)
    (h2 : second.isFinite=true ∧ second.isNegative=false) :
    Budgeted "tenant" "task" limit (payments first second text) := by
  intro e he r hcall _ _ _
  simp only [payments, List.mem_cons, List.not_mem_nil, or_false] at he
  rcases he with rfl | rfl | rfl <;> cases hcall
  · exact ⟨⟨text, rfl, hl⟩, h1⟩
  · exact ⟨⟨text, rfl, hl⟩, h2⟩

def tiny : Decimal := .finite false 1 (-29)

/-- `1+1E-29` is rounded to `1`, so a second payment passes a limit the first one spent. -/
theorem task_budget_exceeded :
    ∃ (start db : Database) (es : List Event) (limit : Decimal),
      provision "store" = .ok start ∧ Run Step start es db ∧ limit.isFinite=true ∧
      limit.isNegative=false ∧ Budgeted "tenant" "task" limit es ∧
      ¬ committed "tenant" "task" db≤limit.toRat := by
  refine ⟨sampleStart, paidTwice (.ofNat 1) tiny "1", payments (.ofNat 1) tiny "1", .ofNat 1,
    rfl, ?_, rfl, rfl, payments_budgeted _ _ _ _ rfl ⟨rfl, rfl⟩ ⟨rfl, rfl⟩, ?_⟩
  · exact .cons (t := paidOnce (.ofNat 1) "1") ⟨rfl, rfl⟩
      (.cons (t := (paidOnce (.ofNat 1) "1").setOutcome "first" accepted) ⟨rfl, rfl⟩
        (.single ⟨rfl, rfl⟩))
  · have h : committed "tenant" "task" (paidTwice (.ofNat 1) tiny "1") =
        Decimal.toRat (.ofNat 1)+(Decimal.toRat tiny+0) := rfl
    have hpos : (0:ℚ)<Decimal.toRat tiny := by
      simp [tiny, Decimal.toRat, Decimal.signed]
    rw [h, not_le]
    linarith

/-- Sixty and forty spend a limit of one hundred. -/
theorem task_budget_hundred :
    committed "tenant" "task" (paidTwice (.ofNat 60) (.ofNat 40) "100")≤
      Decimal.toRat (.ofNat 100) := by
  have value (n : Nat) : Decimal.toRat (.ofNat n) = n := by
    simp [Decimal.toRat, Decimal.signed, Decimal.ofNat]
  have fits (ns : List Nat) (h : ((ns.map Decimal.ofNat).map Decimal.toRat).sum < 10^28) :
      Decimal.NoneRoundsDown (.ofNat 0) (ns.map Decimal.ofNat) := by
    refine Decimal.noneRoundsDown_of_fits (e := 0) (by decide) _ ?_ le_rfl (by decide) ?_
    · simp [Decimal.ofNat, Decimal.isNegative]
    · change Decimal.toRat (.ofNat 0)+_<_
      simpa [value, Decimal.prec] using h
  refine task_budget sample_provision rfl rfl ?_
    (payments_budgeted (.ofNat 60) (.ofNat 40) "100" _ rfl ⟨rfl, rfl⟩ ⟨rfl, rfl⟩)
  refine .cons (t := paidOnce (.ofNat 60) "100") ⟨⟨rfl, rfl⟩, ?_⟩
    (.cons (t := (paidOnce (.ofNat 60) "100").setOutcome "first" accepted) ⟨⟨rfl, rfl⟩, ?_⟩
      (.single ⟨⟨rfl, rfl⟩, ?_⟩))
  · rintro r hcall - -
    cases hcall
    exact fits [60] (by norm_num [value])
  · intro r hcall
    cases hcall
  · rintro r hcall - -
    cases hcall
    exact fits [60, 40] (by norm_num [value])

end ExecutionLedger
end TraceGuard
