import TraceGuard.Calculator

/-! When the calculator keeps to its exceptions. The step lemma follows one node; the contract of a whole
tree fails exactly when the evaluation comes to a division by zero. -/
namespace TraceGuard
open Stateful

namespace Calculator
variable {floats : Floats}

@[simp] theorem outcome_raiseIf (p : Prop) [Decidable p] (e : Raised) (s : Run) :
    outcome (raiseIf p e) s = (if p then .error e else .ok (), s) := by
  simp [raiseIf]

@[simp] theorem outcome_give (value : ℚ) (s : Run) :
    outcome (give value) s = (.ok value, { s with values := s.values++[value] }) := rfl

theorem outcome_visit {s : Run} {n : Nat} (h : s.budget=n+1) :
    outcome visit s = (.ok (), { s with budget := n, visited := s.visited+1 }) := by
  simp [visit, outcome_bind, h]

theorem outcome_visit_zero {s : Run} (h : s.budget=0) :
    outcome visit s = (.error (.value "calculator expression too complex"), s) := by
  simp [visit, outcome_bind, h]

/-- What every part of a run keeps: the visited nodes are those that the budget lost, and what was
returned is bounded. -/
structure Keeps (s t : Run) : Prop where
  nodes : t.visited+t.budget=s.visited+s.budget
  values : ∀ v∈t.values, v∈s.values ∨ |v| ≤ maxAbsValue

theorem Keeps.refl (s : Run) : Keeps s s := ⟨rfl, fun _ hv => Or.inl hv⟩

theorem Keeps.trans {s t u : Run} (h : Keeps s t) (h' : Keeps t u) : Keeps s u := by
  refine ⟨h'.nodes.trans h.nodes, fun v hv => ?_⟩
  rcases h'.values v hv with ht | hb
  · exact h.values v ht
  · exact Or.inr hb

theorem Keeps.visit {s : Run} {n : Nat} (h : s.budget=n+1) :
    Keeps s { s with budget := n, visited := s.visited+1 } := by
  refine ⟨?_, fun v hv => Or.inl hv⟩
  show s.visited+1+n=s.visited+s.budget
  omega

theorem Keeps.give {s : Run} {value : ℚ} (h : |value| ≤ maxAbsValue) :
    Keeps s { s with values := s.values++[value] } := by
  refine ⟨rfl, fun v hv => ?_⟩
  rcases List.mem_append.mp hv with hv | hv
  · exact Or.inl hv
  · rw [List.mem_singleton.mp hv]
    exact Or.inr h

/-- How the evaluation of a node ends. -/
def Ends (floats : Floats) (node : Node) (n : Nat) (m : Nat) : Except Raised ℚ → Prop
  | .ok v => |v| ≤ maxAbsValue ∧ Evaluates floats node n v m
  | .error e => e.converted = true ∨ e=.zeroDivision ∧ Divides floats node n

theorem visit_bind {f : Unit → Evaluation ℚ} {s t : Run} {r : Except Raised ℚ}
    (h : outcome (visit >>= f) s = (r, t)) :
    r = .error (.value "calculator expression too complex") ∧ t=s ∨
      ∃ n, s.budget=n+1 ∧ outcome (f ()) { s with budget := n, visited := s.visited+1 } = (r, t) := by
  cases hb : s.budget with
  | zero =>
    rw [outcome_bind_error (outcome_visit_zero hb)] at h
    cases h
    exact Or.inl ⟨rfl, rfl⟩
  | succ n =>
    rw [outcome_bind_ok (outcome_visit hb)] at h
    exact Or.inr ⟨n, rfl, h⟩

theorem raiseIf_bind {p : Prop} [Decidable p] {e : Raised} {f : Unit → Evaluation ℚ} {s t : Run}
    {r : Except Raised ℚ} (h : outcome (raiseIf p e >>= f) s = (r, t)) :
    r = .error e ∧ t=s ∨ ¬ p ∧ outcome (f ()) s = (r, t) := by
  rw [outcome_bind, outcome_raiseIf] at h
  by_cases hp : p
  · rw [if_pos hp] at h
    cases h
    exact Or.inl ⟨rfl, rfl⟩
  · rw [if_neg hp] at h
    exact Or.inr ⟨hp, h⟩

/-- The exceptions of an operator, and a complex power that is no number. -/
theorem operate_error {op : BinaryOperator} {l r : ℚ} {e : Raised} (h : operate floats op l r = .error e) :
    e.converted = true ∨ e=.zeroDivision ∧
      ((op=.div ∨ op=.floorDiv ∨ op=.mod) ∧ r=0 ∨ op=.pow ∧ l=0 ∧ r<0) := by
  cases op with
  | add | sub | mult => cases h
  | div | floorDiv | mod =>
    simp only [operate] at h
    split at h
    · rename_i hr
      cases h
      simp [hr]
    · cases h
  | pow =>
    simp only [operate, power] at h
    split at h
    · rename_i hl
      split at h
      · rename_i hr
        cases h
        simp [hl, hr]
      · cases h
    split at h
    · cases h
    split at h
    · cases h
    · cases h
  | other =>
    cases h
    exact Or.inl rfl

/-- The end of a binary operator, from the values of its operands. -/
theorem operate_ends {left right : Node} {op : BinaryOperator} {n m k : Nat} {l v : ℚ} {s t : Run}
    {r : Except Raised ℚ} (supported : op≠.other) (hl : Evaluates floats left n l m)
    (hr : Evaluates floats right m v k) (hk : s.budget=k)
    (h : outcome (do
      raiseIf (op=.pow ∧ (maxPowExponent < |v| ∨ 1000 < |l|))
        (.value "exponentiation exceeds safety limits")
      let result ← check fun _ => operate floats op l v
      raiseIf (maxAbsValue < result.abs) (.value "calculator result out of bounds")
      match result with
      | .real value => give value
      | .complex _ => throw .type) s = (r, t)) :
    Keeps s t ∧ Ends floats (.binOp left op right) (n+1) t.budget r := by
  rcases raiseIf_bind h with ⟨rfl, rfl⟩ | ⟨hsafe, h⟩
  · exact ⟨.refl _, Or.inl rfl⟩
  have hlimits : op=.pow → |v| ≤ maxPowExponent ∧ |l|≤1000 := by
    intro hop
    simpa [hop, not_or] using hsafe
  rw [outcome_bind, outcome_check] at h
  cases hop : operate floats op l v with
  | error e =>
    rw [hop] at h
    cases h
    refine ⟨.refl _, ?_⟩
    rcases operate_error hop with he | ⟨rfl, hzero⟩
    · exact Or.inl he
    refine Or.inr ⟨rfl, .here hl hr ?_⟩
    rcases hzero with hdiv | ⟨hpow, hz, hneg⟩
    · exact Or.inl hdiv
    · exact Or.inr ⟨hpow, hz, hneg, (hlimits hpow).1⟩
  | ok result =>
    rw [hop] at h
    rcases raiseIf_bind h with ⟨rfl, rfl⟩ | ⟨hbound, h⟩
    · exact ⟨.refl _, Or.inl rfl⟩
    cases result with
    | real value =>
      have hvalue : |value| ≤ maxAbsValue := not_lt.mp hbound
      rw [outcome_give] at h
      cases h
      exact ⟨.give hvalue, hvalue, hk ▸ .binOp supported hl hr hlimits hop hvalue⟩
    | complex magnitude =>
      cases h
      exact ⟨.refl _, Or.inl rfl⟩

/-- One node, from the step of its parts. -/
theorem calculate_ends (node : Node) {s t : Run} {r : Except Raised ℚ}
    (h : outcome (calculate floats node) s = (r, t)) : Keeps s t ∧ Ends floats node s.budget t.budget r := by
  induction node generalizing s t r with
  | expression body ih =>
    rw [calculate] at h
    rcases visit_bind h with ⟨rfl, rfl⟩ | ⟨n, hn, h⟩
    · exact ⟨.refl _, Or.inl rfl⟩
    rcases bind_cases h with ⟨e, hpart, rfl⟩ | ⟨v, u, hbody, h⟩
    · obtain ⟨hkeeps, he | ⟨rfl, hdiv⟩⟩ := ih hpart
      · exact ⟨(Keeps.visit hn).trans hkeeps, Or.inl he⟩
      · exact ⟨(Keeps.visit hn).trans hkeeps, Or.inr ⟨rfl, hn ▸ .expression hdiv⟩⟩
    · obtain ⟨hkeeps, hv, heval⟩ := ih hbody
      rw [outcome_give] at h
      cases h
      exact ⟨((Keeps.visit hn).trans hkeeps).trans (.give hv), hv, hn ▸ .expression heval⟩
  | number value =>
    rw [calculate] at h
    rcases visit_bind h with ⟨rfl, rfl⟩ | ⟨n, hn, h⟩
    · exact ⟨.refl _, Or.inl rfl⟩
    rcases raiseIf_bind h with ⟨rfl, rfl⟩ | ⟨hbound, h⟩
    · exact ⟨.visit hn, Or.inl rfl⟩
    · have hvalue : |value| ≤ maxAbsValue := not_lt.mp hbound
      rw [outcome_give] at h
      cases h
      exact ⟨(Keeps.visit hn).trans (.give hvalue), hvalue, hn ▸ .number hvalue⟩
  | constant | compound | other =>
    rw [calculate] at h
    rcases visit_bind h with ⟨rfl, rfl⟩ | ⟨n, hn, h⟩
    · exact ⟨.refl _, Or.inl rfl⟩
    · cases h
      exact ⟨.visit hn, Or.inl rfl⟩
  | binOp left op right ihl ihr =>
    rw [calculate] at h
    rcases visit_bind h with ⟨rfl, rfl⟩ | ⟨n, hn, h⟩
    · exact ⟨.refl _, Or.inl rfl⟩
    rcases raiseIf_bind h with ⟨rfl, rfl⟩ | ⟨supported, h⟩
    · exact ⟨.visit hn, Or.inl rfl⟩
    rcases bind_cases h with ⟨e, hpart, rfl⟩ | ⟨l, u, hleft, h⟩
    · obtain ⟨hkeeps, he | ⟨rfl, hdiv⟩⟩ := ihl hpart
      · exact ⟨(Keeps.visit hn).trans hkeeps, Or.inl he⟩
      · exact ⟨(Keeps.visit hn).trans hkeeps, Or.inr ⟨rfl, hn ▸ .left supported hdiv⟩⟩
    obtain ⟨hkeepsl, -, hl⟩ := ihl hleft
    rcases bind_cases h with ⟨e, hpart, rfl⟩ | ⟨v, w, hright, h⟩
    · obtain ⟨hkeeps, he | ⟨rfl, hdiv⟩⟩ := ihr hpart
      · exact ⟨((Keeps.visit hn).trans hkeepsl).trans hkeeps, Or.inl he⟩
      · exact ⟨((Keeps.visit hn).trans hkeepsl).trans hkeeps, Or.inr ⟨rfl, hn ▸ .right supported hl hdiv⟩⟩
    obtain ⟨hkeepsr, -, hr⟩ := ihr hright
    obtain ⟨hkeeps, hends⟩ := operate_ends supported hl hr rfl h
    exact ⟨(((Keeps.visit hn).trans hkeepsl).trans hkeepsr).trans hkeeps, hn ▸ hends⟩
  | unaryOp op operand ih =>
    rw [calculate] at h
    rcases visit_bind h with ⟨rfl, rfl⟩ | ⟨n, hn, h⟩
    · exact ⟨.refl _, Or.inl rfl⟩
    rcases raiseIf_bind h with ⟨rfl, rfl⟩ | ⟨supported, h⟩
    · exact ⟨.visit hn, Or.inl rfl⟩
    rcases bind_cases h with ⟨e, hpart, rfl⟩ | ⟨v, u, hoperand, h⟩
    · obtain ⟨hkeeps, he | ⟨rfl, hdiv⟩⟩ := ih hpart
      · exact ⟨(Keeps.visit hn).trans hkeeps, Or.inl he⟩
      · exact ⟨(Keeps.visit hn).trans hkeeps, Or.inr ⟨rfl, hn ▸ .operand supported hdiv⟩⟩
    · obtain ⟨hkeeps, hv, heval⟩ := ih hoperand
      have hvalue : |if op=.uSub then -v else v| ≤ maxAbsValue := by
        split
        · rwa [abs_neg]
        · exact hv
      rw [outcome_give] at h
      cases h
      exact ⟨((Keeps.visit hn).trans hkeeps).trans (.give hvalue), hvalue, hn ▸ .unaryOp supported heval⟩

theorem outcome_safe {p : Prop} [Decidable p] (h : ¬ p) (e : Raised) (s : Run) :
    outcome (raiseIf p e) s = (.ok (), s) := by
  rw [outcome_raiseIf, if_neg h]

theorem outcome_operate {op : BinaryOperator} {l r : ℚ} (s : Run) :
    outcome (check fun _ => operate floats op l r) s = (operate floats op l r, s) := outcome_check _ _

theorem Undefined.operate {op : BinaryOperator} {l r : ℚ} (h : Undefined op l r) :
    operate floats op l r = .error .zeroDivision := by
  rcases h with ⟨rfl | rfl | rfl, rfl⟩ | ⟨rfl, rfl, hneg, -⟩
  · rfl
  · rfl
  · rfl
  · simp [Calculator.operate, power, hneg]

theorem Undefined.safe {op : BinaryOperator} {l r : ℚ} (h : Undefined op l r) :
    ¬ (op=.pow ∧ (maxPowExponent < |r| ∨ 1000 < |l|)) := by
  rcases h with ⟨rfl | rfl | rfl, -⟩ | ⟨rfl, rfl, -, hle⟩
  · simp
  · simp
  · simp
  · simp [hle]

theorem Undefined.supported {op : BinaryOperator} {l r : ℚ} (h : Undefined op l r) : op≠.other := by
  rcases h with ⟨rfl | rfl | rfl, -⟩ | ⟨rfl, -⟩ <;> decide

/-- What the relation gives as the value is what the evaluation returns. -/
theorem Evaluates.calculate {node : Node} {n m : Nat} {v : ℚ} (h : Evaluates floats node n v m) {s : Run}
    (hs : s.budget=n) : ∃ t, outcome (calculate floats node) s = (.ok v, t) ∧ t.budget=m := by
  induction h generalizing s with
  | expression _ ih =>
    obtain ⟨t, hbody, hm⟩ := ih (s := { s with budget := _, visited := s.visited+1 }) rfl
    rw [Calculator.calculate, outcome_bind_ok (outcome_visit hs), outcome_bind_ok hbody, outcome_give]
    exact ⟨_, rfl, hm⟩
  | number bound =>
    rw [Calculator.calculate, outcome_bind_ok (outcome_visit hs),
      outcome_bind_ok (outcome_safe (not_lt.mpr bound) _ _), outcome_give]
    exact ⟨_, rfl, rfl⟩
  | @binOp left right op n m k l r v supported _ _ safe result bound ihl ihr =>
    obtain ⟨t, hleft, ht⟩ := ihl (s := { s with budget := n, visited := s.visited+1 }) rfl
    obtain ⟨u, hright, hu⟩ := ihr ht
    have hsafe : ¬ (op=.pow ∧ (maxPowExponent < |r| ∨ 1000 < |l|)) := by
      rintro ⟨hop, hlarge⟩
      obtain ⟨hr, hl⟩ := safe hop
      rcases hlarge with hlarge | hlarge
      · exact absurd hr (not_le.mpr hlarge)
      · exact absurd hl (not_le.mpr hlarge)
    have hoperate : outcome (check fun _ => operate floats op l r) u = (.ok (.real v), u) := by
      rw [outcome_operate, result]
    rw [Calculator.calculate, outcome_bind_ok (outcome_visit hs),
      outcome_bind_ok (outcome_safe supported _ _), outcome_bind_ok hleft, outcome_bind_ok hright,
      outcome_bind_ok (outcome_safe hsafe _ _), outcome_bind_ok hoperate,
      outcome_bind_ok (outcome_safe (p := maxAbsValue < (Result.real v).abs) (not_lt.mpr bound) _ _)]
    exact ⟨_, rfl, hu⟩
  | unaryOp supported _ ih =>
    obtain ⟨t, hoperand, hm⟩ := ih (s := { s with budget := _, visited := s.visited+1 }) rfl
    rw [Calculator.calculate, outcome_bind_ok (outcome_visit hs),
      outcome_bind_ok (outcome_safe supported _ _), outcome_bind_ok hoperand, outcome_give]
    exact ⟨_, rfl, hm⟩

/-- An evaluation that comes to an undefined operator raises there. -/
theorem Divides.calculate {node : Node} {n : Nat} (h : Divides floats node n) {s : Run} (hs : s.budget=n) :
    ∃ t, outcome (calculate floats node) s = (.error .zeroDivision, t) := by
  induction h generalizing s with
  | expression _ ih =>
    obtain ⟨t, hbody⟩ := ih (s := { s with budget := _, visited := s.visited+1 }) rfl
    rw [Calculator.calculate, outcome_bind_ok (outcome_visit hs), outcome_bind_error hbody]
    exact ⟨t, rfl⟩
  | left supported _ ih =>
    obtain ⟨t, hleft⟩ := ih (s := { s with budget := _, visited := s.visited+1 }) rfl
    rw [Calculator.calculate, outcome_bind_ok (outcome_visit hs),
      outcome_bind_ok (outcome_safe supported _ _), outcome_bind_error hleft]
    exact ⟨t, rfl⟩
  | right supported hl _ ih =>
    obtain ⟨t, hleft, ht⟩ := hl.calculate (s := { s with budget := _, visited := s.visited+1 }) rfl
    obtain ⟨u, hright⟩ := ih ht
    rw [Calculator.calculate, outcome_bind_ok (outcome_visit hs),
      outcome_bind_ok (outcome_safe supported _ _), outcome_bind_ok hleft, outcome_bind_error hright]
    exact ⟨u, rfl⟩
  | here hl hr undefined =>
    obtain ⟨t, hleft, ht⟩ := hl.calculate (s := { s with budget := _, visited := s.visited+1 }) rfl
    obtain ⟨u, hright, -⟩ := hr.calculate ht
    rw [Calculator.calculate, outcome_bind_ok (outcome_visit hs),
      outcome_bind_ok (outcome_safe undefined.supported _ _), outcome_bind_ok hleft, outcome_bind_ok hright,
      outcome_bind_ok (outcome_safe undefined.safe _ _),
      outcome_bind_error (by rw [outcome_operate, undefined.operate])]
    exact ⟨u, rfl⟩
  | operand supported _ ih =>
    obtain ⟨t, hoperand⟩ := ih (s := { s with budget := _, visited := s.visited+1 }) rfl
    rw [Calculator.calculate, outcome_bind_ok (outcome_visit hs),
      outcome_bind_ok (outcome_safe supported _ _), outcome_bind_error hoperand]
    exact ⟨t, rfl⟩

/-- How an evaluation within the full budget ends. -/
structure Contract (result : Except Raised ℚ) (run : Run) : Prop where
  nodes : run.visited ≤ maxNodes
  values : ∀ v∈run.values, |v| ≤ maxAbsValue
  returned : ∀ v, result = .ok v → |v| ≤ maxAbsValue
  raised : ∀ e, result = .error e → e.converted = true

/-- The contract holds of a tree exactly when its evaluation comes to no division by zero. -/
theorem calculate_contract (node : Node) :
    Contract (outcome (calculate floats node) {}).1 (outcome (calculate floats node) {}).2 ↔
      ¬ Divides floats node maxNodes := by
  constructor
  · intro h hdiv
    obtain ⟨t, ht⟩ := hdiv.calculate (s := {}) rfl
    exact absurd (h.raised .zeroDivision (by rw [ht])) (by decide)
  · intro hdiv
    obtain ⟨r, t, hrun⟩ : ∃ r t, outcome (calculate floats node) {} = (r, t) := ⟨_, _, rfl⟩
    obtain ⟨hkeeps, hends⟩ := calculate_ends node hrun
    rw [hrun]
    refine ⟨?_, fun v hv => ?_, fun v hv => ?_, fun e he => ?_⟩
    · have hnodes : t.visited+t.budget=0+maxNodes := hkeeps.nodes
      show t.visited ≤ maxNodes
      omega
    · rcases hkeeps.values v hv with hnone | hb
      · cases hnone
      · exact hb
    · cases hv
      exact hends.1
    · cases he
      rcases hends with hc | ⟨-, hd⟩
      · exact hc
      · exact absurd hd hdiv

/-! The call. -/

theorem executeCall_ok {parse : String → Except ParseError Node} {arguments : Dict Json} :
    (∃ out, executeCall floats parse arguments = .ok out) ↔
      ∀ e, (expressionOf arguments >>= calculator floats parse) = .error e → e.converted = true := by
  unfold executeCall
  cases h : expressionOf arguments >>= calculator floats parse with
  | ok content => simp
  | error e => cases he : e.converted <;> simp [he]

theorem expressionOf_error {arguments : Dict Json} {e : Raised} (h : expressionOf arguments = .error e) :
    e.converted = true := by
  unfold expressionOf at h
  split at h
  · split at h
    · cases h
      rfl
    · cases h
  · cases h
    rfl

theorem calculator_error {parse : String → Except ParseError Node} {expression : String} {e : Raised} :
    calculator floats parse expression = .error e ↔
      (∃ raised, parse expression = .error raised ∧ e=raised.raised) ∨
        ∃ tree, parse expression = .ok tree ∧
          (outcome (calculate floats (.expression tree)) {}).1 = .error e := by
  unfold calculator evaluateExpression
  cases hp : parse expression with
  | error raised => simp [Except.mapError, bind, Except.bind, eq_comm]
  | ok tree =>
    cases hr : (outcome (calculate floats (.expression tree)) {}).1 <;>
      simp [Except.mapError, bind, Except.bind, hr, pure, Except.pure]

/-- The evaluation keeps its contract, and the call does not raise, exactly when the evaluation comes to
no division by zero. -/
theorem calculator_contract (floats : Floats) :
    (∀ node, Contract (outcome (calculate floats node) {}).1 (outcome (calculate floats node) {}).2 ↔
      ¬ Divides floats node maxNodes) ∧
    ∀ parse arguments, (∃ out, executeCall floats parse arguments = .ok out) ↔
      ∀ expression tree, expressionOf arguments = .ok expression → parse expression = .ok tree →
        ¬ Divides floats (.expression tree) maxNodes := by
  refine ⟨calculate_contract, fun parse arguments => ?_⟩
  rw [executeCall_ok]
  cases ha : expressionOf arguments with
  | error e =>
    constructor
    · intro _ expression tree hexpression
      cases hexpression
    · intro _ e' he
      cases he
      exact expressionOf_error ha
  | ok text =>
    constructor
    · intro h expression tree hexpression hparse hdiv
      cases hexpression
      obtain ⟨t, ht⟩ := hdiv.calculate (s := {}) rfl
      have hraised := h .zeroDivision (calculator_error.mpr (Or.inr ⟨tree, hparse, by rw [ht]⟩))
      exact absurd hraised (by decide)
    · intro h e he
      rcases calculator_error.mp he with ⟨raised, -, rfl⟩ | ⟨tree, hparse, he⟩
      · cases raised <;> rfl
      · exact ((calculate_contract _).mpr (h text tree rfl hparse)).raised e he

/-! One divided by zero. -/

def sampleFloats : Floats := ⟨fun x _ => x, fun x _ => x, fun _ => ""⟩

def divided : Node := .binOp (.number 1) .div (.number 0)

def parseDivided (text : String) : Except ParseError Node :=
  if text="1/0" then .ok divided else .error .syntaxError

def dividedArguments : Dict Json := ⟨[("expression", .str "1/0")], by simp⟩

theorem divided_divides : Divides sampleFloats (.expression divided) maxNodes := by
  have hbound (v : ℚ) (h : |v|≤1) : |v| ≤ maxAbsValue := h.trans (by norm_num [maxAbsValue])
  refine .expression (.here (.number (hbound 1 ?_)) (.number (hbound 0 ?_)) (Or.inl ⟨Or.inl rfl, rfl⟩))
  · simp
  · simp

theorem calculator_divides :
    ¬ Contract (outcome (calculate sampleFloats (.expression divided)) {}).1
      (outcome (calculate sampleFloats (.expression divided)) {}).2 ∧
    executeCall sampleFloats parseDivided dividedArguments = .error .zeroDivision := by
  obtain ⟨t, ht⟩ := divided_divides.calculate (s := {}) rfl
  refine ⟨fun h => absurd (h.raised .zeroDivision (by rw [ht])) (by decide), ?_⟩
  have hcalc : (expressionOf dividedArguments >>= calculator sampleFloats parseDivided) =
      .error .zeroDivision := by
    have hexpression : expressionOf dividedArguments = .ok "1/0" := rfl
    rw [hexpression]
    show calculator sampleFloats parseDivided "1/0" = _
    exact calculator_error.mpr (Or.inr ⟨divided, if_pos rfl, by rw [ht]⟩)
  rw [executeCall, hcalc]
  rfl

end Calculator
end TraceGuard
