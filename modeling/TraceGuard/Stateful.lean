import Mathlib.Logic.Basic

/-! Computations over a state that may raise, where what was changed before the exception stays
changed: what they return and where they end, as a pair. -/
namespace Stateful
variable {ε σ α β : Type}

/-- The result and the state that a computation leaves. -/
def outcome (x : EStateM ε σ α) (s : σ) : Except ε α × σ :=
  match x s with
  | .ok a t => (.ok a, t)
  | .error e t => (.error e, t)

/-- A computation that only reads. -/
def check (f : σ → Except ε α) : EStateM ε σ α := fun s =>
  match f s with
  | .ok a => .ok a s
  | .error e => .error e s

@[simp] theorem outcome_pure (a : α) (s : σ) :
    outcome (pure a : EStateM ε σ α) s = (.ok a, s) := rfl

@[simp] theorem outcome_throw (e : ε) (s : σ) :
    outcome (throw e : EStateM ε σ α) s = (.error e, s) := rfl

@[simp] theorem outcome_modify (f : σ → σ) (s : σ) :
    outcome (modify f : EStateM ε σ Unit) s = (.ok (), f s) := rfl

@[simp] theorem outcome_get (s : σ) : outcome (get : EStateM ε σ σ) s = (.ok s, s) := rfl

@[simp] theorem outcome_check (f : σ → Except ε α) (s : σ) : outcome (check f) s = (f s, s) := by
  unfold outcome check
  cases f s <;> rfl

theorem check_returned {f : σ → Except ε α} {s t : σ} {a : α} (h : outcome (check f) s = (.ok a, t)) :
    f s = .ok a ∧ t=s := by
  rw [outcome_check] at h
  obtain ⟨hf, ht⟩ := Prod.mk.inj h
  exact ⟨hf, ht.symm⟩

theorem outcome_bind (x : EStateM ε σ α) (f : α → EStateM ε σ β) (s : σ) :
    outcome (x >>= f) s = match outcome x s with
      | (.ok a, t) => outcome (f a) t
      | (.error e, t) => (.error e, t) := by
  show outcome (EStateM.bind x f) s = _
  simp only [outcome, EStateM.bind]
  cases x s <;> rfl

/-- What follows a computation that does not raise. -/
theorem outcome_bind_ok {x : EStateM ε σ α} {f : α → EStateM ε σ β} {s t : σ} {a : α}
    (h : outcome x s = (.ok a, t)) : outcome (x >>= f) s = outcome (f a) t := by
  rw [outcome_bind, h]

theorem outcome_bind_error {x : EStateM ε σ α} {f : α → EStateM ε σ β} {s t : σ} {e : ε}
    (h : outcome x s = (.error e, t)) : outcome (x >>= f) s = (.error e, t) := by
  rw [outcome_bind, h]

/-- How a composite computation comes to its outcome. -/
theorem bind_cases {x : EStateM ε σ α} {f : α → EStateM ε σ β} {s t : σ} {r : Except ε β}
    (h : outcome (x >>= f) s = (r, t)) :
    (∃ e, outcome x s = (.error e, t) ∧ r = .error e) ∨
      ∃ a u, outcome x s = (.ok a, u) ∧ outcome (f a) u = (r, t) := by
  rw [outcome_bind] at h
  match hx : outcome x s with
  | (.error e, u) =>
    rw [hx] at h
    obtain ⟨rfl, rfl⟩ := Prod.mk.inj h
    exact Or.inl ⟨e, rfl, rfl⟩
  | (.ok a, u) =>
    rw [hx] at h
    exact Or.inr ⟨a, u, rfl, h⟩

/-- A composite computation that returns. -/
theorem bind_returned {x : EStateM ε σ α} {f : α → EStateM ε σ β} {s t : σ} {b : β}
    (h : outcome (x >>= f) s = (.ok b, t)) :
    ∃ a u, outcome x s = (.ok a, u) ∧ outcome (f a) u = (.ok b, t) := by
  cases bind_cases h with
  | inl hraise =>
    obtain ⟨e, -, hraise⟩ := hraise
    cases hraise
  | inr hrest => exact hrest

theorem outcome_map (f : α → β) (x : EStateM ε σ α) (s : σ) :
    outcome (f <$> x) s = ((outcome x s).1.map f, (outcome x s).2) := by
  show outcome (EStateM.map f x) s = _
  simp only [outcome, EStateM.map]
  cases x s <;> rfl

/-- A property that a computation leaves true, also when it raises. -/
def Keeps (I : σ → Prop) (x : EStateM ε σ α) : Prop := ∀ s r t, I s → outcome x s = (r, t) → I t

theorem keeps_check {I : σ → Prop} (f : σ → Except ε α) : Keeps I (check f) := by
  intro s r t hs h
  rw [outcome_check] at h
  exact (Prod.mk.inj h).2 ▸ hs

theorem keeps_throw {I : σ → Prop} (e : ε) : Keeps I (throw e : EStateM ε σ α) := by
  intro s r t hs h
  exact (Prod.mk.inj h).2 ▸ hs

theorem keeps_bind {I : σ → Prop} {x : EStateM ε σ α} {f : α → EStateM ε σ β} (hx : Keeps I x)
    (hf : ∀ a, Keeps I (f a)) : Keeps I (x >>= f) := by
  intro s r t hs h
  cases bind_cases h with
  | inl hraise =>
    obtain ⟨e, hraise, -⟩ := hraise
    exact hx s _ t hs hraise
  | inr hrest =>
    obtain ⟨a, u, hfirst, hsecond⟩ := hrest
    exact hf a u r t (hx s _ u hs hfirst) hsecond

theorem keeps_forM {I : σ → Prop} {f : α → EStateM ε σ PUnit} {xs : List α} (hf : ∀ x∈xs, Keeps I (f x)) :
    Keeps I (xs.forM f) := by
  induction xs with
  | nil =>
    intro s r t hs h
    cases h
    exact hs
  | cons x xs ih =>
    exact keeps_bind (hf x (List.mem_cons_self ..)) fun _ => ih fun x hx => hf x (List.mem_cons_of_mem _ hx)

end Stateful
