import TraceGuard.ConfinedWalks
import TraceGuard.Staging
import TraceGuard.Traces

/-! The budget of copies. Whatever fails, nothing is made or written that the budget has not counted before and
found within its limits. -/
namespace TraceGuard
open Files Stateful

namespace Filesystem

/-- The files and directories that have been copied. -/
def copies (log : List Change) : Nat :=
  log.countP fun
    | .directory _ | .file _ => true
    | .parent _ | .bytes .. => false

def Change.size : Change → Nat
  | .bytes _ chunk => chunk.length
  | _ => 0

/-- The bytes that have been written. -/
def bytesWritten (log : List Change) : Nat := (log.map Change.size).sum

def Change.chunkOf (path : Names) : Change → Bytes
  | .bytes target chunk => if target=path then chunk else []
  | _ => []

/-- What a staged file holds. -/
def content (log : List Change) (path : Names) : Bytes := log.flatMap (Change.chunkOf path)

structure WithinBudget (budget : CopyBudget) (log : List Change) : Prop where
  entries : copies log≤budget.maxEntries
  bytes : bytesWritten log≤budget.maxBytes
  files : ∀ path, (content log path).length≤budget.maxFileBytes

variable {log more : List Change} {path : Names}

theorem copies_append : copies (log++more)=copies log+copies more := List.countP_append ..

theorem bytesWritten_append : bytesWritten (log++more)=bytesWritten log+bytesWritten more := by
  simp [bytesWritten]

theorem content_append : content (log++more) path=content log path++content more path := List.flatMap_append ..

/-- An earlier moment is within the limits too. -/
theorem WithinBudget.earlier {budget : CopyBudget} {moment : List Change} (h : WithinBudget budget log)
    (hm : moment <+: log) : WithinBudget budget moment := by
  obtain ⟨rest, rfl⟩ := hm
  obtain ⟨hentries, hbytes, hfiles⟩ := h
  refine ⟨?_, ?_, fun path => ?_⟩
  · rw [copies_append] at hentries
    omega
  · rw [bytesWritten_append] at hbytes
    omega
  · have := hfiles path
    rw [content_append, List.length_append] at this
    omega

variable {env : Surroundings} {s t : Staging} {r : Except Failure Unit}

/-! The single steps. -/

theorem budgetCheck_cases (h : outcome (budgetCheck env) s=(r, t)) : t={ s with ticks := s.ticks+1 } ∧
    (r=.ok () → s.budget.entries ≤ s.budget.maxEntries ∧ s.budget.bytes ≤ s.budget.maxBytes) := by
  simp only [outcome, budgetCheck] at h
  split_ifs at h with htime hlimits
  · cases h
    exact ⟨rfl, fun h => (by cases h)⟩
  · cases h
    exact ⟨rfl, fun h => (by cases h)⟩
  · cases h
    exact ⟨rfl, fun _ => by omega⟩

theorem make_cases {change : Change} (h : outcome (make env change) s=(r, t)) :
    (t=s ∧ r≠.ok ()) ∨
      (¬staged s.log change.target ∧ t={ s with log := s.log++[change] } ∧ r=.ok ()) := by
  simp only [outcome, make] at h
  split_ifs at h with hrefused hstaged
  · cases h
    exact .inl ⟨rfl, fun h => (by cases h)⟩
  · cases h
    exact .inl ⟨rfl, fun h => (by cases h)⟩
  · cases h
    exact .inr ⟨hstaged, rfl, rfl⟩

theorem append_cases {target : Names} {chunk : Bytes} (h : outcome (append env target chunk) s=(r, t)) :
    ∃ part, t={ s with log := s.log++[.bytes target part] } ∧ part.length ≤ chunk.length ∧
      (r=.ok () → part=chunk) := by
  simp only [outcome, append] at h
  cases hfails : env.fails s.ticks with
  | none =>
    rw [hfails] at h
    cases h
    exact ⟨chunk, rfl, le_refl _, fun _ => rfl⟩
  | some count =>
    rw [hfails] at h
    cases h
    exact ⟨_, rfl, by simp, fun h => (by cases h)⟩

/-- Where nothing was done nothing was written. -/
theorem content_elsewhere (h : ∀ change∈log, change.target≠path) : content log path=[] := by
  refine List.flatMap_eq_nil_iff.mpr fun change hchange => ?_
  cases change with
  | bytes target chunk => exact if_neg (h _ hchange)
  | parent target => rfl
  | directory target => rfl
  | file target => rfl

/-! The invariant. -/

/-- The counters are ahead of what has been done. -/
structure Counted (limits : CopyBudget) (s : Staging) : Prop where
  maxEntries : s.budget.maxEntries=limits.maxEntries
  maxBytes : s.budget.maxBytes=limits.maxBytes
  maxFileBytes : s.budget.maxFileBytes=limits.maxFileBytes
  maxDepth : s.budget.maxDepth=limits.maxDepth
  entries : copies s.log ≤ s.budget.entries
  bytes : bytesWritten s.log ≤ s.budget.bytes
  within : WithinBudget limits s.log

variable {limits : CopyBudget}

theorem Counted.ticked (h : Counted limits s) (n : Nat) : Counted limits { s with ticks := n } :=
  ⟨h.1, h.2, h.3, h.4, h.5, h.6, h.7⟩

theorem keeps_budgetCheck : Keeps (Counted limits) (budgetCheck env) := by
  intro s r t hs h
  obtain ⟨rfl, -⟩ := budgetCheck_cases h
  exact hs.ticked _

/-- A new object needs an entry that has been counted for it. -/
theorem Counted.made (h : Counted limits s) {change : Change} (hsize : change.size=0)
    (hfree : ∀ path, change.chunkOf path=[])
    (room : copies s.log+copies [change] ≤ s.budget.entries ∧ copies s.log+copies [change]≤limits.maxEntries) :
    Counted limits { s with log := s.log++[change] } where
  maxEntries := h.maxEntries
  maxBytes := h.maxBytes
  maxFileBytes := h.maxFileBytes
  maxDepth := h.maxDepth
  entries := by
    rw [copies_append]
    exact room.1
  bytes := by
    have := h.bytes
    rw [bytesWritten_append]
    simpa [bytesWritten, hsize] using this
  within := by
    refine ⟨?_, ?_, fun path => ?_⟩
    · rw [copies_append]
      exact room.2
    · have := h.within.bytes
      rw [bytesWritten_append]
      simpa [bytesWritten, hsize] using this
    · rw [content_append]
      simpa [content, hfree] using h.within.files path

/-- Bytes need to have been counted, and to fit the file. -/
theorem Counted.wrote (h : Counted limits s) {target : Names} {part : Bytes}
    (room : bytesWritten s.log+part.length ≤ s.budget.bytes ∧ bytesWritten s.log+part.length≤limits.maxBytes)
    (fits : (content s.log target).length+part.length≤limits.maxFileBytes) :
    Counted limits { s with log := s.log++[.bytes target part] } where
  maxEntries := h.maxEntries
  maxBytes := h.maxBytes
  maxFileBytes := h.maxFileBytes
  maxDepth := h.maxDepth
  entries := by
    rw [copies_append]
    simpa [copies] using h.entries
  bytes := by
    rw [bytesWritten_append]
    simpa [bytesWritten, Change.size] using room.1
  within := by
    refine ⟨?_, ?_, fun path => ?_⟩
    · rw [copies_append]
      simpa [copies] using h.within.entries
    · rw [bytesWritten_append]
      simpa [bytesWritten, Change.size] using room.2
    · rw [content_append, List.length_append]
      by_cases hp : target=path
      · subst hp
        simpa [content, Change.chunkOf] using fits
      · simpa [content, Change.chunkOf, hp] using h.within.files path

/-! The copies. -/

theorem countBytes_counted (h : Counted limits s) (chunk : Bytes) :
    Counted limits { s with budget := { s.budget with bytes := s.budget.bytes+chunk.length } } :=
  ⟨h.1, h.2, h.3, h.4, h.5, h.6.trans (Nat.le_add_right ..), h.7⟩

theorem fileCheck_cases {size : Nat} (h : outcome (fileCheck size) s=(r, t)) :
    t=s ∧ (r=.ok () → size ≤ s.budget.maxFileBytes) := by
  rw [fileCheck, outcome_check] at h
  obtain ⟨hr, ht⟩ := Prod.mk.inj h
  refine ⟨ht.symm, fun hok => ?_⟩
  rw [hok] at hr
  split at hr
  · cases hr
  · omega

theorem copyBytes_counted {target : Names} {written : Nat} {rest : Bytes} (h : Counted limits s)
    (hw : (content s.log target).length=written) (hrun : outcome (copyBytes env target written rest) s=(r, t)) :
    Counted limits t := by
  induction written, rest using copyBytes.induct env generalizing s t r with
  | case1 written rest ih =>
    rw [copyBytes] at hrun
    cases bind_cases hrun with
    | inl hraise =>
      obtain ⟨e, hraise, -⟩ := hraise
      exact keeps_budgetCheck _ _ _ h hraise
    | inr hrest =>
      obtain ⟨a, u, hcheck, hrun⟩ := hrest
      obtain ⟨rfl, -⟩ := budgetCheck_cases hcheck
      by_cases hnil : env.kernel.read written 65536 rest=[]
      · rw [dif_pos hnil] at hrun
        cases hrun
        exact h.ticked _
      · have ih := @ih hnil
        rw [dif_neg hnil] at hrun
        generalize env.kernel.read written 65536 rest=chunk at hrun ih
        have hcounted := countBytes_counted (h.ticked (s.ticks+1)) chunk
        rw [outcome_bind_ok (show outcome (countBytes chunk) _=(.ok (), _) from outcome_modify ..)] at hrun
        cases bind_cases hrun with
        | inl hraise =>
          obtain ⟨e, hraise, -⟩ := hraise
          exact keeps_budgetCheck _ _ _ hcounted hraise
        | inr hrest =>
          obtain ⟨a, u, hcheck, hrun⟩ := hrest
          obtain ⟨rfl, hlimits⟩ := budgetCheck_cases hcheck
          have hcounted := hcounted.ticked (s.ticks+1+1)
          cases bind_cases hrun with
          | inl hraise =>
            obtain ⟨e, hraise, -⟩ := hraise
            exact (fileCheck_cases hraise).1 ▸ hcounted
          | inr hrest =>
            obtain ⟨a, u, hfile, hrun⟩ := hrest
            obtain ⟨rfl, hfits⟩ := fileCheck_cases hfile
            have hroom := (hlimits rfl).2
            have hfits := hfits rfl
            have wrote : ∀ part : Bytes, part.length ≤ chunk.length → Counted limits _ := fun part hpart =>
              @Counted.wrote _ limits hcounted target part (by
                have := h.bytes
                have := h.maxBytes
                simp only at hroom ⊢
                omega) (by
                have := h.maxFileBytes
                simp only at hfits ⊢
                omega)
            cases bind_cases hrun with
            | inl hraise =>
              obtain ⟨e, hraise, -⟩ := hraise
              obtain ⟨part, rfl, hpart, -⟩ := append_cases hraise
              exact wrote part hpart
            | inr hrest =>
              obtain ⟨a, u, happend, hrun⟩ := hrest
              obtain ⟨part, rfl, hpart, hall⟩ := append_cases happend
              obtain rfl := hall rfl
              refine ih (wrote part hpart) ?_ hrun
              simp only [content_append, List.length_append, hw]
              simp [content, Change.chunkOf]

/-- One entry more has been counted than there are copies, and it is within the limit. -/
structure Roomy (limits : CopyBudget) (s : Staging) : Prop where
  counted : Counted limits s
  entries : copies s.log<s.budget.entries
  maxEntries : copies s.log<limits.maxEntries

theorem Roomy.made (h : Roomy limits s) {change : Change} (hsize : change.size=0)
    (hfree : ∀ path, change.chunkOf path=[]) : Counted limits { s with log := s.log++[change] } := by
  have hone : copies [change]≤1 := by exact List.countP_le_length
  have := h.entries
  have := h.maxEntries
  exact h.counted.made hsize hfree ⟨by omega, by omega⟩

theorem entry_cases {x : EStateM Failure Staging Unit} (h : Counted limits s)
    (hrun : outcome (do countEntry; budgetCheck env; x) s=(r, t)) :
    Counted limits t ∨ ∃ u, Roomy limits u ∧ u.log=s.log ∧ outcome x u=(r, t) := by
  have hentry : Counted limits { s with budget := { s.budget with entries := s.budget.entries+1 } } :=
    ⟨h.1, h.2, h.3, h.4, h.5.trans (Nat.le_succ _), h.6, h.7⟩
  rw [outcome_bind_ok (show outcome countEntry s=(.ok (), _) from outcome_modify ..)] at hrun
  cases bind_cases hrun with
  | inl hraise =>
    obtain ⟨e, hraise, -⟩ := hraise
    exact .inl (keeps_budgetCheck _ _ _ hentry hraise)
  | inr hrest =>
    obtain ⟨a, u, hcheck, hrun⟩ := hrest
    obtain ⟨rfl, hlimits⟩ := budgetCheck_cases hcheck
    refine .inr ⟨_, ⟨hentry.ticked _, Nat.lt_succ_of_le h.entries, ?_⟩, rfl, hrun⟩
    have hmax := (hlimits rfl).1
    have := h.maxEntries
    have := h.entries
    simp only at hmax ⊢
    omega

theorem copyFile_counted {inode : Nat} {target : Names} (h : Roomy limits s)
    (hrun : outcome (copyFile env inode target) s=(r, t)) : Counted limits t := by
  cases bind_cases hrun with
  | inl hraise =>
    obtain ⟨e, hraise, -⟩ := hraise
    exact keeps_check _ _ _ _ h.counted hraise
  | inr hrest =>
    obtain ⟨a, u, hlinks, hsized⟩ := hrest
    rw [outcome_check] at hlinks
    obtain ⟨-, rfl⟩ := Prod.mk.inj hlinks
    cases bind_cases hsized with
    | inl hraise =>
      obtain ⟨e, hraise, -⟩ := hraise
      exact keeps_check _ _ _ _ h.counted hraise
    | inr hrest =>
      obtain ⟨a, v, hsize, hmaking⟩ := hrest
      obtain ⟨rfl, -⟩ := fileCheck_cases hsize
      cases bind_cases hmaking with
      | inl hraise =>
        obtain ⟨e, hraise, -⟩ := hraise
        cases make_cases hraise with
        | inl hsame => exact hsame.1 ▸ h.counted
        | inr hmade => exact absurd hmade.2.2 nofun
      | inr hrest =>
        obtain ⟨a, w, hmake, hwriting⟩ := hrest
        cases make_cases hmake with
        | inl hsame => exact absurd rfl hsame.2
        | inr hmade =>
          obtain ⟨hfree, rfl, -⟩ := hmade
          refine copyBytes_counted (h.made rfl fun _ => rfl) ?_ hwriting
          have hnone : content v.log target=[] :=
            content_elsewhere fun change hchange heq => hfree (.inr ⟨change, hchange, heq⟩)
          simp only [content_append, hnone]
          rfl

theorem copyObject_counted {room : Nat} {parent : Names} {name relative : String} {target : Names} :
    Keeps (Counted limits) (copyObject env room parent name relative target) := by
  induction room generalizing parent name relative target with
  | zero =>
    intro s r t h hrun
    cases entry_cases h hrun with
    | inl ht => exact ht
    | inr hrest =>
      obtain ⟨u, hu, -, hrun⟩ := hrest
      exact keeps_throw _ _ _ _ hu.counted hrun
  | succ room ih =>
    intro s r t h hrun
    cases entry_cases h hrun with
    | inl ht => exact ht
    | inr hrest =>
      obtain ⟨u, hu, -, hrun⟩ := hrest
      cases bind_cases hrun with
      | inl hraise =>
        obtain ⟨e, hraise, -⟩ := hraise
        exact keeps_check _ _ _ _ hu.counted hraise
      | inr hrest =>
        obtain ⟨a, v, hallowed, hrun⟩ := hrest
        rw [outcome_check] at hallowed
        obtain ⟨-, rfl⟩ := Prod.mk.inj hallowed
        cases bind_cases hrun with
        | inl hraise =>
          obtain ⟨e, hraise, -⟩ := hraise
          exact keeps_check _ _ _ _ hu.counted hraise
        | inr hrest =>
          obtain ⟨object, v, hopen, hrun⟩ := hrest
          rw [outcome_check] at hopen
          obtain ⟨-, rfl⟩ := Prod.mk.inj hopen
          cases object with
          | symlink link => exact keeps_throw _ _ _ _ hu.counted hrun
          | special => exact keeps_throw _ _ _ _ hu.counted hrun
          | file inode => exact copyFile_counted hu hrun
          | dir =>
            cases bind_cases hrun with
            | inl hraise =>
              obtain ⟨e, hraise, -⟩ := hraise
              cases make_cases hraise with
              | inl hsame => exact hsame.1 ▸ hu.counted
              | inr hmade => exact absurd hmade.2.2 nofun
            | inr hrest =>
              obtain ⟨a, v, hmake, hrun⟩ := hrest
              cases make_cases hmake with
              | inl hsame => exact absurd rfl hsame.2
              | inr hmade =>
                obtain ⟨-, rfl, -⟩ := hmade
                exact keeps_forM (fun _ _ => ih) _ _ _ (hu.made rfl fun _ => rfl) hrun

theorem makeParent_cases {path : Names} (h : outcome (makeParent env path) s=(r, t)) :
    t=s ∨ t={ s with log := s.log++[.parent path] } := by
  simp only [outcome, makeParent, make] at h
  split_ifs at h with hfile hstaged hrefused hstaged'
  · cases h
    exact .inl rfl
  · cases h
    exact .inl rfl
  · cases h
    exact .inl rfl
  · cases h
    exact .inl rfl
  · cases h
    exact .inr rfl

theorem makeParent_counted {path : Names} : Keeps (Counted limits) (makeParent env path) := by
  intro s r t h hrun
  cases makeParent_cases hrun with
  | inl hsame => exact hsame ▸ h
  | inr hmade => exact hmade ▸ h.made rfl (fun _ => rfl) ⟨h.entries, h.within.entries⟩

theorem keeps_unaliased {α : Type} {I : Staging → Prop} {x : EStateM Failure Staging α} (hx : Keeps I x) :
    Keeps I (unaliased x) := by
  intro s r t hs h
  obtain ⟨r', h, -⟩ := unaliased_cases h
  exact hx s r' t hs h

/-- A call, with its surroundings. -/
structure CopyCall where
  env : Surroundings
  root : Names
  raw : String
  destination : Names

def CopyCall.run (call : CopyCall) : EStateM Failure Staging Unit :=
  copyConfined call.env call.root call.raw call.destination

theorem run_counted (call : CopyCall) : Keeps (Counted limits) call.run := by
  refine keeps_bind (keeps_check _) fun path => keeps_unaliased ?_
  refine keeps_bind (keeps_check _) fun parent => ?_
  refine keeps_bind (keeps_forM fun _ _ => makeParent_counted) fun _ => ?_
  refine keeps_bind ?_ fun s => copyObject_counted
  intro s r t h hrun
  cases hrun
  exact h

/-- Nothing of the staging directory is at a path or below it. -/
def Fresh (log : List Change) (path : Names) : Prop := ∀ change∈log, ∀ names, change.target≠path++names

/-- A call to a fresh destination, with what it comes to. -/
def Copies (s : Staging) (e : CopyCall × Except Failure Unit) (t : Staging) : Prop :=
  e.1.destination≠[] ∧ Fresh s.log e.1.destination ∧ outcome e.1.run s=(e.2, t)

theorem copies_counted {budget : CopyBudget} {es : List (CopyCall × Except Failure Unit)}
    (h : Traces.Run Copies { budget } es s) : Counted budget s := by
  apply h.invariant (I := fun _ s => Counted budget s)
  · exact ⟨rfl, rfl, rfl, rfl, Nat.zero_le _, Nat.zero_le _, Nat.zero_le _, Nat.zero_le _, fun _ => Nat.zero_le _⟩
  · intro es t e u _ ht hs
    exact run_counted e.1 _ _ _ ht hs.2.2

end Filesystem
end TraceGuard
