import TraceGuard.Confinement

/-! Walks by descriptors. From an existing root a walk leaves the root's own path as it is, and makes missing
directories below the root only. -/
namespace TraceGuard
open Files Stateful Raising

namespace Filesystem
variable {kernel : Kernel} {tree t made : FileTree} {dir child : Names} {name : String} {names : List String}
  {create : Bool}

/-! Entering directories. -/

/-- A tree with directories that were missing along a path. -/
structure Extends (tree t : FileTree) (dir : Names) (names : List String) : Prop where
  contents : t.contents=tree.contents
  object : ∀ path, t.object path=tree.object path ∨ (tree.object path=none ∧ t.object path=some .dir ∧
    ∃ k, 0<k ∧ k≤names.length ∧ path=dir++names.take k)

theorem Extends.refl : Extends tree tree dir names := ⟨rfl, fun _ => .inl rfl⟩

theorem Extends.mono (h : Extends tree t dir names) {path : Names} {object : Object}
    (ho : tree.object path=some object) : t.object path=some object := by
  cases h.object path with
  | inl heq => exact heq.trans ho
  | inr hnew => exact absurd ho (by simp [hnew.1])

/-- First the nearest directory, then those below it. -/
theorem Extends.cons {u : FileTree} (h : Extends tree t dir [name]) (h' : Extends t u (dir++[name]) names) :
    Extends tree u dir (name :: names) where
  contents := h'.contents.trans h.contents
  object := by
    intro path
    cases h'.object path with
    | inl heq =>
      cases h.object path with
      | inl heq' => exact .inl (heq.trans heq')
      | inr hnew =>
        obtain ⟨hnone, hdir, k, hpos, hk, rfl⟩ := hnew
        obtain rfl : k=1 := by
          simp only [List.length_singleton] at hk
          omega
        exact .inr ⟨hnone, heq.trans hdir, 1, hpos, by simp, by simp⟩
    | inr hnew =>
      obtain ⟨hnone, hdir, k, hpos, hk, rfl⟩ := hnew
      refine .inr ⟨?_, hdir, k+1, by omega, by simpa using hk, by simp⟩
      cases hobject : tree.object (dir++[name]++names.take k) with
      | none => rfl
      | some object => exact absurd (h.mono hobject) (hnone ▸ nofun)

/-- A step into a directory. It makes one only where it may and none was. -/
theorem enter_cases {r : Except Failure Names} (h : outcome (enter kernel create dir name) tree=(r, t)) :
    (t=tree ∨ (create=true ∧ name≠".." ∧ tree.object (dir++[name])=none ∧ Extends tree t dir [name])) ∧
      ∀ child, r=.ok child → t.real dir [name]=some child := by
  simp only [outcome, enter] at h
  cases hopen : kernel.openDirectory .openDirectory dir name tree with
  | ok child =>
    rw [hopen] at h
    cases h
    exact ⟨.inl rfl, fun _ hr => Except.ok.inj hr ▸ Kernel.openDirectory_ok hopen⟩
  | error failure =>
    rw [hopen] at h
    cases failure with
    | os =>
      cases h
      exact ⟨.inl rfl, fun _ h => (by cases h)⟩
    | value message =>
      cases h
      exact ⟨.inl rfl, fun _ h => (by cases h)⟩
    | missing =>
      obtain ⟨hname, hnone⟩ := Kernel.openDirectory_missing hopen
      cases create with
      | false =>
        cases h
        exact ⟨.inl rfl, fun _ h => (by cases h)⟩
      | true =>
        simp only [if_true] at h
        cases hmake : kernel.makeDirectory dir name tree with
        | error failure =>
          rw [hmake] at h
          cases h
          exact ⟨.inl rfl, fun _ h => (by cases h)⟩
        | ok made =>
          rw [hmake] at h
          obtain ⟨-, -, hcontents, hobject⟩ := Kernel.place_ok (Kernel.makeDirectory_ok hmake)
          have hext : Extends tree made dir [name] := by
            refine ⟨hcontents, fun path => ?_⟩
            rw [hobject]
            split
            · rename_i heq
              exact .inr ⟨heq ▸ hnone, rfl, 1, by omega, by simp, by simpa using heq⟩
            · exact .inl rfl
          cases hopen' : kernel.openDirectory .openMade dir name made with
          | error failure =>
            simp only [hopen'] at h
            cases h
            exact ⟨.inr ⟨rfl, hname, hnone, hext⟩, fun _ h => (by cases h)⟩
          | ok child =>
            simp only [hopen'] at h
            cases h
            exact ⟨.inr ⟨rfl, hname, hnone, hext⟩, fun _ hr => Except.ok.inj hr ▸ Kernel.openDirectory_ok hopen'⟩

/-- Where nothing may be made, or nothing is missing, a walk changes nothing. -/
theorem walk_real {r : Except Failure Names} (still : create=false ∨ tree.leads dir names=true)
    (h : outcome (walk kernel create dir names) tree=(r, t)) :
    t=tree ∧ ∀ child, r=.ok child → tree.real dir names=some child := by
  induction names generalizing dir with
  | nil =>
    cases h
    exact ⟨rfl, fun _ hr => congrArg some (Except.ok.inj hr)⟩
  | cons name names ih =>
    have keeps : ∀ {r t}, outcome (enter kernel create dir name) tree=(r, t) →
        t=tree ∧ ∀ child, r=.ok child → tree.real dir [name]=some child := by
      intro r t h
      obtain ⟨ht, hr⟩ := enter_cases h
      cases ht with
      | inl ht => exact ⟨ht, ht ▸ hr⟩
      | inr ht =>
        obtain ⟨hcreate, hname, hnone, -⟩ := ht
        cases still with
        | inl still => exact absurd hcreate (by simp [still])
        | inr still => exact absurd still (by simp [FileTree.leads, hname, hnone])
    cases bind_cases h with
    | inl hraise =>
      obtain ⟨e, henter, rfl⟩ := hraise
      exact ⟨(keeps henter).1, nofun⟩
    | inr hrest =>
      obtain ⟨child, u, henter, hwalk⟩ := hrest
      obtain ⟨rfl, hchild⟩ := keeps henter
      have hreal := hchild child rfl
      have still' : create=false ∨ u.leads child names=true := by
        cases still with
        | inl still => exact .inl still
        | inr still =>
          right
          simp only [FileTree.leads, FileTree.real] at still hreal
          split at hreal
          · rename_i hn
            cases hreal
            rwa [if_pos hn] at still
          · rename_i hn
            split at hreal
            · rename_i hdir
              cases hreal
              rwa [if_neg hn, hdir] at still
            · cases hreal
      obtain ⟨ht, hr⟩ := ih still' hwalk
      refine ⟨ht, fun target htarget => ?_⟩
      have := @FileTree.real_append u dir [name] names
      rw [List.singleton_append, hreal] at this
      exact this.trans (hr target htarget)

/-- A walk by names without `..` makes what is missing on its way, and nothing else. -/
theorem walk_extends {r : Except Failure Names} (plain : ".."∉names)
    (h : outcome (walk kernel create dir names) tree=(r, t)) :
    Extends tree t dir names ∧ ∀ child, r=.ok child → child=dir++names ∧ t.real dir names=some child := by
  induction names generalizing dir tree with
  | nil =>
    cases h
    exact ⟨.refl, fun _ hr => by simp [← Except.ok.inj hr, FileTree.real]⟩
  | cons name names ih =>
    rw [List.mem_cons, not_or] at plain
    have step : ∀ {r t}, outcome (enter kernel create dir name) tree=(r, t) →
        Extends tree t dir [name] ∧ ∀ child, r=.ok child → child=dir++[name] ∧ t.object child=some .dir := by
      intro r t h
      obtain ⟨ht, hr⟩ := enter_cases h
      refine ⟨?_, fun child hchild => ?_⟩
      · cases ht with
        | inl ht => exact ht ▸ .refl
        | inr ht => exact ht.2.2.2
      · have := hr child hchild
        simp only [FileTree.real, if_neg (Ne.symm plain.1)] at this
        split at this
        · rename_i hdir
          cases this
          exact ⟨rfl, hdir⟩
        · cases this
    cases bind_cases h with
    | inl hraise =>
      obtain ⟨e, henter, rfl⟩ := hraise
      exact ⟨(step henter).1.cons .refl, fun _ h => (by cases h)⟩
    | inr hrest =>
      obtain ⟨child, u, henter, hwalk⟩ := hrest
      obtain ⟨hext, hchild⟩ := step henter
      obtain ⟨rfl, hdir⟩ := hchild child rfl
      obtain ⟨hext', hr⟩ := ih plain.2 hwalk
      refine ⟨hext.cons hext', fun target htarget => ?_⟩
      obtain ⟨rfl, hreal⟩ := hr target htarget
      refine ⟨by simp, ?_⟩
      rw [FileTree.real, if_neg (Ne.symm plain.1), if_pos (hext'.mono hdir)]
      exact hreal

theorem parts_ok {raw : String} {path : Names} (h : parts raw=.ok path) : ".."∉path ∧ path≠[] := by
  rw [parts] at h
  split at h
  · cases h
  · rename_i hn
    cases h
    simp only [not_or] at hn
    exact ⟨hn.2.1, hn.2.2.1⟩

/-- The target of a path is the last name in the directory above it. -/
theorem target_eq {raw : String} {path base : Names} (h : parts raw=.ok path) :
    base++path.dropLast++[path.getLastD ""]=base++path := by
  obtain ⟨init, last, rfl⟩ : ∃ init last, path=init++[last] :=
    (List.eq_nil_or_concat' path).resolve_left (parts_ok h).2
  simp

theorem walk_append (more : List String) : walk kernel create dir (names++more)=
    walk kernel create dir names >>= fun child => walk kernel create child more := by
  induction names generalizing dir with
  | nil => rfl
  | cons name names ih =>
    simp only [List.cons_append, walk, bind_assoc, ih]

/-- From an existing root a walk changes what is below the root. -/
theorem walk_below {root : Names} {r : Except Failure Names} (existing : tree.leads [] root=true)
    (plain : ".."∉names) (h : outcome (walk kernel create [] (root++names)) tree=(r, t)) :
    (t=tree ∧ ∃ failure, r=.error failure) ∨ ∃ base, tree.real [] root=some base ∧
      Extends tree t base names ∧ (create=false → t=tree) ∧
      ∀ child, r=.ok child → child=base++names ∧ t.real base names=some child := by
  rw [walk_append] at h
  cases bind_cases h with
  | inl hraise =>
    obtain ⟨e, hroot, rfl⟩ := hraise
    exact .inl ⟨(walk_real (.inr existing) hroot).1, e, rfl⟩
  | inr hrest =>
    obtain ⟨base, u, hroot, hwalk⟩ := hrest
    obtain ⟨rfl, hreal⟩ := walk_real (.inr existing) hroot
    obtain ⟨hext, hr⟩ := walk_extends plain hwalk
    exact .inr ⟨base, hreal base rfl, hext, fun hc => (walk_real (.inl hc) hwalk).1, hr⟩

theorem unaliased_cases {σ α : Type} {x : EStateM Failure σ α} {s t : σ} {r : Except Failure α}
    (h : outcome (unaliased x) s=(r, t)) : ∃ r', outcome x s=(r', t) ∧ ∀ a, r=.ok a ↔ r'=.ok a := by
  simp only [outcome, unaliased] at h ⊢
  split at h
  · rename_i hx
    split at hx
    · cases hx
    · cases hx
    · rename_i hok
      cases hx
      cases h
      exact ⟨_, by rw [hok], fun _ => Iff.rfl⟩
  · rename_i hx
    split at hx
    · rename_i herr
      cases hx
      cases h
      exact ⟨_, by rw [herr], by simp⟩
    · rename_i herr
      cases hx
      cases h
      exact ⟨_, by rw [herr], by simp⟩
    · cases hx

/-- The three ends of a confined operation: on the path, on the way, or in the directory above the target. -/
theorem confinedParent_cases {α : Type} {root : Names} {raw : String} {body : Names → String → EStateM Failure FileTree α}
    {r : Except Failure α} (existing : tree.leads [] root=true)
    (h : outcome (confinedParent kernel root raw create body) tree=(r, t)) :
    (t=tree ∧ ∃ failure, r=.error failure) ∨ ∃ path base, parts raw=.ok path ∧ tree.real [] root=some base ∧
      ((Extends tree t base path.dropLast ∧ (create=false → t=tree) ∧ ∃ failure, r=.error failure) ∨
        ∃ u r', Extends tree u base path.dropLast ∧ (create=false → u=tree) ∧
          u.real base path.dropLast=some (base++path.dropLast) ∧
          outcome (body (base++path.dropLast) (path.getLastD "")) u=(r', t) ∧ ∀ a, r=.ok a ↔ r'=.ok a) := by
  cases bind_cases h with
  | inl hraise =>
    obtain ⟨e, hparts, rfl⟩ := hraise
    rw [outcome_check] at hparts
    exact .inl ⟨(Prod.mk.inj hparts).2.symm, e, rfl⟩
  | inr hrest =>
    obtain ⟨path, u, hparts, hrun⟩ := hrest
    rw [outcome_check] at hparts
    obtain ⟨hpath, rfl⟩ := Prod.mk.inj hparts
    obtain ⟨r', hrun, hr⟩ := unaliased_cases hrun
    have plain : ".."∉path.dropLast := fun hin => (parts_ok hpath).1 (List.mem_of_mem_dropLast hin)
    have failed : (∃ failure, r'=.error failure) → ∃ failure, r=.error failure := by
      rintro ⟨failure, rfl⟩
      cases r with
      | error failure => exact ⟨failure, rfl⟩
      | ok a => exact absurd ((hr a).mp rfl) nofun
    cases bind_cases hrun with
    | inl hraise =>
      obtain ⟨e, hwalk, rfl⟩ := hraise
      cases walk_below existing plain hwalk with
      | inl hsame => exact .inl ⟨hsame.1, failed ⟨e, rfl⟩⟩
      | inr hbelow =>
        obtain ⟨base, hbase, hext, hsame, -⟩ := hbelow
        exact .inr ⟨path, base, hpath, hbase, .inl ⟨hext, hsame, failed ⟨e, rfl⟩⟩⟩
    | inr hbody =>
      obtain ⟨parent, v, hwalk, hbody⟩ := hbody
      cases walk_below existing plain hwalk with
      | inl hsame => exact absurd hsame.2 nofun
      | inr hbelow =>
        obtain ⟨base, hbase, hext, hsame, hparent⟩ := hbelow
        obtain ⟨rfl, hreal⟩ := hparent parent rfl
        exact .inr ⟨path, base, hpath, hbase, .inr ⟨v, r', hext, hsame, hreal, hbody, hr⟩⟩

end Filesystem
end TraceGuard
