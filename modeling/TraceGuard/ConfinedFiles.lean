import TraceGuard.ConfinedWalks
import TraceGuard.Segments

/-! What confined reads and writes reach. A read gives the whole of a file below the root; a write puts its bytes
into a file of their own, which takes the place of the target in one step. -/
namespace TraceGuard
open Files Stateful Raising

namespace Filesystem
variable {kernel : Kernel} {tree t made : FileTree} {dir child : Names} {name : String} {names : List String}
  {create : Bool}

/-! Reading. -/

/-- Within the limit, the loop reads all of the file, however much each read gives. -/
theorem readLoop_all {maxBytes : Int} {chunks rest : Bytes} (h : chunks.length+rest.length ≤ maxBytes) :
    readLoop kernel maxBytes chunks rest=chunks++rest := by
  induction chunks, rest using readLoop.induct kernel maxBytes with
  | case1 chunks rest hle asked hnil =>
    rw [readLoop, if_pos hle, dif_pos hnil]
    have : rest=[] := (List.take_eq_nil_iff.mp hnil).resolve_left (by omega)
    rw [this, List.append_nil]
  | case2 chunks rest hle asked hne ih =>
    have hsplit : kernel.read chunks.length asked rest++rest.drop (kernel.read chunks.length asked rest).length=
        rest := List.prefix_iff_eq_append.mp (List.take_prefix ..)
    rw [readLoop, if_pos hle, dif_neg hne, ih, List.append_assoc, hsplit]
    rw [← hsplit] at h
    simp only [List.length_append] at h ⊢
    omega
  | case3 chunks rest hle => omega

/-- The bytes are those of a file with a single link, reached through real directories. -/
def Readable (tree : FileTree) (root : Names) (raw : String) (bytes : Bytes) : Prop :=
  ∃ path base inode, parts raw=.ok path ∧ tree.real [] root=some base ∧
    tree.real base path.dropLast=some (base++path.dropLast) ∧ tree.object (base++path)=some (.file inode) ∧
    tree.links inode=1 ∧ tree.contents inode=bytes

theorem readObject_ok {maxBytes : Int} {object : Object} {bytes : Bytes}
    (h : readObject kernel maxBytes object tree=.ok bytes) : ∃ inode, object=.file inode ∧
      tree.links inode=1 ∧ tree.contents inode=bytes ∧ bytes.length ≤ maxBytes := by
  cases object with
  | dir => cases h
  | symlink target => cases h
  | special => cases h
  | file inode =>
    simp only [readObject] at h
    split at h
    · cases h
    · rename_i hlinks
      split at h
      · cases h
      · rename_i hsize
        have hall := @readLoop_all kernel maxBytes [] (tree.contents inode)
          (by simp at hsize ⊢; omega)
        rw [hall, List.nil_append, if_neg hsize] at h
        cases h
        exact ⟨inode, rfl, not_not.mp hlinks, rfl, not_lt.mp hsize⟩

theorem readConfined_safe {root : Names} {raw : String} {maxBytes : Int} {r : Except Failure Bytes}
    (existing : tree.leads [] root=true) (h : outcome (readConfined kernel root raw maxBytes) tree=(r, t)) :
    t=tree ∧ ∀ bytes, r=.ok bytes → Readable tree root raw bytes ∧ bytes.length ≤ maxBytes := by
  cases confinedParent_cases existing h with
  | inl hraise =>
    obtain ⟨ht, failure, rfl⟩ := hraise
    exact ⟨ht, nofun⟩
  | inr hrest =>
    obtain ⟨path, base, hpath, hbase, hrest⟩ := hrest
    cases hrest with
    | inl hraise =>
      obtain ⟨-, ht, failure, rfl⟩ := hraise
      exact ⟨ht rfl, nofun⟩
    | inr hbody =>
      obtain ⟨u, r', -, hu, hreal, hbody, hr⟩ := hbody
      obtain rfl := hu rfl
      rw [outcome_check] at hbody
      obtain ⟨hresult, rfl⟩ := Prod.mk.inj hbody
      refine ⟨rfl, fun bytes hbytes => ?_⟩
      obtain ⟨object, hopen, hread⟩ := bind_ok (hresult.trans ((hr bytes).mp hbytes))
      obtain ⟨inode, rfl, hlinks, hcontents, hsize⟩ := readObject_ok hread
      have hobject := Kernel.openFile_ok hopen
      rw [target_eq hpath] at hobject
      exact ⟨⟨path, base, inode, hpath, hbase, hreal, hobject, hlinks, hcontents⟩, hsize⟩

theorem walk_willing (h : tree.real dir names=some child) :
    outcome (walk .willing create dir names) tree=(.ok child, tree) := by
  induction names generalizing dir with
  | nil =>
    cases h
    rfl
  | cons name names ih =>
    have hsplit := @FileTree.real_append tree dir [name] names
    rw [List.singleton_append, h] at hsplit
    obtain ⟨next, hnext, hrest⟩ := Option.bind_eq_some_iff.mp hsplit.symm
    have henter : outcome (enter .willing create dir name) tree=(.ok next, tree) := by
      simp only [outcome, enter, Kernel.willing_openDirectory hnext]
    exact (outcome_bind_ok henter).trans (ih hrest)

theorem unaliased_ok {α : Type} {x : EStateM Failure FileTree α} {a : α} (h : outcome x tree=(.ok a, t)) :
    outcome (unaliased x) tree=(.ok a, t) := by
  simp only [outcome] at h
  split at h
  · rename_i hx
    cases h
    simp only [outcome, unaliased, hx]
  · cases h

/-- A readable file is read whole when the limit allows. -/
theorem readConfined_willing {root : Names} {raw : String} {bytes : Bytes} {maxBytes : Int}
    (h : Readable tree root raw bytes) (limit : bytes.length ≤ maxBytes) :
    outcome (readConfined .willing root raw maxBytes) tree=(.ok bytes, tree) := by
  obtain ⟨path, base, inode, hpath, hbase, hreal, hobject, hlinks, rfl⟩ := h
  rw [← target_eq hpath] at hobject
  have hparts : outcome (check fun _ => parts raw) tree=(.ok path, tree) := by rw [outcome_check, hpath]
  have hwalk : tree.real [] (root++path.dropLast)=some (base++path.dropLast) := by
    rw [FileTree.real_append, hbase]
    exact hreal
  refine (outcome_bind_ok hparts).trans (unaliased_ok ((outcome_bind_ok (walk_willing hwalk)).trans ?_))
  have hread := @readLoop_all .willing maxBytes [] (tree.contents inode)
    (by simpa using limit)
  rw [outcome_check, Kernel.willing_openFile hobject]
  simp only [bind, Except.bind, readObject, hlinks, hread, List.nil_append, if_neg (not_lt.mpr limit)]
  rfl

/-! Writing. -/

theorem view_congr {path : Names} (hobject : t.object path=tree.object path)
    (hcontents : ∀ inode, tree.object path=some (.file inode) → t.contents inode=tree.contents inode) :
    t.view path=tree.view path := by
  rw [FileTree.view, FileTree.view, hobject]
  cases ho : tree.object path with
  | none => rfl
  | some object =>
    cases object with
    | file inode => simp [FileTree.viewOf, hcontents inode ho]
    | dir => rfl
    | symlink target => rfl
    | special => rfl

theorem discard_spec {temporary : String} (h : tree.object (dir++[temporary])≠some .dir) :
    (discard dir temporary tree).contents=tree.contents ∧
      ∀ path, (discard dir temporary tree).object path=
        if path=dir++[temporary] then none else tree.object path := by
  rw [discard]
  cases hunlink : Kernel.unlink dir temporary tree with
  | ok rest => exact Kernel.unlink_ok hunlink
  | error failure =>
    rw [Kernel.unlink, dif_neg h] at hunlink
    split at hunlink
    · rename_i hnone
      refine ⟨rfl, fun path => ?_⟩
      by_cases hp : path=dir++[temporary]
      · rw [if_pos hp, hp]
        exact hnone
      · rw [if_neg hp]
    · cases hunlink

theorem replaceable_ok (h : replaceable kernel dir name tree=.ok ()) :
    tree.object (dir++[name])=none ∨ ∃ inode, tree.object (dir++[name])=some (.file inode) ∧ tree.links inode=1 := by
  rw [replaceable] at h
  split at h
  · rename_i hstatus
    exact .inl (Kernel.status_missing hstatus)
  · cases h
  · rename_i inode hstatus
    split at h
    · cases h
    · exact .inr ⟨inode, Kernel.status_ok hstatus, by omega⟩
  · cases h

/-- The bytes are filled in first; only when nothing fails is the file moved. -/
theorem fillAndReplace_cases {temporary : String} {inode : Nat} {content : Bytes} {r : Except Failure Unit}
    (h : outcome (fillAndReplace kernel dir name temporary inode content) tree=(r, t)) :
    (∃ failure written, r=.error failure ∧ t=tree.fill inode written) ∨
      (r=.ok () ∧ kernel.replace dir temporary name (tree.fill inode content)=.ok t) := by
  simp only [outcome, fillAndReplace] at h
  cases hwrite : kernel.write inode content tree with
  | mk result filled =>
    obtain ⟨written, rfl, hall⟩ := Kernel.write_fill hwrite
    rw [hwrite] at h
    cases result with
    | error failure =>
      cases h
      exact .inl ⟨failure, written, rfl, rfl⟩
    | ok =>
      obtain rfl := hall rfl
      simp only at h
      cases hsync : kernel.sync with
      | error failure =>
        simp only [hsync] at h
        cases h
        exact .inl ⟨failure, written, rfl, rfl⟩
      | ok =>
        simp only [hsync] at h
        cases hreplace : kernel.replace dir temporary name (tree.fill inode written) with
        | error failure =>
          simp only [hreplace] at h
          cases h
          exact .inl ⟨failure, written, rfl, rfl⟩
        | ok replaced =>
          simp only [hreplace] at h
          cases h
          exact .inr ⟨rfl, rfl⟩

/-- The ends of the work in a directory: before the temporary file is there, with it to be removed, or after it
has been moved. -/
theorem replaceFile_cases {uuid : String} {content : Bytes} {r : Except Failure Unit}
    (h : outcome (replaceFile kernel uuid content dir name) tree=(r, t)) :
    (t=tree ∧ r≠.ok ()) ∨ ∃ placed, Kernel.place dir (temporaryName uuid) (.file tree.unused) tree=.ok placed ∧
      ((∃ written, t=discard dir (temporaryName uuid) (placed.fill tree.unused written) ∧ r≠.ok ()) ∨
        ∃ moved, kernel.replace dir (temporaryName uuid) name (placed.fill tree.unused content)=.ok moved ∧
          t=discard dir (temporaryName uuid) moved ∧ r=.ok () ∧ replaceable kernel dir name tree=.ok ()) := by
  simp only [outcome, replaceFile] at h
  cases hcheck : replaceable kernel dir name tree with
  | error failure =>
    rw [hcheck] at h
    cases h
    exact .inl ⟨rfl, fun h => (by cases h)⟩
  | ok =>
    rw [hcheck] at h
    simp only at h
    cases hcreate : kernel.create dir (temporaryName uuid) tree with
    | error failure =>
      rw [hcreate] at h
      cases h
      exact .inl ⟨rfl, fun h => (by cases h)⟩
    | ok result =>
      obtain ⟨inode, made⟩ := result
      obtain ⟨rfl, placed, hplace, rfl⟩ := Kernel.create_ok hcreate
      rw [hcreate] at h
      simp only at h
      refine .inr ⟨placed, hplace, ?_⟩
      cases hfill : outcome (fillAndReplace kernel dir name (temporaryName uuid) tree.unused content)
          (placed.fill tree.unused []) with
      | mk result filled =>
        have hcases := fillAndReplace_cases hfill
        simp only [outcome] at hfill
        split at hfill
        · rename_i hrun
          cases hfill
          rw [hrun] at h
          cases h
          cases hcases with
          | inl herror =>
            obtain ⟨failure, -, herror, -⟩ := herror
            cases herror
          | inr hok =>
            rw [FileTree.fill_fill] at hok
            exact .inr ⟨_, hok.2, rfl, rfl, rfl⟩
        · rename_i hrun
          cases hfill
          rw [hrun] at h
          cases h
          cases hcases with
          | inl herror =>
            obtain ⟨failure, written, -, rfl⟩ := herror
            exact .inl ⟨written, by rw [FileTree.fill_fill], fun h => (by cases h)⟩
          | inr hok => cases hok.1

theorem place_file {temporary : String} (h : Kernel.place dir temporary (.file tree.unused) tree=.ok made)
    (written : Bytes) : (∀ path, (made.fill tree.unused written).object path=
        if path=dir++[temporary] then some (.file tree.unused) else tree.object path) ∧
      ∀ inode, inode≠tree.unused → (made.fill tree.unused written).contents inode=tree.contents inode := by
  obtain ⟨-, -, hcontents, hobject⟩ := Kernel.place_ok h
  refine ⟨hobject, fun inode hne => ?_⟩
  rw [FileTree.contents_fill_ne _ hne, hcontents]

/-- The work in the directory leaves everything but the target as it is, and the target too when it raises. -/
theorem replaceFile_frame {uuid : String} {content : Bytes} {r : Except Failure Unit}
    (h : outcome (replaceFile kernel uuid content dir name) tree=(r, t)) {path : Names}
    (hp : r≠.ok () ∨ path≠dir++[name]) : t.view path=tree.view path := by
  cases replaceFile_cases h with
  | inl hsame => rw [hsame.1]
  | inr hplaced =>
    obtain ⟨placed, hplace, hends⟩ := hplaced
    have hfree := (Kernel.place_ok hplace).2.1
    cases hends with
    | inl hraise =>
      obtain ⟨written, rfl, -⟩ := hraise
      obtain ⟨hobject, hcontents⟩ := place_file hplace written
      obtain ⟨hcontents', hobject'⟩ := @discard_spec (placed.fill tree.unused written) dir
        (temporaryName uuid) (by simp [hobject])
      refine view_congr ?_ fun inode hinode => ?_
      · rw [hobject', hobject]
        split
        · rename_i heq
          rw [heq, hfree]
        · rfl
      · rw [hcontents', hcontents inode (FileTree.ne_unused hinode)]
    | inr hmoved =>
      obtain ⟨moved, hreplace, rfl, rfl, -⟩ := hmoved
      have hne := hp.resolve_left (not_not.mpr rfl)
      obtain ⟨hobject, hcontents⟩ := place_file hplace content
      by_cases hname : temporaryName uuid=name
      · rw [hname] at hreplace hobject hfree ⊢
        obtain rfl := Kernel.replace_same hreplace
        obtain ⟨hcontents', hobject'⟩ := @discard_spec (placed.fill tree.unused content) dir
          name (by simp [hobject])
        refine view_congr ?_ fun inode hinode => ?_
        · rw [hobject', hobject, if_neg hne, if_neg hne]
        · rw [hcontents', hcontents inode (FileTree.ne_unused hinode)]
      · obtain ⟨hmoved, object, -, hobjectMoved⟩ := Kernel.replace_ok hname hreplace
        obtain ⟨hcontents', hobject'⟩ := @discard_spec moved dir (temporaryName uuid)
          (by simp [hobjectMoved, hname])
        refine view_congr ?_ fun inode hinode => ?_
        · rw [hobject', hobjectMoved, if_neg hne, hobject]
          split
          · rename_i heq
            rw [heq, hfree]
          · rfl
        · rw [hcontents', hmoved, hcontents inode (FileTree.ne_unused hinode)]

/-- When the temporary name is not the target's, the target is a file of its own with the bytes. -/
theorem replaceFile_target {uuid : String} {content : Bytes} (fresh : temporaryName uuid≠name)
    (h : outcome (replaceFile kernel uuid content dir name) tree=(.ok (), t)) :
    (∃ inode, t.object (dir++[name])=some (.file inode) ∧ t.links inode=1 ∧ t.contents inode=content) ∧
      ∀ path, tree.object path=some .dir → t.object path=some .dir := by
  cases replaceFile_cases h with
  | inl hsame => exact absurd rfl hsame.2
  | inr hplaced =>
    obtain ⟨placed, hplace, hends⟩ := hplaced
    have hfree := (Kernel.place_ok hplace).2.1
    cases hends with
    | inl hraise =>
      obtain ⟨-, -, hraise⟩ := hraise
      exact absurd rfl hraise
    | inr hmoved =>
      obtain ⟨moved, hreplace, rfl, -, hcheck⟩ := hmoved
      obtain ⟨hobject, hcontents⟩ := place_file hplace content
      obtain ⟨hmoved, object, hsource, hobjectMoved⟩ := Kernel.replace_ok fresh hreplace
      obtain ⟨hcontents', hobject'⟩ := @discard_spec moved dir (temporaryName uuid)
        (by simp [hobjectMoved, fresh])
      rw [hobject, if_pos rfl] at hsource
      cases hsource
      have hall : ∀ path, (discard dir (temporaryName uuid) moved).object path=
          if path=dir++[name] then some (.file tree.unused) else tree.object path := by
        intro path
        rw [hobject', hobjectMoved]
        by_cases ht : path=dir++[temporaryName uuid]
        · rw [if_pos ht, ht, if_neg (by simpa using fresh), hfree]
        · rw [if_neg ht, if_neg ht, hobject, if_neg ht]
      have htarget := hall (dir++[name])
      rw [if_pos rfl] at htarget
      refine ⟨⟨tree.unused, htarget, ?_, ?_⟩, fun path hdir => ?_⟩
      · rw [FileTree.links_eq_one htarget]
        intro other hother
        rw [hall] at hother
        split at hother
        · assumption
        · exact absurd rfl (FileTree.ne_unused hother)
      · rw [hcontents', hmoved, FileTree.contents_fill_self]
      · rw [hall]
        split
        · rename_i heq
          cases replaceable_ok hcheck with
          | inl hnone => exact absurd hdir (by simp [heq, hnone])
          | inr hfile =>
            obtain ⟨inode, hfile, -⟩ := hfile
            exact absurd hdir (by simp [heq, hfile])
        · exact hdir

/-- The target of a confined operation below an existing root. -/
def IsTarget (tree : FileTree) (root : Names) (raw : String) (target : Names) : Prop :=
  ∃ path base, parts raw=.ok path ∧ tree.real [] root=some base ∧ target=base++path

/-- A directory on the way to the target, below the root. -/
def OnTheWay (tree : FileTree) (root : Names) (raw : String) (dir : Names) : Prop :=
  ∃ path base k, parts raw=.ok path ∧ tree.real [] root=some base ∧ 0<k ∧ k<path.length ∧ dir=base++path.take k

theorem Extends.view (h : Extends tree t dir names) {path : Names} :
    t.view path=tree.view path ∨ (tree.view path=none ∧ t.view path=some .dir ∧
      ∃ k, 0<k ∧ k≤names.length ∧ path=dir++names.take k) := by
  cases h.object path with
  | inl heq => exact .inl (view_congr heq fun _ _ => by rw [h.contents])
  | inr hnew =>
    obtain ⟨hnone, hdir, hk⟩ := hnew
    exact .inr ⟨by simp [FileTree.view, hnone], by simp [FileTree.view, hdir, FileTree.viewOf], hk⟩

/-- A confined write changes nothing but its target, and that only when it returns; what else is new are
directories on the way. -/
theorem writeConfined_frame {uuid : String} {root : Names} {raw : String} {content : Bytes} {r : Except Failure Unit}
    (existing : tree.leads [] root=true) (h : outcome (writeConfined kernel uuid root raw content) tree=(r, t))
    (path : Names) : t.view path=tree.view path ∨ (r=.ok () ∧ IsTarget tree root raw path) ∨
      (tree.view path=none ∧ t.view path=some .dir ∧ OnTheWay tree root raw path) := by
  cases confinedParent_cases existing h with
  | inl hsame => exact .inl (by rw [hsame.1])
  | inr hrest =>
    obtain ⟨target, base, hpath, hbase, hrest⟩ := hrest
    have way : ∀ {u}, Extends tree u base target.dropLast → u.view path=tree.view path ∨
        (tree.view path=none ∧ u.view path=some .dir ∧ OnTheWay tree root raw path) := by
      intro u hext
      cases hext.view with
      | inl heq => exact .inl heq
      | inr hnew =>
        obtain ⟨hnone, hdir, k, hpos, hk, rfl⟩ := hnew
        have hlen : target.dropLast.length < target.length := by
          have := List.length_pos_of_ne_nil (parts_ok hpath).2
          rw [List.length_dropLast]
          omega
        refine .inr ⟨hnone, hdir, target, base, k, hpath, hbase, hpos, by omega, ?_⟩
        rw [List.dropLast_eq_take, List.take_take, min_eq_left]
        rw [List.length_dropLast] at hk
        exact hk
    cases hrest with
    | inl hraise =>
      cases way hraise.1 with
      | inl heq => exact .inl heq
      | inr hnew => exact .inr (.inr hnew)
    | inr hbody =>
      obtain ⟨u, r', hext, -, -, hbody, hr⟩ := hbody
      by_cases hp : r'=.ok () ∧ path=base++target
      · exact .inr (.inl ⟨(hr ()).mpr hp.1, target, base, hpath, hbase, hp.2⟩)
      · have hview := @replaceFile_frame _ _ _ _ _ _ _ _ hbody path (by
          rw [target_eq hpath]
          tauto)
        cases way hext with
        | inl heq => exact .inl (hview.trans heq)
        | inr hnew => exact .inr (.inr ⟨hnew.1, hview.trans hnew.2.1, hnew.2.2⟩)

/-- What a confined write leaves can be read. -/
theorem writeConfined_readable {uuid : String} {root : Names} {raw : String} {content : Bytes}
    (existing : tree.leads [] root=true) (fresh : ∀ path, parts raw=.ok path → temporaryName uuid≠path.getLastD "")
    (h : outcome (writeConfined kernel uuid root raw content) tree=(.ok (), t)) : Readable t root raw content := by
  cases confinedParent_cases existing h with
  | inl hraise => exact absurd hraise.2 nofun
  | inr hrest =>
    obtain ⟨path, base, hpath, hbase, hrest⟩ := hrest
    cases hrest with
    | inl hraise => exact absurd hraise.2.2 nofun
    | inr hbody =>
      obtain ⟨u, r', hext, -, hreal, hbody, hr⟩ := hbody
      rw [(hr ()).mp rfl] at hbody
      obtain ⟨⟨inode, hobject, hlinks, hcontents⟩, hdirs⟩ := replaceFile_target (fresh path hpath) hbody
      rw [target_eq hpath] at hobject
      refine ⟨path, base, inode, hpath, ?_, FileTree.real_mono hdirs hreal, hobject, hlinks, hcontents⟩
      exact FileTree.real_mono (fun path hdir => hdirs path (hext.mono hdir)) hbase

/-- Whatever the kernel refuses, and however much each of its reads gives: a confined read returns the bytes of
a file below the root and changes nothing; what was written is read back; and a write changes its target only,
and only when it returns. -/
theorem confined_files (kernel : Kernel) (uuid : String) (tree : FileTree) (root : Names) (raw : String)
    (content : Bytes) (existing : tree.leads [] root=true)
    (fresh : ∀ path, parts raw=.ok path → temporaryName uuid≠path.getLastD "") :
    (∀ maxBytes r t, outcome (readConfined kernel root raw maxBytes) tree=(r, t) →
      t=tree ∧ ∀ bytes, r=.ok bytes → Readable tree root raw bytes ∧ bytes.length ≤ maxBytes) ∧
    ∀ r t, outcome (writeConfined kernel uuid root raw content) tree=(r, t) →
      (r=.ok () → ∀ maxBytes : Int, content.length ≤ maxBytes →
        outcome (readConfined .willing root raw maxBytes) t=(.ok content, t)) ∧
      ∀ path, t.view path=tree.view path ∨ (r=.ok () ∧ IsTarget tree root raw path) ∨
        (tree.view path=none ∧ t.view path=some .dir ∧ OnTheWay tree root raw path) := by
  refine ⟨fun maxBytes r t h => readConfined_safe existing h, fun r t h => ⟨?_, writeConfined_frame existing h⟩⟩
  rintro rfl maxBytes limit
  exact readConfined_willing (writeConfined_readable existing fresh h) limit

/-- A root with nothing in it. -/
def sampleTree : FileTree := FileTree.bare.put [] "srv" .dir (by decide) (by decide) (by decide)

def sampleWritten : Except Failure Unit × FileTree :=
  outcome (writeConfined .willing "0f" ["srv"] "notes/a.txt" [104, 105]) sampleTree

theorem confined_files_sample : sampleWritten.1=.ok () ∧
    outcome (readConfined .willing ["srv"] "notes/a.txt" 16) sampleWritten.2=(.ok [104, 105], sampleWritten.2) := by
  have path : parts "notes/a.txt"=.ok ["notes", "a.txt"] := by
    have hsplit : "notes/a.txt".splitOn "/"=["notes", "a.txt"] := String.splitOn_char "notes/a.txt" '/'
    simp only [parts, pathParts, hsplit]
    decide +kernel
  have written : sampleWritten.1=.ok () := by
    have hparts : outcome (check fun _ => parts "notes/a.txt") sampleTree=(.ok ["notes", "a.txt"], sampleTree) := by
      rw [outcome_check, path]
    rw [sampleWritten, writeConfined, confinedParent, outcome_bind_ok hparts]
    decide +kernel
  have h := confined_files .willing "0f" sampleTree ["srv"] "notes/a.txt" [104, 105] (by decide +kernel) (by
    intro target htarget
    cases path.symm.trans htarget
    decide +kernel)
  exact ⟨written, (h.2 _ _ rfl).1 written 16 (by decide)⟩

end Filesystem
end TraceGuard
