import TraceGuard.Segments
import TraceGuard.StagingLimits

/-! What a copy that returns has staged: the same names with the same bytes, by induction on the room below the
depth limit and over the names of each directory. -/
namespace TraceGuard
open Files Stateful

namespace Filesystem

/-- What stands at a path of the staging directory. -/
def stagedView (log : List Change) (path : Names) : Option FileTree.View :=
  if .directory path∈log ∨ .parent path∈log then some .dir
  else if .file path∈log then some (.file (content log path))
  else none

variable {env : Surroundings} {s t : Staging} {log more : List Change} {path target place : Names}
  {room : Nat} {relative : String}

/-- Changes elsewhere do not show. -/
theorem stagedView_append (h : ∀ change∈more, change.target≠path) :
    stagedView (log++more) path=stagedView log path := by
  have absent : ∀ change : Change, change.target=path → (change∈log++more ↔ change∈log) := by
    intro change hc
    rw [List.mem_append]
    exact ⟨fun hin => hin.resolve_right fun hm => h change hm hc, .inl⟩
  have hcontent : content more path=[] := content_elsewhere h
  simp only [stagedView, absent (.directory path) rfl, absent (.parent path) rfl, absent (.file path) rfl,
    content_append, hcontent, List.append_nil]

theorem stagedView_none (h : ∀ change∈log, change.target≠path) : stagedView log path=none := by
  have := @stagedView_append [] _ _ h
  rw [List.nil_append] at this
  rw [this]
  rfl

/-- The relative path of what is below an object. -/
def below (relative : String) (names : List String) : String :=
  names.foldl (fun relative name => relative++"/"++name) relative

/-- An exact copy of an object: everything at or below it, and nothing that may not be copied. -/
structure Exact (env : Surroundings) (room : Nat) (place : Names) (relative : String) (target : Names)
    (log : List Change) : Prop where
  present : env.source.object place≠none
  same : ∀ names, stagedView log (target++names)=env.source.view (place++names)
  plain : ∀ names object, env.source.object (place++names)=some object →
    object=.dir ∨ ∃ inode, object=.file inode ∧ env.source.links inode=1
  permitted : ∀ names, env.source.object (place++names)≠none →
    env.prohibited (below relative names)=false ∧ names.length < room

/-- Changes that are at or below a path. -/
def Local (target : Names) (added : List Change) : Prop := ∀ change∈added, ∃ names, change.target=target++names

/-! A file. -/

theorem copyBytes_ok {written : Nat} {rest : Bytes}
    (h : outcome (copyBytes env target written rest) s=(.ok (), t)) :
    ∃ chunks : List Bytes, t.log=s.log++chunks.map (.bytes target) ∧ chunks.flatten=rest := by
  induction written, rest using copyBytes.induct env generalizing s t with
  | case1 written rest ih =>
    rw [copyBytes] at h
    obtain ⟨a, u, hcheck, hrun⟩ := bind_returned h
    obtain ⟨rfl, -⟩ := budgetCheck_cases hcheck
    by_cases hnil : env.kernel.read written 65536 rest=[]
    · rw [dif_pos hnil] at hrun
      cases hrun
      have : rest=[] := (List.take_eq_nil_iff.mp hnil).resolve_left (by omega)
      exact ⟨[], by simp, this.symm⟩
    · have ih := @ih hnil
      have hsplit : env.kernel.read written 65536 rest++
          rest.drop (env.kernel.read written 65536 rest).length=rest :=
        List.prefix_iff_eq_append.mp (List.take_prefix ..)
      rw [dif_neg hnil] at hrun
      generalize env.kernel.read written 65536 rest=chunk at hrun ih hsplit
      rw [outcome_bind_ok (show outcome (countBytes chunk) _=(.ok (), _) from outcome_modify ..)] at hrun
      obtain ⟨a, u, hcheck, hrun⟩ := bind_returned hrun
      obtain ⟨rfl, -⟩ := budgetCheck_cases hcheck
      obtain ⟨a, u, hfile, hrun⟩ := bind_returned hrun
      obtain ⟨rfl, -⟩ := fileCheck_cases hfile
      obtain ⟨a, u, happend, hrun⟩ := bind_returned hrun
      obtain ⟨part, rfl, -, hall⟩ := append_cases happend
      obtain rfl := hall rfl
      obtain ⟨chunks, hlog, hflat⟩ := ih hrun
      refine ⟨part :: chunks, ?_, ?_⟩
      · rw [hlog]
        simp
      · rw [List.flatten_cons, hflat, hsplit]

theorem content_chunks (chunks : List Bytes) : content (chunks.map (.bytes target)) target=chunks.flatten := by
  induction chunks with
  | nil => rfl
  | cons chunk chunks ih =>
    rw [List.map_cons, List.flatten_cons, ← ih]
    simp [content, Change.chunkOf]

theorem copyFile_ok {inode : Nat} (hobject : env.source.object place=some (.file inode))
    (hfresh : Fresh s.log target) (hallowed : env.prohibited relative=false)
    (h : outcome (copyFile env inode target) s=(.ok (), t)) :
    (∃ added, t.log=s.log++added ∧ Local target added) ∧ Exact env (room+1) place relative target t.log := by
  obtain ⟨a, u, hlinks, hsized⟩ := bind_returned h
  obtain ⟨hverdict, rfl⟩ := check_returned hlinks
  obtain ⟨a, v, hsize, hmaking⟩ := bind_returned hsized
  obtain ⟨rfl, -⟩ := fileCheck_cases hsize
  obtain ⟨a, w, hmake, hwriting⟩ := bind_returned hmaking
  cases make_cases hmake with
  | inl hsame => exact absurd rfl hsame.2
  | inr hmade =>
    obtain ⟨-, rfl, -⟩ := hmade
    obtain ⟨chunks, hlog, hflat⟩ := copyBytes_ok hwriting
    have hlog : t.log=v.log++.file target :: chunks.map (.bytes target) := by
      rw [hlog, List.append_assoc]
      rfl
    have here : ∀ change∈Change.file target :: chunks.map (.bytes target), change.target=target := by
      intro change hchange
      cases List.mem_cons.mp hchange with
      | inl heq => exact heq ▸ rfl
      | inr hin =>
        obtain ⟨chunk, -, rfl⟩ := List.mem_map.mp hin
        rfl
    have elsewhere : ∀ change∈v.log, change.target≠target := fun change hchange => by
      simpa using hfresh change hchange []
    have hsingle : env.source.links inode=1 := by
      by_contra hne
      rw [if_pos hne] at hverdict
      cases hverdict
    have hbelow : ∀ names, names≠[] → env.source.object (place++names)=none := fun names =>
      FileTree.object_below (by simp [hobject])
    refine ⟨⟨_, hlog, fun change hchange => ⟨[], by simpa using here change hchange⟩⟩, by simp [hobject], ?_, ?_, ?_⟩
    · intro names
      by_cases hnames : names=[]
      · subst hnames
        have hcontent : content t.log target=env.source.contents inode := by
          rw [hlog, content_append, content_elsewhere elsewhere, ← hflat, ← @content_chunks target chunks]
          rfl
        have hdir : ¬(Change.directory target∈t.log ∨ Change.parent target∈t.log) := by
          rw [hlog]
          simp only [List.mem_append, List.mem_cons, List.mem_map]
          rintro ((hin | hin) | (hin | hin))
          · exact elsewhere _ hin rfl
          · simp at hin
          · exact elsewhere _ hin rfl
          · simp at hin
        simp only [List.append_nil, stagedView, if_neg hdir, hcontent]
        simp [hlog, FileTree.view, hobject, FileTree.viewOf]
      · rw [FileTree.view, hbelow names hnames]
        refine stagedView_none fun change hchange => ?_
        rw [hlog] at hchange
        cases List.mem_append.mp hchange with
        | inl hin => exact hfresh change hin names
        | inr hin =>
          rw [here change hin]
          simpa using hnames
    · intro names object ho
      by_cases hnames : names=[]
      · subst hnames
        rw [List.append_nil, hobject] at ho
        cases ho
        exact .inr ⟨inode, rfl, hsingle⟩
      · rw [hbelow names hnames] at ho
        cases ho
    · intro names ho
      by_cases hnames : names=[]
      · subst hnames
        exact ⟨hallowed, Nat.succ_pos _⟩
      · exact absurd (hbelow names hnames) ho

/-! A directory. -/

theorem Exact.append (h : Exact env room place relative target log)
    (hmore : ∀ change∈more, ∀ names, change.target≠target++names) :
    Exact env room place relative target (log++more) where
  present := h.present
  same := fun names => (stagedView_append fun change hchange => hmore change hchange names).trans (h.same names)
  plain := h.plain
  permitted := h.permitted

/-- What the copy of an object comes to when it returns. -/
def CopiesWell (env : Surroundings) (room : Nat) : Prop :=
  ∀ {parent name relative target s t}, Fresh s.log target →
    outcome (copyObject env room parent name relative target) s=(.ok (), t) →
    (∃ added, t.log=s.log++added ∧ Local target added) ∧ Exact env room (parent++[name]) relative target t.log

/-- The loop over a directory copies one name after the other; what is done for one does not show for another. -/
theorem copyChildren_ok (well : CopiesWell env room) {names : List String} (distinct : names.Nodup)
    (hfresh : ∀ name∈names, Fresh s.log (target++[name]))
    (h : outcome (names.forM fun child => copyObject env room place child (relative++"/"++child) (target++[child])) s=
      (.ok (), t)) :
    (∃ added, t.log=s.log++added ∧ ∀ change∈added, ∃ name∈names, ∃ more, change.target=target++name :: more) ∧
      ∀ name∈names, Exact env room (place++[name]) (relative++"/"++name) (target++[name]) t.log := by
  induction names generalizing s with
  | nil =>
    cases h
    exact ⟨⟨[], by simp, nofun⟩, nofun⟩
  | cons name names ih =>
    rw [List.nodup_cons] at distinct
    obtain ⟨a, u, hfirst, hrest⟩ := bind_returned h
    obtain ⟨⟨added, hlog, hlocal⟩, hexact⟩ := well (hfresh name (List.mem_cons_self ..)) hfirst
    have hfresh' : ∀ other∈names, Fresh u.log (target++[other]) := by
      intro other hother change hchange more heq
      rw [hlog] at hchange
      cases List.mem_append.mp hchange with
      | inl hin => exact hfresh other (List.mem_cons_of_mem _ hother) change hin more heq
      | inr hin =>
        obtain ⟨below, hbelow⟩ := hlocal change hin
        rw [hbelow] at heq
        simp only [List.append_assoc, List.append_cancel_left_eq, List.singleton_append, List.cons.injEq] at heq
        exact distinct.1 (heq.1 ▸ hother)
    obtain ⟨⟨added', hlog', hlocal'⟩, hexact'⟩ := ih distinct.2 hfresh' hrest
    refine ⟨⟨added++added', by rw [hlog', hlog, List.append_assoc], ?_⟩, ?_⟩
    · intro change hchange
      cases List.mem_append.mp hchange with
      | inl hin =>
        obtain ⟨below, hbelow⟩ := hlocal change hin
        exact ⟨name, List.mem_cons_self .., below, by simp [hbelow]⟩
      | inr hin =>
        obtain ⟨other, hother, more, heq⟩ := hlocal' change hin
        exact ⟨other, List.mem_cons_of_mem _ hother, more, heq⟩
    · intro other hother
      cases List.mem_cons.mp hother with
      | inl heq =>
        subst heq
        rw [hlog']
        refine hexact.append fun change hchange more heq => ?_
        obtain ⟨name', hname', more', htarget⟩ := hlocal' change hchange
        rw [htarget] at heq
        simp only [List.append_assoc, List.append_cancel_left_eq, List.singleton_append, List.cons.injEq] at heq
        exact distinct.1 (heq.1 ▸ hname')
      | inr hin => exact hexact' other hin

/-- The copies of all names of a directory are the copy of the directory. -/
theorem exact_directory {names : List String} (hplace : env.source.object place=some .dir)
    (hnames : ∀ name, name∈names ↔ env.source.object (place++[name])≠none)
    (hallowed : env.prohibited relative=false) (hfresh : Fresh log target)
    (hlocal : ∀ change∈more, ∃ name∈names, ∃ below, change.target=target++name :: below)
    (hexact : ∀ name∈names, Exact env room (place++[name]) (relative++"/"++name) (target++[name])
      (log++.directory target :: more)) :
    Exact env (room+1) place relative target (log++.directory target :: more) := by
  have known : ∀ name below object, env.source.object (place++name :: below)=some object → name∈names := by
    intro name below object ho
    rw [hnames]
    intro hnone
    rw [List.append_cons] at ho
    cases below with
    | nil => exact absurd ho (by simp [hnone])
    | cons first rest =>
      rw [FileTree.object_below (by simp [hnone]) (by simp)] at ho
      cases ho
  refine ⟨by simp [hplace], fun path => ?_, fun path object ho => ?_, fun path ho => ?_⟩
  · cases path with
    | nil => simp [stagedView, FileTree.view, hplace, FileTree.viewOf]
    | cons name below =>
      by_cases hname : name∈names
      · simpa only [List.append_assoc, List.singleton_append] using (hexact name hname).same below
      · have hnone : env.source.object (place++name :: below)=none := by
          by_contra hsome
          obtain ⟨object, ho⟩ := Option.ne_none_iff_exists'.mp hsome
          exact hname (known name below object ho)
        rw [FileTree.view, hnone]
        refine stagedView_none fun change hchange heq => ?_
        cases List.mem_append.mp hchange with
        | inl hin => exact hfresh change hin _ heq
        | inr hin =>
          cases List.mem_cons.mp hin with
          | inl hdir =>
            rw [hdir] at heq
            simp [Change.target] at heq
          | inr hin =>
            obtain ⟨other, hother, rest, hrest⟩ := hlocal change hin
            rw [hrest] at heq
            simp only [List.append_cancel_left_eq, List.cons.injEq] at heq
            exact hname (heq.1 ▸ hother)
  · cases path with
    | nil =>
      rw [List.append_nil, hplace] at ho
      cases ho
      exact .inl rfl
    | cons name below =>
      refine (hexact name (known name below object ho)).plain below object ?_
      rwa [← List.append_cons]
  · cases path with
    | nil => exact ⟨hallowed, Nat.succ_pos _⟩
    | cons name below =>
      obtain ⟨object, hobject⟩ := Option.ne_none_iff_exists'.mp ho
      obtain ⟨hp, hlen⟩ := (hexact name (known name below object hobject)).permitted below (by
        rwa [← List.append_cons])
      exact ⟨hp, Nat.succ_lt_succ hlen⟩

theorem copyObject_ok : CopiesWell env room := by
  induction room with
  | zero =>
    intro parent name relative target s t hfresh h
    obtain ⟨a, u, -, h⟩ := bind_returned h
    obtain ⟨a, v, -, h⟩ := bind_returned h
    cases h
  | succ room ih =>
    intro parent name relative target s t hfresh h
    rw [copyObject, outcome_bind_ok (show outcome countEntry s=(.ok (), _) from outcome_modify ..)] at h
    obtain ⟨a, u, hcheck, hallowing⟩ := bind_returned h
    have hsame : u.log=s.log := by rw [(budgetCheck_cases hcheck).1]
    rw [← hsame] at hfresh ⊢
    obtain ⟨a, v, hallowed, hopening⟩ := bind_returned hallowing
    obtain ⟨hverdict, rfl⟩ := check_returned hallowed
    have hpermitted : env.prohibited relative=false := by
      cases hp : env.prohibited relative with
      | false => rfl
      | true =>
        rw [if_pos hp] at hverdict
        cases hverdict
    obtain ⟨object, w, hopen, hcopying⟩ := bind_returned hopening
    obtain ⟨hopened, rfl⟩ := check_returned hopen
    have hobject := Kernel.openFile_ok hopened
    cases object with
    | symlink link => cases hcopying
    | special => cases hcopying
    | file inode => exact copyFile_ok hobject hfresh hpermitted hcopying
    | dir =>
      obtain ⟨a, x, hmake, hchildren⟩ := bind_returned hcopying
      cases make_cases hmake with
      | inl hsame => exact absurd rfl hsame.2
      | inr hmade =>
        obtain ⟨-, rfl, -⟩ := hmade
        have hperm := env.complete (parent++[name])
        have hfresh' : ∀ child∈env.scandir (parent++[name]),
            Fresh (w.log++[.directory target]) (target++[child]) := by
          intro child _ change hchange more heq
          cases List.mem_append.mp hchange with
          | inl hin => exact hfresh change hin ([child]++more) (by rw [heq, List.append_assoc])
          | inr hin =>
            rw [List.mem_singleton.mp hin] at heq
            simp [Change.target] at heq
        obtain ⟨⟨added, hlog, hlocal⟩, hexact⟩ := copyChildren_ok ih
          (hperm.nodup_iff.mpr FileTree.children_nodup) hfresh' hchildren
        have hlog : t.log=w.log++.directory target :: added := by
          rw [hlog, List.append_assoc]
          rfl
        refine ⟨⟨_, hlog, fun change hchange => ?_⟩, ?_⟩
        · cases List.mem_cons.mp hchange with
          | inl heq => exact ⟨[], by simp [heq, Change.target]⟩
          | inr hin =>
            obtain ⟨child, -, more, heq⟩ := hlocal change hin
            exact ⟨_, heq⟩
        · rw [hlog] at hexact ⊢
          exact exact_directory hobject (fun child => hperm.mem_iff.trans FileTree.mem_children) hpermitted hfresh
            hlocal hexact

/-! A call. -/

theorem makeParents_ok {paths : List Names} {r : Except Failure Unit}
    (h : outcome (paths.forM (makeParent env)) s=(r, t)) :
    ∃ added, t.log=s.log++added ∧ ∀ change∈added, change.target∈paths := by
  induction paths generalizing s with
  | nil =>
    cases h
    exact ⟨[], by simp, nofun⟩
  | cons path paths ih =>
    have first : ∀ {r t}, outcome (makeParent env path) s=(r, t) →
        ∃ added, t.log=s.log++added ∧ ∀ change∈added, change.target=path := by
      intro r t h
      cases makeParent_cases h with
      | inl hsame => exact ⟨[], by simp [hsame], nofun⟩
      | inr hmade => exact ⟨[.parent path], by rw [hmade], by simp [Change.target]⟩
    cases bind_cases h with
    | inl hraise =>
      obtain ⟨e, hraise, -⟩ := hraise
      obtain ⟨added, hlog, htarget⟩ := first hraise
      exact ⟨added, hlog, fun change hc => List.mem_cons.mpr (.inl (htarget change hc))⟩
    | inr hrest =>
      obtain ⟨a, u, hfirst, hrest⟩ := hrest
      obtain ⟨added, hlog, htarget⟩ := first hfirst
      obtain ⟨added', hlog', htarget'⟩ := ih hrest
      refine ⟨added++added', by rw [hlog', hlog, List.append_assoc], fun change hc => ?_⟩
      cases List.mem_append.mp hc with
      | inl hin => exact List.mem_cons.mpr (.inl (htarget change hin))
      | inr hin => exact List.mem_cons_of_mem _ (htarget' change hin)

theorem below_intercalate {path : List String} (hne : path≠[]) (names : List String) :
    below ("/".intercalate path) names="/".intercalate (path++names) := by
  induction names generalizing path with
  | nil => rw [List.append_nil, below, List.foldl_nil]
  | cons name names ih =>
    have hstep : "/".intercalate (path++[name])="/".intercalate path++"/"++name := by
      rw [String.intercalate_append_of_ne_nil hne (by simp), String.intercalate_singleton]
    rw [List.append_cons, ← ih (by simp), hstep]
    rfl

/-- The destination is an exact copy of the object at the path, which real directories lead to. -/
def ExactCopy (call : CopyCall) (maxDepth : Nat) (log : List Change) : Prop :=
  ∃ path place, parts call.raw=.ok path ∧
    call.env.source.real [] (call.root++path.dropLast)=some place.dropLast ∧ place.getLast?=path.getLast? ∧
    call.env.source.object place≠none ∧
    ∀ names, stagedView log (call.destination++names)=call.env.source.view (place++names) ∧
      ∀ object, call.env.source.object (place++names)=some object →
        (object=.dir ∨ ∃ inode, object=.file inode ∧ call.env.source.links inode=1) ∧
        call.env.prohibited ("/".intercalate (path++names))=false ∧ (path++names).length ≤ maxDepth

theorem makeParents_budget {paths : List Names} {r : Except Failure Unit}
    (h : outcome (paths.forM (makeParent env)) s=(r, t)) : t.budget=s.budget := by
  have hkeeps : Keeps (fun u => u.budget=s.budget) (paths.forM (makeParent env)) := by
    refine keeps_forM fun path _ => ?_
    intro u r v hu h
    cases makeParent_cases h with
    | inl hsame => exact hsame ▸ hu
    | inr hmade => exact hmade ▸ hu
  exact hkeeps s r t rfl h

/-- A path above a destination is not at it or below it. -/
theorem fresh_parents {destination : Names} (hne : destination≠[]) (hfresh : Fresh log destination)
    (h : ∀ change∈more, change.target∈destination.dropLast.inits) : Fresh (log++more) destination := by
  intro change hchange names heq
  cases List.mem_append.mp hchange with
  | inl hin => exact hfresh change hin names heq
  | inr hin =>
    have hprefix := (List.mem_inits ..).mp (h change hin)
    have hlen := hprefix.length_le
    have := List.length_pos_of_ne_nil hne
    rw [heq, List.length_append, List.length_dropLast] at hlen
    omega

theorem run_exact {call : CopyCall} (hfresh : Fresh s.log call.destination) (hne : call.destination≠[])
    (h : outcome call.run s=(.ok (), t)) : ExactCopy call s.budget.maxDepth t.log := by
  obtain ⟨path, u, hparts, hconfined⟩ := bind_returned h
  obtain ⟨hpath, rfl⟩ := check_returned hparts
  obtain ⟨r', hconfined, hr⟩ := unaliased_cases hconfined
  obtain rfl := (hr ()).mp rfl
  obtain ⟨parent, v, hwalking, hparents⟩ := bind_returned hconfined
  obtain ⟨hwalk, rfl⟩ := check_returned hwalking
  obtain ⟨a, w, hmake, hcopy⟩ := bind_returned hparents
  obtain ⟨b, x, hget, hcopy⟩ := bind_returned hcopy
  cases hget
  have hreal : call.env.source.real [] (call.root++path.dropLast)=some parent :=
    (walk_real (.inl rfl) rfl).2 parent hwalk
  obtain ⟨added, hlog, hadded⟩ := makeParents_ok hmake
  have hfresh' : Fresh w.log call.destination := hlog ▸ fresh_parents hne hfresh hadded
  obtain ⟨-, hexact⟩ := copyObject_ok hfresh' hcopy
  rw [makeParents_budget hmake] at hexact
  have hlast : (parent++[path.getLastD ""]).getLast?=path.getLast? := by
    obtain ⟨init, last, rfl⟩ := (List.eq_nil_or_concat' path).resolve_left (parts_ok hpath).2
    simp
  refine ⟨path, parent++[path.getLastD ""], hpath, by simpa using hreal, hlast, hexact.present, fun names => ?_⟩
  refine ⟨hexact.same names, fun object ho => ⟨hexact.plain names object ho, ?_⟩⟩
  obtain ⟨hallowed, hlen⟩ := hexact.permitted names (ho ▸ nofun)
  rw [below_intercalate (parts_ok hpath).2] at hallowed
  refine ⟨hallowed, ?_⟩
  rw [List.length_append]
  omega

/-- In every sequence of calls to fresh destinations, with one budget: at every moment what has been staged is
within the limits, whatever the calls come to; and a call that returns has staged an exact copy. -/
theorem copies_confined {budget : CopyBudget} {es : List (CopyCall × Except Failure Unit)}
    (h : Traces.Run Copies { budget } es s) :
    (∀ moment, moment <+: s.log → WithinBudget budget moment) ∧
      ∀ call t, Copies s (call, .ok ()) t → ExactCopy call budget.maxDepth t.log := by
  have hs := copies_counted h
  refine ⟨fun moment hm => hs.within.earlier hm, fun call t hcall => ?_⟩
  rw [← hs.maxDepth]
  exact run_exact hcall.2.1 hcall.1 hcall.2.2

theorem source_home : FileTree.bare.object []=some .dir := by decide

theorem source_proper : Proper "srv" := by decide

theorem source_free : FileTree.bare.object ([]++["srv"])≠some .dir := by decide

def sampleHome : FileTree := FileTree.bare.put [] "srv" .dir source_home source_proper source_free

theorem source_srv : sampleHome.object ["srv"]=some .dir := by decide

theorem source_file : Proper "a.txt" := by decide

theorem source_new : sampleHome.object (["srv"]++["a.txt"])≠some .dir := by decide

/-- A directory with one file of two bytes. -/
def sampleSource : FileTree :=
  (sampleHome.put ["srv"] "a.txt" (.file 0) source_srv source_file source_new).fill 0 [104, 105]

def sampleCopy : CopyCall where
  env :=
    { source := sampleSource
      kernel := .willing
      scandir := sampleSource.children
      complete := fun _ => .refl _
      prohibited := fun _ => false
      clock := fun _ => 0
      refuses := fun _ => false
      fails := fun _ => none }
  root := []
  raw := "srv"
  destination := ["in", "srv"]

def sampleStaged : Except Failure Unit × Staging := outcome sampleCopy.run { budget := { started := 0 } }

theorem copies_confined_sample : sampleStaged.1=.ok () ∧
    stagedView sampleStaged.2.log ["in", "srv", "a.txt"]=some (.file [104, 105]) ∧
    WithinBudget { started := 0 } sampleStaged.2.log ∧ ExactCopy sampleCopy 16 sampleStaged.2.log := by
  have path : parts "srv"=.ok ["srv"] := by
    have hsplit : "srv".splitOn "/"=["srv"] := String.splitOn_char "srv" '/'
    simp only [parts, pathParts, hsplit]
    decide +kernel
  have hrun : sampleStaged=outcome (unaliased _) _ :=
    outcome_bind_ok (show outcome (check fun _ => parts "srv") _=(.ok ["srv"], _) by rw [outcome_check, path])
  have hstep : Copies { budget := { started := 0 } } (sampleCopy, .ok ()) sampleStaged.2 := by
    refine ⟨by decide, List.forall_mem_nil _, Prod.ext ?_ rfl⟩
    show sampleStaged.1=_
    rw [hrun]
    decide +kernel
  refine ⟨congrArg Prod.fst hstep.2.2, ?_, (copies_confined (.single hstep)).1 _ (List.prefix_refl _),
    (copies_confined (.nil _)).2 _ _ hstep⟩
  rw [hrun]
  decide +kernel

end Filesystem
end TraceGuard
