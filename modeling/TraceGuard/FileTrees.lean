import Mathlib.Data.String.Basic
import Mathlib.Data.List.Induction
import Mathlib.Data.List.Nodup
import TraceGuard.SortedMap

/-! A tree of names as the system calls on descriptors see it. Several names may stand for one file; links and
special objects stand for themselves, since nothing here follows a link. A descriptor of a directory is its
path. -/
namespace Files

abbrev Names := List String
abbrev Bytes := List UInt8

inductive Object where
  | dir
  | file (inode : Nat)
  | symlink (target : String)
  | special
  deriving DecidableEq

/-- What a directory can have as the name of an object. -/
def Proper (name : String) : Prop := name≠"" ∧ name≠"." ∧ name≠".." ∧ '/'∉name.toList ∧ '\x00'∉name.toList

instance (name : String) : Decidable (Proper name) := inferInstanceAs (Decidable (_ ∧ _))

structure FileTree where
  objects : SortedMap Names Object
  contents : Nat → Bytes
  top : objects.get? []=some Object.dir
  closed : ∀ path name, objects.get? (path++[name])≠none → objects.get? path=some Object.dir ∧ Proper name

namespace FileTree

/-- The root directory alone. -/
def bare : FileTree where
  objects := SortedMap.empty.insert [] .dir
  contents := fun _ => []
  top := by rw [SortedMap.get?_insert, if_pos rfl]
  closed := by
    intro path name h
    rw [SortedMap.get?_insert_ne _ _ (by simp)] at h
    exact absurd rfl h

variable (tree : FileTree)

def object (path : Names) : Option Object := tree.objects.get? path

/-- `st_nlink` of a file. -/
def links (inode : Nat) : Nat := tree.objects.entries.countP fun entry => entry.2=Object.file inode

/-- An object in a directory, in the place of none or of one that is no directory. -/
def put (dir : Names) (name : String) (object : Object) (home : tree.object dir=some .dir) (proper : Proper name)
    (free : tree.object (dir++[name])≠some .dir) : FileTree where
  objects := tree.objects.insert (dir++[name]) object
  contents := tree.contents
  top := by
    rw [SortedMap.get?_insert_ne _ _ (by simp)]
    exact tree.top
  closed := by
    intro path name' h
    rw [SortedMap.get?_insert] at h
    split at h
    · rename_i heq
      obtain ⟨rfl, hname⟩ := List.append_inj' heq rfl
      obtain rfl : name'=name := by simpa using hname
      rw [SortedMap.get?_insert_ne _ _ (by simp)]
      exact ⟨home, proper⟩
    · obtain ⟨hdir, hproper⟩ := tree.closed path name' h
      refine ⟨?_, hproper⟩
      rw [SortedMap.get?_insert_ne]
      · exact hdir
      · intro heq
        exact free (heq ▸ hdir)

/-- What is no directory may go. -/
def remove (path : Names) (h : tree.object path≠some .dir) : FileTree where
  objects := tree.objects.erase path
  contents := tree.contents
  top := by
    rw [SortedMap.get?_erase, if_neg]
    · exact tree.top
    · intro heq
      exact h (heq ▸ tree.top)
  closed := by
    intro path' name hname
    rw [SortedMap.get?_erase] at hname
    split at hname
    · exact absurd rfl hname
    · obtain ⟨hdir, hproper⟩ := tree.closed path' name hname
      refine ⟨?_, hproper⟩
      rw [SortedMap.get?_erase, if_neg]
      · exact hdir
      · intro heq
        exact h (heq ▸ hdir)

/-- The file of an inode with other bytes. -/
def fill (inode : Nat) (bytes : Bytes) : FileTree :=
  { tree with contents := fun i => if i=inode then bytes else tree.contents i }

/-- An inode that is not in use. -/
def unused : Nat :=
  tree.objects.entries.foldr (fun entry n => match entry.2 with
    | .file inode => max n (inode+1)
    | _ => n) 0

/-- The name of a path in a directory. -/
def nameIn (dir path : Names) : Option String := if path.dropLast=dir then path.getLast? else none

/-- The names in a directory. -/
def children (dir : Names) : List String := tree.objects.keys.filterMap (nameIn dir)

/-- Whether a walk finds something at every step, as far as it leads through directories. An alias ends it,
and so does what is no directory. -/
def leads : Names → List String → Bool
  | _, [] => true
  | dir, name :: names =>
    if name=".." then leads dir.dropLast names
    else match tree.object (dir++[name]) with
    | some .dir => leads (dir++[name]) names
    | some _ => true
    | none => false

/-- The directory that a walk through real directories comes to. -/
def real : Names → List String → Option Names
  | dir, [] => some dir
  | dir, name :: names =>
    if name=".." then real dir.dropLast names
    else if tree.object (dir++[name])=some .dir then real (dir++[name]) names
    else none

/-- What stands at a path, with the bytes of a file. -/
inductive View where
  | dir
  | file (bytes : Bytes)
  | symlink (target : String)
  | special
  deriving DecidableEq

def viewOf : Object → View
  | .dir => .dir
  | .file inode => .file (tree.contents inode)
  | .symlink target => .symlink target
  | .special => .special

def view (path : Names) : Option View := (tree.object path).map tree.viewOf

/-! The objects after each change. -/

variable {tree} {path dir : Names} {name : String} {object' : Object} {inode : Nat}

theorem object_put {home : tree.object dir=some .dir} {proper : Proper name}
    {free : tree.object (dir++[name])≠some .dir} (path : Names) :
    (tree.put dir name object' home proper free).object path=
      if path=dir++[name] then some object' else tree.object path := by
  rw [object, put, SortedMap.get?_insert]
  congr

theorem object_remove {h : tree.object dir≠some .dir} (path : Names) :
    (tree.remove dir h).object path=if path=dir then none else tree.object path := by
  rw [object, remove, SortedMap.get?_erase]
  congr

@[simp] theorem object_fill (inode : Nat) (bytes : Bytes) (path : Names) :
    (tree.fill inode bytes).object path=tree.object path := rfl

@[simp] theorem contents_fill_self (bytes : Bytes) : (tree.fill inode bytes).contents inode=bytes := if_pos rfl

theorem contents_fill_ne (bytes : Bytes) {other : Nat} (h : other≠inode) :
    (tree.fill inode bytes).contents other=tree.contents other := if_neg h

theorem fill_fill (before after : Bytes) : (tree.fill inode before).fill inode after=tree.fill inode after := by
  rw [fill, fill, fill]
  congr
  funext i
  by_cases h : i=inode <;> simp [h]

theorem unused_of_mem {entries : List (Names × Object)} (h : (path, .file inode)∈entries) :
    inode < entries.foldr (fun entry n => match entry.2 with
      | .file inode => max n (inode+1)
      | _ => n) 0 := by
  induction entries with
  | nil => cases h
  | cons entry entries ih =>
    rw [List.foldr_cons]
    cases List.mem_cons.mp h with
    | inl h =>
      subst h
      exact lt_of_lt_of_le (Nat.lt_succ_self _) (le_max_right ..)
    | inr h =>
      have := ih h
      split
      · exact lt_of_lt_of_le this (le_max_left ..)
      · exact this

/-- An unused inode stands nowhere. -/
theorem ne_unused (h : tree.object path=some (.file inode)) : inode≠tree.unused :=
  (unused_of_mem (SortedMap.mem_entries.mpr h)).ne

theorem nameIn_eq_some : nameIn dir path=some name ↔ path=dir++[name] := by
  cases path using List.reverseRecOn with
  | nil => simp [nameIn]
  | append_singleton init last => simp [nameIn]

theorem mem_children : name∈tree.children dir ↔ tree.object (dir++[name])≠none := by
  rw [children, List.mem_filterMap]
  simp only [nameIn_eq_some, exists_eq_right]
  rw [SortedMap.keys, List.mem_map, Option.ne_none_iff_exists']
  constructor
  · rintro ⟨⟨path, object⟩, hmem, rfl⟩
    exact ⟨object, SortedMap.mem_entries.mp hmem⟩
  · rintro ⟨object, hobject⟩
    exact ⟨(_, object), SortedMap.mem_entries.mpr hobject, rfl⟩

theorem children_nodup : (tree.children dir).Nodup := by
  refine List.Nodup.filterMap ?_ (tree.objects.sorted.map Prod.fst fun a b h => h).nodup
  intro path path' name h h'
  rw [Option.mem_def, nameIn_eq_some] at h h'
  rw [h, h']

/-- Below what is no directory there is nothing. -/
theorem object_below (h : tree.object path≠some .dir) {names : List String} (hne : names≠[]) :
    tree.object (path++names)=none := by
  induction names using List.reverseRecOn with
  | nil => exact absurd rfl hne
  | append_singleton init last ih =>
    by_contra hobject
    have hdir := (tree.closed (path++init) last (by rwa [List.append_assoc])).1
    cases init with
    | nil => exact h (by simpa [object] using hdir)
    | cons first rest =>
      have := ih (by simp)
      rw [object, hdir] at this
      cases this

theorem real_append {names more : List String} :
    tree.real dir (names++more)=(tree.real dir names).bind fun child => tree.real child more := by
  induction names generalizing dir with
  | nil => rfl
  | cons name names ih =>
    simp only [List.cons_append, real]
    split
    · exact ih
    · split
      · exact ih
      · rfl

/-- Where directories stay, so does what they lead to. -/
theorem real_mono {other : FileTree} (h : ∀ path, tree.object path=some .dir → other.object path=some .dir)
    {names : List String} {child : Names} (hr : tree.real dir names=some child) :
    other.real dir names=some child := by
  induction names generalizing dir with
  | nil => exact hr
  | cons name names ih =>
    simp only [real] at hr ⊢
    split at hr
    · rename_i hn
      rw [if_pos hn]
      exact ih hr
    · rename_i hn
      rw [if_neg hn]
      split at hr
      · rename_i hdir
        rw [if_pos (h _ hdir)]
        exact ih hr
      · cases hr

/-- A file with a single link stands in one place. -/
theorem links_eq_one (h : tree.object path=some (.file inode)) :
    tree.links inode=1 ↔ ∀ other, tree.object other=some (.file inode) → other=path := by
  have hmem : (path, Object.file inode)∈tree.objects.entries := SortedMap.mem_entries.mpr h
  constructor
  · intro hone other hother
    have hmem' : (other, Object.file inode)∈tree.objects.entries := SortedMap.mem_entries.mpr hother
    rw [links, List.countP_eq_length_filter] at hone
    obtain ⟨entry, hentry⟩ := List.length_eq_one_iff.mp hone
    have eq_entry : ∀ e∈tree.objects.entries, e.2=Object.file inode → e=entry := by
      intro e he hfile
      have : e∈tree.objects.entries.filter fun e => e.2=Object.file inode :=
        List.mem_filter.mpr ⟨he, decide_eq_true hfile⟩
      rwa [hentry, List.mem_singleton] at this
    exact congrArg Prod.fst ((eq_entry _ hmem' rfl).trans (eq_entry _ hmem rfl).symm)
  · intro unique
    have hnodup : tree.objects.entries.Nodup :=
      tree.objects.sorted.imp fun {a b} hlt he => ne_of_lt hlt (congrArg Prod.fst he)
    have hcount : tree.links inode=tree.objects.entries.count (path, Object.file inode) := by
      refine List.countP_congr fun e he => ?_
      obtain ⟨other, object⟩ := e
      simp only [decide_eq_true_eq, beq_iff_eq, Prod.mk.injEq]
      constructor
      · rintro rfl
        exact ⟨unique other (SortedMap.mem_entries.mp he), rfl⟩
      · exact And.right
    rw [hcount]
    exact List.count_eq_one_of_mem hnodup hmem

end FileTree

end Files
