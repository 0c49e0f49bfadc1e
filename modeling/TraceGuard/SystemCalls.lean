import TraceGuard.FileTrees
import TraceGuard.Raising

/-! System calls on a tree of files. A call may be refused at any time; a name with a null character is not even
passed on. -/
namespace Files

/-- How a system call fails. -/
inductive Failure where
  /-- `FileNotFoundError`. -/
  | missing
  /-- Any other `OSError`. -/
  | os
  | value (message : String)
  deriving DecidableEq

/-- The calls that may be refused, for want of permission, space or memory. -/
inductive Call where
  | openDirectory (dir : Names) (name : String)
  | openMade (dir : Names) (name : String)
  | makeDirectory (dir : Names) (name : String)
  | openFile (dir : Names) (name : String)
  | status (dir : Names) (name : String)
  | create (dir : Names) (name : String)
  | sync
  | replace (dir : Names) (source name : String)

structure Kernel where
  refuses : Call → Bool
  /-- How many of the bytes asked for a read gives, at an offset: at least one. -/
  granted : Nat → Nat → Nat
  /-- A write that fails after so many bytes. -/
  fails : Option Nat

namespace Kernel

/-- It refuses nothing and reads and writes what it is asked to. -/
def willing : Kernel := ⟨fun _ => false, fun _ asked => asked, none⟩

/-- A new object under a free name. -/
def place (dir : Names) (name : String) (object : Object) (tree : FileTree) : Except Failure FileTree :=
  if h : tree.object dir=some .dir ∧ Proper name ∧ tree.object (dir++[name])=none then
    .ok (tree.put dir name object h.1 h.2.1 (h.2.2 ▸ nofun))
  else .error .os

variable (kernel : Kernel)

/-- A name with a null character is not passed on. -/
def named (call : Call) (name : String) : Except Failure Unit :=
  if '\x00'∈name.toList then .error (.value "embedded null byte")
  else if kernel.refuses call then .error .os
  else .ok ()

/-- `os.open(name, os.O_RDONLY | os.O_DIRECTORY | os.O_NOFOLLOW, dir_fd=dir)`. -/
def openDirectory (call : Names → String → Call) (dir : Names) (name : String) (tree : FileTree) : Except Failure Names := do
  kernel.named (call dir name) name
  if name=".." then return dir.dropLast
  match tree.object (dir++[name]) with
  | some .dir => .ok (dir++[name])
  | some _ => .error .os
  | none => .error .missing

/-- `os.open(name, os.O_RDONLY | os.O_NOFOLLOW | os.O_NONBLOCK, dir_fd=dir)`: a link is refused. -/
def openFile (dir : Names) (name : String) (tree : FileTree) : Except Failure Object := do
  kernel.named (.openFile dir name) name
  match tree.object (dir++[name]) with
  | some (.symlink _) => .error .os
  | some object => .ok object
  | none => .error .missing

/-- `os.stat(name, dir_fd=dir, follow_symlinks=False)`. -/
def status (dir : Names) (name : String) (tree : FileTree) : Except Failure Object := do
  kernel.named (.status dir name) name
  match tree.object (dir++[name]) with
  | some object => .ok object
  | none => .error .missing

/-- `os.read` at an offset, of the bytes that are left: none at the end, and else some of those asked for. -/
def read (offset asked : Nat) (rest : Bytes) : Bytes := rest.take (max 1 (min asked (kernel.granted offset asked)))

theorem read_lt {offset asked : Nat} {rest : Bytes} (h : kernel.read offset asked rest≠[]) :
    (rest.drop (kernel.read offset asked rest).length).length < rest.length := by
  have hne : rest≠[] := by
    rintro rfl
    exact h List.take_nil
  have := List.length_pos_of_ne_nil hne
  have := List.length_pos_of_ne_nil h
  rw [List.length_drop]
  omega

/-- `os.mkdir(name, dir_fd=dir)`. -/
def makeDirectory (dir : Names) (name : String) (tree : FileTree) : Except Failure FileTree := do
  kernel.named (.makeDirectory dir name) name
  place dir name .dir tree

/-- `os.open` with `O_CREAT | O_EXCL`: a new file without bytes, and its inode. -/
def create (dir : Names) (name : String) (tree : FileTree) : Except Failure (Nat × FileTree) := do
  kernel.named (.create dir name) name
  let made ← place dir name (.file tree.unused) tree
  return (tree.unused, made.fill tree.unused [])

/-- What a write leaves in a file, and whether it fails. -/
def write (inode : Nat) (bytes : Bytes) (tree : FileTree) : Except Failure Unit × FileTree :=
  match kernel.fails with
  | some count => (.error .os, tree.fill inode (bytes.take count))
  | none => (.ok (), tree.fill inode bytes)

/-- `os.fsync`. -/
def sync : Except Failure Unit := if kernel.refuses .sync then .error .os else .ok ()

/-- `os.replace(source, name)` within a directory, of what is no directory. -/
def replace (dir : Names) (source name : String) (tree : FileTree) : Except Failure FileTree := do
  kernel.named (.replace dir source name) name
  if h : tree.object (dir++[source])=some .dir then .error .os
  else match tree.object (dir++[source]) with
  | none => .error .missing
  | some object =>
    if source=name then .ok tree
    else
      let rest := tree.remove (dir++[source]) h
      if h : rest.object dir=some .dir ∧ Proper name ∧ rest.object (dir++[name])≠some .dir then
        .ok (rest.put dir name object h.1 h.2.1 h.2.2)
      else .error .os

/-- `os.unlink(name, dir_fd=dir)`. -/
def unlink (dir : Names) (name : String) (tree : FileTree) : Except Failure FileTree :=
  if h : tree.object (dir++[name])=some .dir then .error .os
  else if tree.object (dir++[name])=none then .error .missing
  else .ok (tree.remove (dir++[name]) h)

/-! What each call comes to. -/

variable {kernel : Kernel} {tree made : FileTree} {dir child : Names} {name : String} {object : Object}
open Raising

theorem willing_named {call : Call} (h : '\x00'∉name.toList) : willing.named call name=.ok () := by
  rw [named, if_neg h]
  rfl

theorem named_ne_missing {call : Call} : kernel.named call name≠.error .missing := by
  rw [named]
  split
  · nofun
  · split <;> nofun

theorem openDirectory_ok {call : Names → String → Call} (h : kernel.openDirectory call dir name tree=.ok child) :
    tree.real dir [name]=some child := by
  obtain ⟨-, -, h⟩ := bind_ok h
  simp only [FileTree.real]
  split at h
  · rename_i hn
    cases h
    rw [if_pos hn]
  · rename_i hn
    rw [if_neg hn]
    split at h
    · rename_i hdir
      cases h
      rw [if_pos hdir]
    · cases h
    · cases h

theorem openDirectory_missing {call : Names → String → Call}
    (h : kernel.openDirectory call dir name tree=.error .missing) :
    name≠".." ∧ tree.object (dir++[name])=none := by
  cases bind_error h with
  | inl h => exact absurd h named_ne_missing
  | inr h =>
    obtain ⟨-, -, h⟩ := h
    split at h
    · cases h
    · rename_i hn
      split at h
      · cases h
      · cases h
      · rename_i hnone
        exact ⟨hn, hnone⟩

theorem willing_openDirectory {call : Names → String → Call} (h : tree.real dir [name]=some child) :
    willing.openDirectory call dir name tree=.ok child := by
  simp only [FileTree.real] at h
  by_cases hn : name=".."
  · subst hn
    simpa [openDirectory, named, willing] using h
  · rw [if_neg hn] at h
    split at h
    · rename_i hdir
      have hproper := (tree.closed dir name (by simp [show tree.objects.get? (dir++[name])=_ from hdir])).2
      simpa [openDirectory, willing_named hproper.2.2.2.2, hn, hdir, bind, Except.bind] using h
    · cases h

theorem openFile_ok (h : kernel.openFile dir name tree=.ok object) : tree.object (dir++[name])=some object := by
  obtain ⟨-, -, h⟩ := bind_ok h
  split at h
  · cases h
  · rename_i hobject
    cases h
    exact hobject
  · cases h

theorem status_ok (h : kernel.status dir name tree=.ok object) : tree.object (dir++[name])=some object := by
  obtain ⟨-, -, h⟩ := bind_ok h
  split at h
  · rename_i hobject
    cases h
    exact hobject
  · cases h

theorem status_missing (h : kernel.status dir name tree=.error .missing) : tree.object (dir++[name])=none := by
  cases bind_error h with
  | inl h => exact absurd h named_ne_missing
  | inr h =>
    obtain ⟨-, -, h⟩ := h
    split at h
    · cases h
    · assumption

theorem willing_openFile {inode : Nat} (h : tree.object (dir++[name])=some (.file inode)) :
    willing.openFile dir name tree=.ok (.file inode) := by
  have hproper := (tree.closed dir name (by simp [show tree.objects.get? (dir++[name])=_ from h])).2
  simp [openFile, willing_named hproper.2.2.2.2, h, bind, Except.bind]

/-- What a new object changes. -/
theorem place_ok (h : place dir name object tree=.ok made) :
    tree.object dir=some .dir ∧ tree.object (dir++[name])=none ∧ made.contents=tree.contents ∧
      ∀ path, made.object path=if path=dir++[name] then some object else tree.object path := by
  rw [place] at h
  split at h
  · rename_i hfree
    cases h
    exact ⟨hfree.1, hfree.2.2, rfl, FileTree.object_put⟩
  · cases h

theorem makeDirectory_ok (h : kernel.makeDirectory dir name tree=.ok made) :
    place dir name .dir tree=.ok made := by
  obtain ⟨-, -, h⟩ := bind_ok h
  exact h

theorem create_ok {inode : Nat} (h : kernel.create dir name tree=.ok (inode, made)) :
    inode=tree.unused ∧ ∃ placed, place dir name (.file inode) tree=.ok placed ∧ made=placed.fill inode [] := by
  obtain ⟨-, -, h⟩ := bind_ok h
  obtain ⟨placed, hp, h⟩ := bind_ok h
  cases h
  exact ⟨rfl, placed, hp, rfl⟩

/-- A write fills the file, with all of the bytes when it does not fail. -/
theorem write_fill {inode : Nat} {bytes : Bytes} {r : Except Failure Unit}
    (h : kernel.write inode bytes tree=(r, made)) :
    ∃ written, made=tree.fill inode written ∧ (r=.ok () → written=bytes) := by
  rw [write] at h
  split at h <;> cases h
  · exact ⟨_, rfl, nofun⟩
  · exact ⟨_, rfl, fun _ => rfl⟩

theorem replace_same (h : kernel.replace dir name name tree=.ok made) : made=tree := by
  obtain ⟨-, -, h⟩ := bind_ok h
  split at h
  · cases h
  · split at h
    · cases h
    · rw [if_pos rfl] at h
      cases h
      rfl

theorem replace_ok {source : String} (hne : source≠name) (h : kernel.replace dir source name tree=.ok made) :
    made.contents=tree.contents ∧ ∃ object, tree.object (dir++[source])=some object ∧
      ∀ path, made.object path=if path=dir++[name] then some object
        else if path=dir++[source] then none else tree.object path := by
  obtain ⟨-, -, h⟩ := bind_ok h
  split at h
  · cases h
  · split at h
    · cases h
    · rename_i object hobject
      simp only at h
      split at h
      · cases h
        refine ⟨rfl, object, hobject, fun path => ?_⟩
        rw [FileTree.object_put, FileTree.object_remove]
      · cases h

/-- A name that is removed was that of no directory. -/
theorem unlink_ok (h : unlink dir name tree=.ok made) :
    made.contents=tree.contents ∧ ∀ path, made.object path=if path=dir++[name] then none else tree.object path := by
  rw [unlink] at h
  split at h
  · cases h
  · split at h <;> cases h
    exact ⟨rfl, FileTree.object_remove⟩

end Kernel
end Files
