import TraceGuard.Authorization
import TraceGuard.Stateful
import TraceGuard.SystemCalls

/-! Reading and writing below a root, by descriptors of directories that are entered name by name. -/
namespace TraceGuard
open Files Stateful

namespace Filesystem

/-- `_parts`. -/
def parts (raw : String) : Except Failure Names :=
  let path := pathParts raw
  if raw.toList.head?=some '/' ∨ ".."∈path ∨ path=[] ∨ '\\'∈raw.toList then
    .error (.value ("path escapes allowed root: "++raw))
  else .ok path

variable (kernel : Kernel)

/-- A turn of the loop that enters directories; a missing one may be made. -/
def enter (create : Bool) (dir : Names) (name : String) : EStateM Failure FileTree Names := fun tree =>
  match kernel.openDirectory .openDirectory dir name tree with
  | .ok child => .ok child tree
  | .error .missing =>
    if create then
      match kernel.makeDirectory dir name tree with
      | .ok made =>
        match kernel.openDirectory .openMade dir name made with
        | .ok child => .ok child made
        | .error failure => .error failure made
      | .error failure => .error failure tree
    else .error .missing tree
  | .error failure => .error failure tree

def walk (create : Bool) : Names → List String → EStateM Failure FileTree Names
  | dir, [] => pure dir
  | dir, name :: names => do
    let child ← enter kernel create dir name
    walk create child names

/-- `except OSError as exc: raise ValueError(…) from exc`. -/
def unaliased {σ α : Type} (x : EStateM Failure σ α) : EStateM Failure σ α := fun s =>
  match x s with
  | .error (.value message) t => .error (.value message) t
  | .error _ t => .error (.value "unsafe filesystem alias, object or parent") t
  | .ok a t => .ok a t

/-- The context of `confined_parent`. The root is `root.absolute().parts[1:]`. -/
def confinedParent {α : Type} (root : Names) (raw : String) (create : Bool)
    (body : Names → String → EStateM Failure FileTree α) : EStateM Failure FileTree α := do
  let path ← check fun _ => parts raw
  unaliased do
    let parent ← walk kernel create [] (root++path.dropLast)
    body parent (path.getLastD "")

/-- The loop of reads: at most one byte more than allowed is asked for. -/
def readLoop (maxBytes : Int) (chunks rest : Bytes) : Bytes :=
  if chunks.length ≤ maxBytes then
    let asked := (min 65536 (maxBytes+1-chunks.length)).toNat
    if _h : kernel.read chunks.length asked rest=[] then chunks
    else
      readLoop maxBytes (chunks++kernel.read chunks.length asked rest)
        (rest.drop (kernel.read chunks.length asked rest).length)
  else chunks
termination_by rest.length
decreasing_by exact kernel.read_lt _h

def overLimit (maxBytes : Int) : Failure :=
  .value ("file exceeds read limit of "++toString maxBytes++" bytes")

/-- What follows the opening of the object. -/
def readObject (maxBytes : Int) (object : Object) (tree : FileTree) : Except Failure Bytes :=
  match object with
  | .file inode =>
    if tree.links inode≠1 then .error (.value "only regular non-aliased files may be read")
    else if maxBytes<(tree.contents inode).length then .error (overLimit maxBytes)
    else
      let chunks := readLoop kernel maxBytes [] (tree.contents inode)
      if maxBytes<chunks.length then .error (overLimit maxBytes)
      else .ok chunks
  | _ => .error (.value "only regular non-aliased files may be read")

def readConfined (root : Names) (raw : String) (maxBytes : Int) : EStateM Failure FileTree Bytes :=
  confinedParent kernel root raw false fun parent name => check fun tree => do
    let object ← kernel.openFile parent name tree
    readObject kernel maxBytes object tree

def temporaryName (uuid : String) : String := ".traceguard-"++uuid++".tmp"

/-- Whether what stands under a name may be replaced. -/
def replaceable (parent : Names) (name : String) (tree : FileTree) : Except Failure Unit :=
  match kernel.status parent name tree with
  | .error .missing => .ok ()
  | .error failure => .error failure
  | .ok (.file inode) =>
    if tree.links inode≠1 then .error (.value "only regular non-aliased files may be replaced") else .ok ()
  | .ok _ => .error (.value "only regular non-aliased files may be replaced")

/-- The `finally` clause: the temporary file goes, if it is still there. -/
def discard (parent : Names) (temporary : String) (tree : FileTree) : FileTree :=
  match Kernel.unlink parent temporary tree with
  | .ok rest => rest
  | .error _ => tree

/-- The filling of the temporary file and its move to its place. -/
def fillAndReplace (parent : Names) (name temporary : String) (inode : Nat) (content : Bytes) :
    EStateM Failure FileTree Unit := fun tree =>
  match kernel.write inode content tree with
  | (.error failure, written) => .error failure written
  | (.ok (), written) =>
    match kernel.sync with
    | .error failure => .error failure written
    | .ok () =>
      match kernel.replace parent temporary name written with
      | .error failure => .error failure written
      | .ok replaced => .ok () replaced

/-- What is done in the parent directory. -/
def replaceFile (uuid : String) (content : Bytes) (parent : Names) (name : String) : EStateM Failure FileTree Unit :=
  fun tree =>
    match replaceable kernel parent name tree with
    | .error failure => .error failure tree
    | .ok () =>
      match kernel.create parent (temporaryName uuid) tree with
      | .error failure => .error failure tree
      | .ok (inode, made) =>
        match fillAndReplace kernel parent name (temporaryName uuid) inode content made with
        | .ok () t => .ok () (discard parent (temporaryName uuid) t)
        | .error failure t => .error failure (discard parent (temporaryName uuid) t)

def writeConfined (uuid : String) (root : Names) (raw : String) (content : Bytes) : EStateM Failure FileTree Unit :=
  confinedParent kernel root raw true (replaceFile kernel uuid content)

end Filesystem
end TraceGuard
