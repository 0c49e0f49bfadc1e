import Mathlib.Data.Rat.Defs
import Mathlib.Algebra.Order.Ring.Rat
import TraceGuard.Confinement

/-! Copies of untrusted objects into a private staging directory, under one budget. The staging directory is the
log of what was made and written there; nothing that is staged is changed again. -/
namespace TraceGuard
open Files Stateful

namespace Filesystem

structure CopyBudget where
  maxEntries : Nat := 1024
  maxBytes : Nat := 16777216
  maxFileBytes : Nat := 8388608
  maxDepth : Nat := 16
  timeoutSeconds : ℚ := 5
  entries : Nat := 0
  bytes : Nat := 0
  started : ℚ

/-- A change of the staging directory. -/
inductive Change where
  /-- A directory above a destination. -/
  | parent (target : Names)
  | directory (target : Names)
  | file (target : Names)
  | bytes (target : Names) (chunk : Bytes)
  deriving DecidableEq

def Change.target : Change → Names
  | .parent target | .directory target | .file target | .bytes target _ => target

structure Staging where
  budget : CopyBudget
  /-- How often the clock has been read. -/
  ticks : Nat := 0
  log : List Change := []

/-- Whether something stands at a path of the staging directory. -/
def staged (log : List Change) (path : Names) : Prop := path=[] ∨ ∃ change∈log, change.target=path

instance (log : List Change) (path : Names) : Decidable (staged log path) := inferInstanceAs (Decidable (_ ∨ _))

/-- What a call finds: the tree that it copies from, which does not change while it runs, the system, and the
clock. -/
structure Surroundings where
  source : FileTree
  kernel : Kernel
  /-- `os.scandir`: the names of a directory in any order. -/
  scandir : Names → List String
  complete : ∀ dir, (scandir dir).Perm (source.children dir)
  prohibited : String → Bool
  clock : Nat → ℚ
  /-- The changes of the staging directory that the system refuses. -/
  refuses : Change → Bool
  /-- A write that fails after so many bytes, by the readings of the clock before it. -/
  fails : Nat → Option Nat

variable (env : Surroundings)

/-- `CopyBudget.check`. -/
def budgetCheck : EStateM Failure Staging Unit := fun s =>
  let read := { s with ticks := s.ticks+1 }
  if s.budget.timeoutSeconds < env.clock s.ticks-s.budget.started then
    .error (.value "input staging time limit exceeded") read
  else if s.budget.maxEntries < s.budget.entries ∨ s.budget.maxBytes < s.budget.bytes then
    .error (.value "input staging entry or byte limit exceeded") read
  else .ok () read

/-- `budget.entries += 1`. -/
def countEntry : EStateM Failure Staging Unit :=
  modify fun s => { s with budget := { s.budget with entries := s.budget.entries+1 } }

/-- `budget.bytes += len(chunk)`. -/
def countBytes (chunk : Bytes) : EStateM Failure Staging Unit :=
  modify fun s => { s with budget := { s.budget with bytes := s.budget.bytes+chunk.length } }

/-- `size > budget.max_file_bytes`. -/
def fileCheck (size : Nat) : EStateM Failure Staging Unit := check fun s =>
  if s.budget.maxFileBytes < size then .error (.value "input staging per-file limit exceeded") else .ok ()

/-- A new object in the staging directory. -/
def make (change : Change) : EStateM Failure Staging Unit := fun s =>
  if env.refuses change then .error .os s
  else if staged s.log change.target then .error .os s
  else .ok () { s with log := s.log++[change] }

/-- `output.write(chunk)`. -/
def append (target : Names) (chunk : Bytes) : EStateM Failure Staging Unit := fun s =>
  match env.fails s.ticks with
  | some count => .error .os { s with log := s.log++[.bytes target (chunk.take count)] }
  | none => .ok () { s with log := s.log++[.bytes target chunk] }

/-- The loop of reads and writes, with what has been written and what is left to read. -/
def copyBytes (target : Names) (written : Nat) (rest : Bytes) : EStateM Failure Staging Unit := do
  budgetCheck env
  if _h : env.kernel.read written 65536 rest=[] then return
  else
    countBytes (env.kernel.read written 65536 rest)
    budgetCheck env
    fileCheck (written+(env.kernel.read written 65536 rest).length)
    append env target (env.kernel.read written 65536 rest)
    copyBytes target (written+(env.kernel.read written 65536 rest).length)
      (rest.drop (env.kernel.read written 65536 rest).length)
termination_by rest.length
decreasing_by exact env.kernel.read_lt _h

/-- A file that has been opened. Its metadata are the same before and after, since it does not change. -/
def copyFile (inode : Nat) (target : Names) : EStateM Failure Staging Unit := do
  check fun _ =>
    if env.source.links inode≠1 then .error (.value "input must be a regular non-aliased file or directory")
    else .ok ()
  fileCheck (env.source.contents inode).length
  make env (.file target)
  copyBytes env target 0 (env.source.contents inode)

/-- `copy_object`. The depth is `budget.max_depth+1-room`. -/
def copyObject : (room : Nat) → (parent : Names) → (name relative : String) → (target : Names) →
    EStateM Failure Staging Unit
  | 0, _, _, _, _ => do
    countEntry
    budgetCheck env
    throw (.value "protected object or input depth limit exceeded")
  | room+1, parent, name, relative, target => do
    countEntry
    budgetCheck env
    check fun _ =>
      if env.prohibited relative then .error (.value "protected object or input depth limit exceeded")
      else .ok ()
    match ← check fun _ => env.kernel.openFile parent name env.source with
    | .dir =>
      make env (.directory target)
      (env.scandir (parent++[name])).forM fun child =>
        copyObject room (parent++[name]) child (relative++"/"++child) (target++[child])
    | .file inode => copyFile env inode target
    | .symlink _ | .special => throw (.value "input must be a regular non-aliased file or directory")

/-- `destination.parent.mkdir(parents=True, exist_ok=True)`: what is missing above the destination. -/
def makeParent (path : Names) : EStateM Failure Staging Unit := fun s =>
  if .file path∈s.log then .error .os s
  else if staged s.log path then .ok () s
  else make env (.parent path) s

def copyConfined (root : Names) (raw : String) (destination : Names) : EStateM Failure Staging Unit := do
  let path ← check fun _ => parts raw
  unaliased do
    let parent ← check fun _ => (outcome (walk env.kernel false [] (root++path.dropLast)) env.source).1
    destination.dropLast.inits.forM (makeParent env)
    let s ← get
    copyObject env (s.budget.maxDepth+1-path.length) parent (path.getLastD "") ("/".intercalate path)
      destination

end Filesystem
end TraceGuard
