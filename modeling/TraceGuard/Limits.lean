import TraceGuard.JsonCodec
import TraceGuard.Types

/-! Bounded JSON admission: a walk over the nodes of a value, with the pending ones on a stack. -/
namespace TraceGuard

namespace Limits

/-- The walk, with the number of nodes that may still be taken and the top of the stack first. -/
def walk (maxNodes maxDepth : Nat) : Nat → List (Json × Nat) → Except PyError Unit
  | _, [] => .ok ()
  | 0, _ :: _ => .error (.value "JSON depth or node budget exceeded")
  | nodes+1, (item, depth) :: stack =>
    if maxDepth<depth then .error (.value "JSON depth or node budget exceeded")
    else match item with
    | .obj members =>
      if maxNodes < members.length then .error (.value "invalid JSON object")
      else walk maxNodes maxDepth nodes ((members.map fun m => (m.2, depth+1)).reverse++stack)
    | .arr items =>
      if maxNodes < items.length then .error (.value "JSON collection budget exceeded")
      else walk maxNodes maxDepth nodes ((items.map fun child => (child, depth+1)).reverse++stack)
    | _ => walk maxNodes maxDepth nodes stack

end Limits

/-- `validate_json`. -/
def validateJson (value : Json) (maxBytes : Nat := 65536) (maxNodes : Nat := 4096)
    (maxDepth : Nat := 16) : Except PyError Unit := do
  Limits.walk maxNodes maxDepth maxNodes [(value, 0)]
  if !value.plain then throw (.value "invalid bounded JSON value")
  -- the text is ASCII: a byte for each character
  if maxBytes<(Json.chars Json.compact value).length then throw (.value "JSON byte budget exceeded")

theorem validateJson_plain {value : Json} {maxBytes maxNodes maxDepth : Nat}
    (h : validateJson value maxBytes maxNodes maxDepth = .ok ()) : value.plain = true := by
  unfold validateJson at h
  obtain ⟨-, -, h⟩ := Raising.bind_ok h
  obtain ⟨hp, -⟩ := Raising.guard_ok h
  simpa using hp

end TraceGuard
