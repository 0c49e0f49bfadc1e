import TraceGuard.JsonAscii
import TraceGuard.Limits
import TraceGuard.PyValues
import TraceGuard.Worklist

/-! `validate_json` for every value. The walk with its stack and its cut-offs admits exactly what the
recursive counts of the value admit. -/
namespace TraceGuard
open PyValue

namespace Limits
variable (maxDigits maxBytes maxNodes maxDepth : Nat)

/-- What the walk asks of a node. -/
def check (item : PyValue) : Except PyError Unit :=
  match item with
  | .dict members =>
    if maxNodes < members.length || !members.all fun m => m.1.isText then
      .error (.value "invalid JSON object")
    else .ok ()
  | .list items | .tuple items =>
    if maxNodes < items.length then .error (.value "JSON collection budget exceeded") else .ok ()
  | .scalar _ => .ok ()

/-- The walk of a value, with the number of nodes that it takes off the stack. -/
def visits (value : PyValue) : Except PyError Unit × Nat :=
  Worklist.visit children (check maxNodes) (.value "JSON depth or node budget exceeded") maxDepth maxNodes
    [(value, 0)]

/-- `json.dumps(value, allow_nan=False, separators=(",", ":"))` of a value whose keys are texts. -/
def dumps (value : PyValue) : Option String :=
  (value.toJson maxDigits).map fun json => String.ofList (Json.chars Json.compact json)

/-- `validate_json`. -/
def validateValue (value : PyValue) : Except PyError Unit := do
  (visits maxNodes maxDepth value).1
  match dumps maxDigits value with
  | none => throw (.value "invalid bounded JSON value")
  | some encoded => if maxBytes < encoded.utf8ByteSize then throw (.value "JSON byte budget exceeded")

/-- What is admitted, by recursion over the value. -/
structure Admissible (value : PyValue) : Prop where
  keys : value.textKeys = true
  leaves : value.writable maxDigits = true
  nodes : value.nodes ≤ maxNodes
  depth : value.depth ≤ maxDepth
  bytes : ∀ encoded∈dumps maxDigits value, encoded.utf8ByteSize ≤ maxBytes

variable {maxDigits maxBytes maxNodes maxDepth : Nat} {value : PyValue}

theorem check_ok (hn : value.nodes ≤ maxNodes) : check maxNodes value = .ok () ↔ value.keys.all PyValue.isText = true := by
  have hlen := Nat.lt_of_lt_of_le value.children_nodes hn
  cases value with
  | scalar s => simp [check, PyValue.keys]
  | list items | tuple items =>
    have hle : ¬ maxNodes < items.length := Nat.not_lt.mpr (Nat.le_of_lt hlen)
    simp [check, PyValue.keys, hle]
  | dict members =>
    have hle : ¬ maxNodes < members.length := by
      simp only [children, List.length_map] at hlen
      omega
    simp [check, PyValue.keys, hle]

theorem check_error {e : PyError} (h : check maxNodes value = .error e) : ∃ message, e = .value message := by
  unfold check at h
  split at h
  · split at h
    · cases h
      exact ⟨_, rfl⟩
    · cases h
  · split at h
    · cases h
      exact ⟨_, rfl⟩
    · cases h
  · split at h
    · cases h
      exact ⟨_, rfl⟩
    · cases h
  · cases h

theorem visits_ok : (visits maxNodes maxDepth value).1 = .ok () ↔
    value.nodes ≤ maxNodes ∧ value.textKeys = true ∧ value.depth ≤ maxDepth := by
  have hwalk := @Worklist.visit_ok _ _ children (check maxNodes)
    (PyError.value "JSON depth or node budget exceeded") maxDepth _ _ (fun v => v.textKeys = true) maxNodes nodes_eq (fun v base => depth_below v base maxDepth)
    (fun v hv => by rw [textKeys_iff, check_ok hv]) _ [(value, 0)] (le_refl maxNodes)
  rw [visits, hwalk, Worklist.Fits]
  simp

theorem visits_error {e : PyError} (h : (visits maxNodes maxDepth value).1 = .error e) :
    ∃ message, e = .value message := by
  rcases Worklist.visit_error h with rfl | ⟨item, hitem⟩
  · exact ⟨_, rfl⟩
  · exact check_error hitem

theorem dumps_some (hk : value.textKeys = true) :
    (∃ encoded, dumps maxDigits value = some encoded) ↔ value.writable maxDigits = true := by
  rw [← toJson_some maxDigits value hk]
  cases hj : value.toJson maxDigits <;> simp [dumps, hj]

theorem validateValue_ok : validateValue maxDigits maxBytes maxNodes maxDepth value = .ok () ↔
    (visits maxNodes maxDepth value).1 = .ok () ∧
      ∃ encoded, dumps maxDigits value = some encoded ∧ encoded.utf8ByteSize ≤ maxBytes := by
  unfold validateValue
  cases (visits maxNodes maxDepth value).1 with
  | error e => simp [bind, Except.bind]
  | ok u =>
    cases dumps maxDigits value with
    | none => simp [bind, Except.bind, throw, throwThe, MonadExceptOf.throw]
    | some encoded =>
      by_cases hb : maxBytes < encoded.utf8ByteSize
      · simp [bind, Except.bind, throw, throwThe, MonadExceptOf.throw, hb]
      · simp [bind, Except.bind, hb, Nat.le_of_not_lt hb, pure, Except.pure]

theorem validateValue_error {e : PyError}
    (h : validateValue maxDigits maxBytes maxNodes maxDepth value = .error e) :
    ∃ message, e = .value message := by
  unfold validateValue at h
  cases hv : (visits maxNodes maxDepth value).1 with
  | error e' =>
    rw [hv] at h
    cases h
    exact visits_error hv
  | ok u =>
    rw [hv] at h
    simp only [bind, Except.bind] at h
    split at h
    · cases h
      exact ⟨_, rfl⟩
    split at h
    · cases h
      exact ⟨_, rfl⟩
    · cases h

example : (visits 2 5 (.list [.scalar .none, .scalar .none, .tuple []])).2=1 := by decide

end Limits

namespace Limits
variable {maxNodes maxDepth : Nat}

theorem push_ofJson (vs : List Json) (depth : Nat) (stack : List (Json × Nat)) :
    ((vs.map fun c => (c, depth+1)).reverse++stack).map (fun e => (ofJson e.1, e.2)) =
      ((vs.map ofJson).map fun c => (c, depth+1)).reverse++stack.map fun e => (ofJson e.1, e.2) := by
  rw [List.map_append, List.map_reverse, List.map_map, List.map_map]
  rfl

/-- The walk over a parsed value is the walk over the Python value. -/
theorem walk_visit (n : Nat) (stack : List (Json × Nat)) : walk maxNodes maxDepth n stack =
    (Worklist.visit children (check maxNodes) (.value "JSON depth or node budget exceeded") maxDepth n
      (stack.map fun e => (ofJson e.1, e.2))).1 := by
  induction n generalizing stack with
  | zero => cases stack <;> rfl
  | succ n ih =>
    cases stack with
    | nil => rfl
    | cons e stack =>
      obtain ⟨item, depth⟩ := e
      rw [List.map_cons, Worklist.visit]
      by_cases hdepth : maxDepth < depth
      · cases item <;> simp [walk, hdepth]
      rw [if_neg hdepth]
      cases item with
      | null | bool | int | float | str => simpa [walk, hdepth, ofJson, check, Worklist.push, children] using ih stack
      | arr items =>
        by_cases hlen : maxNodes < items.length
        · simp [walk, hdepth, ofJson, check, ofItems_map, hlen]
        · have hpush := push_ofJson items depth stack
          simp only [walk, hdepth, ofJson, check, ofItems_map, List.length_map, hlen, if_false, ih, hpush,
            Worklist.push, children]
      | obj members =>
        by_cases hlen : maxNodes < members.length
        · simp [walk, hdepth, ofJson, check, ofMembers_map, hlen]
        · have hpush := push_ofJson (members.map Prod.snd) depth stack
          simp only [List.map_map, Function.comp_def] at hpush
          simp only [walk, hdepth, hlen, if_false, ih, hpush]
          simp [ofJson, check, ofMembers_map, hlen, Worklist.push, children, PyValue.isText, Function.comp_def]

end Limits

/-- On a parsed value `validate_json` is the same in both models. -/
theorem validateJson_value (value : Json) (maxBytes maxNodes maxDepth : Nat) :
    validateJson value maxBytes maxNodes maxDepth =
      Limits.validateValue 0 maxBytes maxNodes maxDepth (ofJson value) := by
  have hwalk := @Limits.walk_visit maxNodes maxDepth maxNodes [(value, 0)]
  have hbytes := Json.utf8ByteSize_ascii (@Json.chars_ascii Json.compact rfl value)
  unfold validateJson Limits.validateValue
  rw [hwalk, Limits.dumps, toJson_ofJson, Limits.visits]
  cases hp : value.plain with
  | false => rfl
  | true => simp [hbytes]

end TraceGuard
