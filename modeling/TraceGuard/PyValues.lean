import TraceGuard.JsonCodec

/-! Values as Python builds them from dictionaries, lists, tuples and scalars. -/

/-- What is no collection. -/
inductive Scalar where
  | none
  | bool (b : Bool)
  | int (n : Int)
  | float (x : Double)
  | str (s : String)
  /-- An object of a type that `json` does not write. -/
  | other (name : String)

/-- The keys of a dictionary can be any hashable values. -/
inductive PyValue where
  | scalar (s : Scalar)
  | list (items : List PyValue)
  | tuple (items : List PyValue)
  | dict (members : List (PyValue × PyValue))

namespace PyValue

def children : PyValue → List PyValue
  | .scalar _ => []
  | .list items | .tuple items => items
  | .dict members => members.map Prod.snd

theorem child_lt {v c : PyValue} (h : c∈v.children) : sizeOf c < sizeOf v := by
  cases v with
  | scalar s => cases h
  | list items =>
    have := List.sizeOf_lt_of_mem (show c∈items from h)
    simp only [list.sizeOf_spec]
    omega
  | tuple items =>
    have := List.sizeOf_lt_of_mem (show c∈items from h)
    simp only [tuple.sizeOf_spec]
    omega
  | dict members =>
    obtain ⟨m, hm, rfl⟩ := List.mem_map.mp h
    have := List.sizeOf_lt_of_mem hm
    have hpair : sizeOf m = 1+sizeOf m.1+sizeOf m.2 := rfl
    simp only [dict.sizeOf_spec]
    omega

/-- Induction over the children. -/
theorem children_induction {p : PyValue → Prop} (h : ∀ v, (∀ c∈v.children, p c) → p v) (v : PyValue) : p v :=
  h v fun c _ => children_induction h c
termination_by sizeOf v
decreasing_by exact child_lt ‹_›

/-! A value folded from its leaves: each node from the results of its children. -/
mutual
def fold {α : Type} (node : PyValue → List α → α) : PyValue → α
  | .scalar s => node (.scalar s) []
  | .list items => node (.list items) (foldItems node items)
  | .tuple items => node (.tuple items) (foldItems node items)
  | .dict members => node (.dict members) (foldMembers node members)
def foldItems {α : Type} (node : PyValue → List α → α) : List PyValue → List α
  | [] => []
  | item :: items => fold node item :: foldItems node items
def foldMembers {α : Type} (node : PyValue → List α → α) : List (PyValue × PyValue) → List α
  | [] => []
  | (_, item) :: members => fold node item :: foldMembers node members
end

section
variable {α : Type} (node : PyValue → List α → α)

theorem foldItems_map (items : List PyValue) : foldItems node items = items.map (fold node) := by
  induction items with
  | nil => rfl
  | cons item items ih => rw [foldItems, List.map_cons, ih]

theorem foldMembers_map (members : List (PyValue × PyValue)) :
    foldMembers node members = (members.map Prod.snd).map (fold node) := by
  induction members with
  | nil => rfl
  | cons m members ih => rw [foldMembers, List.map_cons, List.map_cons, ih]

theorem fold_eq (v : PyValue) : fold node v = node v (v.children.map (fold node)) := by
  cases v with
  | scalar s => rfl
  | list items => rw [fold, foldItems_map, children]
  | tuple items => rw [fold, foldItems_map, children]
  | dict members => rw [fold, foldMembers_map, children]

end

/-! Counts. -/

def nodes : PyValue → Nat := fold fun _ counts => counts.sum+1

/-- The root stands at depth 0. -/
def depth : PyValue → Nat := fold fun _ depths => depths.foldr (fun d deepest => max (d+1) deepest) 0

theorem nodes_eq (v : PyValue) : v.nodes = (v.children.map nodes).sum+1 := fold_eq _ v

theorem depth_eq (v : PyValue) :
    v.depth = (v.children.map depth).foldr (fun d deepest => max (d+1) deepest) 0 := fold_eq _ v

theorem foldr_deepest {ds : List Nat} {base limit : Nat} :
    base+ds.foldr (fun d deepest => max (d+1) deepest) 0≤limit ↔ base≤limit ∧ ∀ d∈ds, base+1+d≤limit := by
  induction ds with
  | nil => simp
  | cons d ds ih =>
    rw [List.foldr_cons, List.forall_mem_cons, and_left_comm, ← ih]
    omega

theorem depth_below (v : PyValue) (base limit : Nat) :
    base+v.depth≤limit ↔ base≤limit ∧ ∀ c∈v.children, base+1+c.depth≤limit := by
  rw [depth_eq, foldr_deepest, List.forall_mem_map]

theorem children_nodes (v : PyValue) : v.children.length<v.nodes := by
  have hle : ∀ vs : List PyValue, vs.length≤(vs.map nodes).sum := by
    intro vs
    induction vs with
    | nil => exact le_rfl
    | cons c vs ih =>
      have hc := nodes_eq c
      simp only [List.length_cons, List.map_cons, List.sum_cons]
      omega
  rw [nodes_eq]
  exact Nat.lt_succ_of_le (hle _)

/-! Keys and leaves. -/

/-- `isinstance(key, str)`. -/
def isText : PyValue → Bool
  | .scalar (.str _) => true
  | _ => false

def keys : PyValue → List PyValue
  | .dict members => members.map Prod.fst
  | _ => []

/-- Every key at every depth is a text. -/
def textKeys : PyValue → Bool := fold fun v below => v.keys.all isText && below.all id

end PyValue

/-- A number is finite, an integer has no more digits than the interpreter writes (0 is no limit), and
the type is one that `json` knows. -/
def Scalar.writable (maxDigits : Nat) : Scalar → Bool
  | .float x => x.isFinite
  | .int n => maxDigits=0 || (Digits.digitChars n.natAbs).length ≤ maxDigits
  | .other _ => false
  | _ => true

def Scalar.toJson : Scalar → Json
  | .none | .other _ => .null
  | .bool b => .bool b
  | .int n => .int n
  | .float x => .float x
  | .str s => .str s

namespace PyValue
variable (maxDigits : Nat)

def writableLeaf : PyValue → Bool
  | .scalar s => s.writable maxDigits
  | _ => true

/-- Every leaf can be written. -/
def writable : PyValue → Bool := fold fun v below => v.writableLeaf maxDigits && below.all id

def keyText : PyValue → Option String
  | .scalar (.str s) => some s
  | _ => none

/-- The JSON value that is written for a value; its keys are texts. -/
def toJson : PyValue → Option Json := fold fun v below =>
  match v with
  | .scalar s => if s.writable maxDigits then some s.toJson else none
  | .list _ | .tuple _ => (below.mapM id).map .arr
  | .dict members => do
    let keys ← members.mapM fun m => keyText m.1
    let values ← below.mapM id
    some (.obj (keys.zip values))

theorem textKeys_iff (v : PyValue) :
    v.textKeys = true ↔ v.keys.all isText = true ∧ ∀ c∈v.children, c.textKeys = true := by
  have h : v.textKeys = (v.keys.all isText && (v.children.map textKeys).all id) := fold_eq _ v
  simp only [h, Bool.and_eq_true, List.all_map, List.all_eq_true, Function.comp_apply, id_eq]

theorem writable_iff (v : PyValue) :
    v.writable maxDigits = true ↔
      v.writableLeaf maxDigits = true ∧ ∀ c∈v.children, c.writable maxDigits = true := by
  have h : v.writable maxDigits =
      (v.writableLeaf maxDigits && (v.children.map (writable maxDigits)).all id) := fold_eq _ v
  simp only [h, Bool.and_eq_true, List.all_map, List.all_eq_true, Function.comp_apply, id_eq]

theorem mapM_some {α β : Type} {f : α → Option β} {xs : List α} :
    (∃ ys, xs.mapM f = some ys) ↔ ∀ x∈xs, ∃ y, f x = some y := by
  induction xs with
  | nil => simp
  | cons x xs ih =>
    rw [List.forall_mem_cons, ← ih]
    cases hx : f x with
    | none => simp [List.mapM_cons, hx]
    | some y =>
      cases hxs : xs.mapM f with
      | none => simp [List.mapM_cons, hx, hxs]
      | some ys => simp [List.mapM_cons, hx, hxs]

theorem below_some {v : PyValue} : (∃ values, (v.children.map (toJson maxDigits)).mapM id = some values) ↔
    ∀ c∈v.children, ∃ json, c.toJson maxDigits = some json := by
  rw [mapM_some, List.forall_mem_map]
  rfl

theorem keyText_some {k : PyValue} : (∃ text, keyText k = some text) ↔ k.isText = true := by
  cases k with
  | scalar s => cases s <;> simp [keyText, isText]
  | list | tuple | dict => simp [keyText, isText]

/-- What has keys that are texts can be written exactly when its leaves can. -/
theorem toJson_some (v : PyValue) (hk : v.textKeys = true) :
    (∃ json, v.toJson maxDigits = some json) ↔ v.writable maxDigits = true := by
  induction v using children_induction with
  | h v ih =>
    obtain ⟨hkeys, hchildren⟩ := v.textKeys_iff.mp hk
    have hbelow : (∃ values, (v.children.map (toJson maxDigits)).mapM id = some values) ↔
        ∀ c∈v.children, c.writable maxDigits = true := by
      rw [below_some]
      exact forall₂_congr fun c hc => ih c hc (hchildren c hc)
    rw [writable_iff, ← hbelow, toJson, fold_eq]
    cases v with
    | scalar s =>
      cases hs : s.writable maxDigits <;> simp [children, writableLeaf, hs]
    | list items | tuple items => simp [writableLeaf, Option.map_eq_some_iff]
    | dict members =>
      obtain ⟨keys, hkeys⟩ : ∃ keys, members.mapM (fun m => keyText m.1) = some keys := by
        rw [mapM_some]
        intro m hm
        exact keyText_some.mpr (List.all_eq_true.mp hkeys _ (List.mem_map_of_mem hm))
      simp [writableLeaf, hkeys, Option.bind_eq_some_iff]

/-! A value that `json.loads` gives, as a Python value. -/
mutual
def ofJson : Json → PyValue
  | .null => .scalar .none
  | .bool b => .scalar (.bool b)
  | .int n => .scalar (.int n)
  | .float x => .scalar (.float x)
  | .str s => .scalar (.str s)
  | .arr items => .list (ofItems items)
  | .obj members => .dict (ofMembers members)
def ofItems : List Json → List PyValue
  | [] => []
  | item :: items => ofJson item :: ofItems items
def ofMembers : List (String × Json) → List (PyValue × PyValue)
  | [] => []
  | (key, item) :: members => (.scalar (.str key), ofJson item) :: ofMembers members
end

theorem ofItems_map (items : List Json) : ofItems items = items.map ofJson := by
  induction items with
  | nil => rfl
  | cons item items ih => rw [ofItems, List.map_cons, ih]

theorem ofMembers_map (members : List (String × Json)) :
    ofMembers members = members.map fun m => (.scalar (.str m.1), ofJson m.2) := by
  induction members with
  | nil => rfl
  | cons m members ih => rw [ofMembers, List.map_cons, ih]

theorem mapM_keys (members : List (String × Json)) :
    (members.map fun m => ((.scalar (.str m.1), ofJson m.2) : PyValue × PyValue)).mapM (fun m => keyText m.1) =
      some (members.map Prod.fst) := by
  induction members with
  | nil => rfl
  | cons m members ih =>
    rw [List.map_cons, List.mapM_cons, ih]
    rfl

mutual
theorem toJson_ofJson : (v : Json) → toJson 0 (ofJson v) = if v.plain then some v else none
  | .null | .bool _ | .str _ => rfl
  | .int n => rfl
  | .float x => rfl
  | .arr items => by
    rw [toJson, fold_eq]
    show (((ofItems items).map (toJson 0)).mapM id).map Json.arr = _
    rw [toJson_ofItems items]
    cases h : Json.plainItems items <;> simp [Json.plain, h]
  | .obj members => by
    rw [toJson, fold_eq]
    show ((ofMembers members).mapM fun m => keyText m.1).bind (fun keys =>
      ((((ofMembers members).map Prod.snd).map (toJson 0)).mapM id).bind fun values =>
        some (Json.obj (keys.zip values))) = _
    rw [toJson_ofMembers members]
    have hkeys : (ofMembers members).mapM (fun m => keyText m.1) = some (members.map Prod.fst) := by
      rw [ofMembers_map]
      exact mapM_keys members
    have hzip : (members.map Prod.fst).zip (members.map Prod.snd) = members :=
      (List.zip_of_prod rfl rfl).symm
    rw [hkeys]
    cases h : Json.plainMembers members <;> simp [Json.plain, h, hzip]
theorem toJson_ofItems : (items : List Json) →
    ((ofItems items).map (toJson 0)).mapM id = if Json.plainItems items then some items else none
  | [] => rfl
  | item :: items => by
    rw [ofItems, List.map_cons, List.mapM_cons, toJson_ofJson item, toJson_ofItems items]
    cases h : item.plain <;> cases hs : Json.plainItems items <;> simp [Json.plainItems, h, hs]
theorem toJson_ofMembers : (members : List (String × Json)) →
    (((ofMembers members).map Prod.snd).map (toJson 0)).mapM id =
      if Json.plainMembers members then some (members.map Prod.snd) else none
  | [] => rfl
  | (key, item) :: members => by
    rw [ofMembers, List.map_cons, List.map_cons, List.mapM_cons, toJson_ofJson item,
      toJson_ofMembers members]
    cases h : item.plain <;> cases hs : Json.plainMembers members <;> simp [Json.plainMembers, h, hs]
end

end PyValue
