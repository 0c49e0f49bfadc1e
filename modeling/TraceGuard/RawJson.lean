import TraceGuard.JsonCodec

/-! `json.loads` with every member of an object kept. What it drops of them is dropped by `dict` alone. -/
namespace Json

mutual
def rawValue : Nat → List Char → Option (Json × List Char)
  | 0, _ => none
  | n+1, cs =>
    match cs with
    | '"' :: tail => (readString tail.length tail).map fun p => (.str (String.ofList p.1), p.2)
    | '[' :: tail =>
      match skip tail with
      | ']' :: rest => some (.arr [], rest)
      | cs => do
        let (v, rest) ← rawValue n cs
        let (vs, rest) ← rawItems n rest
        some (.arr (v :: vs), rest)
    | '{' :: tail =>
      match skip tail with
      | '}' :: rest => some (.obj [], rest)
      | cs => do
        let (k, rest) ← readKey cs
        let (v, rest) ← rawValue n rest
        let (ms, rest) ← rawMembers n rest
        some (.obj ((k, v) :: ms), rest)
    | 'n' :: 'u' :: 'l' :: 'l' :: rest => some (.null, rest)
    | 't' :: 'r' :: 'u' :: 'e' :: rest => some (.bool true, rest)
    | 'f' :: 'a' :: 'l' :: 's' :: 'e' :: rest => some (.bool false, rest)
    | 'N' :: 'a' :: 'N' :: rest => some (.float .nan, rest)
    | 'I' :: 'n' :: 'f' :: 'i' :: 'n' :: 'i' :: 't' :: 'y' :: rest =>
      some (.float (.infinity false), rest)
    | '-' :: 'I' :: 'n' :: 'f' :: 'i' :: 'n' :: 'i' :: 't' :: 'y' :: rest =>
      some (.float (.infinity true), rest)
    | cs => readNumber cs
def rawItems : Nat → List Char → Option (List Json × List Char)
  | 0, _ => none
  | n+1, cs =>
    match skip cs with
    | ']' :: rest => some ([], rest)
    | ',' :: rest => do
      let (v, rest) ← rawValue n (skip rest)
      let (vs, rest) ← rawItems n rest
      some (v :: vs, rest)
    | _ => none
def rawMembers : Nat → List Char → Option (List (String × Json) × List Char)
  | 0, _ => none
  | n+1, cs =>
    match skip cs with
    | '}' :: rest => some ([], rest)
    | ',' :: rest => do
      let (k, rest) ← readKey (skip rest)
      let (v, rest) ← rawValue n rest
      let (ms, rest) ← rawMembers n rest
      some ((k, v) :: ms, rest)
    | _ => none
end

def rawLoads (text : String) : Option Json :=
  match rawValue text.toList.length (skip text.toList) with
  | some (v, rest) => if skip rest=[] then some v else none
  | none => none

/-! Of equal names the last value. -/
mutual
def collapse : Json → Json
  | .arr items => .arr (collapseItems items)
  | .obj members => .obj (dict (collapseMembers members))
  | .null => .null
  | .bool b => .bool b
  | .int n => .int n
  | .float x => .float x
  | .str s => .str s
def collapseItems : List Json → List Json
  | [] => []
  | item :: items => collapse item :: collapseItems items
def collapseMembers : List (String × Json) → List (String × Json)
  | [] => []
  | (key, item) :: members => (key, collapse item) :: collapseMembers members
end

theorem readNumber_collapse {cs rest : List Char} {v : Json} (h : readNumber cs = some (v, rest)) :
    v.collapse=v := by
  unfold readNumber at h
  dsimp only at h
  split at h
  · cases h
  · split at h <;> cases h <;> rfl

/-- A reader, and the one that keeps every member. -/
structure Collapses (n : Nat) : Prop where
  value : ∀ cs, readValue n cs = (rawValue n cs).map fun p => (p.1.collapse, p.2)
  items : ∀ cs, readItems n cs = (rawItems n cs).map fun p => (collapseItems p.1, p.2)
  members : ∀ cs, readMembers n cs = (rawMembers n cs).map fun p => (collapseMembers p.1, p.2)

section
variable {n : Nat} (ih : Collapses n) (cs : List Char)
include ih

/-- An item and those behind it, and what is made of them. -/
theorem items_raw {α β : Type} {f : List Json → β} {g : List Json → α} {h : α → β}
    (hf : ∀ vs, f (collapseItems vs) = h (g vs)) : (do
      let (v, rest) ← readValue n cs
      let (vs, rest) ← readItems n rest
      some (f (v :: vs), rest)) = Option.map (fun p : α × List Char => (h p.1, p.2)) (do
      let (v, rest) ← rawValue n cs
      let (vs, rest) ← rawItems n rest
      some (g (v :: vs), rest)) := by
  rw [ih.value]
  cases rawValue n cs with
  | none => rfl
  | some p =>
    simp only [Option.map_some, Option.bind_eq_bind, Option.bind_some, ih.items]
    cases rawItems n p.2 with
    | none => rfl
    | some q => simp only [Option.map_some, Option.bind_some, ← hf, collapseItems]

/-- A member and those behind it. -/
theorem members_raw {α β : Type} {f : List (String × Json) → β} {g : List (String × Json) → α} {h : α → β}
    (hf : ∀ ms, f (collapseMembers ms) = h (g ms)) : (do
      let (k, rest) ← readKey cs
      let (v, rest) ← readValue n rest
      let (ms, rest) ← readMembers n rest
      some (f ((k, v) :: ms), rest)) = Option.map (fun p : α × List Char => (h p.1, p.2)) (do
      let (k, rest) ← readKey cs
      let (v, rest) ← rawValue n rest
      let (ms, rest) ← rawMembers n rest
      some (g ((k, v) :: ms), rest)) := by
  cases readKey cs with
  | none => rfl
  | some k =>
    simp only [Option.bind_eq_bind, Option.bind_some, ih.value]
    cases rawValue n k.2 with
    | none => rfl
    | some p =>
      simp only [Option.map_some, Option.bind_some, ih.members]
      cases rawMembers n p.2 with
      | none => rfl
      | some q => simp only [Option.map_some, Option.bind_some, ← hf, collapseMembers]

theorem readItems_raw :
    readItems (n+1) cs = (rawItems (n+1) cs).map fun p => (collapseItems p.1, p.2) := by
  unfold readItems rawItems
  generalize skip cs = cs
  cases cs with
  | nil => rfl
  | cons c rest =>
    by_cases hend : c = ']'
    · subst hend
      rfl
    by_cases hnext : c = ','
    · subst hnext
      exact @items_raw n ih _ _ _ id id collapseItems fun _ => rfl
    · simp [hend, hnext]

theorem readMembers_raw :
    readMembers (n+1) cs = (rawMembers (n+1) cs).map fun p => (collapseMembers p.1, p.2) := by
  unfold readMembers rawMembers
  generalize skip cs = cs
  cases cs with
  | nil => rfl
  | cons c rest =>
    by_cases hend : c = '}'
    · subst hend
      rfl
    by_cases hnext : c = ','
    · subst hnext
      exact @members_raw n ih _ _ _ id id collapseMembers fun _ => rfl
    · simp [hend, hnext]

theorem readValue_raw :
    readValue (n+1) cs = (rawValue (n+1) cs).map fun p => (p.1.collapse, p.2) := by
  unfold readValue
  split
  · rw [rawValue]
    simp [Option.map_map, Function.comp_def, collapse]
  · rename_i tail
    rw [rawValue]
    generalize skip tail = tail
    have hany {cs} := @items_raw n ih cs _ _ arr arr collapse fun _ => rfl
    cases tail with
    | nil => exact hany
    | cons c rest =>
      by_cases hend : c = ']'
      · subst hend
        rfl
      · simpa [hend] using hany
  · rename_i tail
    rw [rawValue]
    generalize skip tail = tail
    have hany {cs} := @members_raw n ih cs _ _ (fun ms => obj (dict ms)) obj collapse fun _ => rfl
    cases tail with
    | nil => exact hany
    | cons c rest =>
      by_cases hend : c = '}'
      · subst hend
        rfl
      · simpa [hend] using hany
  · rfl
  · rfl
  · rfl
  · rfl
  · rfl
  · rfl
  · rw [rawValue]
    · cases h : readNumber cs with
      | none => rfl
      | some p => rw [Option.map_some, readNumber_collapse h]
    all_goals assumption

end

theorem collapses : (n : Nat) → Collapses n
  | 0 => ⟨fun _ => rfl, fun _ => rfl, fun _ => rfl⟩
  | n+1 => ⟨readValue_raw (collapses n), readItems_raw (collapses n), readMembers_raw (collapses n)⟩

/-- What `json.loads` gives is the value with every member, collapsed. -/
theorem loads_raw (text : String) : loads text = (rawLoads text).map collapse := by
  unfold loads rawLoads
  rw [(collapses _).value]
  cases rawValue text.toList.length (skip text.toList) with
  | none => rfl
  | some p =>
    dsimp only [Option.map_some]
    split <;> rfl

/-! Of members with one name, the last is kept. -/

theorem mem_putMember (k : String) (v : Json) (ms : List (String × Json)) : (k, v)∈putMember k v ms := by
  induction ms with
  | nil => exact List.mem_singleton.mpr rfl
  | cons m ms ih =>
    rw [putMember]
    split
    · rename_i he
      rw [he]
      exact List.mem_cons_self
    · exact List.mem_cons_of_mem _ ih

theorem putMember_keeps {k : String} {v : Json} {ms : List (String × Json)} {m : String × Json} (hm : m∈ms)
    (hne : m.1≠k) : m∈putMember k v ms := by
  induction ms with
  | nil => cases hm
  | cons n ms ih =>
    rw [putMember]
    rcases List.mem_cons.mp hm with rfl | hm
    · rw [if_neg (Ne.symm hne)]
      exact List.mem_cons_self
    · split
      · exact List.mem_cons_of_mem _ hm
      · exact List.mem_cons_of_mem _ (ih hm)

theorem mem_dict {before after : List (String × Json)} {m : String × Json} (h : m.1∉after.map Prod.fst) :
    m∈dict (before++m :: after) := by
  have keep (ms : List (String × Json)) {d : List (String × Json)} (hm : m∈d) (h : m.1∉ms.map Prod.fst) :
      m∈ms.foldl (fun d m => putMember m.1 m.2 d) d := by
    induction ms generalizing d with
    | nil => exact hm
    | cons n ms ih =>
      rw [List.map_cons, List.mem_cons, not_or] at h
      exact ih (putMember_keeps hm h.1) h.2
  unfold dict
  rw [List.foldl_append, List.foldl_cons]
  exact keep after (mem_putMember _ _ _) h

theorem putMember_keys (k : String) (v : Json) (ms : List (String × Json)) : (putMember k v ms).map Prod.fst =
    if k∈ms.map Prod.fst then ms.map Prod.fst else ms.map Prod.fst++[k] := by
  induction ms with
  | nil => simp [putMember]
  | cons m ms ih =>
    rw [putMember]
    split
    · rename_i he
      simp [he]
    · rename_i hne
      simp only [List.map_cons, ih, List.mem_cons, hne, false_or]
      split <;> rfl

theorem dict_keys (ms : List (String × Json)) : ((dict ms).map Prod.fst).Nodup := by
  have keep (ms : List (String × Json)) {d : List (String × Json)} (hd : (d.map Prod.fst).Nodup) :
      ((ms.foldl (fun d m => putMember m.1 m.2 d) d).map Prod.fst).Nodup := by
    induction ms generalizing d with
    | nil => exact hd
    | cons m ms ih =>
      refine ih ?_
      rw [putMember_keys]
      split
      · exact hd
      · rename_i hnew
        refine List.nodup_append.mpr ⟨hd, List.nodup_singleton _, fun key hk other ho he => hnew ?_⟩
        rwa [← List.mem_singleton.mp ho, ← he]
  exact keep ms List.nodup_nil

theorem collapseItems_map (items : List Json) : collapseItems items = items.map collapse := by
  induction items with
  | nil => rfl
  | cons item items ih => rw [collapseItems, ih, List.map_cons]

theorem collapseMembers_map (members : List (String × Json)) :
    collapseMembers members = members.map fun m => (m.1, m.2.collapse) := by
  induction members with
  | nil => rfl
  | cons m members ih => rw [collapseMembers, ih, List.map_cons]

end Json
