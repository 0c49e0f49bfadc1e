import Mathlib.Data.List.Pairwise
import Mathlib.Order.Lattice

/-! Finite maps as entry lists in strictly increasing key order. Two maps with the same
lookups are equal, so a map can be written out in one way only. -/

structure SortedMap (κ α : Type*) [LinearOrder κ] where
  entries : List (κ × α)
  sorted : entries.Pairwise fun a b => a.1<b.1

namespace SortedMap
variable {κ α β : Type*} [LinearOrder κ]

/-- Put an entry in its place, in the place of one with the same key. -/
def insertEntry (k : κ) (v : α) : List (κ × α) → List (κ × α)
  | [] => [(k, v)]
  | (k', v') :: es =>
    if k<k' then (k, v) :: (k', v') :: es
    else if k=k' then (k, v) :: es
    else (k', v') :: insertEntry k v es

theorem mem_insertEntry {k : κ} {v : α} {es : List (κ × α)} {e : κ × α}
    (h : e∈insertEntry k v es) : e=(k, v) ∨ e∈es := by
  induction es with
  | nil => simpa [insertEntry] using h
  | cons x xs ih =>
    obtain ⟨k', v'⟩ := x
    unfold insertEntry at h
    split_ifs at h with hlt heq
    · simpa using h
    · rcases List.mem_cons.mp h with he | he
      · exact Or.inl he
      · exact Or.inr (List.mem_cons_of_mem _ he)
    · rcases List.mem_cons.mp h with he | he
      · exact Or.inr (List.mem_cons.mpr (Or.inl he))
      · exact (ih he).imp_right (List.mem_cons_of_mem _)

theorem insertEntry_sorted (k : κ) (v : α) {es : List (κ × α)}
    (h : es.Pairwise fun a b => a.1<b.1) :
    (insertEntry k v es).Pairwise fun a b => a.1<b.1 := by
  induction es with
  | nil => simp [insertEntry]
  | cons x xs ih =>
    obtain ⟨k', v'⟩ := x
    obtain ⟨hx, hxs⟩ := List.pairwise_cons.mp h
    unfold insertEntry
    split_ifs with hlt heq
    · refine List.pairwise_cons.mpr ⟨fun e he => ?_, h⟩
      rcases List.mem_cons.mp he with rfl | he
      · exact hlt
      · exact lt_trans hlt (hx e he)
    · subst heq
      exact List.pairwise_cons.mpr ⟨hx, hxs⟩
    · refine List.pairwise_cons.mpr ⟨fun e he => ?_, ih hxs⟩
      rcases mem_insertEntry he with rfl | he
      · exact lt_of_le_of_ne (not_lt.mp hlt) (Ne.symm heq)
      · exact hx e he

theorem lookup_cons (k k' : κ) (v : α) (es : List (κ × α)) :
    ((k', v) :: es).lookup k = if k=k' then some v else es.lookup k := by
  by_cases h : k=k' <;> simp [List.lookup_cons, h, beq_eq_false_iff_ne.mpr]

theorem lookup_insertEntry (k : κ) (v : α) (es : List (κ × α)) (k' : κ) :
    (insertEntry k v es).lookup k' = if k'=k then some v else es.lookup k' := by
  induction es with
  | nil => rw [insertEntry, lookup_cons]
  | cons x xs ih =>
    obtain ⟨kx, vx⟩ := x
    by_cases hlt : k<kx
    · rw [insertEntry, if_pos hlt, lookup_cons]
    · by_cases heq : k=kx
      · subst heq
        rw [insertEntry, if_neg hlt, if_pos rfl, lookup_cons, lookup_cons]
        split <;> rfl
      · rw [insertEntry, if_neg hlt, if_neg heq, lookup_cons, ih, lookup_cons]
        by_cases hx : k'=kx
        · subst hx
          simp [Ne.symm heq]
        · simp [hx]

def empty : SortedMap κ α := ⟨[], List.Pairwise.nil⟩

def get? (m : SortedMap κ α) (k : κ) : Option α := m.entries.lookup k

def keys (m : SortedMap κ α) : List κ := m.entries.map Prod.fst

def values (m : SortedMap κ α) : List α := m.entries.map Prod.snd

def size (m : SortedMap κ α) : Nat := m.entries.length

def insert (m : SortedMap κ α) (k : κ) (v : α) : SortedMap κ α :=
  ⟨insertEntry k v m.entries, insertEntry_sorted k v m.sorted⟩

def filter (m : SortedMap κ α) (p : κ → α → Bool) : SortedMap κ α :=
  ⟨m.entries.filter fun e => p e.1 e.2, m.sorted.filter _⟩

def erase (m : SortedMap κ α) (k : κ) : SortedMap κ α := m.filter fun k' _ => k'≠k

def map (m : SortedMap κ α) (f : α → β) : SortedMap κ β :=
  ⟨m.entries.map fun e => (e.1, f e.2), List.pairwise_map.mpr m.sorted⟩

/-- Entries put in one after the other: the last of equal keys counts. -/
def ofList (es : List (κ × α)) : SortedMap κ α := es.foldl (fun m e => m.insert e.1 e.2) empty

@[simp] theorem get?_empty (k : κ) : (empty : SortedMap κ α).get? k = none := rfl

theorem get?_insert (m : SortedMap κ α) (k : κ) (v : α) (k' : κ) :
    (m.insert k v).get? k' = if k'=k then some v else m.get? k' :=
  lookup_insertEntry k v m.entries k'

@[simp] theorem get?_insert_self (m : SortedMap κ α) (k : κ) (v : α) :
    (m.insert k v).get? k = some v := by
  simp [get?_insert]

theorem get?_insert_ne (m : SortedMap κ α) {k k' : κ} (v : α) (h : k'≠k) :
    (m.insert k v).get? k' = m.get? k' := by
  simp [get?_insert, h]

theorem lookup_map (es : List (κ × α)) (f : α → β) (k : κ) :
    (es.map fun e => (e.1, f e.2)).lookup k = (es.lookup k).map f := by
  induction es with
  | nil => rfl
  | cons x xs ih => rw [List.map_cons, lookup_cons, ih, lookup_cons]; split <;> rfl

@[simp] theorem get?_map (m : SortedMap κ α) (f : α → β) (k : κ) :
    (m.map f).get? k = (m.get? k).map f :=
  lookup_map m.entries f k

/-- An entry of a sorted list is what its key looks up. -/
theorem lookup_eq_some {es : List (κ × α)} (h : es.Pairwise fun a b => a.1<b.1) {k : κ} {v : α} :
    es.lookup k = some v ↔ (k, v)∈es := by
  induction es with
  | nil => simp
  | cons x xs ih =>
    obtain ⟨kx, vx⟩ := x
    obtain ⟨hx, hxs⟩ := List.pairwise_cons.mp h
    by_cases hk : k=kx
    · subst hk
      have hfresh : (k, v)∉xs := fun hm => lt_irrefl k (hx _ hm)
      simp [hfresh, eq_comm]
    · simp [lookup_cons, hk, ih hxs]

theorem mem_entries {m : SortedMap κ α} {k : κ} {v : α} :
    (k, v)∈m.entries ↔ m.get? k = some v :=
  (lookup_eq_some m.sorted).symm

theorem get?_filter (m : SortedMap κ α) (p : κ → α → Bool) (k : κ) :
    (m.filter p).get? k = (m.get? k).filter (p k) := by
  ext v
  rw [← mem_entries, Option.filter_eq_some_iff, ← mem_entries]
  simp [filter]

theorem get?_erase (m : SortedMap κ α) (k k' : κ) :
    (m.erase k).get? k' = if k'=k then none else m.get? k' := by
  rw [erase, get?_filter]
  by_cases h : k'=k <;> cases m.get? k' <;> simp [h]

theorem eq_of_entries {m m' : SortedMap κ α} (h : m.entries=m'.entries) : m=m' := by
  cases m
  cases m'
  cases h
  rfl

/-- Maps with the same lookups are equal. -/
theorem ext_get? {m m' : SortedMap κ α} (h : ∀ k, m.get? k = m'.get? k) : m=m' := by
  have hmem (e : κ × α) : e∈m.entries ↔ e∈m'.entries := by
    obtain ⟨k, v⟩ := e
    rw [mem_entries, mem_entries, h]
  have nodup (n : SortedMap κ α) : n.entries.Nodup :=
    n.sorted.imp fun {a b} hlt he => ne_of_lt hlt (congrArg Prod.fst he)
  have hperm : m.entries.Perm m'.entries :=
    (List.perm_ext_iff_of_nodup (nodup m) (nodup m')).mpr hmem
  refine eq_of_entries (hperm.eq_of_pairwise (fun a b _ _ hab hba => ?_) m.sorted m'.sorted)
  exact absurd (lt_trans hab hba) (lt_irrefl _)

theorem eq_empty {m : SortedMap κ α} (h : m.entries.isEmpty = true) : m=.empty :=
  eq_of_entries (List.isEmpty_iff.mp h)

/-- Filters that keep every value of a key. -/
theorem get?_filter_pos (m : SortedMap κ α) {p : κ → α → Bool} {k : κ} (h : ∀ v, p k v = true) :
    (m.filter p).get? k = m.get? k := by
  rw [get?_filter]
  cases m.get? k <;> simp [h]

/-- A new entry that the filter keeps. -/
theorem filter_insert_pos (m : SortedMap κ α) {p : κ → α → Bool} {k : κ} {v : α} (h : p k v = true) :
    (m.insert k v).filter p = (m.filter p).insert k v := by
  refine ext_get? fun k' => ?_
  rw [get?_filter, get?_insert, get?_insert, get?_filter]
  split
  · rename_i hk
    subst hk
    rw [Option.filter_some, if_pos h]
  · rfl

/-- A new entry that the filter drops, in the place of none or of one that it dropped. -/
theorem filter_insert_neg (m : SortedMap κ α) {p : κ → α → Bool} {k : κ} {v : α} (h : p k v = false)
    (hold : ∀ v', m.get? k = some v' → p k v' = false) : (m.insert k v).filter p = m.filter p := by
  refine ext_get? fun k' => ?_
  rw [get?_filter, get?_insert, get?_filter]
  split
  · rename_i hk
    subst hk
    rw [Option.filter_some, if_neg (by simp [h])]
    refine (Option.filter_eq_none_iff.mpr fun v' hv' => ?_).symm
    simp [hold v' hv']
  · rfl

theorem filter_filter (m : SortedMap κ α) (p q : κ → α → Bool) :
    (m.filter p).filter q = (m.filter q).filter p := by
  refine eq_of_entries ?_
  simp only [filter, List.filter_filter, Bool.and_comm]

/-- A filter that keeps what another keeps anyway. -/
theorem filter_absorb (m : SortedMap κ α) {p q : κ → α → Bool} (h : ∀ k v, q k v = true → p k v = true) :
    (m.filter p).filter q = m.filter q := by
  refine eq_of_entries ?_
  simp only [filter, List.filter_filter]
  refine List.filter_congr fun e _ => ?_
  cases hq : q e.1 e.2 <;> simp [h e.1 e.2, hq]

theorem get?_foldl_insert (es : List (κ × α)) (m : SortedMap κ α) (k : κ)
    (h : (es.map Prod.fst).Nodup) :
    (es.foldl (fun m e => m.insert e.1 e.2) m).get? k = (es.lookup k).or (m.get? k) := by
  induction es generalizing m with
  | nil => simp
  | cons x xs ih =>
    rw [List.map_cons, List.nodup_cons] at h
    rw [List.foldl_cons, ih _ h.2, get?_insert]
    by_cases hk : k=x.1
    · have hnone : xs.lookup k = none := by
        rw [List.lookup_eq_none_iff]
        intro e he
        simpa [hk] using fun heq : x.1=e.1 => h.1 (heq ▸ List.mem_map_of_mem he)
      rw [lookup_cons, if_pos hk, hnone, if_pos hk, Option.none_or, Option.some_or]
    · rw [lookup_cons, if_neg hk, if_neg hk]

/-- A map built from entries with distinct keys looks up those entries. -/
theorem get?_ofList {es : List (κ × α)} (h : (es.map Prod.fst).Nodup) (k : κ) :
    (ofList es).get? k = es.lookup k := by
  rw [ofList, get?_foldl_insert es empty k h, get?_empty, Option.or_none]

/-- Writing a map out and reading it in gives it back. -/
@[simp] theorem ofList_entries (m : SortedMap κ α) : ofList m.entries = m := by
  refine ext_get? fun k => get?_ofList ?_ k
  exact List.pairwise_map.mpr (m.sorted.imp ne_of_lt)

end SortedMap
