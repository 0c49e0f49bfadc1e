import Mathlib.Algebra.BigOperators.Group.List.Basic
import Mathlib.Data.List.Perm.Basic

/-! Values grouped by their keys, as a dictionary of lists is filled: a key stands where it was first met. The
groups of two lists with the same entries differ in their order only. -/
namespace Groups
variable {κ α : Type*} [DecidableEq κ]

/-- `groups[key].append(value)`. -/
def add (groups : List (κ × List α)) (entry : κ × α) : List (κ × List α) :=
  if entry.1∈groups.map Prod.fst then
    groups.map fun group => if group.1=entry.1 then (group.1, group.2++[entry.2]) else group
  else groups++[(entry.1, [entry.2])]

def group (entries : List (κ × α)) : List (κ × List α) := entries.foldl add []

/-- The values that have a key. -/
def valuesOf (entries : List (κ × α)) (key : κ) : List α :=
  (entries.filter fun entry => entry.1=key).map Prod.snd

/-- What the groups of a list are, up to their order. -/
structure Grouped (entries : List (κ × α)) (groups : List (κ × List α)) : Prop where
  distinct : (groups.map Prod.fst).Nodup
  keys : ∀ key, key∈groups.map Prod.fst ↔ key∈entries.map Prod.fst
  values : ∀ group∈groups, group.2=valuesOf entries group.1

variable {entries entries' : List (κ × α)} {groups : List (κ × List α)}

theorem Grouped.add (h : Grouped entries groups) (entry : κ × α) :
    Grouped (entries++[entry]) (add groups entry) := by
  have hvalues : ∀ key, valuesOf (entries++[entry]) key=
      if entry.1=key then valuesOf entries key++[entry.2] else valuesOf entries key := by
    intro key
    by_cases hk : entry.1=key <;> simp [valuesOf, List.filter_append, hk]
  rw [Groups.add]
  split
  · rename_i hin
    have hfst : (groups.map fun group => if group.1=entry.1 then (group.1, group.2++[entry.2]) else group).map
        Prod.fst=groups.map Prod.fst := by
      rw [List.map_map]
      refine List.map_congr_left fun group _ => ?_
      by_cases hk : group.1=entry.1 <;> simp [hk]
    refine ⟨hfst ▸ h.distinct, fun key => ?_, fun group hgroup => ?_⟩
    · rw [hfst, h.keys, List.map_append, List.mem_append]
      refine ⟨.inl, fun hk => hk.elim id fun hlast => ?_⟩
      rw [List.mem_singleton.mp hlast]
      exact (h.keys _).mp hin
    · obtain ⟨old, hold, rfl⟩ := List.mem_map.mp hgroup
      by_cases hk : old.1=entry.1
      · rw [if_pos hk, hvalues, if_pos hk.symm, h.values old hold]
      · rw [if_neg hk, hvalues, if_neg (Ne.symm hk), h.values old hold]
  · rename_i hnew
    have hnone : valuesOf entries entry.1=[] := by
      rw [valuesOf, List.map_eq_nil_iff, List.filter_eq_nil_iff]
      intro e he hk
      refine hnew ((h.keys _).mpr ?_)
      rw [← of_decide_eq_true hk]
      exact List.mem_map_of_mem he
    refine ⟨?_, fun key => ?_, fun group hgroup => ?_⟩
    · rw [List.map_append, List.nodup_append]
      refine ⟨h.distinct, by simp, ?_⟩
      intro a ha b hb hab
      obtain rfl : b=entry.1 := List.mem_singleton.mp hb
      exact hnew (hab ▸ ha)
    · rw [List.map_append, List.mem_append, List.map_append, List.mem_append, h.keys]
      rfl
    · cases List.mem_append.mp hgroup with
      | inl hold =>
        have hne : entry.1≠group.1 := by
          intro heq
          exact hnew (heq ▸ List.mem_map_of_mem hold)
        rw [hvalues, if_neg hne, h.values group hold]
      | inr hlast =>
        rw [List.mem_singleton.mp hlast, hvalues, if_pos rfl, hnone, List.nil_append]

theorem grouped (entries : List (κ × α)) : Grouped entries (group entries) := by
  have hfold : ∀ (done rest : List (κ × α)) groups, Grouped done groups →
      Grouped (done++rest) (rest.foldl Groups.add groups) := by
    intro done rest
    induction rest generalizing done with
    | nil =>
      intro groups h
      rwa [List.append_nil]
    | cons entry rest ih =>
      intro groups h
      rw [List.append_cons]
      exact ih _ _ (h.add entry)
  exact hfold [] entries [] ⟨List.nodup_nil, fun _ => Iff.rfl, nofun⟩

theorem valuesOf_perm (h : entries.Perm entries') (key : κ) : (valuesOf entries key).Perm (valuesOf entries' key) :=
  (h.filter _).map _

/-- The same entries have the same keys. -/
theorem keys_perm (h : entries.Perm entries') :
    ((group entries).map Prod.fst).Perm ((group entries').map Prod.fst) := by
  refine (List.perm_ext_iff_of_nodup (grouped entries).distinct (grouped entries').distinct).mpr fun key => ?_
  rw [(grouped entries).keys, (grouped entries').keys, (h.map Prod.fst).mem_iff]

/-- A sum over the groups, of what depends on the values of each group but not on their order. -/
theorem sum_perm {M : Type*} [AddCommMonoid M] {f : List α → M} (hf : ∀ xs ys, xs.Perm ys → f xs=f ys)
    (h : entries.Perm entries') :
    ((group entries).map fun g => f g.2).sum=((group entries').map fun g => f g.2).sum := by
  have byKeys : ∀ entries : List (κ × α), (group entries).map (fun g => f g.2)=
      ((group entries).map Prod.fst).map fun key => f (valuesOf entries key) := by
    intro entries
    rw [List.map_map]
    exact List.map_congr_left fun g hg => congrArg f ((grouped entries).values g hg)
  rw [byKeys, byKeys]
  have hkeys := (keys_perm h).map fun key => f (valuesOf entries' key)
  have hvalues : ∀ key, f (valuesOf entries key)=f (valuesOf entries' key) := fun key => hf _ _ (valuesOf_perm h key)
  simp only [hvalues]
  exact hkeys.sum_eq

section Lookup
variable {κ α : Type*} [BEq κ] [LawfulBEq κ] {entries entries' : List (κ × α)}

/-- With distinct keys, what a key looks up does not depend on the order. -/
theorem lookup_distinct (h : (entries.map Prod.fst).Nodup) {key : κ} {value : α} :
    entries.lookup key=some value ↔ (key, value)∈entries := by
  induction entries with
  | nil => simp
  | cons entry entries ih =>
    obtain ⟨first, v⟩ := entry
    rw [List.map_cons, List.nodup_cons] at h
    by_cases hk : key=first
    · subst hk
      have hfresh : (key, value)∉entries := fun hin => h.1 (List.mem_map.mpr ⟨_, hin, rfl⟩)
      simp [hfresh, eq_comm]
    · have hne : (key==first)=false := beq_false_of_ne hk
      simp [List.lookup_cons, hne, ih h.2, hk]

theorem lookup_perm (h : entries.Perm entries') (hdistinct : (entries.map Prod.fst).Nodup) (key : κ) :
    entries.lookup key=entries'.lookup key := by
  ext value
  rw [lookup_distinct hdistinct, lookup_distinct ((h.map Prod.fst).nodup_iff.mp hdistinct), h.mem_iff]

end Lookup

end Groups
