import TraceGuard.Json

/-! Values written as JSON with sorted keys. A codec carries the proof that what it writes is
read back; records are read field by field. -/
namespace Json

theorem sortedItems_map (xs : List Json) : sortedItems xs = xs.map sorted := by
  induction xs with
  | nil => rfl
  | cons x xs ih => rw [sortedItems, ih, List.map_cons]

theorem sortedMembers_map (ms : List (String × Json)) :
    sortedMembers ms = ms.map fun m => (m.1, m.2.sorted) := by
  induction ms with
  | nil => rfl
  | cons m ms ih => rw [sortedMembers, ih, List.map_cons]

def member (v : Json) (key : String) : Option Json :=
  match v with
  | .obj ms => ms.lookup key
  | _ => none

/-- Sorting keeps what a key with one value looks up. -/
theorem member_sorted {ms : List (String × Json)} (hn : (ms.map Prod.fst).Nodup) (key : String) :
    (Json.obj ms).sorted.member key = (ms.lookup key).map sorted := by
  have hkeys : ((sortedMembers ms).map Prod.fst).Nodup := by
    rw [sortedMembers_map, List.map_map]
    exact hn
  have hget := SortedMap.get?_ofList hkeys key
  rw [sortedMembers_map, SortedMap.lookup_map] at hget
  rw [sorted, sortedMembers_map]
  exact hget

/-- An object whose members are already in key order. -/
theorem sorted_entries {α : Type} (m : SortedMap String α) (f : α → Json) :
    (Json.obj (m.map f).entries).sorted = .obj (m.map fun a => (f a).sorted).entries := by
  have hmap : sortedMembers (m.map f).entries = (m.map fun a => (f a).sorted).entries := by
    simp [sortedMembers_map, SortedMap.map, Function.comp_def]
  rw [sorted, hmap, SortedMap.ofList_entries]

theorem sorted_eq_null {v : Json} : v.sorted = .null ↔ v = .null := by
  cases v <;> simp [sorted]

structure Codec (α : Type) where
  enc : α → Json
  dec : Json → Option α
  read : ∀ a, dec (enc a).sorted = some a

namespace Codec
variable {α β : Type}

def text : Codec String where
  enc := .str
  dec
    | .str s => some s
    | _ => none
  read _ := rfl

def bool : Codec Bool where
  enc := .bool
  dec
    | .bool b => some b
    | _ => none
  read _ := rfl

def nat : Codec Nat where
  enc n := .int n
  dec
    | .int n => if 0≤n then some n.toNat else none
    | _ => none
  read n := by simp [sorted]

def doc : Codec Doc where
  enc d := d.val
  dec v := some (.of v)
  read d := by rw [d.canonical.sorted_eq, Doc.of_val]

/-- A codec through another form of the same data. -/
def via (c : Codec β) (f : α → β) (g : β → Option α) (h : ∀ a, g (f a) = some a) : Codec α where
  enc a := c.enc (f a)
  dec v := (c.dec v).bind g
  read a := by rw [c.read, Option.bind_some, h]

/-- `None` is `null`, which no value is written as. -/
def option (c : Codec α) (h : ∀ a, c.enc a≠.null) : Codec (Option α) where
  enc
    | some a => c.enc a
    | none => .null
  dec
    | .null => some none
    | v => (c.dec v).map some
  read
    | none => rfl
    | some a => by
      have hn : (c.enc a).sorted≠.null := fun he => h a (sorted_eq_null.mp he)
      have hr := c.read a
      generalize (c.enc a).sorted = v at hn hr
      cases v with
      | null => exact absurd rfl hn
      | bool | int | float | str | arr | obj => simp [hr]

theorem mapM_read {γ : Type} {f : γ → Option α} {g : α → γ} (h : ∀ a, f (g a) = some a)
    (xs : List α) : (xs.map g).mapM f = some xs := by
  induction xs with
  | nil => rfl
  | cons x xs ih => simp [h, ih]

def list (c : Codec α) : Codec (List α) where
  enc xs := .arr (xs.map c.enc)
  dec
    | .arr xs => xs.mapM c.dec
    | _ => none
  read xs := by
    simp only [sorted, sortedItems_map, List.map_map]
    exact mapM_read c.read xs

def map (c : Codec α) : Codec (SortedMap String α) where
  enc m := .obj (m.map c.enc).entries
  dec
    | .obj ms => (ms.mapM fun e => (c.dec e.2).map fun a => (e.1, a)).map SortedMap.ofList
    | _ => none
  read m := by
    rw [sorted_entries]
    have hread : (m.map fun a => (c.enc a).sorted).entries.mapM
        (fun e => (c.dec e.2).map fun a => (e.1, a)) = some m.entries :=
      mapM_read (g := fun e => (e.1, (c.enc e.2).sorted)) (fun e => by rw [c.read, Option.map_some])
        m.entries
    simp only [hread, Option.map_some, SortedMap.ofList_entries]

/-- The members of an enumeration by their values. -/
def named (value : α → String) (all : List α)
    (h : ∀ a, (all.find? fun b => value b=value a) = some a) : Codec α :=
  text.via value (fun s => all.find? fun b => value b=s) h

/-- A mapping as an array of its entries, for keys that no object has. -/
def entries {κ : Type} [LinearOrder κ] (c : Codec (κ × α)) : Codec (SortedMap κ α) where
  enc m := .arr (m.entries.map c.enc)
  dec v := ((list c).dec v).map SortedMap.ofList
  read m := by
    have hread := (list c).read m.entries
    rw [show (Json.arr (m.entries.map c.enc)).sorted = ((list c).enc m.entries).sorted from rfl, hread,
      Option.map_some, SortedMap.ofList_entries]

/-- One field of a record. -/
def field (key : String) (c : Codec α) (v : Json) : Option α := (v.member key).bind c.dec

theorem field_read {key : String} {c : Codec α} {a : α} {ms : List (String × Json)}
    (hn : (ms.map Prod.fst).Nodup) (h : ms.lookup key = some (c.enc a)) :
    field key c (Json.obj ms).sorted = some a := by
  rw [field, member_sorted hn, h, Option.map_some, Option.bind_some, c.read]

end Codec
end Json
