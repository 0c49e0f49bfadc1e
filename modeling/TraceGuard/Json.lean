import Mathlib.Data.String.Basic
import TraceGuard.Double
import TraceGuard.SortedMap

/-! JSON values as Python holds them: integers of any size, doubles, and objects as member
lists in insertion order. -/

inductive Json where
  | null
  | bool (b : Bool)
  | int (n : Int)
  | float (x : Double)
  | str (s : String)
  | arr (items : List Json)
  | obj (members : List (String × Json))

namespace Json

/-- An exact number, with what is greater or smaller than every number. -/
inductive Exact where
  | units (n : Int)
  | infinity (neg : Bool)
  | nan
  deriving DecidableEq

namespace Exact

def eq : Exact → Exact → Bool
  | .units a, .units b => a=b
  | .infinity s, .infinity t => s=t
  | _, _ => false

def le : Exact → Exact → Bool
  | .nan, _ | _, .nan => false
  | .units a, .units b => a≤b
  | .units _, .infinity t => !t
  | .infinity s, .units _ => s
  | .infinity s, .infinity t => s || !t

end Exact

def exactInt (n : Int) : Exact := .units (n*2^Double.places)

def exactFloat : Double → Exact
  | .finite neg units _ => .units (Double.signedUnits neg units)
  | .infinity neg => .infinity neg
  | .nan => .nan

/-- The number a value compares as: booleans are the integers 0 and 1. -/
def number : Json → Option Exact
  | .bool b => some (exactInt (if b then 1 else 0))
  | .int n => some (exactInt n)
  | .float x => some (exactFloat x)
  | _ => none

/-! `a == b`: numbers by value, objects regardless of the order of members. -/

mutual
def pyEq : Json → Json → Bool
  | .null, .null => true
  | .str a, .str b => a=b
  | .arr xs, .arr ys => eqItems xs ys
  | .obj ms, .obj ns => ms.length=ns.length && eqMembers ms ns
  | a, b =>
    match a.number, b.number with
    | some x, some y => x.eq y
    | _, _ => false
def eqItems : List Json → List Json → Bool
  | [], [] => true
  | x :: xs, y :: ys => pyEq x y && eqItems xs ys
  | _, _ => false
def eqMembers : List (String × Json) → List (String × Json) → Bool
  | [], _ => true
  | (k, v) :: ms, ns =>
    (match ns.lookup k with
    | some w => pyEq v w
    | none => false) && eqMembers ms ns
end

/-! `sort_keys=True`. -/

mutual
/-- The value with every object's members in key order, the last of equal keys. -/
def sorted : Json → Json
  | .arr xs => .arr (sortedItems xs)
  | .obj ms => .obj (SortedMap.ofList (sortedMembers ms)).entries
  | .null => .null
  | .bool b => .bool b
  | .int n => .int n
  | .float x => .float x
  | .str s => .str s
def sortedItems : List Json → List Json
  | [] => []
  | x :: xs => sorted x :: sortedItems xs
def sortedMembers : List (String × Json) → List (String × Json)
  | [] => []
  | (k, v) :: ms => (k, sorted v) :: sortedMembers ms
end

/-- Every object lists its members in key order. -/
inductive Canonical : Json → Prop where
  | null : Canonical .null
  | bool (b : Bool) : Canonical (.bool b)
  | int (n : Int) : Canonical (.int n)
  | float (x : Double) : Canonical (.float x)
  | str (s : String) : Canonical (.str s)
  | arr {xs : List Json} (items : ∀ x∈xs, Canonical x) : Canonical (.arr xs)
  | obj {ms : List (String × Json)} (order : ms.Pairwise fun a b => a.1<b.1)
      (members : ∀ m∈ms, Canonical m.2) : Canonical (.obj ms)

theorem foldl_insert_mem {α : Type} {es : List (String × α)} {m : SortedMap String α} {e : String × α}
    (h : e∈(es.foldl (fun m e => m.insert e.1 e.2) m).entries) : e∈es ∨ e∈m.entries := by
  induction es generalizing m with
  | nil => exact Or.inr h
  | cons x xs ih =>
    rcases ih h with he | he
    · exact Or.inl (List.mem_cons_of_mem _ he)
    · rcases SortedMap.mem_insertEntry he with rfl | he
      · exact Or.inl List.mem_cons_self
      · exact Or.inr he

mutual
theorem canonical_sorted : (v : Json) → Canonical v.sorted
  | .null => .null
  | .bool b => .bool b
  | .int n => .int n
  | .float x => .float x
  | .str s => .str s
  | .arr xs => .arr (canonical_sortedItems xs)
  | .obj ms => by
    refine .obj (SortedMap.sorted _) fun m hm => ?_
    rcases foldl_insert_mem hm with he | he
    · exact canonical_sortedMembers ms m he
    · cases he
theorem canonical_sortedItems : (xs : List Json) → ∀ x∈sortedItems xs, Canonical x
  | [], _, h => by cases h
  | x :: xs, y, h => by
    rcases List.mem_cons.mp h with rfl | h
    · exact canonical_sorted x
    · exact canonical_sortedItems xs y h
theorem canonical_sortedMembers : (ms : List (String × Json)) → ∀ m∈sortedMembers ms, Canonical m.2
  | [], _, h => by cases h
  | (k, v) :: ms, m, h => by
    rcases List.mem_cons.mp h with rfl | h
    · exact canonical_sorted v
    · exact canonical_sortedMembers ms m h
end

theorem sortedItems_eq {xs : List Json} (h : ∀ x∈xs, x.sorted=x) : sortedItems xs = xs := by
  induction xs with
  | nil => rfl
  | cons x xs ih =>
    rw [sortedItems, h x (by simp), ih fun y hy => h y (List.mem_cons_of_mem _ hy)]

theorem sortedMembers_eq {ms : List (String × Json)} (h : ∀ m∈ms, m.2.sorted=m.2) :
    sortedMembers ms = ms := by
  induction ms with
  | nil => rfl
  | cons m ms ih =>
    rw [sortedMembers, h m (by simp), ih fun n hn => h n (List.mem_cons_of_mem _ hn)]

/-- Sorting changes nothing in a canonical value. -/
theorem Canonical.sorted_eq {v : Json} (h : Canonical v) : v.sorted=v := by
  induction h with
  | null | bool | int | float | str => rfl
  | arr items ih => rw [sorted, sortedItems_eq ih]
  | @obj ms order members ih =>
    have hmap := SortedMap.ofList_entries ⟨ms, order⟩
    rw [sorted, sortedMembers_eq ih, hmap]

/-- A JSON document: a value in canonical form. -/
structure Doc where
  val : Json
  canonical : Canonical val

def Doc.of (v : Json) : Doc := ⟨v.sorted, canonical_sorted v⟩

theorem Doc.ext_val {d d' : Doc} (h : d.val=d'.val) : d=d' := by
  cases d
  cases d'
  cases h
  rfl

@[simp] theorem Doc.of_val (d : Doc) : Doc.of d.val = d := Doc.ext_val d.canonical.sorted_eq

end Json
