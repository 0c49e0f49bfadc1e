import TraceGuard.RawJson
import TraceGuard.ReadBinding
import TraceGuard.ReleaseGate
import TraceGuard.Scanning

/-! Credentials in released content. The bytes that leave hold every member, while the check reads the value that
parsing keeps of them, and looks for secret patterns in values only. -/
namespace Json

/-- A member of an object anywhere in a value. -/
inductive HasMember : Json → String × Json → Prop where
  | here {members : List (String × Json)} {m : String × Json} (mem : m∈members) : HasMember (.obj members) m
  | item {items : List Json} {item : Json} {m : String × Json} (mem : item∈items) (inner : HasMember item m) :
      HasMember (.arr items) m
  | member {members : List (String × Json)} {member m : String × Json} (mem : member∈members)
      (inner : HasMember member.2 m) : HasMember (.obj members) m

/-- A member that a later one of the same name replaces, anywhere in a value. -/
inductive Replaced : Json → String × Json → Prop where
  | here {before after : List (String × Json)} {m : String × Json} (later : m.1∈after.map Prod.fst) :
      Replaced (.obj (before++m :: after)) m
  | item {items : List Json} {item : Json} {m : String × Json} (mem : item∈items) (inner : Replaced item m) :
      Replaced (.arr items) m
  | member {members : List (String × Json)} {member m : String × Json} (mem : member∈members)
      (inner : Replaced member.2 m) : Replaced (.obj members) m

theorem Replaced.hasMember {v : Json} {m : String × Json} (h : v.Replaced m) : v.HasMember m := by
  induction h with
  | here => exact .here (by simp)
  | item mem _ ih => exact .item mem ih
  | member mem _ ih => exact .member mem ih

theorem HasMember.nested {v : Json} {m : String × Json} (h : v.HasMember m) :
    v.Nested m.1 ∧ ∀ s, m.2.Nested s → v.Nested s := by
  induction h with
  | here mem => exact ⟨.key mem, fun s hs => .member mem hs⟩
  | item mem _ ih => exact ⟨.item mem ih.1, fun s hs => .item mem (ih.2 s hs)⟩
  | member mem _ ih => exact ⟨.member mem ih.1, fun s hs => .member mem (ih.2 s hs)⟩

theorem HasMember.inner {v : Json} {m n : String × Json} (h : v.HasMember m) (hn : m.2.HasMember n) :
    v.HasMember n := by
  induction h with
  | here mem => exact .member mem hn
  | item mem _ ih => exact .item mem (ih hn)
  | member mem _ ih => exact .member mem (ih hn)

/-- A member is replaced or stands in what is kept. -/
theorem replaced_or_kept {members : List (String × Json)} {m : String × Json} (hm : m∈members) :
    (Json.obj members).Replaced m ∨ (m.1, m.2.collapse)∈dict (collapseMembers members) := by
  obtain ⟨before, after, rfl⟩ := List.append_of_mem hm
  by_cases hlater : m.1∈after.map Prod.fst
  · exact Or.inl (.here hlater)
  · refine Or.inr ?_
    rw [collapseMembers_map, List.map_append, List.map_cons]
    exact @mem_dict _ _ (m.1, m.2.collapse) (by simpa using hlater)

theorem collapse_str {v : Json} {s : String} (h : v.collapse=.str s) : v=.str s := by
  cases v <;> first | exact h | cases h

/-! What equality of a redacted value says about its parts. -/

theorem eqMembers_mem {ms ns : List (String × Json)} (h : eqMembers ms ns = true) {m : String × Json}
    (hm : m∈ms) : ∃ w, ns.lookup m.1 = some w ∧ m.2.pyEq w = true := by
  induction ms with
  | nil => cases hm
  | cons n ms ih =>
    obtain ⟨k, v⟩ := n
    rw [eqMembers, Bool.and_eq_true] at h
    rcases List.mem_cons.mp hm with rfl | hm
    · cases hl : ns.lookup k with
      | none => simp [hl] at h
      | some w => exact ⟨w, rfl, by simpa [hl] using h.1⟩
    · exact ih h.2 hm

end Json

namespace TraceGuard
open Json

theorem lookup_of_nodup {ms : List (String × Json)} (h : (ms.map Prod.fst).Nodup) {m : String × Json}
    (hm : m∈ms) : ms.lookup m.1 = some m.2 :=
  (@Dict.mem_items Json ⟨ms, h⟩ m.1 m.2).mp hm

namespace Re
variable {re : Re}

/-- Redaction leaves the value as it is. -/
def Unredacted (re : Re) (v : Json) : Prop := (re.redactValue v).pyEq v = true

theorem redactMembers_map (members : List (String × Json)) : re.redactMembers members =
    members.map fun m => (m.1, if re.search sensitiveKeyPattern m.1 then .str replacement else re.redactValue m.2) := by
  induction members with
  | nil => rfl
  | cons m members ih => rw [redactMembers, ih, List.map_cons]

theorem Unredacted.items {items : List Json} (h : re.Unredacted (.arr items)) :
    ∀ item∈items, re.Unredacted item := by
  unfold Unredacted at h
  rw [redactValue, pyEq] at h
  induction items with
  | nil => simp
  | cons item items ih =>
    rw [redactItems, eqItems, Bool.and_eq_true] at h
    exact List.forall_mem_cons.mpr ⟨h.1, ih h.2⟩

/-- A member of an object that redaction leaves as it is. -/
theorem Unredacted.members {members : List (String × Json)} (h : re.Unredacted (.obj members))
    (hn : (members.map Prod.fst).Nodup) : ∀ m∈members,
      if re.search sensitiveKeyPattern m.1 then m.2=.str replacement else re.Unredacted m.2 := by
  intro m hm
  unfold Unredacted at h
  rw [redactValue, pyEq, Bool.and_eq_true, redactMembers_map] at h
  obtain ⟨w, hw, heq⟩ := eqMembers_mem h.2 (List.mem_map_of_mem hm)
  cases (lookup_of_nodup hn hm).symm.trans hw
  dsimp only at heq
  split
  · rename_i hs
    rw [if_pos hs] at heq
    exact pyEq_str heq
  · rename_i hs
    rwa [if_neg hs] at heq

/-- No secret pattern matches in a string of the value, and what a sensitive name has is redacted. -/
structure Unrecognized (re : Re) (v : Json) : Prop where
  tokens : ∀ s, v.Nested s → re.Clean s
  members : ∀ m, v.HasMember m → re.search sensitiveKeyPattern m.1 = true → m.2=.str replacement

/-- What the check does not read: no secret pattern matches in a member name, and the members that a later one of
the same name replaces hold no credential. -/
structure UnreadClean (re : Re) (v : Json) : Prop where
  names : ∀ m, v.HasMember m → re.Clean m.1
  replaced : ∀ m, v.Replaced m → re.Unrecognized m.2 ∧
    (re.search sensitiveKeyPattern m.1 = true → m.2=.str replacement)

theorem Unrecognized.unreadClean {v : Json} (h : re.Unrecognized v) : re.UnreadClean v where
  names _ hm := h.tokens _ hm.nested.1
  replaced _ hm := ⟨⟨fun s hs => h.tokens s (hm.hasMember.nested.2 s hs),
    fun n hn => h.members n (hm.hasMember.inner hn)⟩, h.members _ hm.hasMember⟩

theorem UnreadClean.item {items : List Json} (h : re.UnreadClean (.arr items)) {item : Json} (hm : item∈items) :
    re.UnreadClean item :=
  ⟨fun m hi => h.names m (.item hm hi), fun m hr => h.replaced m (.item hm hr)⟩

theorem UnreadClean.member {members : List (String × Json)} (h : re.UnreadClean (.obj members)) {m : String × Json}
    (hm : m∈members) : re.UnreadClean m.2 :=
  ⟨fun n hi => h.names n (.member hm hi), fun n hr => h.replaced n (.member hm hr)⟩

end Re

namespace Scanner
variable {scanner : Scanner}

theorem str_unrecognized (hl : scanner.Lawful) (hs : scanner.Standard) {text : String}
    (h : scanner.Unredacted (.str text)) : scanner.Unrecognized (.str text) where
  tokens s hn := by
    cases hn
    exact hl.redactText_fixed hs (Json.str.inj (pyEq_str h)).symm
  members _ hm := by cases hm

theorem replacement_unrecognized (hl : scanner.Lawful) (hs : scanner.Standard) :
    scanner.Unrecognized (.str replacement) where
  tokens s hn := by
    cases hn
    exact hs.clean_replacement hl
  members _ hm := by cases hm

mutual
/-- When redaction leaves what parsing keeps as it is, only what the check does not read may hold a credential. -/
theorem unrecognized (hl : scanner.Lawful) (hs : scanner.Standard) : (raw : Json) →
    scanner.Unredacted raw.collapse → scanner.UnreadClean raw → scanner.Unrecognized raw
  | .str text, h, _ => str_unrecognized hl hs h
  | .null, _, _ | .bool _, _, _ | .int _, _, _ | .float _, _, _ =>
    ⟨fun _ hn => (by cases hn), fun _ hm => (by cases hm)⟩
  | .arr items, h, hu => by
    have hitems := items_unrecognized hl hs items
    have hkept : ∀ item∈items, scanner.Unredacted item.collapse := fun item hm =>
      h.items _ (by rw [collapseItems_map]; exact List.mem_map_of_mem hm)
    refine ⟨fun s hn => ?_, fun m hm => ?_⟩
    · cases hn with
      | item mem nested => exact (hitems _ mem (hkept _ mem) (hu.item mem)).tokens s nested
    · cases hm with
      | item mem inner => exact (hitems _ mem (hkept _ mem) (hu.item mem)).members m inner
  | .obj members, h, hu => by
    have hmembers := members_unrecognized hl hs members
    -- a member that parsing drops is clean by assumption, one that it keeps by the check
    have hall : ∀ m∈members, scanner.Unrecognized m.2 ∧
        (scanner.search sensitiveKeyPattern m.1 = true → m.2=.str replacement) := by
      intro m hm
      rcases replaced_or_kept hm with hr | hk
      · exact hu.replaced m hr
      · have hkept := h.members (dict_keys _) _ hk
        dsimp only at hkept
        split at hkept
        · have hstr := collapse_str hkept
          exact ⟨hstr ▸ replacement_unrecognized hl hs, fun _ => hstr⟩
        · rename_i hsensitive
          exact ⟨hmembers m hm hkept (hu.member hm), fun h => absurd h hsensitive⟩
    refine ⟨fun s hn => ?_, fun m hm => ?_⟩
    · cases hn with
      | key mem => exact hu.names _ (.here mem)
      | member mem nested => exact (hall _ mem).1.tokens s nested
    · cases hm with
      | here mem => exact (hall m mem).2
      | member mem inner => exact (hall _ mem).1.members m inner
theorem items_unrecognized (hl : scanner.Lawful) (hs : scanner.Standard) : (items : List Json) →
    ∀ item∈items, scanner.Unredacted item.collapse → scanner.UnreadClean item → scanner.Unrecognized item
  | [] => fun _ hm => by cases hm
  | first :: items => List.forall_mem_cons.mpr ⟨unrecognized hl hs first, items_unrecognized hl hs items⟩
theorem members_unrecognized (hl : scanner.Lawful) (hs : scanner.Standard) :
    (members : List (String × Json)) → ∀ m∈members, scanner.Unredacted m.2.collapse → scanner.UnreadClean m.2 →
    scanner.Unrecognized m.2
  | [] => fun _ hm => by cases hm
  | (_, first) :: members => List.forall_mem_cons.mpr ⟨unrecognized hl hs first,
    members_unrecognized hl hs members⟩
end

end Scanner

namespace ReleaseGate

/-- No credential is recognized in the text: in what it parses as, with every member, or in the text itself. -/
structure Uncredentialed (re : Re) (text : String) : Prop where
  parsed : ∀ raw, Json.rawLoads text = some raw → re.Unrecognized raw
  plain : Json.rawLoads text = none → re.Clean text

def leaked : String := "password=hunter2secret"

def leakingText : String := "\x7b\"a\":\"password=hunter2secret\",\"a\":\"x\"\x7d"

/-- The first and the fourth default pattern match the password. -/
def leakScanner : Scanner := .ofTable [((0, leaked), [(0, 22)]), ((3, leaked), [(0, 22)])]

theorem leakScanner_lawful : leakScanner.Lawful :=
  Scanner.ofTable_lawful (by simp [Spans.Ordered, leaked])

theorem leakScanner_standard : leakScanner.Standard :=
  Scanner.ofTable_standard (by simp [leaked]) (by simp [leaked, replacement])

def finalGate : ReleaseGate where
  allowedSinks := ["final_answer"]

theorem leak_released : finalGate.authorize leakScanner.toRe "final_answer" leakingText.toByteArray "public" =
    .ok leakingText.toByteArray := by
  have hstructured : structured leakingText = .obj [("a", .str "x")] := by
    have h : Json.loads leakingText = some (.obj [("a", .str "x")]) := rfl
    rw [structured, h, Option.getD_some]
  refine authorize_intro (by decide) (by decide +kernel) (fromUTF8_text _) rfl ?_ ?_ ?_
  all_goals rw [hstructured]
  · have hlength : ¬ finalGate.maxBytes<(Json.chars Json.compact (.obj [("a", .str "x")])).length := by
      decide +kernel
    simp [validateJson, Limits.walk, hlength, Json.plain, Json.plainMembers, bind, Except.bind]
    rfl
  · rfl
  · decide +kernel

end ReleaseGate
end TraceGuard
