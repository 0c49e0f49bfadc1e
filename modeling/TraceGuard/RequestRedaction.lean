import TraceGuard.JsonCodec
import TraceGuard.Scanning

/-! Configured redaction: of a text, by one pattern after the other on what the ones before have rewritten, and of a
request, by labels for all the texts that the patterns match in it. -/
namespace TraceGuard

structure RedactionConfig where
  enabled : Bool := true
  replacement : String := TraceGuard.replacement
  extraPatterns : List String := []

namespace RedactionConfig

def patterns (config : RedactionConfig) : List Pattern :=
  defaultSecretPatterns++config.extraPatterns.map fun text => { text := text, dotAll := true }

/-- `mandatory_redaction_config`. -/
def mandatory (config : RedactionConfig) : RedactionConfig := { config with enabled := true }

def redactText (config : RedactionConfig) (re : Re) (text : String) : String :=
  if config.enabled then
    config.patterns.foldl (fun text pattern => re.sub pattern config.replacement text) text
  else text

/-- With the defaults this is the redaction of receipts. -/
theorem redactText_default (re : Re) (text : String) : ({} : RedactionConfig).redactText re text = re.redactText text := by
  simp [redactText, Re.redactText, patterns]

/-! Protected texts in the order in which they are remembered, with their labels. -/

def label (config : RedactionConfig) (n : Nat) : String := config.replacement++":"++String.ofList (Digits.digitChars n)

def remember (config : RedactionConfig) (known : List (String × String)) (raw : String) : List (String × String) :=
  if raw≠"" ∧ raw∉known.map Prod.fst then known++[(raw, config.label (known.length+1))] else known

/-- `match.group()`. -/
def group (text : String) (span : Nat × Nat) : String :=
  String.ofList ((text.toList.drop span.1).take (span.2-span.1))

/-- `child` or `json.dumps(child, sort_keys=True)`. -/
def written : Json → String
  | .str text => text
  | value => Json.text Json.spaced value

section
variable (config : RedactionConfig) (scanner : Scanner)

def rememberMatches (known : List (String × String)) (text : String) : List (String × String) :=
  config.patterns.foldl (fun known pattern =>
    (scanner.finditer pattern text).foldl (fun known span => config.remember known (group text span)) known) known

mutual
def collect : Json → List (String × String) → List (String × String)
  | .obj members, known => collectMembers members known
  | .str text, known => config.rememberMatches scanner known text
  | .arr items, known => collectItems items known
  | _, known => known
def collectItems : List Json → List (String × String) → List (String × String)
  | [], known => known
  | item :: items, known => collectItems items (collect item known)
def collectMembers : List (String × Json) → List (String × String) → List (String × String)
  | [], known => known
  | (key, child) :: members, known =>
    let known := if scanner.search sensitiveKeyPattern key then config.remember known (written child) else known
    collectMembers members (collect child known)
end

/-- The protected texts, the longest first. -/
def alternatives (known : List (String × String)) : List (List Char × List Char) :=
  (known.map fun e => (e.1.toList, e.2.toList)).insertionSort fun e e' => e'.1.length≤e.1.length

/-- One pass over the text, in which labels are not touched again. -/
def replaceText (known : List (String × String)) (text : String) : String :=
  if known=[] then text else String.ofList (Spans.substitute (alternatives known) 0 text.toList)

def isText : Json → Bool
  | .str _ => true
  | _ => false

mutual
def replace (known : List (String × String)) : Json → Json
  | .str text => .str (replaceText known text)
  | .obj members => .obj (replaceMembers known members)
  | .arr items => .arr (replaceItems known items)
  | value => value
def replaceItems (known : List (String × String)) : List Json → List Json
  | [] => []
  | item :: items => replace known item :: replaceItems known items
def replaceMembers (known : List (String × String)) : List (String × Json) → List (String × Json)
  | [] => []
  | (key, child) :: members =>
    (key, if scanner.search sensitiveKeyPattern key && !isText child then
        .str ((known.lookup (written child)).getD config.replacement)
      else replace known child) :: replaceMembers known members
end

end

def redactRequest (config : RedactionConfig) (scanner : Scanner) (value : Json) : Json :=
  let config := config.mandatory
  config.replace scanner (config.collect scanner value []) value

/-! What is remembered. -/
section
variable {config : RedactionConfig} {known : List (String × String)} {raw : String}

theorem remember_mem (hm : raw∈known.map Prod.fst) (other : String) :
    raw∈(config.remember known other).map Prod.fst := by
  unfold remember
  split
  · rw [List.map_append]
    exact List.mem_append_left _ hm
  · exact hm

theorem remember_self (h : raw≠"") : raw∈(config.remember known raw).map Prod.fst := by
  unfold remember
  split
  · simp
  · rename_i hknown
    exact not_not.mp fun hnew => hknown ⟨h, hnew⟩

/-- The remembered texts are not empty, and each has a label. -/
def Labelled (config : RedactionConfig) (known : List (String × String)) : Prop :=
  ∀ e∈known, e.1≠"" ∧ ∃ n, e.2=config.label n

theorem Labelled.remember (h : config.Labelled known) (raw : String) : config.Labelled (config.remember known raw) := by
  unfold RedactionConfig.remember
  split
  · rename_i hnew
    intro e he
    rcases List.mem_append.mp he with he | he
    · exact h e he
    · cases List.mem_singleton.mp he
      exact ⟨hnew.1, _, rfl⟩
  · exact h

variable {scanner : Scanner}

theorem Labelled.rememberMatches (h : config.Labelled known) (text : String) :
    config.Labelled (config.rememberMatches scanner known text) := by
  have spans (found : List (Nat × Nat)) {known : List (String × String)} (h : config.Labelled known) :
      config.Labelled (found.foldl (fun known span => config.remember known (group text span)) known) := by
    induction found generalizing known with
    | nil => exact h
    | cons span found ih => exact ih (h.remember _)
  unfold RedactionConfig.rememberMatches
  generalize config.patterns = patterns
  induction patterns generalizing known with
  | nil => exact h
  | cons pattern patterns ih => exact ih (spans _ h)

/-- Every text that a pattern matches is remembered. -/
theorem rememberMatches_mem {text : String} {pattern : Pattern} (hp : pattern∈config.patterns)
    {span : Nat × Nat} (hm : span∈scanner.finditer pattern text) (hne : group text span≠"") :
    group text span∈(config.rememberMatches scanner known text).map Prod.fst := by
  have spans {raw : String} (found : List (Nat × Nat)) {known : List (String × String)}
      (h : raw∈known.map Prod.fst) :
      raw∈(found.foldl (fun known span => config.remember known (group text span)) known).map Prod.fst := by
    induction found generalizing known with
    | nil => exact h
    | cons span found ih => exact ih (remember_mem h _)
  have later {raw : String} (patterns : List Pattern) {known : List (String × String)}
      (h : raw∈known.map Prod.fst) : raw∈(patterns.foldl (fun known pattern =>
        (scanner.finditer pattern text).foldl (fun known span => config.remember known (group text span)) known)
          known).map Prod.fst := by
    induction patterns generalizing known with
    | nil => exact h
    | cons pattern patterns ih => exact ih (spans _ h)
  unfold rememberMatches
  obtain ⟨before, after, he⟩ := List.append_of_mem hp
  obtain ⟨before', after', he'⟩ := List.append_of_mem hm
  rw [he, List.foldl_append, List.foldl_cons]
  refine later after ?_
  rw [he', List.foldl_append, List.foldl_cons]
  exact spans after' (remember_self hne)

theorem remember_origin {other : String} (h : raw∈(config.remember known other).map Prod.fst) :
    raw=other ∨ raw∈known.map Prod.fst := by
  unfold remember at h
  split at h
  · rw [List.map_append, List.mem_append] at h
    exact h.symm.imp_left fun hm => List.mem_singleton.mp hm
  · exact Or.inr h

/-- A text that a pattern matches somewhere in the text. -/
def Recognized (config : RedactionConfig) (scanner : Scanner) (text raw : String) : Prop :=
  ∃ pattern∈config.patterns, ∃ span∈scanner.finditer pattern text, raw=group text span

/-- What is remembered is matched or was known. -/
theorem rememberMatches_origin {text : String}
    (h : raw∈(config.rememberMatches scanner known text).map Prod.fst) :
    config.Recognized scanner text raw ∨ raw∈known.map Prod.fst := by
  have spans {found : List (Nat × Nat)} {known : List (String × String)}
      (h : raw∈(found.foldl (fun known span => config.remember known (group text span)) known).map Prod.fst) :
      (∃ span∈found, raw=group text span) ∨ raw∈known.map Prod.fst := by
    induction found generalizing known with
    | nil => exact Or.inr h
    | cons span found ih =>
      rcases ih h with ⟨span', hm, he⟩ | h
      · exact Or.inl ⟨span', List.mem_cons_of_mem _ hm, he⟩
      · exact (remember_origin h).imp_left fun he => ⟨span, List.mem_cons_self, he⟩
  unfold rememberMatches at h
  unfold Recognized
  generalize config.patterns = patterns at h ⊢
  induction patterns generalizing known with
  | nil => exact Or.inr h
  | cons pattern patterns ih =>
    rcases ih h with ⟨pattern', hm, hfound⟩ | h
    · exact Or.inl ⟨pattern', List.mem_cons_of_mem _ hm, hfound⟩
    · exact (spans h).imp_left fun hfound => ⟨pattern, List.mem_cons_self, hfound⟩

theorem alternatives_mem {e : List Char × List Char} :
    e∈alternatives known ↔ ∃ entry∈known, (entry.1.toList, entry.2.toList)=e := by
  rw [alternatives, List.mem_insertionSort, List.mem_map]

theorem alternatives_sorted (known : List (String × String)) :
    (alternatives known).Pairwise fun e e' => e'.1.length≤e.1.length := by
  have : Std.Total fun e e' : List Char × List Char => e'.1.length≤e.1.length := ⟨fun _ _ => Nat.le_total _ _⟩
  have : IsTrans (List Char × List Char) fun e e' => e'.1.length≤e.1.length := ⟨fun _ _ _ h h' => h'.trans h⟩
  exact List.pairwise_insertionSort _ _

end

end RedactionConfig
end TraceGuard
