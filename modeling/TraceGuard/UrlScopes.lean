import TraceGuard.Network
import TraceGuard.Segments

/-! The scope of a URL: the targets of its origin and query whose paths are below its own. -/
namespace TraceGuard

variable {platform : Platform} {url scope middle target : String} {d a b : Destination}

/-- What a URL has that is a destination. -/
structure Destined (platform : Platform) (url : String) (d : Destination) : Prop where
  parsed : ∃ parsed, platform.urlsplit url = some parsed ∧ parsed.username=none ∧
    parsed.password=none ∧ parsed.fragment="" ∧ parsed.scheme=d.scheme ∧ parsed.query=d.query
  unaliased : platform.search encodedAlias d.path = false
  undotted : ∀ part∈(platform.unquote d.path).splitOn "/", part∉[".", ".."]

theorem destination_ok (h : destination platform url = some d) : Destined platform url d := by
  unfold destination at h
  split at h
  · cases h
  obtain ⟨parsed, hparsed, h⟩ := Option.bind_eq_some_iff.mp h
  dsimp only at h
  split at h
  · cases h
  split at h
  · cases h
  rename_i hauthority
  simp only [not_or, not_not, Bool.not_eq_true, Option.isSome_eq_false_iff, Option.isNone_iff_eq_none]
    at hauthority
  obtain ⟨host, _, h⟩ := Option.bind_eq_some_iff.mp h
  generalize (if parsed.path="" then "/" else parsed.path) = path at h
  split at h
  · cases h
  rename_i halias
  split at h
  · cases h
  rename_i hdots
  cases h
  exact ⟨⟨parsed, hparsed, hauthority.2.2.1, hauthority.2.2.2.1, hauthority.2.2.2.2.1, rfl, rfl⟩,
    by simpa using halias, by simpa using hdots⟩

/-- The same origin and query, and a path below. -/
structure Destination.Within (b a : Destination) : Prop where
  origin : (a.scheme, a.host, a.port)=(b.scheme, b.host, b.port)
  query : b.query=a.query
  path : a.path.toList.Below '/' b.path.toList

theorem targetWithinScope_iff : targetWithinScope platform scope target = true ↔
    ∃ a b, destination platform scope = some a ∧ destination platform target = some b ∧ b.Within a := by
  unfold targetWithinScope
  cases ha : destination platform scope with
  | none => simp
  | some a =>
    cases hb : destination platform target with
    | none => simp
    | some b =>
      simp only [Bool.and_eq_true, Bool.or_eq_true, decide_eq_true_eq, Option.some.injEq]
      constructor
      · rintro ⟨⟨horigin, hpath⟩, hquery⟩
        exact ⟨a, b, rfl, rfl, horigin, hquery, hpath.imp (congrArg String.toList)
          List.isPrefixOf_iff_prefix.mp⟩
      · rintro ⟨_, _, rfl, rfl, horigin, hquery, hpath⟩
        exact ⟨⟨horigin, hpath.imp String.toList_inj.mp List.isPrefixOf_iff_prefix.mpr⟩, hquery⟩

/-- The text has a percent escape of the code, in either case. -/
def Encodes (text code : String) : Prop :=
  ∃ before x y after, text.toList = before ++ '%' :: x :: y :: after ∧ [x.toLower, y.toLower]=code.toList

def isHex (c : Char) : Bool := c.isDigit || ('a' ≤ c.toLower && c.toLower ≤ 'f')

/-- What `encodedAlias` matches at the head of a text. -/
def aliasAt : List Char → Bool
  | '%' :: x :: y :: _ =>
    [x.toLower, y.toLower]∈["2e", "2f", "5c", "25"].map String.toList || !(isHex x && isHex y)
  | '%' :: _ => true
  | _ => false

theorem aliasAt_of_code {code : String} {x y : Char} {rest : List Char}
    (hcode : code∈["2e", "2f", "5c", "25"]) (h : [x.toLower, y.toLower]=code.toList) :
    aliasAt ('%' :: x :: y :: rest) = true := by
  have hmem : [x.toLower, y.toLower]∈["2e", "2f", "5c", "25"].map String.toList :=
    List.mem_map.mpr ⟨code, hcode, h.symm⟩
  simp only [aliasAt, hmem, decide_true, Bool.true_or]

/-- The URL is an executable destination without aliases. -/
structure Unambiguous (platform : Platform) (url : String) (d : Destination) : Prop where
  parsed : ∃ parsed, platform.urlsplit url = some parsed ∧ parsed.username=none ∧
    parsed.password=none ∧ parsed.fragment="" ∧ parsed.scheme=d.scheme ∧ parsed.query=d.query
  undotted : ∀ part∈d.path.splitOn "/", part∉[".", ".."] ∧ platform.unquote part∉[".", ".."]
  unencoded : ∀ code∈["2f", "5c", "25"], ¬Encodes d.path code

section
variable (halias : ∀ path, platform.search encodedAlias path = path.toList.tails.any aliasAt)
  (hsplit : ∀ before after, platform.unquote (before++"/"++after) =
    platform.unquote before++"/"++platform.unquote after)
  (hplain : ∀ text, '%'∉text.toList → platform.unquote text = text)

include halias in
theorem Destined.unencoded (h : Destined platform url d) {code : String}
    (hcode : code∈["2e", "2f", "5c", "25"]) : ¬Encodes d.path code := by
  rintro ⟨before, x, y, after, hpath, hxy⟩
  have hno := h.unaliased
  rw [halias, List.any_eq_false] at hno
  refine hno ('%' :: x :: y :: after) ?_ (aliasAt_of_code hcode hxy)
  rw [List.mem_tails, hpath]
  exact List.suffix_append _ _

include hsplit in
/-- The parts of a decoded path are those of its decoded parts. -/
theorem unquote_parts (path part : List Char) (hpart : part∈path.splitOn '/') :
    ∀ x∈(platform.unquote (String.ofList part)).toList.splitOn '/',
      x∈(platform.unquote (String.ofList path)).toList.splitOn '/' := by
  by_cases hslash : '/'∈path
  · obtain ⟨before, after, hpath, hbefore⟩ := List.eq_append_cons_of_mem hslash
    have hwhole : String.ofList (before ++ '/' :: after) =
        String.ofList before++"/"++String.ofList after := String.toList_inj.mp (by simp)
    have hparts : (platform.unquote (String.ofList (before ++ '/' :: after))).toList.splitOn '/' =
        (platform.unquote (String.ofList before)).toList.splitOn '/'++
          (platform.unquote (String.ofList after)).toList.splitOn '/' := by
      rw [hwhole, hsplit, ← List.splitOn_append_cons_self]
      simp
    rw [hpath, List.splitOn_append_cons_self_of_not_mem hbefore] at hpart
    rw [hpath, hparts]
    intro x hx
    rcases List.mem_cons.mp hpart with rfl | hpart
    · exact List.mem_append_left _ hx
    · exact List.mem_append_right _ (unquote_parts after part hpart x hx)
  · rw [List.splitOn_eq_singleton hslash, List.mem_singleton] at hpart
    rw [hpart]
    exact fun _ hx => hx
termination_by path.length
decreasing_by
  rw [hpath, List.length_append, List.length_cons]
  omega

include hsplit hplain in
theorem Destined.undotted_parts (h : Destined platform url d) :
    ∀ part∈d.path.splitOn "/", part∉[".", ".."] ∧ platform.unquote part∉[".", ".."] := by
  have hdecoded : ∀ part∈d.path.splitOn "/", platform.unquote part∉[".", ".."] := by
    intro part hpart hdot
    rw [show d.path.splitOn "/" = _ from String.splitOn_char d.path '/'] at hpart
    obtain ⟨chars, hchars, rfl⟩ := List.mem_map.mp hpart
    refine h.undotted (platform.unquote (String.ofList chars)) ?_ hdot
    rw [show (platform.unquote d.path).splitOn "/" = _ from String.splitOn_char _ '/']
    refine List.mem_map.mpr ⟨_, ?_, String.ofList_toList⟩
    have hin := unquote_parts hsplit d.path.toList chars hchars
    rw [String.ofList_toList] at hin
    refine hin _ ?_
    rw [List.splitOn_eq_singleton ?_]
    · exact List.mem_singleton_self _
    · intro hslash
      rcases List.mem_pair.mp hdot with hdot | hdot <;> rw [hdot] at hslash <;> revert hslash <;> decide
  refine fun part hpart => ⟨fun hdot => hdecoded part hpart ?_, hdecoded part hpart⟩
  rw [hplain]
  · exact hdot
  · intro hpercent
    rcases List.mem_pair.mp hdot with rfl | rfl <;> revert hpercent <;> decide

include halias hsplit hplain in
theorem Destined.unambiguous (h : Destined platform url d) : Unambiguous platform url d :=
  ⟨h.parsed, h.undotted_parts hsplit hplain, fun code hcode =>
    h.unencoded halias (by revert hcode; simp +contextual)⟩

end

theorem Destination.Within.segments (h : b.Within a) :
    (a.path.splitOn "/").rdropWhile (· = "") <+: b.path.splitOn "/" := by
  have hempty : ((fun part : String => decide (part = "")) ∘ String.ofList) =
      fun chars : List Char => decide (chars = []) := by
    funext chars
    simp
  rw [show a.path.splitOn "/" = _ from String.splitOn_char a.path '/',
    show b.path.splitOn "/" = _ from String.splitOn_char b.path '/', List.rdropWhile, ← List.map_reverse,
    List.dropWhile_map, ← List.map_reverse, hempty]
  exact h.path.parts.map _

/-- Scopes contain only their own origin and query and the paths below their own, whole segments at a
time; nothing in the paths stands for something else. -/
theorem target_within_scope (platform : Platform)
    (halias : ∀ path, platform.search encodedAlias path = path.toList.tails.any aliasAt)
    (hsplit : ∀ before after, platform.unquote (before++"/"++after) =
      platform.unquote before++"/"++platform.unquote after)
    (hplain : ∀ text, '%'∉text.toList → platform.unquote text = text) :
    (∀ scope target, targetWithinScope platform scope target = true →
        ∃ a b, destination platform scope = some a ∧ destination platform target = some b ∧
          (a.scheme, a.host, a.port, a.query)=(b.scheme, b.host, b.port, b.query) ∧
          (a.path.splitOn "/").rdropWhile (· = "") <+: b.path.splitOn "/" ∧
          Unambiguous platform scope a ∧ Unambiguous platform target b) ∧
      (∀ url d, destination platform url = some d → targetWithinScope platform url url = true) ∧
      (∀ scope middle target, targetWithinScope platform scope middle = true →
        targetWithinScope platform middle target = true →
        targetWithinScope platform scope target = true) ∧
      ∀ scope target a b (further : String), destination platform scope = some a →
        destination platform target = some b → a.path.toList.getLast?≠some '/' →
        further.toList≠[] → further.toList.head?≠some '/' → b.path=a.path++further →
        targetWithinScope platform scope target = false := by
  refine ⟨fun scope target h => ?_, fun url d hd => ?_, fun scope middle target h h' => ?_,
    fun scope target a b further ha hb hlast hne hhead hpath => ?_⟩
  · obtain ⟨a, b, ha, hb, hwithin⟩ := targetWithinScope_iff.mp h
    have horigin := hwithin.origin
    simp only [Prod.mk.injEq] at horigin
    refine ⟨a, b, ha, hb, ?_, hwithin.segments, (destination_ok ha).unambiguous halias hsplit hplain,
      (destination_ok hb).unambiguous halias hsplit hplain⟩
    rw [horigin.1, horigin.2.1, horigin.2.2, hwithin.query]
  · exact targetWithinScope_iff.mpr ⟨d, d, hd, hd, rfl, rfl, .refl⟩
  · obtain ⟨a, b, ha, hb, hab⟩ := targetWithinScope_iff.mp h
    obtain ⟨b', d, hb', hd, hbd⟩ := targetWithinScope_iff.mp h'
    obtain rfl := Option.some.inj (hb.symm.trans hb')
    exact targetWithinScope_iff.mpr ⟨a, d, ha, hd, hab.origin.trans hbd.origin, hbd.query.trans hab.query,
      hab.path.trans hbd.path⟩
  · rw [Bool.eq_false_iff]
    intro h
    obtain ⟨a', b', ha', hb', hwithin⟩ := targetWithinScope_iff.mp h
    obtain rfl := Option.some.inj (ha.symm.trans ha')
    obtain rfl := Option.some.inj (hb.symm.trans hb')
    have hbelow := hwithin.path
    rw [hpath, String.toList_append] at hbelow
    exact List.not_below_append hlast hne hhead hbelow

/-- A platform that knows two URLs, one of them with an escape in its query. -/
def sampleUrls : Platform where
  search pattern text :=
    if pattern.text=encodedAlias.text then text.toList.tails.any aliasAt
    else if pattern.text=invalidUrlCharacters.text then
      text.toList.any fun c => c.toNat ≤ 32 || c.toNat=127 || c = '\\'
    else false
  sub := fun _ _ text => text
  casefold := id
  str := fun _ => ""
  sum := fun _ => some .zero
  validates := fun _ _ => .ok true
  findall := fun _ _ => []
  groups := fun _ _ => none
  spans := fun _ _ _ => none
  fullmatch := fun pattern text => pattern.text=hostPattern.text && text="h"
  urlsplit := fun url =>
    if url="https://h/?q=%2F" then some ⟨"https", some "h", none, none, none, "/", "q=%2F", ""⟩
    else if url="https://h/" then some ⟨"https", some "h", none, none, none, "/", "", ""⟩
    else none
  idna := some
  ipv6 := fun _ => false
  unquote := id

theorem sample_alias (path : String) :
    sampleUrls.search encodedAlias path = path.toList.tails.any aliasAt := by simp [sampleUrls]

theorem sample_destination {url query : String}
    (hparsed : sampleUrls.urlsplit url = some ⟨"https", some "h", none, none, none, "/", query, ""⟩)
    (hvalid : sampleUrls.search invalidUrlCharacters url = false) :
    destination sampleUrls url = some ⟨"https", "h", 443, "/", query⟩ := by
  have hhost : destinationHost sampleUrls "h" = some "h" := by decide +kernel
  have hdots : ("/".splitOn "/").any (·∈[".", ".."]) = false := by
    rw [show "/".splitOn "/" = _ from String.splitOn_char "/" '/']
    decide +kernel
  unfold destination
  rw [if_neg (by rw [hvalid]; exact Bool.false_ne_true), hparsed]
  simp only [Option.bind_eq_bind, Option.bind_some, Option.getD_some]
  rw [if_neg (by decide +kernel), if_neg (by decide +kernel), hhost, Option.bind_some,
    if_neg (by decide +kernel)]
  show (if ("/".splitOn "/").any (·∈[".", ".."]) = true then none else _) = _
  rw [hdots]
  rfl

theorem sample_scope : destination sampleUrls "https://h/" = some ⟨"https", "h", 443, "/", ""⟩ :=
  sample_destination (by simp [sampleUrls]) (by decide +kernel)

theorem sample_query :
    destination sampleUrls "https://h/?q=%2F" = some ⟨"https", "h", 443, "/", "q=%2F"⟩ :=
  sample_destination (by simp [sampleUrls]) (by decide +kernel)

/-- A URL is in its own scope whatever its query escapes. -/
theorem scope_encodes : ∃ platform : Platform,
    (∀ path, platform.search encodedAlias path = path.toList.tails.any aliasAt) ∧
    (∀ before after, platform.unquote (before++"/"++after) =
      platform.unquote before++"/"++platform.unquote after) ∧
    (∀ text, '%'∉text.toList → platform.unquote text = text) ∧
    ∃ scope target, targetWithinScope platform scope target = true ∧ Encodes target "2f" := by
  refine ⟨sampleUrls, sample_alias, fun _ _ => rfl, fun _ _ => rfl, "https://h/?q=%2F",
    "https://h/?q=%2F", ?_, "https://h/?q=".toList, '2', 'F', [], by decide +kernel, by decide +kernel⟩
  exact targetWithinScope_iff.mpr ⟨_, _, sample_query, sample_query, rfl, rfl, .refl⟩

theorem target_within_scope_sample :
    targetWithinScope sampleUrls "https://h/?q=%2F" "https://h/?q=%2F" = true :=
  (target_within_scope sampleUrls sample_alias (fun _ _ => rfl) fun _ _ => rfl).2.1 _ _
    sample_query

end TraceGuard
