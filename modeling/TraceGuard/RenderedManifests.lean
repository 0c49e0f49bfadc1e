import TraceGuard.ReleaseManifests

/-! What is written of a manifest, and the templates whose images are all found, checked and put in. -/
namespace TraceGuard
open Decimal (isSpace strip)
open Trimming Yaml Raising

namespace ReleaseImages
variable {e : Entry} {old new before after image value rest : Text} {release : Option Text} {line : Text × Text}
  {ls : List (Text × Text)}

/-! The first occurrence. -/

theorem takeWhile_first {c : Char} (h : c∉before) (rest : Text) :
    (before++c :: rest).takeWhile (·≠c)=before := by
  rw [List.takeWhile_append_of_pos]
  · simp
  · intro d hd
    have hne : d≠c := fun heq => h (heq ▸ hd)
    simpa using hne

/-- A text is replaced where it stands if one of its characters is not in front of it. -/
theorem replaceFirst_clean {c : Char} (hc : c∈old) (hclear : c∉before) (rest : Text) :
    replaceFirst old new (before++(old++rest))=before++(new++rest) := by
  induction before with
  | nil =>
    have hstart : old.isPrefixOf (old++rest)=true := List.isPrefixOf_iff_prefix.mpr (List.prefix_append _ _)
    cases old with
    | nil => cases hc
    | cons d old =>
      rw [List.nil_append, List.cons_append, replaceFirst, ← List.cons_append, if_pos hstart, List.drop_left]
      rfl
  | cons b before ih =>
    rw [List.mem_cons, not_or] at hclear
    have hstart : ¬old.isPrefixOf (b :: (before++(old++rest)))=true := by
      intro h
      obtain ⟨more, hmore⟩ := List.isPrefixOf_iff_prefix.mp h
      -- the character would come first at two places
      obtain ⟨xs, ys, rfl, hxs⟩ := List.eq_append_cons_of_mem hc
      have hlater : c∉b :: before++xs := by simp [hclear.1, hclear.2, hxs]
      have hfirst := congrArg (List.takeWhile (·≠c)) hmore
      rw [List.append_assoc, List.cons_append, takeWhile_first hxs,
        show b :: (before++((xs++c :: ys)++rest))=(b :: before++xs)++c :: (ys++rest) by simp,
        takeWhile_first hlater] at hfirst
      have := congrArg List.length hfirst
      simp only [List.cons_append, List.length_cons, List.length_append] at this
      omega
    rw [List.cons_append, replaceFirst, if_neg hstart, ih hclear.2, List.cons_append]

/-! Lines with their images. -/

theorem imagesFrom_mem {start i : Nat} : ⟨start+i+1, value⟩∈imagesFrom start ls ↔
    ∃ line, ls[i]?=some line ∧ imageValue line.1=some value := by
  simp only [imagesFrom, List.mem_filterMap, Option.map_eq_some_iff]
  constructor
  · rintro ⟨⟨line, n⟩, hline, v, hv, heq⟩
    obtain ⟨hle, hget⟩ := List.mem_zipIdx_iff_le_and_getElem?_sub.mp hline
    cases heq
    refine ⟨line, ?_, hv⟩
    rw [← hget]
    exact congrArg (ls[·]?) (Nat.add_sub_cancel_left ..).symm
  · rintro ⟨line, hget, hv⟩
    refine ⟨(line, start+i), ?_, value, hv, rfl⟩
    rw [List.mem_zipIdx_iff_le_and_getElem?_sub]
    exact ⟨Nat.le_add_right .., by rwa [Nat.add_sub_cancel_left]⟩

theorem imagesFrom_cons (start : Nat) (line : Text × Text) (ls : List (Text × Text)) :
    imagesFrom start (line :: ls)=
      ((imageValue line.1).map fun value => ⟨start+1, value⟩).toList++imagesFrom (start+1) ls := by
  simp only [imagesFrom, List.zipIdx_cons, List.filterMap_cons]
  cases imageValue line.1 <;> rfl

def piece (line : Text × Text) : Text := line.1++line.2

/-- What is written for a line. -/
def rendered (release : Option Text) (line : Text × Text) : Text :=
  match release, imageValue line.1 with
  | some image, some value => if marker<:+:value then replaceFirst value image (piece line) else piece line
  | _, _ => piece line

theorem modify_middle {α : Type} (xs ys : List α) (y : α) (f : α → α) :
    (xs++y :: ys).modify xs.length f=xs++f y :: ys := by
  induction xs with
  | nil => rfl
  | cons x xs ih => rw [List.cons_append, List.length_cons, List.modify_succ_cons, ih, List.cons_append]

/-- The loop over the images reaches each line by its number. -/
theorem put_all (release : Option Text) (ls : List (Text × Text)) (done : List Text) :
    (imagesFrom done.length ls).foldl (put release) (done++ls.map piece)=done++ls.map (rendered release) := by
  induction ls generalizing done with
  | nil => rfl
  | cons line ls ih =>
    have hturn : ((imageValue line.1).map fun value => (⟨done.length+1, value⟩ : ManifestImage)).toList.foldl
        (put release) (done++piece line :: ls.map piece)=done++rendered release line :: ls.map piece := by
      cases hvalue : imageValue line.1 with
      | none => cases release <;> simp [rendered, hvalue]
      | some value =>
        cases release with
        | none => simp [rendered, put]
        | some image =>
          rw [Option.map_some, Option.toList_some, List.foldl_cons, List.foldl_nil]
          simp only [put, rendered, hvalue]
          split
          · exact modify_middle ..
          · rfl
    have hnext := ih (done++[rendered release line])
    rw [List.length_append, List.length_singleton, List.append_assoc, List.append_assoc] at hnext
    rw [imagesFrom_cons, List.foldl_append, List.map_cons, hturn]
    exact hnext

/-! Runs of the checks. -/

theorem manifestImages_ok {text : Text} {images : List ManifestImage} (h : manifestImages (some text)=.ok images) :
    images=imagesFrom 0 (lines text) := by
  rw [manifestImages] at h
  split at h
  · cases h
  · exact (Except.ok.inj h).symm

theorem validateManifest_ok {text : Text} (h : validateManifest (some text) release=.ok ()) :
    (∀ image, release=some image → Immutable image) ∧
      ∀ image∈imagesFrom 0 (lines text), Immutable (substituted release image.value) := by
  rw [validateManifest] at h
  obtain ⟨replacement, hreplacement, h⟩ := bind_ok h
  obtain ⟨images, himages, hchecked⟩ := bind_ok h
  obtain rfl := manifestImages_ok himages
  have hrelease : replacement=release ∧ ∀ image, release=some image → Immutable image := by
    cases release with
    | none => exact ⟨(Except.ok.inj hreplacement).symm, fun _ h => (by cases h)⟩
    | some image =>
      obtain ⟨v, hv, hsome⟩ := bind_ok hreplacement
      obtain ⟨rfl, himmutable⟩ := validateImageDigest_ok hv
      exact ⟨(Except.ok.inj hsome).symm, fun _ h => Option.some.inj h ▸ himmutable⟩
  obtain ⟨rfl, himmutable⟩ := hrelease
  refine ⟨himmutable, fun image himage => ?_⟩
  obtain ⟨v, hv, -⟩ := map_ok (forM_ok.mp hchecked image himage)
  exact (validateImageDigest_ok hv).2

theorem renderManifest_ok {text written : Text} {created : Bool}
    (h : renderManifest (some text) created release=.ok written) :
    validateManifest (some text) release=.ok () ∧ written=((lines text).map (rendered release)).flatten := by
  rw [renderManifest] at h
  obtain ⟨⟨⟩, hvalid, h⟩ := bind_ok h
  obtain ⟨images, himages, h⟩ := bind_ok h
  obtain ⟨-, h⟩ := guard_ok h
  obtain ⟨-, h⟩ := guard_ok h
  obtain rfl := manifestImages_ok himages
  refine ⟨hvalid, (Except.ok.inj h).symm.trans ?_⟩
  exact congrArg List.flatten (put_all release (lines text) [])

/-! The places of the values. -/

def markerHead : Char := 'R'

theorem marker_mem (h : marker<:+:value) : markerHead∈value := h.subset (by decide)

theorem space_head {cs : Text} (h : ∀ c∈cs, isSpace c=true) : markerHead∉cs :=
  fun hin => absurd (h _ hin) (by decide)

theorem quote_head {cs : Text} (h : ∀ c∈cs, isQuote c=true) : markerHead∉cs :=
  fun hin => absurd (h _ hin) (by decide)

/-- In front of a value that is found stands nothing of a placeholder. -/
theorem imageValue_place {text : Text} (h : imageValue text=some value) :
    ∃ before after, text=before++(value++after) ∧ markerHead∉before := by
  rw [imageValue] at h
  obtain ⟨rest, hrest, h⟩ := Option.bind_eq_some_iff.mp h
  obtain ⟨v, hv, h⟩ := Option.bind_eq_some_iff.mp h
  have hvalue : Trimming.trim isQuote (strip v)=value := Option.some.inj h
  obtain ⟨lead, rfl, hlead⟩ := afterKey_some hrest
  have hspaces : ∀ c∈(rest.takeWhile isSpace).reverse, isSpace c=true :=
    fun c hc => List.mem_takeWhile_imp (List.mem_reverse.mp hc)
  obtain ⟨-, before, more, hline, hbefore⟩ := valueAfter_some hspaces hv
  rw [List.reverse_reverse, List.takeWhile_append_dropWhile] at hline
  obtain ⟨a, b, hstrip, ha, -⟩ := trim_split isSpace v
  obtain ⟨q, q', hquotes, hq, -⟩ := trim_split isQuote (strip v)
  have hmiddle : v=a++(q++value++q')++b := by
    rw [← hvalue, ← hquotes]
    exact hstrip
  refine ⟨lead++(keyText++(before++(a++q))), q'++(b++more), ?_, ?_⟩
  · rw [hline, hmiddle]
    simp
  · have hkey : markerHead∉keyText := by decide
    simp [space_head hlead, hkey, space_head hbefore, space_head ha, quote_head hq]

/-- The value of an entry in the layout that is expected, between what stands in front of it and behind it. -/
theorem entry_place (hkey : e.key.value=imageKey) (h : Simple e) : ∃ before,
    (∀ scalar : FlowScalar, scalar.written=e.value.quotes++scalar.value++e.value.quotes →
      {e with value := scalar : Entry}.text=before++(scalar.value++(e.value.quotes++e.rest))) ∧
    markerHead∉before := by
  refine ⟨e.lead++(e.key.written++(e.before++ ':' :: (e.after++e.value.quotes))), fun scalar hscalar => ?_, ?_⟩
  · simp [Entry.text, hscalar, Entry.lead, Entry.rest]
  · have hlead : markerHead∉e.lead := by
      simp [Entry.lead, h.unlisted, markerHead]
    have hwritten : markerHead∉e.key.written := by
      cases hk : e.key with
      | plain text hplain =>
        rw [hk] at hkey
        obtain rfl : text=imageKey := hkey
        exact fun hin => absurd hin (by decide : markerHead∉imageKey++[])
      | single text => simpa [hk, FlowScalar.isPlain] using h.bare
      | double items => simpa [hk, FlowScalar.isPlain] using h.bare
    have hafter := space_head fun c hc => blank_space (e.blanks.2.1 c hc)
    have hquotes : markerHead∉e.value.quotes := by
      cases e.value <;> simp [FlowScalar.quotes, markerHead]
    have hcolon : markerHead≠ ':' := by decide
    simp [hlead, hwritten, h.close, hafter, hquotes, hcolon]

/-! Templates. -/

/-- What a piece of the output owes to its line of the template: all but the value of a placeholder, and each image
of the line in its layout with an immutable value. -/
structure Rendered (release : Option Text) (line : Text × Text) (written : Text) : Prop where
  same : written=piece line ∨ ∃ image before value after, release=some image ∧ imageValue line.1=some value ∧
    marker<:+:value ∧ piece line=before++(value++after) ∧ written=before++(image++after)
  images : ∀ e : Entry, e.text=line.1 → e.key.value=imageKey → ∃ scalar : FlowScalar,
    written={e with value := scalar : Entry}.text++line.2 ∧ scalar.value=substituted release e.value.value ∧
      Immutable scalar.value ∧ (scalar=e.value ∨ marker<:+:e.value.value)

/-- Every image is found with its value, checked, and immutable in what is written. -/
structure Checked (text : Text) : Prop where
  found : ∀ (i : Nat) (line : Text × Text), (lines text)[i]?=some line → ∀ e : Entry, e.text=line.1 →
    e.key.value=imageKey → ∃ images, manifestImages (some text)=.ok images ∧ ⟨i+1, e.value.value⟩∈images
  validated : ∀ release, validateManifest (some text) release=.ok () → ∀ line∈lines text, ∀ e : Entry,
    e.text=line.1 → e.key.value=imageKey → Immutable (substituted release e.value.value)
  written : ∀ release created output, renderManifest (some text) created release=.ok output →
    ∃ pieces, output=pieces.flatten ∧ List.Forall₂ (Rendered release) (lines text) pieces

theorem rendered_same (release : Option Text) (line : Text × Text) :
    rendered release line=piece line ∨ ∃ image before value after, release=some image ∧
      imageValue line.1=some value ∧ marker<:+:value ∧ piece line=before++(value++after) ∧
      rendered release line=before++(image++after) := by
  cases release with
  | none => exact .inl rfl
  | some image =>
    cases hvalue : imageValue line.1 with
    | none => exact .inl (by simp [rendered, hvalue])
    | some value =>
      by_cases hmarker : marker<:+:value
      · obtain ⟨before, after, hline, hclear⟩ := imageValue_place hvalue
        have hpiece : piece line=before++(value++(after++line.2)) := by simp [piece, hline]
        refine .inr ⟨image, before, value, after++line.2, rfl, rfl, hmarker, hpiece, ?_⟩
        simp only [rendered, hvalue, if_pos hmarker, hpiece]
        exact replaceFirst_clean (marker_mem hmarker) hclear _
      · exact .inl (by simp [rendered, hvalue, hmarker])

theorem rendered_images {text : Text} (hvalid : validateManifest (some text) release=.ok ())
    (hline : line∈lines text) (hkey : e.key.value=imageKey) (htext : e.text=line.1) (hsimple : Simple e) :
    ∃ scalar : FlowScalar, rendered release line={e with value := scalar : Entry}.text++line.2 ∧
      scalar.value=substituted release e.value.value ∧ Immutable scalar.value ∧
        (scalar=e.value ∨ marker<:+:e.value.value) := by
  have hvalue : imageValue line.1=some e.value.value := htext ▸ (imageValue_iff hkey).mpr hsimple
  obtain ⟨i, hi⟩ := List.mem_iff_getElem?.mp hline
  have hfound : ⟨0+i+1, e.value.value⟩∈imagesFrom 0 (lines text) := imagesFrom_mem.mpr ⟨line, hi, hvalue⟩
  obtain ⟨hrelease, hall⟩ := validateManifest_ok hvalid
  have himmutable : Immutable (substituted release e.value.value) := hall _ hfound
  have hkept : substituted release e.value.value=e.value.value → rendered release line=piece line →
      ∃ scalar : FlowScalar, rendered release line={e with value := scalar : Entry}.text++line.2 ∧
        scalar.value=substituted release e.value.value ∧ Immutable scalar.value ∧
          (scalar=e.value ∨ marker<:+:e.value.value) := by
    intro hsame hpiece
    exact ⟨e.value, by rw [hpiece, piece, ← htext], hsame.symm, hsame ▸ himmutable, .inl rfl⟩
  cases release with
  | none => exact hkept rfl rfl
  | some image =>
    by_cases hmarker : marker<:+:e.value.value
    · have himage := hrelease image rfl
      obtain ⟨scalar, hscalar, hwritten⟩ := himage.scalar e.value
      obtain ⟨before, hplace, hclear⟩ := entry_place hkey hsimple
      have hne : image≠[] := by
        obtain ⟨c, more, rfl, -⟩ := himage.head
        simp
      have hsub : substituted (some image) e.value.value=image := if_pos ⟨hmarker, hne⟩
      have hown : e.value.written=e.value.quotes++e.value.value++e.value.quotes := by
        rw [FlowScalar.written, hsimple.literal]
      have hpiece : piece line=before++(e.value.value++(e.value.quotes++e.rest++line.2)) := by
        have := hplace e.value hown
        rw [piece, ← htext, show e.text={e with value := e.value : Entry}.text from rfl, this]
        simp
      refine ⟨scalar, ?_, hscalar.trans hsub.symm, hscalar ▸ himage, .inr hmarker⟩
      simp only [rendered, hvalue, if_pos hmarker, hpiece]
      rw [replaceFirst_clean (marker_mem hmarker) hclear, hplace scalar (hscalar ▸ hwritten), hscalar]
      simp
    · exact hkept (if_neg fun h => hmarker h.1) (by simp [rendered, hvalue, hmarker])

def listed : Text :=
  ("- image: nginx:latest\n- name: app\n  image: app@sha256:"++
    "0123456789abcdef0123456789abcdef0123456789abcdef0123456789abcdef\n").toList

theorem image_plain : plainText imageKey=true := by decide

theorem mutable_plain : plainText "nginx:latest".toList=true := by decide

def listedEntry : Entry where
  indent := 0
  gaps := [0]
  key := .plain imageKey image_plain
  before := []
  after := [' ']
  value := .plain "nginx:latest".toList mutable_plain
  trail := []
  comment := none
  blanks := ⟨List.forall_mem_nil _, List.forall_mem_singleton.mpr rfl, List.forall_mem_nil _⟩
  apart := ⟨List.cons_ne_nil _ _, fun h => absurd rfl h⟩

theorem Immutable.separated (h : Immutable image) : '@'∈image := by
  obtain ⟨repository, digest, rfl, -⟩ := h
  simp

end ReleaseImages
end TraceGuard
