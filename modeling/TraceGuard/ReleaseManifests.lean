import TraceGuard.ImageLines
import TraceGuard.Raising

/-! When every image of a release manifest is found, checked and put in. -/
namespace TraceGuard
open Decimal (isSpace strip)
open Trimming Yaml Raising

namespace ReleaseImages
variable {e : Entry} {v w : Text} {label : Label}

/-! Immutable references. -/

/-- A part of a repository's name; the first of several may be a registry with a port. -/
def Part (count index : Nat) (part : Text) : Prop :=
  component part=true ∨ index=0 ∧ 1<count ∧ ∃ host port, part=host++ ':' :: port ∧ component host=true ∧ port≠[] ∧
    ∀ c∈port, isDecimal c=true

/-- A repository and the digest of its content, without a tag. -/
def Immutable (image : Text) : Prop :=
  ∃ repository digest, image=repository++"@sha256:".toList++digest ∧ repository≠[] ∧
    (∀ part∈(split '/' repository).zipIdx, Part (split '/' repository).length part.2 part.1) ∧
    digest.length=64 ∧ ∀ c∈digest, lowerHex c=true

/-- The last colon parts the host from the port. -/
theorem last_colon {part : Text} (h : ':'∈part) :
    part=part.take (part.length-((part.reverse.takeWhile (·≠ ':')).reverse.length+1))++
      ':' :: (part.reverse.takeWhile (·≠ ':')).reverse := by
  obtain ⟨port, hport, hall⟩ : ∃ port, port=part.reverse.takeWhile (·≠ ':') ∧ ':'∉port :=
    ⟨_, rfl, fun hin => by simpa using List.mem_takeWhile_imp hin⟩
  have hsplit := @List.takeWhile_append_dropWhile Char (·≠ ':') part.reverse
  rw [← hport] at hsplit ⊢
  cases hdrop : part.reverse.dropWhile (·≠ ':') with
  | nil =>
    rw [hdrop, List.append_nil] at hsplit
    exact absurd (List.mem_reverse.mpr h) (hsplit ▸ hall)
  | cons c more =>
    have hc : c= ':' := by
      have := dropWhile_head c (congrArg List.head? hdrop)
      simpa using this
    subst hc
    rw [hdrop] at hsplit
    have hpart : part=more.reverse++ ':' :: port.reverse := by
      rw [← List.reverse_reverse part, ← hsplit]
      simp
    have hlength := congrArg List.length hpart
    simp only [List.length_append, List.length_cons, List.length_reverse] at hlength
    have htake : part.take (part.length-(port.reverse.length+1))=more.reverse := by
      rw [List.length_reverse, show part.length-(port.length+1)=more.reverse.length by
        rw [List.length_reverse]
        omega, hpart, List.take_left]
    rw [htake]
    exact hpart

theorem checkPart_ok {count index : Nat} {part : Text} (h : checkPart label count part index=.ok ()) :
    Part count index part := by
  rw [checkPart] at h
  split at h
  · rename_i hfirst
    obtain ⟨hindex, hcount, hcolon⟩ := hfirst
    dsimp only at h
    split at h
    · cases h
    · rename_i hparts
      simp only [not_or, not_not] at hparts
      obtain ⟨hhost, hport, hdecimal⟩ := hparts
      exact .inr ⟨hindex, hcount, _, _, last_colon hcolon, hhost, hport, List.all_eq_true.mp hdecimal⟩
  · split at h
    · split at h <;> cases h
    · rename_i hcomponent
      exact .inl (not_not.mp hcomponent)

theorem digestForm_split {digest : Text} (h : digestForm digest=true) :
    ∃ hex, digest="sha256:".toList++hex ∧ hex.length=64 ∧ ∀ c∈hex, lowerHex c=true := by
  simp only [digestForm, Bool.and_eq_true, decide_eq_true_eq] at h
  obtain ⟨⟨hstart, hlength⟩, hhex⟩ := h
  obtain ⟨hex, rfl⟩ := List.isPrefixOf_iff_prefix.mp hstart
  exact ⟨hex, rfl, hlength, List.all_eq_true.mp hhex⟩

/-- An accepted reference is immutable, and is what was checked. -/
theorem validateImageDigest_ok {image : Text} (h : validateImageDigest image label=.ok v) :
    v=image ∧ Immutable image := by
  rw [validateImageDigest] at h
  obtain ⟨hblank, h⟩ := guard_ok h
  obtain ⟨hseparator, h⟩ := guard_ok h
  obtain ⟨hdigest, h⟩ := guard_ok h
  obtain ⟨-, h⟩ := guard_ok h
  obtain ⟨_, hchecked, h⟩ := bind_ok h
  simp only [not_or, not_not] at hblank hseparator hdigest
  obtain ⟨hne, hsame, -⟩ := hblank
  rw [hsame] at h hseparator hdigest hchecked
  refine ⟨(Except.ok.inj h).symm, ?_⟩
  set repository := image.takeWhile (·≠ '@') with hrepository
  obtain ⟨hex, hhex, hlength, hall⟩ := digestForm_split hdigest.2
  have hsplit := @List.takeWhile_append_dropWhile Char (·≠ '@') image
  have hdrop : ∃ more, image=repository++ '@' :: more := by
    cases hrest : image.dropWhile (·≠ '@') with
    | nil =>
      rw [hrest, List.append_nil] at hsplit
      have hin : '@'∈image := List.count_pos_iff.mp (by omega)
      rw [← hsplit] at hin
      simpa using List.mem_takeWhile_imp hin
    | cons c more =>
      have hc := dropWhile_head c (congrArg List.head? hrest)
      obtain rfl : c= '@' := by simpa using hc
      exact ⟨more, by rw [← hrest, hsplit]⟩
  obtain ⟨more, hmore⟩ := hdrop
  have htail : image.drop (repository.length+1)=more := by
    rw [hmore, List.append_cons, List.drop_left' (by simp)]
  rw [htail] at hhex
  refine ⟨repository, hex, ?_, hdigest.1, fun part hpart => ?_, hlength, hall⟩
  · rw [hmore, hhex]
    simp
  · exact checkPart_ok (forM_ok.mp hchecked part hpart)

/-! The characters of a reference need no quotes. -/

/-- A character that means nothing to a line of YAML. -/
structure Inert (c : Char) : Prop where
  space : isSpace c=false
  quote : isQuote c=false
  hash : c≠ '#'
  backslash : c≠ '\\'

theorem inert_of {c : Char} (h : isSpace c=false ∧ isQuote c=false ∧ c≠ '#' ∧ c≠ '\\') : Inert c :=
  ⟨h.1, h.2.1, h.2.2.1, h.2.2.2⟩

theorem alnum_inert {c : Char} (h : alnum c=true) : Inert c ∧ c≠ ':' ∧ c∉indicators := by
  have hall : ∀ c∈"abcdefghijklmnopqrstuvwxyz0123456789".toList,
      (isSpace c=false ∧ isQuote c=false ∧ c≠ '#' ∧ c≠ '\\') ∧ c≠ ':' ∧ c∉indicators :=
    List.forall_iff_forall_mem.mp (by decide)
  obtain ⟨hinert, hrest⟩ := hall c (of_decide_eq_true h)
  exact ⟨inert_of hinert, hrest⟩

theorem decimal_inert {c : Char} (h : isDecimal c=true) : Inert c := by
  obtain ⟨first, hfirst, hc⟩ := List.any_eq_true.mp h
  simp only [Bool.decide_and, Bool.and_eq_true, decide_eq_true_eq] at hc
  have hall : zeros.Forall fun first => ∀ i<10, (first+i<9 ∨ 13<first+i) ∧ (first+i<28 ∨ 34<first+i) ∧
      first+i≠0x23 ∧ first+i≠0x27 ∧ first+i≠0x5c ∧ first+i≠0x85 ∧ first+i≠0xa0 ∧ first+i≠0x1680 ∧
      (first+i<0x2000 ∨ 0x200a<first+i) ∧ first+i≠0x2028 ∧ first+i≠0x2029 ∧ first+i≠0x202f ∧
      first+i≠0x205f ∧ first+i≠0x3000 := by decide
  obtain ⟨i, hi⟩ := Nat.exists_eq_add_of_le hc.1
  have hfacts := List.forall_iff_forall_mem.mp hall first hfirst i (by omega)
  rw [← hi] at hfacts
  have hne : ∀ d : Char, c.toNat≠d.toNat → c≠d := fun d hd heq => hd (heq ▸ rfl)
  refine ⟨?_, ?_, hne _ ?_, hne _ ?_⟩
  · simp only [isSpace, Bool.or_eq_false_iff, Bool.and_eq_false_iff, decide_eq_false_iff_not,
      beq_eq_false_iff_ne]
    omega
  · have hdouble : c≠ '"' := hne _ (by show c.toNat≠34; omega)
    have hsingle : c≠ '\'' := hne _ (by show c.toNat≠39; omega)
    simp [isQuote, hdouble, hsingle]
  · show c.toNat≠35
    omega
  · show c.toNat≠92
    omega

theorem hex_inert {c : Char} (h : lowerHex c=true) : Inert c ∧ c≠ ':' ∧ blank c=false := by
  have hall : ∀ c∈"0123456789abcdef".toList,
      (isSpace c=false ∧ isQuote c=false ∧ c≠ '#' ∧ c≠ '\\') ∧ c≠ ':' ∧ blank c=false :=
    List.forall_iff_forall_mem.mp (by decide)
  obtain ⟨hinert, hrest⟩ := hall c (of_decide_eq_true h)
  exact ⟨inert_of hinert, hrest⟩

theorem Inert.blank {c : Char} (h : Inert c) : blank c=false := by
  rw [Bool.eq_false_iff]
  intro hblank
  exact absurd (blank_space hblank) (by simp [h.space])

theorem component_inert {ended : Bool} {part : Text} (h : componentFrom ended part=true) : ∀ c∈part, Inert c := by
  induction part generalizing ended with
  | nil => exact List.forall_mem_nil _
  | cons c part ih =>
    rw [componentFrom] at h
    rw [List.forall_mem_cons]
    split at h
    · rename_i hc
      exact ⟨(alnum_inert hc).1, ih h⟩
    · split at h
      · rename_i hc
        have hall : ∀ c∈['.', '_', '-'], isSpace c=false ∧ isQuote c=false ∧ c≠ '#' ∧ c≠ '\\' :=
          List.forall_iff_forall_mem.mp (by decide)
        exact ⟨inert_of (hall c hc), ih (Bool.and_eq_true_iff.mp h).2⟩
      · cases h

theorem component_head {part : Text} (h : component part=true) : ∃ c more, part=c :: more ∧ alnum c=true := by
  cases part with
  | nil => cases h
  | cons c more =>
    rw [component, componentFrom] at h
    split at h
    · exact ⟨c, more, rfl, ‹_›⟩
    · split at h
      · cases h
      · cases h

theorem Part.inert {count index : Nat} {part : Text} (h : Part count index part) : ∀ c∈part, Inert c := by
  rcases h with h | ⟨-, -, host, port, rfl, hhost, -, hport⟩
  · exact component_inert h
  · intro c hc
    rcases List.mem_append.mp hc with hc | hc
    · exact component_inert hhost c hc
    · rcases List.mem_cons.mp hc with rfl | hc
      · exact inert_of (by decide)
      · exact decimal_inert (hport c hc)

theorem Part.head {count index : Nat} {part : Text} (h : Part count index part) :
    ∃ c more, part=c :: more ∧ alnum c=true := by
  rcases h with h | ⟨-, -, host, port, rfl, hhost, -⟩
  · exact component_head h
  · obtain ⟨c, more, rfl, hc⟩ := component_head hhost
    exact ⟨c, _, rfl, hc⟩

theorem split_ne (separator : Char) (text : Text) : split separator text≠[] := by
  cases text with
  | nil => simp [split]
  | cons c cs =>
    rw [split]
    split
    · simp
    · split <;> simp

/-- The parts hold every character but the separators. -/
theorem split_mem {separator c : Char} {text : Text} (h : c∈text) :
    c=separator ∨ ∃ part∈split separator text, c∈part := by
  induction text with
  | nil => cases h
  | cons d text ih =>
    rw [split]
    by_cases hd : d=separator
    · rw [if_pos hd]
      rcases List.mem_cons.mp h with rfl | h
      · exact .inl hd
      · exact (ih h).imp_right fun ⟨part, hpart, hc⟩ => ⟨part, List.mem_cons_of_mem _ hpart, hc⟩
    · rw [if_neg hd]
      cases hsplit : split separator text with
      | nil => exact absurd hsplit (split_ne _ _)
      | cons part parts =>
        rw [hsplit] at ih
        rcases List.mem_cons.mp h with rfl | h
        · exact .inr ⟨_, List.mem_cons_self .., List.mem_cons_self ..⟩
        · refine (ih h).imp_right fun ⟨part', hpart, hc⟩ => ?_
          rcases List.mem_cons.mp hpart with rfl | hpart
          · exact ⟨_, List.mem_cons_self .., List.mem_cons_of_mem _ hc⟩
          · exact ⟨part', List.mem_cons_of_mem _ hpart, hc⟩

/-- The first part begins as the text does. -/
theorem split_head {separator : Char} {text part : Text} {parts : List Text}
    (h : split separator text=part :: parts) {c : Char} {more : Text} (hpart : part=c :: more) :
    ∃ rest, text=c :: rest := by
  cases text with
  | nil =>
    cases h
    cases hpart
  | cons d text =>
    rw [split] at h
    split at h
    · cases h
      cases hpart
    · split at h
      · cases h
        cases hpart
        exact ⟨_, rfl⟩
      · cases h
        cases hpart
        exact ⟨_, rfl⟩

theorem Immutable.inert {image : Text} (h : Immutable image) : ∀ c∈image, Inert c := by
  obtain ⟨repository, digest, rfl, -, hparts, -, hdigest⟩ := h
  intro c hc
  rcases List.mem_append.mp hc with hc | hc
  · rcases List.mem_append.mp hc with hc | hc
    · rcases @split_mem '/' c repository hc with rfl | ⟨part, hpart, hc⟩
      · exact inert_of (by decide)
      · obtain ⟨i, hi, rfl⟩ := List.getElem_of_mem hpart
        exact (hparts ((split '/' repository)[i], i) (List.mem_zipIdx_iff_getElem?.mpr (by simp [hi]))).inert c hc
    · have hall : ∀ c∈"@sha256:".toList, isSpace c=false ∧ isQuote c=false ∧ c≠ '#' ∧ c≠ '\\' :=
        List.forall_iff_forall_mem.mp (by decide)
      exact inert_of (hall c hc)
  · exact (hex_inert (hdigest c hc)).1

theorem Immutable.head {image : Text} (h : Immutable image) : ∃ c rest, image=c :: rest ∧ alnum c=true := by
  obtain ⟨repository, digest, rfl, hne, hparts, -⟩ := h
  cases hsplit : split '/' repository with
  | nil => exact absurd hsplit (split_ne _ _)
  | cons part parts =>
    rw [hsplit] at hparts
    obtain ⟨c, more, hpart, hc⟩ := (hparts (part, 0) (by simp)).head
    obtain ⟨rest, rfl⟩ := split_head hsplit hpart
    exact ⟨c, _, rfl, hc⟩

theorem Immutable.last {image : Text} (h : Immutable image) : ∃ c, image.getLast?=some c ∧ lowerHex c=true := by
  obtain ⟨repository, digest, rfl, -, -, hlength, hdigest⟩ := h
  cases hlast : digest.getLast? with
  | none =>
    rw [List.getLast?_eq_none_iff.mp hlast] at hlength
    cases hlength
  | some c => exact ⟨c, by rw [List.getLast?_append, hlast, Option.some_or], hdigest c (List.mem_of_getLast? hlast)⟩

/-! References as values. -/

theorem plainTail_of {text : Text} (hblank : ∀ c∈text, blank c=false) (hlast : text.getLast?≠some ':') :
    plainTail text=true := by
  induction text with
  | nil => rfl
  | cons c text ih =>
    obtain ⟨hc, htext⟩ := List.forall_mem_cons.mp hblank
    cases text with
    | nil => simpa [plainTail, hc] using hlast
    | cons d text =>
      have hd := htext d (List.mem_cons_self ..)
      rw [plainTail, ih htext (by rwa [List.getLast?_cons_cons] at hlast)]
      simp [hc, hd]

theorem Immutable.plain {image : Text} (h : Immutable image) : plainText image=true := by
  have hblank : ∀ c∈image, blank c=false := fun c hc => (h.inert c hc).blank
  obtain ⟨last, hlast, hhex⟩ := h.last
  have htail : plainTail image=true := by
    refine plainTail_of hblank fun hcolon => ?_
    exact (hex_inert hhex).2.1 (Option.some.inj (hlast.symm.trans hcolon))
  obtain ⟨c, rest, rfl, hc⟩ := h.head
  have hindicator := (alnum_inert hc).2.2
  simp [plainText, htail, hindicator, hblank c]

/-- Between any quotes a reference is written as it reads. -/
theorem Immutable.scalar {image : Text} (h : Immutable image) (scalar : FlowScalar) :
    ∃ scalar' : FlowScalar, scalar'.value=image ∧ scalar'.written=scalar.quotes++image++scalar.quotes := by
  have hquote : ∀ c∈image, c≠ '\'' ∧ c≠ '"' := by
    intro c hc
    have := (h.inert c hc).quote
    simp only [isQuote, Bool.or_eq_false_iff, decide_eq_false_iff_not] at this
    exact ⟨this.2, this.1⟩
  cases scalar with
  | plain text hplain => exact ⟨.plain image h.plain, rfl, rfl⟩
  | single text =>
    refine ⟨.single image, rfl, ?_⟩
    have hcontent : ∀ cs : Text, (∀ c∈cs, c≠ '\'') → (cs.flatMap fun c => if c= '\'' then [c, c] else [c])=cs := by
      intro cs hcs
      induction cs with
      | nil => rfl
      | cons c cs ih =>
        obtain ⟨hc, hcs⟩ := List.forall_mem_cons.mp hcs
        rw [List.flatMap_cons, if_neg hc, ih hcs, List.singleton_append]
    rw [FlowScalar.written, FlowScalar.content, hcontent image fun c hc => (hquote c hc).1]
    rfl
  | double items =>
    have hall : ∀ c∈image, c≠ '"' ∧ c≠ '\\' := fun c hc => ⟨(hquote c hc).2, (h.inert c hc).backslash⟩
    refine ⟨.double (image.pmap (fun c hc => Item.char c hc) hall), ?_, ?_⟩
    · simp [FlowScalar.value, List.map_pmap, Item.value]
    · have hwritten : (image.pmap (fun c hc => Item.char c hc) hall).flatMap Item.written=image := by
        simp only [List.flatMap_def, List.map_pmap, Item.written, List.pmap_eq_map]
        exact (List.flatMap_def ..).symm.trans (List.flatMap_singleton' image)
      rw [FlowScalar.written, FlowScalar.content, hwritten]
      rfl

end ReleaseImages
end TraceGuard
