import TraceGuard.ReleaseImages
import TraceGuard.YamlEntries

/-! Which entries of a manifest the line pattern finds with their value: those with the bare key alone in front of
the colon, and a value that is written as it reads, without a hash and without quotes at its ends. -/
namespace TraceGuard
open Decimal (isSpace strip)
open Trimming Yaml

namespace ReleaseImages
variable {e : Entry} {scalar : FlowScalar} {v w rest : Text}

def imageKey : Text := "image".toList

structure Simple (e : Entry) : Prop where
  unlisted : e.gaps=[]
  bare : e.key.isPlain=true
  close : e.before=[]
  unhashed : '#'∉e.value.value
  literal : e.value.content=e.value.value
  unquoted : Bounded isQuote e.value.value
  solid : e.value.isPlain=true → Bounded isSpace e.value.value

theorem blank_space {c : Char} (h : blank c=true) : isSpace c=true := by
  rcases Bool.or_eq_true_iff.mp h with h | h
  · rw [of_decide_eq_true h]
    decide
  · rw [of_decide_eq_true h]
    decide

/-! What the pattern takes for the value. -/

theorem valueFrom_some {cs : Text} (h : valueFrom cs=some v) : '#'∉v ∧ ∃ more, cs=v++more := by
  induction cs generalizing v with
  | nil => cases h
  | cons c cs ih =>
    rw [valueFrom] at h
    split at h
    · cases h
    · rename_i hc
      split at h
      · cases h
        exact ⟨by simpa using Ne.symm hc, cs, rfl⟩
      · obtain ⟨w, hw, rfl⟩ := Option.map_eq_some_iff.mp h
        obtain ⟨hhash, more, hmore⟩ := ih hw
        refine ⟨?_, more, by rw [hmore, List.cons_append]⟩
        rw [List.mem_cons, not_or]
        exact ⟨Ne.symm hc, hhash⟩

theorem valueAfter_some {spaces cs : Text} (hall : ∀ c∈spaces, isSpace c=true) (h : valueAfter spaces cs=some v) :
    '#'∉v ∧ ∃ before more, spaces.reverse++cs=before++v++more ∧ ∀ c∈before, isSpace c=true := by
  induction spaces generalizing cs with
  | nil =>
    obtain ⟨hhash, more, rfl⟩ := valueFrom_some h
    exact ⟨hhash, [], more, rfl, List.forall_mem_nil _⟩
  | cons c spaces ih =>
    obtain ⟨-, hspaces⟩ := List.forall_mem_cons.mp hall
    rw [valueAfter] at h
    cases hfrom : valueFrom cs with
    | some w =>
      rw [hfrom] at h
      cases h
      obtain ⟨hhash, more, rfl⟩ := valueFrom_some hfrom
      refine ⟨hhash, (c :: spaces).reverse, more, (List.append_assoc ..).symm, ?_⟩
      intro d hd
      exact hall d (List.mem_reverse.mp hd)
    | none =>
      rw [hfrom, Option.none_or] at h
      obtain ⟨hhash, before, more, heq, hbefore⟩ := ih hspaces h
      exact ⟨hhash, before, more, by rw [List.reverse_cons, List.append_assoc, List.singleton_append, heq], hbefore⟩

theorem dropWhile_last {c : Char} (hc : w.getLast?=some c) (hsolid : isSpace c=false) (rest : Text) :
    ∃ d more, d∈w ∧ (w++rest).dropWhile isSpace=d :: more := by
  induction w with
  | nil => cases hc
  | cons d w ih =>
    by_cases hd : isSpace d=true
    · rw [List.cons_append, List.dropWhile_cons_of_pos hd]
      cases w with
      | nil =>
        obtain rfl : d=c := by simpa using hc
        simp [hsolid] at hd
      | cons d' w =>
        obtain ⟨x, more, hx, heq⟩ := ih (by rwa [List.getLast?_cons_cons] at hc)
        exact ⟨x, more, List.mem_cons_of_mem _ hx, heq⟩
    · rw [List.cons_append, List.dropWhile_cons_of_neg hd]
      exact ⟨d, w++rest, List.mem_cons_self .., rfl⟩

/-- A value does not end before its last character. -/
theorem ends_within {c : Char} (hc : w.getLast?=some c) (hsolid : isSpace c=false) (hhash : '#'∉w) (rest : Text) :
    ends (w++rest)=false := by
  obtain ⟨d, more, hd, heq⟩ := dropWhile_last hc hsolid rest
  have hne : d≠ '#' := fun h => hhash (h ▸ hd)
  cases w with
  | nil => cases hc
  | cons x w =>
    rw [ends, heq]
    simp [hne]

theorem valueFrom_blanks (hne : w≠[]) (hall : ∀ c∈w, isSpace c=true) : valueFrom w=some w := by
  induction w with
  | nil => exact absurd rfl hne
  | cons c w ih =>
    obtain ⟨hc, hw⟩ := List.forall_mem_cons.mp hall
    have hhash : c≠ '#' := by
      rintro rfl
      exact absurd hc (by decide)
    rw [valueFrom, if_neg hhash]
    cases w with
    | nil => rfl
    | cons d w =>
      have hends : ends (d :: w)=false := by
        simp [ends, List.dropWhile_eq_nil_iff.mpr hw]
      rw [if_neg (by simp [hends]), ih (by simp) hw]
      rfl

/-- What may stand behind a value: blanks, and a comment behind at least one. -/
def Tail (rest : Text) : Prop :=
  ∃ trail comment, rest=trail++comment ∧ (∀ c∈trail, isSpace c=true) ∧
    (comment=[] ∨ trail≠[] ∧ comment.head?=some '#')

theorem Tail.value (h : Tail rest) : ends rest=true ∨ rest≠[] ∧ valueFrom rest=some rest ∧ ends rest=false ∧
    ∀ c∈rest, isSpace c=true := by
  obtain ⟨trail, comment, rfl, htrail, hcomment⟩ := h
  rcases hcomment with rfl | ⟨hne, hhash⟩
  · rw [List.append_nil]
    cases trail with
    | nil => exact .inl rfl
    | cons c trail =>
      refine .inr ⟨by simp, valueFrom_blanks (by simp) htrail, ?_, htrail⟩
      simp [ends, List.dropWhile_eq_nil_iff.mpr htrail]
  · left
    cases trail with
    | nil => exact absurd rfl hne
    | cons c trail =>
      have hdrop : (c :: trail++comment).dropWhile isSpace=comment := by
        refine dropWhile_bounded htrail fun x hx => ?_
        obtain rfl : '#'=x := Option.some.inj (hhash.symm.trans hx)
        decide
      rw [ends, hdrop, hhash]
      simp [htrail c (by simp)]

/-- A value up to its last character, with blanks when nothing follows them. -/
theorem valueFrom_solid {c : Char} (hc : w.getLast?=some c) (hsolid : isSpace c=false) (hhash : '#'∉w)
    (htail : Tail rest) : ∃ more, valueFrom (w++rest)=some (w++more) ∧ ∀ c∈more, isSpace c=true := by
  induction w with
  | nil => cases hc
  | cons d w ih =>
    rw [List.mem_cons, not_or] at hhash
    rw [List.cons_append, valueFrom, if_neg (Ne.symm hhash.1)]
    cases w with
    | nil =>
      rcases htail.value with hends | ⟨-, hvalue, hends, hall⟩
      · exact ⟨[], if_pos hends, List.forall_mem_nil _⟩
      · refine ⟨rest, ?_, hall⟩
        rw [List.nil_append, if_neg (by simp [hends]), hvalue]
        rfl
    | cons d' w =>
      rw [List.getLast?_cons_cons] at hc
      obtain ⟨more, hmore, hall⟩ := ih hc hhash.2
      refine ⟨more, ?_, hall⟩
      have hends := ends_within hc hsolid hhash.2 rest
      rw [if_neg (by rw [hends]; exact Bool.false_ne_true), hmore]
      rfl

/-! The key. -/

def keyText : Text := "image:".toList

theorem afterKey_of {lead : Text} (hlead : ∀ c∈lead, isSpace c=true) (rest : Text) :
    afterKey (lead++(keyText++rest))=some rest := by
  have hdrop : (lead++(keyText++rest)).dropWhile isSpace=keyText++rest := by
    refine dropWhile_bounded hlead fun x hx => ?_
    obtain rfl : 'i'=x := Option.some.inj hx
    decide
  have hstart : keyText.isPrefixOf (keyText++rest)=true := List.isPrefixOf_iff_prefix.mpr (List.prefix_append _ _)
  rw [afterKey, hdrop]
  exact if_pos hstart

theorem afterKey_some {line : Text} (h : afterKey line=some rest) :
    ∃ lead, line=lead++(keyText++rest) ∧ ∀ c∈lead, isSpace c=true := by
  obtain ⟨lead, hlead, hall⟩ := dropWhile_split isSpace line
  rw [afterKey] at h
  split at h
  · rename_i hstart
    cases h
    obtain ⟨more, hmore⟩ := List.isPrefixOf_iff_prefix.mp hstart
    refine ⟨lead, ?_, hall⟩
    rw [← hmore] at hlead ⊢
    exact hlead
  · cases h

theorem entry_text (e : Entry) : e.text=List.replicate e.indent ' '++
    (e.gaps.flatMap (fun gap => '-' :: List.replicate (gap+1) ' ')++
      (e.key.written++(e.before++ ':' :: (e.after++(e.value.written++e.rest))))) := by
  simp only [Entry.text, Entry.lead, List.append_assoc, List.cons_append]

/-- An entry has the key where the pattern looks for it only if nothing else stands there. -/
theorem afterKey_entry (hkey : e.key.value=imageKey) (h : afterKey e.text=some rest) :
    e.gaps=[] ∧ e.key.isPlain=true ∧ e.before=[] ∧ rest=e.after++(e.value.written++e.rest) := by
  obtain ⟨lead, hline, hlead⟩ := afterKey_some h
  have hdrop : e.text.dropWhile isSpace=keyText++rest := by
    rw [hline]
    refine dropWhile_bounded hlead fun x hx => ?_
    obtain rfl : 'i'=x := Option.some.inj hx
    decide
  have hindent : ∀ c∈List.replicate e.indent ' ', isSpace c=true := by
    intro c hc
    rw [List.eq_of_mem_replicate hc]
    decide
  rw [entry_text] at hdrop
  cases hgaps : e.gaps with
  | cons gap gaps =>
    rw [hgaps, dropWhile_bounded hindent (fun x hx => by obtain rfl : '-'=x := Option.some.inj hx; decide)] at hdrop
    cases hdrop
  | nil =>
    rw [hgaps, List.flatMap_nil, List.nil_append] at hdrop
    cases hk : e.key with
    | single text =>
      rw [hk, dropWhile_bounded hindent (fun x hx => by obtain rfl : '\''=x := Option.some.inj hx; decide)] at hdrop
      cases hdrop
    | double items =>
      rw [hk, dropWhile_bounded hindent (fun x hx => by obtain rfl : '"'=x := Option.some.inj hx; decide)] at hdrop
      cases hdrop
    | plain text hplain =>
      rw [hk] at hkey
      obtain rfl : text=imageKey := hkey
      have hwritten : (FlowScalar.plain imageKey hplain).written=imageKey := rfl
      rw [hk, hwritten, dropWhile_bounded hindent (fun x hx => by obtain rfl : 'i'=x := Option.some.inj hx; decide),
        show keyText++rest=imageKey++(':' :: rest) from rfl] at hdrop
      have hcolon := List.append_cancel_left hdrop
      cases hbefore : e.before with
      | nil =>
        rw [hbefore] at hcolon
        exact ⟨rfl, rfl, rfl, (List.cons.inj hcolon).2.symm⟩
      | cons c before =>
        rw [hbefore] at hcolon
        have hc := e.blanks.1 c (by simp [hbefore])
        rw [(List.cons.inj hcolon).1] at hc
        exact absurd hc (by decide)

/-- The key alone in front of the colon is where the pattern looks for it. -/
theorem afterKey_simple (hkey : e.key.value=imageKey) (hgaps : e.gaps=[]) (hbare : e.key.isPlain=true)
    (hbefore : e.before=[]) : afterKey e.text=some (e.after++(e.value.written++e.rest)) := by
  have hwritten : e.key.written=imageKey := by
    cases hk : e.key with
    | plain text hplain =>
      rw [hk] at hkey
      obtain rfl : text=imageKey := hkey
      rfl
    | single text => simp [hk, FlowScalar.isPlain] at hbare
    | double items => simp [hk, FlowScalar.isPlain] at hbare
  rw [entry_text, hgaps, hwritten, hbefore]
  refine afterKey_of (fun c hc => ?_) _
  rw [List.eq_of_mem_replicate hc]
  decide

/-! The value. -/

theorem content_hash (scalar : FlowScalar) (h : '#'∉scalar.value) : '#'∉scalar.content := by
  cases scalar with
  | plain text hplain => exact h
  | single text =>
    intro hin
    obtain ⟨c, hc, hin⟩ := List.mem_flatMap.mp hin
    split at hin
    · rename_i hquote
      subst hquote
      simp at hin
    · obtain rfl := List.mem_singleton.mp hin
      exact h hc
  | double items =>
    intro hin
    obtain ⟨item, hitem, hin⟩ := List.mem_flatMap.mp hin
    cases item with
    | char c hplain =>
      obtain rfl := List.mem_singleton.mp hin
      exact h (List.mem_map.mpr ⟨_, hitem, rfl⟩)
    | escape behind c hescape =>
      rcases List.mem_cons.mp hin with heq | hin
      · exact absurd heq (by decide)
      · exact escape_hash hescape hin

/-- Each end of a written value shows the end of the value. -/
theorem content_bounded (scalar : FlowScalar) (h : Bounded isQuote scalar.value) : Bounded isQuote scalar.content := by
  cases scalar with
  | plain text hplain => exact h
  | single text =>
    constructor
    · intro x hx
      cases text with
      | nil => cases hx
      | cons c text =>
        refine h.head x ?_
        by_cases hc : c= '\'' <;> simpa [FlowScalar.content, FlowScalar.value, hc] using hx
    · intro x hx
      induction text using List.reverseRecOn with
      | nil => cases hx
      | append_singleton text c =>
        refine h.last x ?_
        by_cases hc : c= '\'' <;> simpa [FlowScalar.content, FlowScalar.value, hc] using hx
  | double items =>
    constructor
    · intro x hx
      cases items with
      | nil => cases hx
      | cons item items =>
        cases item with
        | char c hplain =>
          obtain rfl : c=x := Option.some.inj hx
          exact h.head c rfl
        | escape behind c hescape =>
          obtain rfl : '\\'=x := Option.some.inj hx
          decide
    · intro x hx
      induction items using List.reverseRecOn with
      | nil => cases hx
      | append_singleton items item =>
        rw [FlowScalar.content, List.flatMap_append, List.flatMap_singleton] at hx
        have hlast := h.last item.value (by simp [FlowScalar.value])
        cases item with
        | char c hplain =>
          obtain rfl : c=x := by simpa [Item.written] using hx
          exact hlast
        | escape behind c hescape =>
          by_contra hquote
          have hend : behind.getLast?=some x := by
            cases behind with
            | nil => exact absurd (escape_length hescape) (by simp)
            | cons d behind =>
              simpa [Item.written, List.getLast?_append, List.getLast?_cons_cons] using hx
          have hx' : x= '"' ∨ x= '\'' := by simpa [isQuote, or_iff_not_imp_left] using hquote
          obtain rfl := escape_last hescape hend hx'
          cases hlast

theorem stripQuotes_written (scalar : FlowScalar) (h : Bounded isQuote scalar.value) :
    stripQuotes scalar.written=scalar.content := by
  have hquotes : ∀ c∈scalar.quotes, isQuote c=true := by
    cases scalar <;> simp [FlowScalar.quotes, isQuote]
  exact trim_between (content_bounded scalar h) hquotes hquotes

/-- A scalar begins and ends with characters that are no blanks. -/
structure Solid (w : Text) : Prop where
  bounded : Bounded isSpace w
  nonempty : w≠[]

theorem written_last {front : Text} {q x : Char} (h : (front++[q]).getLast?=some x) : q=x := by
  simpa using h

theorem written_solid (scalar : FlowScalar) (h : scalar.isPlain=true → Bounded isSpace scalar.value) :
    Solid scalar.written := by
  cases scalar with
  | plain text hplain =>
    have hwritten : (FlowScalar.plain text hplain).written=text := List.append_nil text
    rw [hwritten]
    refine ⟨h rfl, ?_⟩
    rintro rfl
    cases hplain
  | single text =>
    refine ⟨⟨fun x hx => ?_, fun x hx => ?_⟩, by simp [FlowScalar.written, FlowScalar.quotes]⟩
    · obtain rfl : '\''=x := Option.some.inj hx
      decide
    · obtain rfl : '\''=x := written_last hx
      decide
  | double items =>
    refine ⟨⟨fun x hx => ?_, fun x hx => ?_⟩, by simp [FlowScalar.written, FlowScalar.quotes]⟩
    · obtain rfl : '"'=x := Option.some.inj hx
      decide
    · obtain rfl : '"'=x := written_last hx
      decide

theorem rest_tail (e : Entry) : Tail e.rest := by
  refine ⟨e.trail, e.comment.elim [] ('#' :: ·), rfl, fun c hc => blank_space (e.blanks.2.2 c hc), ?_⟩
  cases hcomment : e.comment with
  | none => exact .inl rfl
  | some comment => exact .inr ⟨e.apart.2 (by simp [hcomment]), rfl⟩

/-- Where the key stands in its place, a value without a hash is found as it is written. -/
theorem imageValue_written (h : afterKey e.text=some (e.after++(e.value.written++e.rest)))
    (hhash : '#'∉e.value.value) (hsolid : e.value.isPlain=true → Bounded isSpace e.value.value) :
    imageValue e.text=some (stripQuotes e.value.written) := by
  obtain ⟨hbounded, hne⟩ := written_solid e.value hsolid
  obtain ⟨last, hlast⟩ := Option.ne_none_iff_exists'.mp (fun h => hne (List.getLast?_eq_none_iff.mp h))
  have hwritten : '#'∉e.value.written := by
    have hcontent := content_hash e.value hhash
    have hquotes : '#'∉e.value.quotes := by
      cases e.value <;> simp [FlowScalar.quotes]
    simp [FlowScalar.written, hcontent, hquotes]
  obtain ⟨more, hfrom, hmore⟩ := valueFrom_solid hlast (hbounded.last last hlast) hwritten (rest_tail e)
  have hdrop : (e.after++(e.value.written++e.rest)).dropWhile isSpace=e.value.written++e.rest := by
    refine dropWhile_bounded (fun c hc => blank_space (e.blanks.2.1 c hc)) fun x hx => ?_
    cases hw : e.value.written with
    | nil => exact absurd hw hne
    | cons c w =>
      rw [hw] at hx hbounded
      obtain rfl : c=x := Option.some.inj hx
      exact hbounded.head c rfl
  have hafter : ∀ spaces, valueAfter spaces (e.value.written++e.rest)=some (e.value.written++more) := by
    intro spaces
    cases spaces with
    | nil => exact hfrom
    | cons c spaces => rw [valueAfter, hfrom, Option.some_or]
  have hstrip : strip (e.value.written++more)=e.value.written := by
    have := @trim_between Char isSpace e.value.written [] more hbounded (List.forall_mem_nil _) hmore
    rwa [List.nil_append] at this
  rw [imageValue, h, Option.bind_eq_bind, Option.bind_some, hdrop, hafter, Option.bind_some, hstrip]
  rfl

theorem space_quote {c : Char} (hspace : isSpace c=true) (hquote : isQuote c=true) : False := by
  rcases Bool.or_eq_true_iff.mp hquote with h | h
  · rw [of_decide_eq_true h] at hspace
    exact absurd hspace (by decide)
  · rw [of_decide_eq_true h] at hspace
    exact absurd hspace (by decide)

/-- What has no hash begins no later text than the one in front of the first hash. -/
theorem prefix_before {xs ys comment : Text} (hclear : '#'∉xs) (h : xs<+:ys++comment)
    (hhead : comment.head?=some '#') : xs<+:ys := by
  cases le_or_gt xs.length ys.length with
  | inl hle => exact List.prefix_of_prefix_length_le h (List.prefix_append ys comment) hle
  | inr hlt =>
    cases comment with
    | nil => cases hhead
    | cons c comment =>
      obtain rfl : c= '#' := Option.some.inj hhead
      have hlonger : ys++['#']<+:xs := by
        refine List.prefix_of_prefix_length_le ⟨comment, by simp⟩ h ?_
        rw [List.length_append]
        exact hlt
      exact absurd (hlonger.subset (by simp)) hclear

/-- A plain value that is found has no more at its ends: what the quotes would cost is nowhere in the line. -/
theorem plain_solid (hplain : e.value.isPlain=true) (hhash : '#'∉e.value.value) {v : Text}
    (h : valueAfter ((e.after++(e.value.written++e.rest)).takeWhile isSpace).reverse
      ((e.after++(e.value.written++e.rest)).dropWhile isSpace)=some v)
    (hv : stripQuotes (strip v)=e.value.value) : Bounded isSpace e.value.value := by
  have hwritten : e.value.written=e.value.value := by
    cases hs : e.value with
    | plain text hp => exact List.append_nil text
    | single text => simp [hs, FlowScalar.isPlain] at hplain
    | double items => simp [hs, FlowScalar.isPlain] at hplain
  have hspaces : ∀ c∈((e.after++(e.value.written++e.rest)).takeWhile isSpace).reverse, isSpace c=true :=
    fun c hc => List.mem_takeWhile_imp (List.mem_reverse.mp hc)
  obtain ⟨hclean, before, more, hline, hbefore⟩ := valueAfter_some hspaces h
  rw [List.reverse_reverse, List.takeWhile_append_dropWhile, hwritten] at hline
  -- up to the comment there are no quotes but those of the value
  obtain ⟨trail, comment, hrest, htrail, hcomment⟩ := rest_tail e
  have hfront : '#'∉e.after++e.value.value++trail := by
    have hblank : ∀ {cs : Text}, (∀ c∈cs, isSpace c=true) → '#'∉cs := fun hcs hin => by
      exact absurd (hcs _ hin) (by decide)
    have hafter := hblank fun c hc => blank_space (e.blanks.2.1 c hc)
    simp [hhash, hafter, hblank htrail]
  have hclear : '#'∉before++v := by
    rw [List.mem_append, not_or]
    exact ⟨fun hin => absurd (hbefore _ hin) (by decide), hclean⟩
  have hstart : before++v<+:e.after++e.value.value++trail := by
    rw [hrest, ← List.append_assoc, ← List.append_assoc] at hline
    have hmore : '#'∉before++v ∧ before++v<+:(e.after++e.value.value++trail)++comment :=
      ⟨hclear, more, by rw [hline]⟩
    rcases hcomment with rfl | ⟨-, hhead⟩
    · simpa using hmore.2
    · refine prefix_before hmore.1 hmore.2 hhead
  obtain ⟨back, hback⟩ := hstart
  obtain ⟨a, b, hstrip, ha, hb⟩ := trim_split isSpace v
  obtain ⟨q, q', hquotes, hq, hq'⟩ := trim_split isQuote (strip v)
  have hsame : Trimming.trim isQuote (strip v)=e.value.value := hv
  rw [hsame] at hquotes
  have hcount : (q++q').length≤0 := by
    have htotal := congrArg (List.countP isQuote) hback
    have hv' := congrArg (List.countP isQuote) hstrip
    have hw' := congrArg (List.countP isQuote) hquotes
    have hnone : ∀ {cs : Text}, (∀ c∈cs, isSpace c=true) → cs.countP isQuote=0 := fun hcs =>
      List.countP_eq_zero.mpr fun c hc hquote => space_quote (hcs c hc) hquote
    have hafter := hnone fun c hc => blank_space (e.blanks.2.1 c hc)
    have hqall := List.countP_eq_length.mpr hq
    have hqall' := List.countP_eq_length.mpr hq'
    have hmiddle : (strip v).countP isQuote=(Trimming.trim isSpace v).countP isQuote := rfl
    simp only [List.countP_append, hnone htrail, hafter, List.length_append] at htotal hv' hw' ⊢
    omega
  have hnil : q++q'=[] := List.length_eq_zero_iff.mp (Nat.le_zero.mp hcount)
  obtain ⟨rfl, rfl⟩ := List.append_eq_nil_iff.mp hnil
  have heq : strip v=e.value.value := by simpa using hquotes
  exact heq ▸ trim_bounded isSpace v

/-- A line's entry is found with its value just when it is laid out as the pattern expects. -/
theorem imageValue_iff (hkey : e.key.value=imageKey) : imageValue e.text=some e.value.value ↔ Simple e := by
  constructor
  · intro h
    rw [imageValue] at h
    obtain ⟨rest, hrest, h⟩ := Option.bind_eq_some_iff.mp h
    obtain ⟨v, hv, h⟩ := Option.bind_eq_some_iff.mp h
    have hvalue : stripQuotes (strip v)=e.value.value := Option.some.inj h
    obtain ⟨hgaps, hbare, hbefore, rfl⟩ := afterKey_entry hkey hrest
    have hunquoted : Bounded isQuote e.value.value := hvalue ▸ trim_bounded isQuote (strip v)
    have hhash : '#'∉e.value.value := by
      have hspaces : ∀ c∈((e.after++(e.value.written++e.rest)).takeWhile isSpace).reverse, isSpace c=true :=
        fun c hc => List.mem_takeWhile_imp (List.mem_reverse.mp hc)
      obtain ⟨hclean, -⟩ := valueAfter_some hspaces hv
      obtain ⟨a, b, hstrip, -⟩ := trim_split isSpace v
      obtain ⟨q, q', hquotes, -⟩ := trim_split isQuote (strip v)
      have hsame : Trimming.trim isQuote (strip v)=e.value.value := hvalue
      intro hin
      have hstripped : '#'∈Trimming.trim isSpace v := by
        show '#'∈strip v
        rw [hquotes, hsame]
        simp [hin]
      refine hclean ?_
      rw [hstrip]
      simp [hstripped]
    have hsolid : e.value.isPlain=true → Bounded isSpace e.value.value :=
      fun hplain => plain_solid hplain hhash hv hvalue
    have hwritten := imageValue_written hrest hhash hsolid
    have hliteral : e.value.content=e.value.value := by
      rw [imageValue, hrest, Option.bind_eq_bind, Option.bind_some, hv, Option.bind_some] at hwritten
      rw [← stripQuotes_written e.value hunquoted, ← Option.some.inj hwritten]
      exact hvalue
    exact ⟨hgaps, hbare, hbefore, hhash, hliteral, hunquoted, hsolid⟩
  · intro h
    rw [imageValue_written (afterKey_simple hkey h.unlisted h.bare h.close) h.unhashed h.solid,
      stripQuotes_written e.value h.unquoted, h.literal]

end ReleaseImages
end TraceGuard
