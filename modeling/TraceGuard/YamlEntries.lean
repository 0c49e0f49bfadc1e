import Mathlib.Data.List.TakeWhile

/-! Lines of block-style YAML that give a key a value: a key and a value that are plain or quoted scalars, behind
the dashes of list items, with or without a comment. A value is what the line means, not how it is written. -/
namespace Yaml

abbrev Text := List Char

def blank (c : Char) : Bool := c= ' ' || c= '\t'

/-- What a plain scalar does not begin with. -/
def indicators : Text := "-?:,[]#&*!|>'\"%@`\x7b\x7d".toList

/-- No comment and no other key begins in a plain scalar, and no blank ends it. -/
def plainTail : Text → Bool
  | [] => true
  | [c] => c≠ ':' && !blank c
  | c :: d :: cs => !(blank c && d= '#') && !(c= ':' && blank d) && plainTail (d :: cs)

def plainText (text : Text) : Bool :=
  match text with
  | [] => false
  | c :: cs =>
    !blank c && (c∉indicators || (c∈['-', '?', ':'] && cs.head?.any fun d => !blank d)) && plainTail text

/-- The escapes of a single character. -/
def letters : List (Char × Char) :=
  [('0', '\x00'), ('a', '\x07'), ('b', '\x08'), ('t', '\t'), ('n', '\n'), ('v', '\x0b'), ('f', '\x0c'),
    ('r', '\r'), ('e', '\x1b'), (' ', ' '), ('"', '"'), ('/', '/'), ('\\', '\\'), ('N', '\u0085'),
    ('_', '\u00a0'), ('L', '\u2028'), ('P', '\u2029')]

def hexDigits : Text := "0123456789abcdefABCDEF".toList

/-- The value of hexadecimal digits. -/
def hexValue (digits : Text) : Nat :=
  digits.foldl (fun n d => n*16+(if d.isDigit then d.toNat- '0'.toNat else d.toLower.toNat- 'a'.toNat+10)) 0

/-- What stands behind the backslash of an escape for a character. -/
inductive Escape : Text → Char → Prop where
  | letter {c d : Char} (h : (c, d)∈letters) : Escape [c] d
  | code {kind d : Char} {digits : Text} (h : (kind, digits.length)∈[('x', 2), ('u', 4), ('U', 8)])
      (digit : ∀ digit∈digits, digit∈hexDigits) (value : hexValue digits=d.toNat) : Escape (kind :: digits) d

/-- A piece of a text in double quotes. -/
inductive Item where
  | char (c : Char) (plain : c≠ '"' ∧ c≠ '\\')
  | escape (behind : Text) (c : Char) (h : Escape behind c)

namespace Item

def written : Item → Text
  | char c _ => [c]
  | escape behind _ _ => '\\' :: behind

def value : Item → Char
  | char c _ => c
  | escape _ c _ => c

end Item

/-- A scalar on one line. -/
inductive FlowScalar where
  | plain (text : Text) (h : plainText text=true)
  | single (text : Text)
  | double (items : List Item)

namespace FlowScalar

def value : FlowScalar → Text
  | plain text _ => text
  | single text => text
  | double items => items.map Item.value

/-- How the value is written, without the quotes around it. -/
def content : FlowScalar → Text
  | plain text _ => text
  | single text => text.flatMap fun c => if c= '\'' then [c, c] else [c]
  | double items => items.flatMap Item.written

/-- The quote at both ends. -/
def quotes : FlowScalar → Text
  | plain _ _ => []
  | single _ => ['\'']
  | double _ => ['"']

def written (scalar : FlowScalar) : Text := scalar.quotes++scalar.content++scalar.quotes

def isPlain : FlowScalar → Bool
  | plain _ _ => true
  | _ => false

end FlowScalar

structure Entry where
  indent : Nat
  /-- One for each dash: how many more blanks than the first follow it. -/
  gaps : List Nat
  key : FlowScalar
  /-- Between the key and the colon. -/
  before : Text
  /-- Behind the colon. -/
  after : Text
  value : FlowScalar
  trail : Text
  comment : Option Text
  blanks : (∀ c∈before, blank c=true) ∧ (∀ c∈after, blank c=true) ∧ ∀ c∈trail, blank c=true
  apart : after≠[] ∧ (comment≠none → trail≠[])

namespace Entry

/-- What stands in front of the key. -/
def lead (e : Entry) : Text :=
  List.replicate e.indent ' '++e.gaps.flatMap fun gap => '-' :: List.replicate (gap+1) ' '

/-- What stands behind the value. -/
def rest (e : Entry) : Text := e.trail++e.comment.elim [] ('#' :: ·)

def text (e : Entry) : Text := e.lead++e.key.written++e.before++ ':' :: e.after++e.value.written++e.rest

end Entry

/-! Scalars as they are written. -/

theorem escape_length {behind : Text} {c : Char} (h : Escape behind c) : 1≤behind.length := by
  cases h <;> simp

theorem escape_hash {behind : Text} {c : Char} (h : Escape behind c) : '#'∉behind := by
  cases h with
  | letter h =>
    intro hin
    obtain rfl := List.mem_singleton.mp hin
    revert h
    simp [letters]
  | code hkind hdigits hvalue =>
    intro hin
    rcases List.mem_cons.mp hin with rfl | hin
    · simp at hkind
    · exact absurd (hdigits _ hin) (by decide)

/-- An escape ends in a quote only if it is one. -/
theorem escape_last {behind : Text} {c d : Char} (h : Escape behind c) (hd : behind.getLast?=some d)
    (hquote : d= '"' ∨ d= '\'') : c= '"' := by
  cases h with
  | letter h =>
    obtain rfl : _=d := by simpa using hd
    rcases hquote with rfl | rfl
    · simpa [letters] using h
    · simp [letters] at h
  | code hkind hdigits hvalue =>
    rename_i kind digits
    have hin := List.mem_of_getLast? hd
    rcases List.mem_cons.mp hin with rfl | hin
    · rcases hquote with rfl | rfl <;> simp at hkind
    · have := hdigits _ hin
      rcases hquote with rfl | rfl <;> exact absurd this (by decide)

end Yaml
