import Mathlib.Data.List.Infix
import TraceGuard.Decimal
import TraceGuard.Trimming

/-! The image references of release manifests: how they are found in a text, checked, and put in the place of
placeholders. -/
namespace TraceGuard
open Decimal (isSpace strip)

namespace ReleaseImages

abbrev Text := List Char

/-! References. -/

inductive Label where
  | releaseImage
  | image (line : Nat)
  deriving DecidableEq

/-- Why a reference is refused, for its message. -/
inductive Reason where
  | blank
  | separator
  | mutable
  | placeholder
  | port
  | tag
  | repository
  deriving DecidableEq

inductive ReleaseValidationError where
  | reference (label : Label) (reason : Reason)
  | unreadable
  | noImages
  | placeholderLeft
  | unwritten
  deriving DecidableEq

/-- The zeros of the decimal digits; the other nine follow each. -/
def zeros : List Nat :=
  [0x30, 0x660, 0x6f0, 0x7c0, 0x966, 0x9e6, 0xa66, 0xae6, 0xb66, 0xbe6, 0xc66, 0xce6, 0xd66, 0xde6, 0xe50, 0xed0,
    0xf20, 0x1040, 0x1090, 0x17e0, 0x1810, 0x1946, 0x19d0, 0x1a80, 0x1a90, 0x1b50, 0x1bb0, 0x1c40, 0x1c50, 0xa620,
    0xa8d0, 0xa900, 0xa9d0, 0xa9f0, 0xaa50, 0xabf0, 0xff10, 0x104a0, 0x10d30, 0x11066, 0x110f0, 0x11136, 0x111d0,
    0x112f0, 0x11450, 0x114d0, 0x11650, 0x116c0, 0x11730, 0x118e0, 0x11950, 0x11c50, 0x11d50, 0x11da0, 0x16a60,
    0x16ac0, 0x16b50, 0x1d7ce, 0x1d7d8, 0x1d7e2, 0x1d7ec, 0x1d7f6, 0x1e140, 0x1e2f0, 0x1e950, 0x1fbf0]

/-- `str.isdecimal` of one character. -/
def isDecimal (c : Char) : Bool := zeros.any fun first => first ≤ c.toNat ∧ c.toNat < first+10

def lowerHex (c : Char) : Bool := c∈"0123456789abcdef".toList

def alnum (c : Char) : Bool := c∈"abcdefghijklmnopqrstuvwxyz0123456789".toList

/-- `^sha256:[0-9a-f]\x7b64\x7d$`. -/
def digestForm (digest : Text) : Bool :=
  "sha256:".toList.isPrefixOf digest && (digest.drop 7).length=64 && (digest.drop 7).all lowerHex

/-- `[a-z0-9]+(?:[._-][a-z0-9]+)*`, from a place where a separator may stand or not. -/
def componentFrom : Bool → Text → Bool
  | ended, [] => ended
  | ended, c :: cs =>
    if alnum c then componentFrom true cs
    else if c∈['.', '_', '-'] then ended && componentFrom false cs
    else false

def component (part : Text) : Bool := componentFrom false part

/-- `str.lower` as far as the markers can tell: no other letter has a lower case that is in one of them. -/
def lower (text : Text) : Text := text.map Char.toLower

def placeholderMarkers : List Text := ["replace", "placeholder", "changeme", "todo"].map String.toList

/-- `text.split(separator)`. -/
def split (separator : Char) : Text → List Text
  | [] => [[]]
  | c :: cs =>
    if c=separator then [] :: split separator cs
    else match split separator cs with
      | [] => [[c]]
      | part :: parts => (c :: part) :: parts

/-- The check of one part of a repository's name. -/
def checkPart (label : Label) (count : Nat) (part : Text) (index : Nat) : Except ReleaseValidationError Unit :=
  if index=0 ∧ count>1 ∧ ':'∈part then
    -- `part.rpartition(":")`
    let port := (part.reverse.takeWhile (·≠ ':')).reverse
    let host := part.take (part.length-(port.length+1))
    if ¬component host ∨ port=[] ∨ ¬port.all isDecimal then .error (.reference label .port) else .ok ()
  else if ¬component part then
    if index+1=count ∧ ':'∈part then .error (.reference label .tag) else .error (.reference label .repository)
  else .ok ()

def validateImageDigest (image : Text) (label : Label) : Except ReleaseValidationError Text := do
  let candidate := strip image
  if candidate=[] ∨ candidate≠image ∨ candidate.any isSpace then throw (.reference label .blank)
  if candidate.count '@'≠1 then throw (.reference label .separator)
  let repository := candidate.takeWhile (·≠ '@')
  let digest := candidate.drop (repository.length+1)
  if repository=[] ∨ ¬digestForm digest then throw (.reference label .mutable)
  if ∃ marker∈placeholderMarkers, marker <:+: lower candidate then throw (.reference label .placeholder)
  let parts := split '/' repository
  parts.zipIdx.forM fun part => checkPart label parts.length part.1 part.2
  return candidate

/-! Lines. -/

/-- Where `str.splitlines` splits. -/
def isBreak (c : Char) : Bool :=
  c.toNat∈[0xa, 0xb, 0xc, 0xd, 0x1c, 0x1d, 0x1e, 0x85, 0x2028, 0x2029]

/-- The lines of a text, each with what ends it. -/
def lines : Text → List (Text × Text)
  | [] => []
  | '\r' :: '\n' :: cs => ([], ['\r', '\n']) :: lines cs
  | c :: cs =>
    if isBreak c then ([], [c]) :: lines cs
    else match lines cs with
      | [] => [([c], [])]
      | line :: more => (c :: line.1, line.2) :: more

/-- What may follow the value: `(?:\s+#.*)?$`. -/
def ends (rest : Text) : Bool :=
  rest=[] || (rest.head?.any isSpace && (rest.dropWhile isSpace).head?=some '#')

/-- `[^#\r\n]+?`: as little as what follows allows. -/
def valueFrom : Text → Option Text
  | [] => none
  | c :: cs =>
    if c= '#' then none
    else if ends cs then some [c]
    else (valueFrom cs).map (c :: ·)

/-- `\s*` before the value: it has taken `spaces`, the last one first, and gives them back one by one. -/
def valueAfter : Text → Text → Option Text
  | [], cs => valueFrom cs
  | c :: spaces, cs => (valueFrom cs).or (valueAfter spaces (c :: cs))

/-- What follows `^\s*image:`. -/
def afterKey (line : Text) : Option Text :=
  let rest := line.dropWhile isSpace
  if "image:".toList.isPrefixOf rest then some (rest.drop 6) else none

def isQuote (c : Char) : Bool := c= '"' || c= '\''

/-- `.strip("\"'")`. -/
def stripQuotes (cs : Text) : Text := Trimming.trim isQuote cs

/-- What `_IMAGE_LINE_RE` finds in a line, stripped. -/
def imageValue (line : Text) : Option Text := do
  let rest ← afterKey line
  let value ← valueAfter (rest.takeWhile isSpace).reverse (rest.dropWhile isSpace)
  return stripQuotes (strip value)

/-! Manifests. -/

structure ManifestImage where
  line : Nat
  value : Text
  deriving DecidableEq

def imagesFrom (start : Nat) (ls : List (Text × Text)) : List ManifestImage :=
  (ls.zipIdx start).filterMap fun line => (imageValue line.1.1).map fun value => ⟨line.2+1, value⟩

/-- `manifest_images`; without a text the manifest cannot be read. -/
def manifestImages (manifest : Option Text) : Except ReleaseValidationError (List ManifestImage) :=
  match manifest with
  | none => .error .unreadable
  | some text => if imagesFrom 0 (lines text)=[] then .error .noImages else .ok (imagesFrom 0 (lines text))

def marker : Text := "REPLACE_WITH_RELEASE_DIGEST".toList

def substituted (replacement : Option Text) (value : Text) : Text :=
  match replacement with
  | some image => if marker <:+: value ∧ image≠[] then image else value
  | none => value

def validateManifest (manifest : Option Text) (releaseImage : Option Text) : Except ReleaseValidationError Unit := do
  let replacement ← releaseImage.mapM fun image => validateImageDigest image .releaseImage
  let images ← manifestImages manifest
  images.forM fun image =>
    (validateImageDigest (substituted replacement image.value) (.image image.line)).map fun _ => ⟨⟩

/-- `text.replace(old, new, 1)`. -/
def replaceFirst (old new : Text) : Text → Text
  | [] => if old=[] then new else []
  | c :: cs =>
    if old.isPrefixOf (c :: cs) then new++(c :: cs).drop old.length else c :: replaceFirst old new cs

/-- A turn of the loop that puts in the release image. -/
def put (releaseImage : Option Text) (ls : List Text) (image : ManifestImage) : List Text :=
  match releaseImage with
  | some release =>
    if marker <:+: image.value then ls.modify (image.line-1) (replaceFirst image.value release) else ls
  | none => ls

/-- `render_manifest`: the text that is written, if a new file can be made of it. -/
def renderManifest (manifest : Option Text) (created : Bool) (releaseImage : Option Text) :
    Except ReleaseValidationError Text := do
  validateManifest manifest releaseImage
  let ls := (lines (manifest.getD [])).map fun line => line.1++line.2
  let images ← manifestImages manifest
  let rendered := (images.foldl (put releaseImage) ls).flatten
  if marker <:+: rendered then throw .placeholderLeft
  if ¬created then throw .unwritten
  return rendered

end ReleaseImages
end TraceGuard
