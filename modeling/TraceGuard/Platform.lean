import TraceGuard.Redaction
import TraceGuard.Types

/-! What the policy takes from outside the repository: the regular expression engine, Unicode
case folding, the text of a container value, the float `sum`, which differs between Python
versions, the JSON Schema validator and the URL parser. No proof uses anything about them. -/
namespace TraceGuard

/-- `urlsplit` with its attributes. -/
structure SplitUrl where
  scheme : String
  hostname : Option String
  port : Option Nat
  username : Option String
  password : Option String
  path : String
  query : String
  fragment : String

structure Platform extends Re where
  /-- `str.casefold`. -/
  casefold : String → String
  /-- `str` of a value that is not a text. -/
  str : Json → String
  /-- `sum` of a list of numbers; `none` is an `OverflowError`. -/
  sum : List PyNumber → Option PyNumber
  /-- Whether `Draft202012Validator` accepts the schema and the arguments under it. -/
  validates : Json → Json → Except PyError Bool
  /-- `re.findall` of a pattern without groups. -/
  findall : Pattern → String → List String
  /-- The first match of a pattern: the whole of it and its groups. -/
  groups : Pattern → String → Option (List String)
  /-- Whether the interval between two ISO times is so many hours; `none` is an exception. -/
  spans : String → String → String → Option Bool
  /-- Whether `re.fullmatch` matches. -/
  fullmatch : Pattern → String → Bool
  /-- `none` is a `ValueError` of `urlsplit` or of one of the attributes. -/
  urlsplit : String → Option SplitUrl
  /-- `host.encode("idna").decode("ascii")`. -/
  idna : String → Option String
  /-- Whether `IPv6Address` accepts the text. -/
  ipv6 : String → Bool
  unquote : String → String

/-- `re.escape`. -/
def reEscape (text : String) : String :=
  String.ofList (text.toList.flatMap fun c =>
    if c∈"()[]\x7b\x7d?*+-|^$\\.&~# \t\n\r\x0b\x0c".toList then ['\\', c] else [c])

/-- `str(value)`. -/
def Platform.text (platform : Platform) : Json → String
  | .str text => text
  | value => platform.str value

end TraceGuard
