import TraceGuard.Platform

/-! URL destinations: which texts are executable destinations, and which lie in the scope of
another. -/
namespace TraceGuard

structure Destination where
  scheme : String
  host : String
  port : Nat
  path : String
  query : String
  deriving DecidableEq

section
variable (platform : Platform)

def invalidUrlCharacters : Pattern := { text := "[\\x00-\\x20\\x7f\\\\]" }

def hostPattern : Pattern := { text := "[a-z0-9-]+(?:\\.[a-z0-9-]+)*" }

def encodedAlias : Pattern := { text := "%(?:2e|2f|5c|25)|%(?![0-9a-f]\x7b2\x7d)", ignoreCase := true }

/-- The host in its canonical form. -/
def destinationHost (host : String) : Option String := do
  let host := (← platform.idna host).toLower
  if ':'∈host.toList then
    if platform.ipv6 host then some host else none
  else if platform.fullmatch hostPattern host then some host
  else none

/-- `destination`; `none` is an `UnsafeDestination`. -/
def destination (url : String) : Option Destination := do
  if platform.search invalidUrlCharacters url then none
  else
    let parsed ← platform.urlsplit url
    let host := parsed.hostname.getD ""
    if parsed.port=some 0 then none
    else if parsed.scheme∉["http", "https"] ∨ host="" ∨ parsed.username.isSome = true ∨
        parsed.password.isSome = true ∨ parsed.fragment≠"" ∨ '%'∈host.toList ∨
        host.toList.getLast? = some '.' then none
    else
      let host ← destinationHost platform host
      let path := if parsed.path="" then "/" else parsed.path
      if platform.search encodedAlias path then none
      else if ((platform.unquote path).splitOn "/").any (·∈[".", ".."]) then none
      else
        some ⟨parsed.scheme, host,
          parsed.port.getD (if parsed.scheme="https" then 443 else 80), path, parsed.query⟩

/-- `target_within_scope`: exact origins and query strings, path segment boundaries. -/
def targetWithinScope (scope target : String) : Bool :=
  match destination platform scope, destination platform target with
  | some allowed, some proposed =>
    let base := (allowed.path.toList.reverse.dropWhile (· = '/')).reverse ++ ['/']
    (allowed.scheme, allowed.host, allowed.port)=(proposed.scheme, proposed.host, proposed.port) &&
      (proposed.path=allowed.path || base.isPrefixOf proposed.path.toList) &&
      proposed.query=allowed.query
  | _, _ => false

end
end TraceGuard
