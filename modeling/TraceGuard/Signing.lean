import TraceGuard.JsonCodec

/-! Canonical JSON, its digest and its signature. The hash and the signature scheme are a
parameter: `sha256` gives the hex digest of a text's bytes. -/
namespace TraceGuard

structure Crypto where
  sha256 : String → String
  publicKey : String → String
  sign : String → String → String
  verify : String → String → String → Bool

/-- `json.dumps(value, sort_keys=True, separators=(",", ":"), allow_nan=False)`. -/
def canonical (value : Json) : Option String := Json.dumps Json.compact value

namespace Crypto
variable (crypto : Crypto)

/-- A value that cannot be written is not verified either. -/
def verifyValue (publicKey : String) (value : Json) (signature : String) : Bool :=
  match canonical value with
  | some message => crypto.verify publicKey message signature
  | none => false

/-- `Signer`: the seed of a purpose. -/
def seed (secret purpose : String) : String := crypto.sha256 (purpose++"\x00"++secret)

end Crypto
end TraceGuard
