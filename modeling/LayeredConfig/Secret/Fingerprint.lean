import LayeredConfig.Digest.Sha256
import LayeredConfig.Json

/-!
# Fingerprints

A fingerprint stands in for a secret in an export: equal secrets stay comparable and nothing of them
is shown. It is the beginning of the SHA-256 digest of a string's own bytes, or of the JSON text of
any other value.
-/

namespace LayeredConfig.Secret

/-- A byte as two hexadecimal digits. -/
def hexByte (b : UInt8) : List Char := [Json.hexDigit (b.toNat / 16), Json.hexDigit (b.toNat % 16)]

/-- The text whose digest is taken. -/
def digestText : Value → String
  | .string s => s
  | v => v.compact

/-- The stand-in for a secret value: four bytes of its digest. See `SPEC_FULL.md:206–208`. -/
def fingerprint (v : Value) : String :=
  let bytes := (Sha256.digest (digestText v).toUTF8.toList).take 4
  "<redacted sha256:" ++ String.ofList (bytes.flatMap hexByte) ++ ">"

end LayeredConfig.Secret
