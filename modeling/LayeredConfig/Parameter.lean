import LayeredConfig.Text.Split

/-!
# Connection parameters

Which keys describe a connection, which never take part in making up a default connection, which
name secrets, and what older files call them. Letters are compared without case only where a rule
says so, and then only those of ASCII.
-/

namespace LayeredConfig.Parameter

/-- The parameters of a connection. -/
def all : List String :=
  ["account", "user", "password", "host", "port", "region", "protocol", "database", "schema", "role",
    "warehouse", "authenticator", "private_key_file", "private_key_path", "private_key_passphrase",
    "token", "token_file_path", "oauth_client_id", "oauth_client_secret", "session_token",
    "master_token", "mfa_passcode", "client_store_temporary_credential",
    "workload_identity_provider"]

/-- Root keys that are settings of their own, not parameters of a default connection.
See `SPEC_FULL.md:164–165`. -/
def reservedRootKeys : List String :=
  ["connections", "variables", "cli", "default_connection_name"]

/-- Words by which the name of a secret is recognised. -/
def secretWords : List String :=
  ["password", "passwd", "pwd", "passphrase", "token", "secret", "passcode"]

/-- Older names of parameters and the names in use now. See `SPEC_FULL.md:110`. -/
def legacyNames : List (String × String) :=
  [("accountname", "account"), ("username", "user"), ("pwd", "password"), ("dbname", "database"),
    ("schemaname", "schema"), ("rolename", "role"), ("warehousename", "warehouse"),
    ("private_key_path", "private_key_file")]

/-- Whether a key is a connection parameter. -/
def isParameter (key : String) : Bool := all.contains key

/-- Whether a root key may move into a default connection. See `SPEC_FULL.md:163–165`, Phase C. -/
def isEligible (key : String) : Bool := !reservedRootKeys.contains key

/-- The part of a dotted key after its last dot. -/
def lastSegment (key : String) : List Char :=
  match Text.cut '.' key.toList with
  | (first, others) => others.getLastD first

/-- Whether values under a dotted key must not be shown. Only the last segment counts.
See `SPEC_FULL.md:59–60`. -/
def isSensitive (key : String) : Bool :=
  let leaf := (lastSegment key).map Char.toLower
  secretWords.any fun word ↦ Text.occursIn word.toList leaf

/-- The name in use now for a parameter of an older file. -/
def current (key : String) : String :=
  let key := Text.lowerAscii key
  match legacyNames.find? fun (old, _) ↦ old == key with
  | some (_, name) => name
  | none => key

/-- The connection made up from free-standing parameters. -/
def defaultConnection : String := "default"

end LayeredConfig.Parameter
