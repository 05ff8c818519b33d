/-!
# Held secrets

A secret from the command line is kept in a wrapper whose debugging text is the same for all secrets.
-/

namespace LayeredConfig.Secret

/-- A string that is not to be shown. See `SPEC_FULL.md:255–257`. -/
structure Held where
  exposed : String

namespace Held

/-- Whether the secret is the empty string. -/
def isEmpty (s : Held) : Bool := s.exposed.isEmpty

/-- Debugging text. -/
def debug (_ : Held) : String := "SecretArg(Secret([REDACTED conflux::config::secret::SecretValue]))"

end Held

end LayeredConfig.Secret
