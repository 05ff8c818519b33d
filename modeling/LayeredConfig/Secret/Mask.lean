import LayeredConfig.Parameter
import LayeredConfig.Value

/-!
# Masked tables

Before a configuration is shown, every value under the name of a secret is replaced, at every depth
of tables. Null shows nothing and tables are masked inside, so both stay.
-/

namespace LayeredConfig.Secret

/-- What is shown instead of a secret. -/
def mask : String := "****"

mutual

/-- The value to show under a key. -/
def shown (key : String) : Value → Value
  | .table entries => .table (masked entries)
  | .null => .null
  | v => if Parameter.isSensitive key then .string mask else v

/-- The table to show. -/
def masked : List (String × Value) → List (String × Value)
  | [] => []
  | (k, v) :: rest => (k, shown k v) :: masked rest

end

end LayeredConfig.Secret
