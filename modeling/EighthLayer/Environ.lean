import Mathlib.Data.String.Basic

/-!
# EighthLayer.Environ

The process environment, and Python's `or` on optional strings.
-/

namespace EighthLayer

/-- `os.environ`. -/
structure Environ where
  lookup : String → Option String

/-- `os.environ.get(name, default)`. -/
def Environ.get (env : Environ) (name default : String) : String :=
  (env.lookup name).getD default

/-- Python's truth of an optional string: neither `None` nor empty. -/
def truthy : Option String → Bool
  | none => false
  | some s => s ≠ ""

/-- `a or b`, for an optional string `a`. -/
def pyOr (a : Option String) (b : String) : String :=
  match a with
  | none => b
  | some s => if s = "" then b else s

/-- `CQ_ENTERPRISE`, with its default. -/
def Environ.enterprise (env : Environ) : String := env.get "CQ_ENTERPRISE" "default-enterprise"

/-- `CQ_GROUP`, with the default of `reputation.py`. -/
def Environ.group (env : Environ) : String := env.get "CQ_GROUP" "default-group"

/-- The id of this L2 in `reputation.py`, `<enterprise>/<group>`. -/
def Environ.selfL2Id (env : Environ) : String := env.enterprise ++ "/" ++ env.group

end EighthLayer
