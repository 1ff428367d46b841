import MetadataLabels.Text.Numeral

/-!
# Errors

Why a checked operation has no value.
-/

namespace MetadataLabels

inductive Error
  | notATuple
  | recursionLimit (limit : Nat)
  | unknownResource (id : String)
deriving DecidableEq

namespace Error

def message : Error -> String
  | .notATuple => "Generic instantiation is not a System.ValueTuple"
  | .recursionLimit limit =>
      "Reach the maximum recursion level allowed - " ++ Numeral.decimal limit
  | .unknownResource id => "Unknown resource identifier - " ++ id

end Error

end MetadataLabels
