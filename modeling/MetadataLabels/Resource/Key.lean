/-!
# Keys of localizable texts

The tooltip texts that a host may localize, and the identifiers under which
its resource files list them.
-/

namespace MetadataLabels

inductive ResourceKey
  | oneMethodOverload
  | nMethodOverloads
deriving DecidableEq

namespace ResourceKey

def all : List ResourceKey :=
  [.oneMethodOverload, .nMethodOverloads]

def id : ResourceKey -> String
  | .oneMethodOverload => "ToolTip_OneMethodOverload"
  | .nMethodOverloads => "ToolTip_NMethodOverloads"

/-- The built-in text, in which the placeholder stands for the number. -/
def english : ResourceKey -> String
  | .oneMethodOverload => "1 overload"
  | .nMethodOverloads => "\x7b0\x7d overloads"

end ResourceKey
end MetadataLabels
