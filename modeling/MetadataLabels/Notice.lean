import MetadataLabels.Resource.Key
import MetadataLabels.Text.Numeral

/-!
# Notices

What a query reports besides its answer: a walk that was cut at its limit, a
reference that could not be resolved, a text that was not localized.
-/

namespace MetadataLabels

inductive Level
  | warn
  | trace
deriving DecidableEq

def Level.text : Level -> String
  | .warn => "WARN"
  | .trace => "TRACE"

inductive Notice
  | tupleNesting (limit : Nat)
  | baseChain (fullName : String) (limit : Nat)
  | attributeHierarchy (fullName : String) (limit : Nat)
  | unresolvedType (fullName : String)
  | missingText (key : ResourceKey)
deriving DecidableEq

namespace Notice

/-- A cut walk may hide a wrong answer and is a warning; the rest is for diagnosis only. -/
def level : Notice -> Level
  | .tupleNesting _ => .warn
  | .baseChain _ _ => .warn
  | .attributeHierarchy _ _ => .warn
  | .unresolvedType _ => .trace
  | .missingText _ => .trace

def message : Notice -> String
  | .tupleNesting limit =>
      "ValueTuple nesting exceeds " ++ Numeral.decimal limit ++
        " levels, not treating it as a tuple"
  | .baseChain fullName limit =>
      "base type chain of " ++ fullName ++ " exceeds " ++ Numeral.decimal limit ++ " levels"
  | .attributeHierarchy fullName limit =>
      "attribute hierarchy of " ++ fullName ++ " exceeds " ++ Numeral.decimal limit ++ " levels"
  | .unresolvedType fullName =>
      "unable to resolve type reference " ++ fullName
  | .missingText key =>
      "no translation for " ++ key.id ++ ", using English"

end Notice
end MetadataLabels
