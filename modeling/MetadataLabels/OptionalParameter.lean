import MetadataLabels.Badge
import MetadataLabels.Limit

/-!
# Optional parameters

A parameter is optional if it has a constant, or an attribute that stands for
one: an attribute whose type is, or derives from, one of the two constant
attributes.
-/

namespace MetadataLabels

def isConstantAttributeName (fullName : String) : Bool :=
  fullName == AttributeName.customConstant || fullName == AttributeName.decimalConstant

namespace Graph

def isConstantAttributeType (g : Graph) (t : TypeId) : Bool :=
  (g.type? t).any fun row => isConstantAttributeName row.fullName

end Graph

namespace Resolver

/-- Looks for a constant attribute among the next `fuel` types of the hierarchy of the attribute
called `fullName`.  Having looked at that many without an answer is worth a warning. -/
def derivesFromConstant (r : Resolver) (g : Graph) (fullName : String) :
    Nat -> Option TypeId -> Logged Bool
  | 0, _ => do
      Logged.note (.attributeHierarchy fullName Limit.levels)
      pure false
  | _ + 1, none => pure false
  | fuel + 1, some t =>
      if g.isConstantAttributeType t then
        pure true
      else do
        let definition <- r.resolveType g t
        r.derivesFromConstant g fullName fuel (definition.bind g.base?)

def isConstantAttribute (r : Resolver) (g : Graph) (a : Attribute) : Logged Bool :=
  if isConstantAttributeName a.fullName then
    pure true
  else
    r.derivesFromConstant g a.fullName Limit.levels (a.type.bind g.live?)

def isOptional (r : Resolver) (g : Graph) (p : ParamId) : Logged Bool :=
  if (g.read .paramDefault p).isSome then
    pure true
  else
    Logged.anyM (r.isConstantAttribute g) (g.attributes p)

end Resolver
end MetadataLabels
