import MetadataLabels.Resolver

/-!
# Accessors

The property or event that a method gives access to.  Accessors are found by
the links of the declaring type's properties and events, in the order in which
it lists them; names play no role.  Properties come before events, a getter
before the setter of its property, an adder before the remover of its event.
-/

namespace MetadataLabels

inductive Accessor
  | getter (owner : PropertyId)
  | setter (owner : PropertyId)
  | adder (owner : EventId)
  | remover (owner : EventId)
deriving DecidableEq

namespace Graph

def propertyRole? (g : Graph) (m : MethodId) (p : PropertyId) : Option Accessor :=
  if g.recorded .getter p = some m then some (.getter p)
  else if g.recorded .setter p = some m then some (.setter p)
  else none

def eventRole? (g : Graph) (m : MethodId) (e : EventId) : Option Accessor :=
  if g.recorded .adder e = some m then some (.adder e)
  else if g.recorded .remover e = some m then some (.remover e)
  else none

def accessorOf? (g : Graph) (m : MethodId) : Option Accessor :=
  match g.declaringType? m with
  | none => none
  | some t =>
      match (g.members .properties t).findSome? (g.propertyRole? m) with
      | some accessor => some accessor
      | none => (g.members .events t).findSome? (g.eventRole? m)

end Graph

/-! ## Names of accessors -/

namespace Accessor

def stripLead? (lead text : String) : Option String :=
  if lead.toList.isPrefixOf text.toList then
    some (String.ofList (text.toList.drop lead.toList.length))
  else
    none

/-- The property that an accessor is named for, going by the method's name alone. -/
def propertyName? (methodName : String) : Option String :=
  match stripLead? "get_" methodName with
  | some name => some name
  | none => stripLead? "set_" methodName

end Accessor
end MetadataLabels
