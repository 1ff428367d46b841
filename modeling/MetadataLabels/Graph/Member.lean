import MetadataLabels.Graph.Basic

/-!
# Members

The lists in which a type keeps its methods, fields, properties and events, and
a method its parameters.  Members are appended and never taken out.
-/

namespace MetadataLabels

inductive MemberList
  | methods
  | fields
  | properties
  | events
  | params
deriving DecidableEq

namespace MemberList

abbrev owner : MemberList -> Kind
  | .methods => .type
  | .fields => .type
  | .properties => .type
  | .events => .type
  | .params => .method

abbrev member : MemberList -> Kind
  | .methods => .method
  | .fields => .field
  | .properties => .property
  | .events => .event
  | .params => .param

def get : (l : MemberList) -> Row l.owner -> List (RowId l.member)
  | .methods, r => TypeRow.methods r
  | .fields, r => TypeRow.fields r
  | .properties, r => TypeRow.properties r
  | .events, r => TypeRow.events r
  | .params, r => MethodRow.params r

def append : (l : MemberList) -> RowId l.member -> Row l.owner -> Row l.owner
  | .methods, m, r => { r with methods := TypeRow.methods r ++ [m] }
  | .fields, m, r => { r with fields := TypeRow.fields r ++ [m] }
  | .properties, m, r => { r with properties := TypeRow.properties r ++ [m] }
  | .events, m, r => { r with events := TypeRow.events r ++ [m] }
  | .params, m, r => { r with params := MethodRow.params r ++ [m] }

@[simp]
theorem get_append (l : MemberList) (m : RowId l.member) (r : Row l.owner) :
    l.get (l.append m r) = l.get r ++ [m] := by
  cases l <;> rfl

@[simp]
theorem decl_append (l : MemberList) (m : RowId l.member) (r : Row l.owner) :
    Row.decl l.owner (l.append m r) = Row.decl l.owner r := by
  cases l <;> rfl

end MemberList

namespace Graph

def members (g : Graph) (l : MemberList) (owner : RowId l.owner) : List (RowId l.member) :=
  match g.find? owner with
  | some row => l.get row
  | none => []

def methodsOf (g : Graph) (t : TypeId) : List MethodId :=
  g.members .methods t

def attributes (g : Graph) {k : Kind} (id : RowId k) : List Attribute :=
  match g.find? id with
  | some row => Row.customAttributes k row
  | none => []

end Graph
end MetadataLabels
