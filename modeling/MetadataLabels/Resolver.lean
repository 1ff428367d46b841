import MetadataLabels.Graph.Member
import MetadataLabels.Graph.Slot
import MetadataLabels.Logged
import MetadataLabels.Registry

/-!
# Resolving references

A reference is resolved to the definition it stands for.  Both resolvers follow
the links that the graph records; the registry also binds a type reference
without a live link to the registered definition of the same full name.
-/

namespace MetadataLabels

/-! ## References to members -/

inductive MethodReference
  | definition (id : MethodId)
  | member (id : MemberRefId)

namespace MethodReference

def name? (g : Graph) : MethodReference -> Option String
  | .definition id => (g.method? id).map fun row => row.name
  | .member id => (g.memberRef? id).map fun row => row.name

/-- The signature at the place of reference; a reference to a field has none. -/
def signature? (g : Graph) : MethodReference -> Option MethodSig
  | .definition id => (g.method? id).map fun row => row.signature
  | .member id => (g.memberRef? id).bind fun row => row.signature.method?

def definition? (g : Graph) : MethodReference -> Option MethodId
  | .definition id => g.live? id
  | .member id =>
      match g.target? id with
      | some (.method m) => some m
      | _ => none

end MethodReference

inductive FieldReference
  | definition (id : FieldId)
  | member (id : MemberRefId)

namespace FieldReference

def name? (g : Graph) : FieldReference -> Option String
  | .definition id => (g.field? id).map fun row => row.name
  | .member id => (g.memberRef? id).map fun row => row.name

def definition? (g : Graph) : FieldReference -> Option FieldId
  | .definition id => g.live? id
  | .member id =>
      match g.target? id with
      | some (.field f) => some f
      | _ => none

end FieldReference

/-! ## Resolvers -/

inductive Resolver
  | links
  | registry (reg : Registry)

namespace Resolver

def byName (r : Resolver) (fullName : String) : Logged (Option TypeId) :=
  match r with
  | .links => pure none
  | .registry reg =>
      match reg.findDefinition? fullName with
      | some t => pure (some t)
      | none => do
          Logged.note (.unresolvedType fullName)
          pure none

/-- A definition is its own; a reference follows its link, and its name if it has none. -/
def resolveType (r : Resolver) (g : Graph) (t : TypeId) : Logged (Option TypeId) :=
  match g.type? t with
  | none => pure none
  | some row =>
      if row.isDefinition then
        pure (some t)
      else
        match g.definition? t with
        | some d => pure (some d)
        | none => r.byName row.fullName

def baseType (r : Resolver) (g : Graph) (t : TypeId) : Logged (Option TypeId) :=
  match g.base? t with
  | some b => r.resolveType g b
  | none => pure none

def resolveMethod (_ : Resolver) (g : Graph) (m : MethodReference) : Option MethodId :=
  m.definition? g

def resolveField (_ : Resolver) (g : Graph) (f : FieldReference) : Option FieldId :=
  f.definition? g

/-- A generic instantiation resolves like its base; what does not name a type does not resolve. -/
def resolveSignature (r : Resolver) (g : Graph) : TypeSig -> Logged (Option TypeId)
  | .named _ t => r.resolveType g t
  | .inst base _ => r.resolveSignature g base
  | .basic _ => pure none
  | .modified _ _ => pure none
  | .param _ _ => pure none

end Resolver
end MetadataLabels
