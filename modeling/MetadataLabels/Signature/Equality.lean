import MetadataLabels.Graph.Basic

/-!
# Equality of signatures

Two signatures are equal if they have the same shape and name the same types.
A type is the same as itself, and the same as a type of equal namespace and
name while both are alive; so a reference and the definition that it stands for
name the same type.
-/

namespace MetadataLabels
namespace Graph

/-! ## Types -/

def sameType (g : Graph) (a b : TypeId) : Bool :=
  a == b ||
    match g.type? a, g.type? b with
    | some x, some y => x.name == y.name
    | _, _ => false

mutual

def sameSig (g : Graph) : TypeSig -> TypeSig -> Bool
  | .basic a, .basic b => a == b
  | .modified m a, .modified n b => m == n && sameSig g a b
  | .named s a, .named t b => s == t && g.sameType a b
  | .param o i, .param p j => o == p && i == j
  | .inst a as, .inst b bs => sameSig g a b && sameSigs g as bs
  | _, _ => false

def sameSigs (g : Graph) : List TypeSig -> List TypeSig -> Bool
  | [], [] => true
  | a :: as, b :: bs => sameSig g a b && sameSigs g as bs
  | _, _ => false

end

def sameInst (g : Graph) (a b : Instantiation) : Bool :=
  g.sameSig a.base b.base && g.sameSigs a.args b.args

/-! ## Members -/

def sameParam (g : Graph) (a b : ParamSig) : Bool :=
  a.byRef == b.byRef && g.sameSig a.type b.type

def sameMethodSig (g : Graph) (a b : MethodSig) : Bool :=
  a.hasThis == b.hasThis && a.vararg == b.vararg && a.genericCount == b.genericCount &&
    g.sameParam a.returns b.returns && a.params.isEqv b.params g.sameParam

def sameFieldSig (g : Graph) (a b : FieldSig) : Bool :=
  g.sameSig a.type b.type

def sameMemberSig (g : Graph) : MemberSig -> MemberSig -> Bool
  | .method a, .method b => g.sameMethodSig a b
  | .field a, .field b => g.sameFieldSig a b
  | _, _ => false

end Graph
end MetadataLabels
