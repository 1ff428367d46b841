import MetadataLabels.Constant
import MetadataLabels.Signature
import MetadataLabels.Token

/-!
# Rows

What a metadata graph knows about each entity.  A declaration is what is known
when the row is made and never changes; the row adds the links and members that
are recorded later.
-/

namespace MetadataLabels

/-! ## Names of types -/

structure TypeName where
  scope : String
  name : String
deriving DecidableEq, Inhabited

/-- The full name leaves out an empty namespace together with its dot. -/
def TypeName.full (n : TypeName) : String :=
  if n.scope = "" then n.name else n.scope ++ "." ++ n.name

inductive Flavor
  | void
  | boolean
  | char
  | int8
  | uint8
  | int16
  | uint16
  | int32
  | uint32
  | int64
  | uint64
  | float32
  | float64
  | nativeInt
  | nativeUInt
  | object
  | string
  | classType
  | valueType
  | interface
  | unknown
deriving DecidableEq, Inhabited

/-! ## Attributes -/

/-- A custom attribute keeps the full name of its type even where the type itself is gone. -/
structure Attribute where
  token : Token
  fullName : String
  type : Option TypeId

/-! ## Declarations -/

structure TypeDecl where
  token : Token
  flavor : Flavor
  name : TypeName
  assembly : Option String
deriving DecidableEq

namespace TypeDecl

def fullName (t : TypeDecl) : String :=
  t.name.full

def isDefinition (t : TypeDecl) : Bool :=
  t.token.isTypeDef

def isNamed (t : TypeDecl) (scope name : String) : Bool :=
  t.name == ⟨scope, name⟩

def coreLibraries : List String :=
  ["mscorlib", "System.Runtime", "netstandard", "System.Private.CoreLib"]

def inCoreLibrary (t : TypeDecl) : Bool :=
  t.assembly.any coreLibraries.contains

end TypeDecl

structure MethodDecl where
  token : Token
  name : String
  signature : MethodSig

structure FieldDecl where
  token : Token
  name : String
  signature : FieldSig

structure PropertyDecl where
  token : Token
  name : String

structure EventDecl where
  token : Token
  name : String

structure ParamDecl where
  token : Token
  sequence : Nat
  name : Option String

structure MemberRefDecl where
  token : Token
  name : String
  signature : MemberSig

/-! ## Rows -/

structure TypeRow extends TypeDecl where
  base : Option TypeId := none
  definition : Option TypeId := none
  methods : List MethodId := []
  fields : List FieldId := []
  properties : List PropertyId := []
  events : List EventId := []
  attributes : List Attribute := []

structure MethodRow extends MethodDecl where
  declaringType : Option TypeId := none
  params : List ParamId := []
  attributes : List Attribute := []

structure FieldRow extends FieldDecl where
  default : Option Constant := none
  attributes : List Attribute := []

structure PropertyRow extends PropertyDecl where
  getter : Option MethodId := none
  setter : Option MethodId := none
  attributes : List Attribute := []

structure EventRow extends EventDecl where
  adder : Option MethodId := none
  remover : Option MethodId := none
  attributes : List Attribute := []

structure ParamRow extends ParamDecl where
  default : Option Constant := none
  attributes : List Attribute := []

inductive MemberTarget
  | method (id : MethodId)
  | field (id : FieldId)
deriving DecidableEq

def MemberTarget.node : MemberTarget -> Node
  | .method id => id.node
  | .field id => id.node

structure MemberRefRow extends MemberRefDecl where
  target : Option MemberTarget := none

/-! ## Rows by kind -/

abbrev Decl : Kind -> Type
  | .type => TypeDecl
  | .method => MethodDecl
  | .field => FieldDecl
  | .property => PropertyDecl
  | .event => EventDecl
  | .param => ParamDecl
  | .memberRef => MemberRefDecl

abbrev Row : Kind -> Type
  | .type => TypeRow
  | .method => MethodRow
  | .field => FieldRow
  | .property => PropertyRow
  | .event => EventRow
  | .param => ParamRow
  | .memberRef => MemberRefRow

namespace Row

def decl : (k : Kind) -> Row k -> Decl k
  | .type, r => r.toTypeDecl
  | .method, r => r.toMethodDecl
  | .field, r => r.toFieldDecl
  | .property, r => r.toPropertyDecl
  | .event, r => r.toEventDecl
  | .param, r => r.toParamDecl
  | .memberRef, r => r.toMemberRefDecl

def ofDecl : (k : Kind) -> Decl k -> Row k
  | .type, d => { d with }
  | .method, d => { d with }
  | .field, d => { d with }
  | .property, d => { d with }
  | .event, d => { d with }
  | .param, d => { d with }
  | .memberRef, d => { d with }

/-- A member reference carries no attributes of its own. -/
def customAttributes : (k : Kind) -> Row k -> List Attribute
  | .type, r => r.attributes
  | .method, r => r.attributes
  | .field, r => r.attributes
  | .property, r => r.attributes
  | .event, r => r.attributes
  | .param, r => r.attributes
  | .memberRef, _ => []

def annotate (a : Attribute) : (k : Kind) -> Row k -> Row k
  | .type, r => { r with attributes := r.attributes ++ [a] }
  | .method, r => { r with attributes := r.attributes ++ [a] }
  | .field, r => { r with attributes := r.attributes ++ [a] }
  | .property, r => { r with attributes := r.attributes ++ [a] }
  | .event, r => { r with attributes := r.attributes ++ [a] }
  | .param, r => { r with attributes := r.attributes ++ [a] }
  | .memberRef, r => r

@[simp]
theorem decl_ofDecl (k : Kind) (d : Decl k) : decl k (ofDecl k d) = d := by
  cases k <;> rfl

@[simp]
theorem decl_annotate (a : Attribute) (k : Kind) (r : Row k) :
    decl k (annotate a k r) = decl k r := by
  cases k <;> rfl

end Row
end MetadataLabels
