import MetadataLabels.Graph.Kind

/-!
# Signatures

The types of fields, parameters and return values as metadata spells them.  A
signature names a type of the graph by its identity only: it does not keep the
type alive.
-/

namespace MetadataLabels

inductive BasicType
  | unknown
  | void
  | boolean
  | char
  | int8
  | uint8
  | int16
  | uint16
  | int32
  | uint32
  | int64
  | uint64
  | float32
  | float64
  | string
  | nativeInt
  | nativeUInt
  | object
  | typedByRef
deriving DecidableEq, Inhabited

/-- What is made of one other type. -/
inductive Modifier
  | pointer
  | byRef
  | vector
  | pinned
  | array (rank : Nat)
deriving DecidableEq

inductive Storage
  | valueType
  | reference
deriving DecidableEq

inductive GenericOwner
  | type
  | method
deriving DecidableEq

inductive TypeSig
  | basic (type : BasicType)
  | modified (modifier : Modifier) (of : TypeSig)
  | named (storage : Storage) (type : TypeId)
  | param (owner : GenericOwner) (index : Nat)
  | inst (base : TypeSig) (args : List TypeSig)
deriving Inhabited

structure Instantiation where
  base : TypeSig
  args : List TypeSig

namespace TypeSig

def unknown : TypeSig :=
  .basic .unknown

def ofInst (inst : Instantiation) : TypeSig :=
  .inst inst.base inst.args

def inst? : TypeSig -> Option Instantiation
  | .inst base args => some ⟨base, args⟩
  | _ => none

theorem inst?_eq_some_iff {s : TypeSig} {i : Instantiation} :
    s.inst? = some i <-> s = .ofInst i := by
  cases s with
  | inst base args =>
      cases i
      simp [inst?, ofInst]
  | _ =>
      simp [inst?, ofInst]

end TypeSig

structure ParamSig where
  byRef : Bool := false
  type : TypeSig := .unknown
deriving Inhabited

structure MethodSig where
  hasThis : Bool := false
  vararg : Bool := false
  genericCount : Nat := 0
  returns : ParamSig := {}
  params : List ParamSig := []
deriving Inhabited

structure FieldSig where
  type : TypeSig := .unknown
deriving Inhabited

inductive MemberSig
  | method (signature : MethodSig)
  | field (signature : FieldSig)

def MemberSig.method? : MemberSig -> Option MethodSig
  | .method signature => some signature
  | .field _ => none

end MetadataLabels
