/-!
# Kinds of metadata rows

Every entity of a metadata graph has a kind and an identity of its own.  A row
identifier carries its kind in its type, so a link can only be made to a row of
the kind it is meant for.
-/

namespace MetadataLabels

inductive Kind
  | type
  | method
  | field
  | property
  | event
  | param
  | memberRef
deriving DecidableEq

/-- The identity of a row; two rows with equal contents still have different identities. -/
structure RowId (k : Kind) where
  index : Nat
deriving DecidableEq

abbrev TypeId := RowId .type
abbrev MethodId := RowId .method
abbrev FieldId := RowId .field
abbrev PropertyId := RowId .property
abbrev EventId := RowId .event
abbrev ParamId := RowId .param
abbrev MemberRefId := RowId .memberRef

structure Node where
  kind : Kind
  index : Nat
deriving DecidableEq

def Node.id (n : Node) : RowId n.kind :=
  ⟨n.index⟩

def RowId.node {k : Kind} (id : RowId k) : Node :=
  ⟨k, id.index⟩

@[simp]
theorem RowId.id_node {k : Kind} (id : RowId k) : id.node.id = id :=
  rfl

@[simp]
theorem Node.node_id (n : Node) : n.id.node = n :=
  rfl

theorem RowId.node_inj {k : Kind} {a b : RowId k} : a.node = b.node <-> a = b := by
  cases a
  cases b
  simp [RowId.node]

end MetadataLabels
