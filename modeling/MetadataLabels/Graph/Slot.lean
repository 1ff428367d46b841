import MetadataLabels.Graph.Basic

/-!
# Slots

A slot is a place of a row that is filled at most once: a link to another row,
or a default value.  Filling it again changes nothing.  Except for the target
of a member reference, a slot does not keep alive what it links to, so a link is
read only while its target lives.

The accessor slots of properties and events are given a link, and it may dangle
already; it fills the slot all the same.  All other slots are given the row
itself or a constant, so what they are filled with is alive.
-/

namespace MetadataLabels

inductive Slot
  | base
  | definition
  | declaringType
  | getter
  | setter
  | adder
  | remover
  | target
  | fieldDefault
  | paramDefault
deriving DecidableEq

namespace Slot

abbrev carrier : Slot -> Kind
  | .base => .type
  | .definition => .type
  | .declaringType => .method
  | .getter => .property
  | .setter => .property
  | .adder => .event
  | .remover => .event
  | .target => .memberRef
  | .fieldDefault => .field
  | .paramDefault => .param

abbrev Value : Slot -> Type
  | .base => TypeId
  | .definition => TypeId
  | .declaringType => TypeId
  | .getter => MethodId
  | .setter => MethodId
  | .adder => MethodId
  | .remover => MethodId
  | .target => MemberTarget
  | .fieldDefault => Constant
  | .paramDefault => Constant

def referent : (s : Slot) -> s.Value -> Option Node
  | .base, t => some (RowId.node t)
  | .definition, t => some (RowId.node t)
  | .declaringType, t => some (RowId.node t)
  | .getter, m => some (RowId.node m)
  | .setter, m => some (RowId.node m)
  | .adder, m => some (RowId.node m)
  | .remover, m => some (RowId.node m)
  | .target, t => some t.node
  | .fieldDefault, _ => none
  | .paramDefault, _ => none

/-- Whether the slot is given a link and not the row that it leads to. -/
def takesLink : Slot -> Bool
  | .getter => true
  | .setter => true
  | .adder => true
  | .remover => true
  | _ => false

def get : (s : Slot) -> Row s.carrier -> Option s.Value
  | .base, r => TypeRow.base r
  | .definition, r => TypeRow.definition r
  | .declaringType, r => MethodRow.declaringType r
  | .getter, r => PropertyRow.getter r
  | .setter, r => PropertyRow.setter r
  | .adder, r => EventRow.adder r
  | .remover, r => EventRow.remover r
  | .target, r => MemberRefRow.target r
  | .fieldDefault, r => FieldRow.default r
  | .paramDefault, r => ParamRow.default r

def put : (s : Slot) -> s.Value -> Row s.carrier -> Row s.carrier
  | .base, t, r => { r with base := some t }
  | .definition, t, r => { r with definition := some t }
  | .declaringType, t, r => { r with declaringType := some t }
  | .getter, m, r => { r with getter := some m }
  | .setter, m, r => { r with setter := some m }
  | .adder, m, r => { r with adder := some m }
  | .remover, m, r => { r with remover := some m }
  | .target, t, r => { r with target := some t }
  | .fieldDefault, c, r => { r with default := some c }
  | .paramDefault, c, r => { r with default := some c }

@[simp]
theorem get_put (s : Slot) (v : s.Value) (r : Row s.carrier) : s.get (s.put v r) = some v := by
  cases s <;> rfl

@[simp]
theorem get_ofDecl (s : Slot) (d : Decl s.carrier) : s.get (Row.ofDecl s.carrier d) = none := by
  cases s <;> rfl

@[simp]
theorem decl_put (s : Slot) (v : s.Value) (r : Row s.carrier) :
    Row.decl s.carrier (s.put v r) = Row.decl s.carrier r := by
  cases s <;> rfl

end Slot

namespace Graph

/-! ## Reading -/

/-- What was put into the slot, whether or not its target still lives. -/
def recorded (g : Graph) (s : Slot) (c : RowId s.carrier) : Option s.Value :=
  (g.find? c).bind s.get

def isCurrent (g : Graph) (s : Slot) (v : s.Value) : Bool :=
  (s.referent v).all g.isLive

def read (g : Graph) (s : Slot) (c : RowId s.carrier) : Option s.Value :=
  (g.recorded s c).filter (g.isCurrent s)

def base? (g : Graph) (t : TypeId) : Option TypeId :=
  g.read .base t

def definition? (g : Graph) (t : TypeId) : Option TypeId :=
  g.read .definition t

def declaringType? (g : Graph) (m : MethodId) : Option TypeId :=
  g.read .declaringType m

def target? (g : Graph) (r : MemberRefId) : Option MemberTarget :=
  g.read .target r

/-! ## Filling -/

/-- Whether anyone can have the value: a link to every row that was ever made, and a row while
it lives. -/
def accepts (g : Graph) (s : Slot) (v : s.Value) : Bool :=
  (s.referent v).all fun n => if s.takesLink then decide (g.Created n) else g.isLive n

def fill (g : Graph) (s : Slot) (c : RowId s.carrier) (v : s.Value) : Graph :=
  match g.recorded s c with
  | some _ => g
  | none => g.modify c (s.put v)

theorem fill_of_recorded {g : Graph} {s : Slot} {c : RowId s.carrier} {old : s.Value}
    (h : g.recorded s c = some old) (v : s.Value) : g.fill s c v = g := by
  simp [fill, h]

end Graph
end MetadataLabels
