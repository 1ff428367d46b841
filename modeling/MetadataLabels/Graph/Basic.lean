import MetadataLabels.Graph.Row
import MetadataLabels.Graph.Table

/-!
# Metadata graphs

One table of rows for each kind.  A row that is in its table is alive; looking
up an identifier whose row was released answers nothing, which is how a link to
it is found to dangle.
-/

namespace MetadataLabels

structure Graph where
  types : Table TypeRow := {}
  methods : Table MethodRow := {}
  fields : Table FieldRow := {}
  properties : Table PropertyRow := {}
  events : Table EventRow := {}
  params : Table ParamRow := {}
  memberRefs : Table MemberRefRow := {}

namespace Graph

/-! ## Tables by kind -/

def table (g : Graph) : (k : Kind) -> Table (Row k)
  | .type => g.types
  | .method => g.methods
  | .field => g.fields
  | .property => g.properties
  | .event => g.events
  | .param => g.params
  | .memberRef => g.memberRefs

def setTable (g : Graph) : (k : Kind) -> Table (Row k) -> Graph
  | .type, t => { g with types := t }
  | .method, t => { g with methods := t }
  | .field, t => { g with fields := t }
  | .property, t => { g with properties := t }
  | .event, t => { g with events := t }
  | .param, t => { g with params := t }
  | .memberRef, t => { g with memberRefs := t }

@[simp]
theorem table_setTable (g : Graph) (k : Kind) (t : Table (Row k)) :
    (g.setTable k t).table k = t := by
  cases k <;> rfl

theorem table_setTable_of_ne (g : Graph) {k k' : Kind} (h : k' ≠ k) (t : Table (Row k)) :
    (g.setTable k t).table k' = g.table k' := by
  cases k <;> cases k' <;> first | rfl | exact absurd rfl h

/-! ## Rows -/

def find? (g : Graph) {k : Kind} (id : RowId k) : Option (Row k) :=
  (g.table k).get? id.index

def isLive (g : Graph) (n : Node) : Bool :=
  (g.find? n.id).isSome

/-- The identifier itself, if its row is alive. -/
def live? (g : Graph) {k : Kind} (id : RowId k) : Option (RowId k) :=
  if g.isLive id.node then some id else none

/-- The row was made at some time, whether or not it still lives. -/
def Created (g : Graph) (n : Node) : Prop :=
  n.index < (g.table n.kind).size

instance (g : Graph) (n : Node) : Decidable (g.Created n) :=
  inferInstanceAs (Decidable (n.index < (g.table n.kind).size))

theorem isLive_node (g : Graph) {k : Kind} (id : RowId k) :
    g.isLive id.node = (g.find? id).isSome :=
  rfl

theorem find?_of_not_isLive {g : Graph} {k : Kind} {id : RowId k}
    (h : g.isLive id.node = false) : g.find? id = none :=
  Option.not_isSome_iff_eq_none.mp (Bool.eq_false_iff.mp h)

def type? (g : Graph) (id : TypeId) : Option TypeRow :=
  g.find? id

def method? (g : Graph) (id : MethodId) : Option MethodRow :=
  g.find? id

def field? (g : Graph) (id : FieldId) : Option FieldRow :=
  g.find? id

def property? (g : Graph) (id : PropertyId) : Option PropertyRow :=
  g.find? id

def event? (g : Graph) (id : EventId) : Option EventRow :=
  g.find? id

def param? (g : Graph) (id : ParamId) : Option ParamRow :=
  g.find? id

def memberRef? (g : Graph) (id : MemberRefId) : Option MemberRefRow :=
  g.find? id

/-! ## Changes -/

def next (g : Graph) (k : Kind) : RowId k :=
  ⟨(g.table k).size⟩

def create (g : Graph) (k : Kind) (decl : Decl k) : Graph :=
  g.setTable k ((g.table k).push (Row.ofDecl k decl))

def modify (g : Graph) {k : Kind} (id : RowId k) (f : Row k -> Row k) : Graph :=
  g.setTable k ((g.table k).modify id.index f)

/-- Releases the rows that `keep` does not name. -/
def retain (g : Graph) (keep : Node -> Bool) : Graph where
  types := g.types.retain fun i => keep ⟨.type, i⟩
  methods := g.methods.retain fun i => keep ⟨.method, i⟩
  fields := g.fields.retain fun i => keep ⟨.field, i⟩
  properties := g.properties.retain fun i => keep ⟨.property, i⟩
  events := g.events.retain fun i => keep ⟨.event, i⟩
  params := g.params.retain fun i => keep ⟨.param, i⟩
  memberRefs := g.memberRefs.retain fun i => keep ⟨.memberRef, i⟩

/-! ## Rows after a change -/

theorem find?_create_next (g : Graph) (k : Kind) (decl : Decl k) :
    (g.create k decl).find? (g.next k) = some (Row.ofDecl k decl) := by
  simp [create, find?, next, Table.get?_push]

theorem find?_create_of_ne (g : Graph) (k : Kind) (decl : Decl k) {k' : Kind} (id : RowId k')
    (h : id.node ≠ (g.next k).node) : (g.create k decl).find? id = g.find? id := by
  by_cases hk : k' = k
  · subst hk
    have hi : id.index ≠ (g.table k').size := by
      intro e
      apply h
      simp [RowId.node, next, e]
    simp [create, find?, Table.get?_push, hi]
  · simp [create, find?, table_setTable_of_ne g hk]

theorem find?_next (g : Graph) (k : Kind) : g.find? (g.next k) = none := by
  exact Table.get?_eq_none_of_size_le (Nat.le_refl _)

theorem find?_modify_self (g : Graph) {k : Kind} (id : RowId k) (f : Row k -> Row k) :
    (g.modify id f).find? id = (g.find? id).map f := by
  simp [modify, find?, Table.get?_modify]

theorem find?_modify_of_ne (g : Graph) {k k' : Kind} (id : RowId k) (f : Row k -> Row k)
    (other : RowId k') (h : other.node ≠ id.node) :
    (g.modify id f).find? other = g.find? other := by
  by_cases hk : k' = k
  · subst hk
    have hi : other.index ≠ id.index := by
      intro e
      apply h
      simp [RowId.node, e]
    simp [modify, find?, Table.get?_modify, hi]
  · simp [modify, find?, table_setTable_of_ne g hk]

theorem isLive_modify (g : Graph) {k : Kind} (id : RowId k) (f : Row k -> Row k) (n : Node) :
    (g.modify id f).isLive n = g.isLive n := by
  by_cases h : n = id.node
  · subst h
    rw [isLive_node, isLive_node, find?_modify_self]
    simp
  · simp [isLive, find?_modify_of_ne g id f n.id h]

theorem find?_retain (g : Graph) (keep : Node -> Bool) {k : Kind} (id : RowId k) :
    (g.retain keep).find? id = if keep id.node then g.find? id else none := by
  cases k <;> exact Table.get?_retain _ _ _

theorem isLive_retain (g : Graph) (keep : Node -> Bool) (n : Node) :
    (g.retain keep).isLive n = (keep n && g.isLive n) := by
  by_cases h : keep n = true <;> simp [isLive, find?_retain, h]

theorem live?_eq_some_iff (g : Graph) {k : Kind} {id other : RowId k} :
    g.live? id = some other <-> other = id ∧ g.isLive id.node = true := by
  unfold live?
  split
  next h =>
      simp [h, eq_comm]
  next h =>
      simp [h]

end Graph
end MetadataLabels
