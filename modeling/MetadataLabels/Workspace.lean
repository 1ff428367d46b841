import MetadataLabels.Graph.Ownership
import MetadataLabels.Registry

/-!
# Workspaces

A metadata graph while it is built: the rows that someone outside holds, and the
registry, which holds the types it knows.  What neither leads to by ownership is
released.  Only giving up a hold can make a row unreachable, so only then are
rows looked for that have to go.

The registry may be read while it is written, so the map behind it does not drop
a replaced type at once: readers may still be at it.  It lets go of the type some
time after, and until then the type is retired, neither stored nor released.  When
that is, is for the map to choose, and so it is a change of its own here, which a
run may make anywhere.

A change can only be made with rows that someone has, which are alive, or with a
link to a row, which may dangle.  Anything else is refused and changes nothing.
-/

namespace MetadataLabels

structure Workspace where
  graph : Graph := {}
  held : List Node := []
  registry : Registry := {}
  retired : List TypeId := []

inductive AttributeSource
  | type (id : TypeId)
  | name (fullName : String)

namespace Workspace

/-! ## Liveness -/

def roots (w : Workspace) : List Node :=
  w.held ++ (w.registry.holders.map fun r => r.type.node) ++ w.retired.map RowId.node

def collect (w : Workspace) : Workspace :=
  let reached := w.graph.reach w.roots
  { w with graph := w.graph.retain reached.contains }

/-!
## Changes

A new row is held by whoever made it.  Registering a type retires the type that
had its token.
-/

def create (w : Workspace) (k : Kind) (decl : Decl k) : RowId k × Workspace :=
  let id := w.graph.next k
  (id, { w with graph := w.graph.create k decl, held := id.node :: w.held })

def append (w : Workspace) (l : MemberList) (owner : RowId l.owner) (member : RowId l.member) :
    Option Nat × Workspace :=
  if w.graph.isLive owner.node && w.graph.isLive member.node then
    (some (w.graph.members l owner).length,
      { w with graph := w.graph.modify owner (l.append member) })
  else
    (none, w)

/-- The attribute that a source describes; there is none if its type is gone. -/
def attributeOf? (w : Workspace) (token : Token) : AttributeSource -> Option Attribute
  | .name fullName => some ⟨token, fullName, none⟩
  | .type id => (w.graph.type? id).map fun row => ⟨token, row.fullName, some id⟩

def annotate (w : Workspace) {k : Kind} (carrier : RowId k) (token : Token)
    (source : AttributeSource) : Option String × Workspace :=
  match w.attributeOf? token source with
  | some a =>
      if w.graph.isLive carrier.node && k != .memberRef then
        (some a.fullName, { w with graph := w.graph.modify carrier (Row.annotate a k) })
      else
        (none, w)
  | none => (none, w)

/-- Answers whether the slot was still free. -/
def link (w : Workspace) (s : Slot) (carrier : RowId s.carrier) (value : s.Value) :
    Bool × Workspace :=
  if w.graph.isLive carrier.node && w.graph.accepts s value then
    ((w.graph.recorded s carrier).isNone,
      { w with graph := w.graph.fill s carrier value })
  else
    (false, w)

def store (w : Workspace) (new : Registration) : Workspace :=
  { w with
    registry := w.registry.insert new
    retired := w.retired ++ (w.registry.holdersOf new.token).map Registration.type }

def register (w : Workspace) (type : TypeId) : Option Nat × Workspace :=
  match w.graph.type? type with
  | some row =>
      let stored := w.store ⟨type, row.token, row.fullName⟩
      (some stored.registry.size, stored)
  | none => (none, w)

/-- The map of the registry lets go of a type that was replaced. -/
def reclaim (w : Workspace) (type : TypeId) : Bool × Workspace :=
  if type ∈ w.retired then
    (true, { w with retired := w.retired.erase type }.collect)
  else
    (false, w)

def release (w : Workspace) (n : Node) : Bool × Workspace :=
  if n ∈ w.held then
    (true, { w with held := w.held.erase n }.collect)
  else
    (false, w)

end Workspace

/-! ## Runs -/

inductive Edit
  | create (k : Kind) (decl : Decl k)
  | append (l : MemberList) (owner : RowId l.owner) (member : RowId l.member)
  | annotate {k : Kind} (carrier : RowId k) (token : Token) (source : AttributeSource)
  | link (s : Slot) (carrier : RowId s.carrier) (value : s.Value)
  | register (type : TypeId)
  | reclaim (type : TypeId)
  | release (n : Node)

namespace Workspace

def apply (w : Workspace) : Edit -> Workspace
  | .create k decl => (w.create k decl).2
  | .append l owner member => (w.append l owner member).2
  | .annotate carrier token source => (w.annotate carrier token source).2
  | .link s carrier value => (w.link s carrier value).2
  | .register type => (w.register type).2
  | .reclaim type => (w.reclaim type).2
  | .release n => (w.release n).2

def run (w : Workspace) (edits : List Edit) : Workspace :=
  edits.foldl apply w

end Workspace
end MetadataLabels
