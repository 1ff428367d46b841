import MetadataLabels.Graph.Member
import MetadataLabels.Graph.Slot

/-!
# Ownership

A type owns its members, a method its parameters, and a bound member reference
its target; every other link does not own.  A row is reachable if ownership
leads to it from a root.  Ownership goes down at most two steps, from a type or
a member reference over a method to a parameter, so two rounds find all that is
reachable.
-/

namespace MetadataLabels

/-! ## What a row owns -/

def Row.owned : (k : Kind) -> Row k -> List Node
  | .type, r =>
      (TypeRow.methods r).map RowId.node ++ (TypeRow.fields r).map RowId.node ++
        (TypeRow.properties r).map RowId.node ++ (TypeRow.events r).map RowId.node
  | .method, r => (MethodRow.params r).map RowId.node
  | .memberRef, r => (MemberRefRow.target r).toList.map MemberTarget.node
  | .field, _ => []
  | .property, _ => []
  | .event, _ => []
  | .param, _ => []

namespace Graph

def owned (g : Graph) (n : Node) : List Node :=
  match g.find? n.id with
  | some row => Row.owned n.kind row
  | none => []

/-! ## Reachability -/

inductive Reachable (g : Graph) (roots : List Node) : Node -> Prop
  | root {n : Node} : n ∈ roots -> Reachable g roots n
  | step {m n : Node} : Reachable g roots m -> n ∈ g.owned m -> Reachable g roots n

/-- The roots, what they own, and what that owns. -/
def reach (g : Graph) (roots : List Node) : List Node :=
  let first := roots.flatMap g.owned
  roots ++ first ++ first.flatMap g.owned

/-! ## Two rounds suffice -/

def depth : Kind -> Nat
  | .type => 2
  | .memberRef => 2
  | .method => 1
  | .field => 0
  | .property => 0
  | .event => 0
  | .param => 0

theorem depth_lt_of_mem_owned {k : Kind} {r : Row k} {n : Node} (h : n ∈ Row.owned k r) :
    depth n.kind < depth k := by
  cases k with
  | type =>
      simp only [Row.owned, List.mem_append, List.mem_map] at h
      rcases h with ((⟨m, _, rfl⟩ | ⟨m, _, rfl⟩) | ⟨m, _, rfl⟩) | ⟨m, _, rfl⟩ <;>
        simp [RowId.node, depth]
  | method =>
      simp only [Row.owned, List.mem_map] at h
      rcases h with ⟨m, _, rfl⟩
      simp [RowId.node, depth]
  | memberRef =>
      simp only [Row.owned, List.mem_map] at h
      rcases h with ⟨t, _, rfl⟩
      cases t <;> simp [MemberTarget.node, RowId.node, depth]
  | field =>
      simp [Row.owned] at h
  | property =>
      simp [Row.owned] at h
  | event =>
      simp [Row.owned] at h
  | param =>
      simp [Row.owned] at h

/-- Ownership has no cycle: it always leads to a kind of smaller depth. -/
theorem depth_lt_of_owned {g : Graph} {m n : Node} (h : n ∈ g.owned m) :
    depth n.kind < depth m.kind := by
  unfold owned at h
  split at h
  next row _ =>
      exact depth_lt_of_mem_owned h
  next =>
      simp at h

theorem depth_le_two (k : Kind) : depth k ≤ 2 := by
  cases k <;> simp [depth]

theorem mem_reach_of_root {g : Graph} {roots : List Node} {n : Node} (h : n ∈ roots) :
    n ∈ g.reach roots := by
  simp [reach, h]

theorem mem_reach_of_owned {g : Graph} {roots : List Node} {m n : Node}
    (hm : m ∈ g.reach roots) (hn : n ∈ g.owned m) : n ∈ g.reach roots := by
  simp only [reach, List.mem_append, List.mem_flatMap] at hm ⊢
  rcases hm with (hm | hm) | ⟨o, ho, hm⟩
  · exact Or.inl (Or.inr ⟨m, hm, hn⟩)
  · exact Or.inr ⟨m, hm, hn⟩
  · rcases ho with ⟨p, hp, ho⟩
    have h1 := depth_lt_of_owned ho
    have h2 := depth_lt_of_owned hm
    have h3 := depth_lt_of_owned hn
    have h4 := depth_le_two p.kind
    omega

theorem mem_reach_iff {g : Graph} {roots : List Node} {n : Node} :
    n ∈ g.reach roots <-> g.Reachable roots n := by
  constructor
  · intro h
    simp only [reach, List.mem_append, List.mem_flatMap] at h
    rcases h with (h | ⟨m, hm, hn⟩) | ⟨o, ⟨m, hm, ho⟩, hn⟩
    · exact .root h
    · exact .step (.root hm) hn
    · exact .step (.step (.root hm) ho) hn
  · intro h
    induction h with
    | root hroot =>
        exact mem_reach_of_root hroot
    | step _ howned ih =>
        exact mem_reach_of_owned ih howned

end Graph
end MetadataLabels
