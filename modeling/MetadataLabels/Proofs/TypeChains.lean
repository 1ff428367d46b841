import MetadataLabels.Proofs.PartialWalk
import MetadataLabels.Proofs.Resolution
import MetadataLabels.Proofs.SlotHistory

/-!
# Chains of any length

For every `n` a workspace can hold a chain of `n + 1` definitions, each the base of
the one before.  A walk that follows the bases comes to all of them in their order
and ends after the last, so every bound on such walks is met by some workspace.
-/

namespace MetadataLabels

namespace Workspace

/-!
## Edits that take effect
-/

theorem graph_apply_link {w : Workspace} {s : Slot} {carrier : RowId s.carrier}
    {value : s.Value} (hcarrier : w.graph.isLive carrier.node = true)
    (hvalue : w.graph.accepts s value = true) (hfree : w.graph.recorded s carrier = none) :
    (w.apply (.link s carrier value)).graph = w.graph.modify carrier (s.put value) := by
  rw [apply, link, if_pos (Bool.and_eq_true_iff.mpr ⟨hcarrier, hvalue⟩)]
  simp only [Graph.fill, hfree]

theorem graph_apply_annotate {w : Workspace} {k : Kind} {carrier : RowId k} {token : Token}
    {source : AttributeSource} {a : Attribute} (hsource : w.attributeOf? token source = some a)
    (hcarrier : w.graph.isLive carrier.node = true) (hkind : k ≠ .memberRef) :
    (w.apply (.annotate carrier token source)).graph =
      w.graph.modify carrier (Row.annotate a k) := by
  simp only [apply, annotate, hsource]
  rw [if_pos (Bool.and_eq_true_iff.mpr ⟨hcarrier, bne_iff_ne.mpr hkind⟩)]

end Workspace

namespace Graph

/-!
## Chains
-/

def chainDecl : TypeDecl :=
  ⟨⟨0x02000001⟩, .classType, ⟨"App", "Link"⟩, none⟩

/-- The types that were made are a chain: each is the base of the one before, and the `n`th, which
is the last, has no base. -/
structure IsChain (g : Graph) (n : Nat) : Prop where
  size : g.types.size = n + 1
  below : forall i, i < n -> exists row, g.type? ⟨i⟩ = some row ∧ row.toTypeDecl = chainDecl ∧
    row.base = some ⟨i + 1⟩
  top : exists row, g.type? ⟨n⟩ = some row ∧ row.toTypeDecl = chainDecl ∧ row.base = none

namespace IsChain

variable {g g' : Graph} {n : Nat}

theorem of_types (h : g.IsChain n) (htypes : g'.types = g.types) : g'.IsChain n := by
  have htype : forall t, g'.type? t = g.type? t := fun t =>
    congrArg (Table.get? · t.index) htypes
  refine ⟨?_, ?_, ?_⟩
  · exact (congrArg Table.size htypes).trans h.size
  · simpa only [htype] using h.below
  · simpa only [htype] using h.top

theorem decl (h : g.IsChain n) {i : Nat} (hi : i ≤ n) :
    exists row, g.type? ⟨i⟩ = some row ∧ row.toTypeDecl = chainDecl := by
  rcases Nat.lt_or_eq_of_le hi with hlt | rfl
  · rcases h.below i hlt with ⟨row, hrow, hdecl, _⟩
    exact ⟨row, hrow, hdecl⟩
  · rcases h.top with ⟨row, hrow, hdecl, _⟩
    exact ⟨row, hrow, hdecl⟩

theorem isLive (h : g.IsChain n) {i : Nat} (hi : i ≤ n) :
    g.isLive (⟨i⟩ : TypeId).node = true := by
  rcases h.decl hi with ⟨row, hrow, _⟩
  exact Option.isSome_iff_exists.mpr ⟨row, hrow⟩

/-!
## One more type
-/

theorem next_eq (h : g.IsChain n) : g.next .type = ⟨n + 1⟩ :=
  congrArg (RowId.mk (k := .type)) h.size

theorem type?_create_new (h : g.IsChain n) :
    (g.create .type chainDecl).type? ⟨n + 1⟩ = some { chainDecl with } := by
  rw [<- h.next_eq]
  exact find?_create_next g .type chainDecl

theorem type?_create_old (h : g.IsChain n) {i : Nat} (hi : i ≤ n) :
    (g.create .type chainDecl).type? ⟨i⟩ = g.type? ⟨i⟩ := by
  apply find?_create_of_ne
  rw [h.next_eq, Ne, RowId.node_inj, RowId.mk.injEq]
  omega

theorem apply_link_create {w : Workspace} (h : w.graph.IsChain n) :
    ((w.apply (.create .type chainDecl)).apply (.link .base ⟨n⟩ ⟨n + 1⟩)).graph =
      (w.graph.create .type chainDecl).modify (⟨n⟩ : TypeId)
        (Slot.base.put (⟨n + 1⟩ : TypeId)) := by
  have hcarrier : (w.graph.create .type chainDecl).isLive (⟨n⟩ : TypeId).node = true := by
    rw [isLive_node]
    exact (congrArg Option.isSome (h.type?_create_old (Nat.le_refl n))).trans
      (h.isLive (Nat.le_refl n))
  have hvalue : (w.graph.create .type chainDecl).isLive (⟨n + 1⟩ : TypeId).node = true :=
    congrArg Option.isSome h.type?_create_new
  have hfree : (w.graph.create .type chainDecl).recorded .base ⟨n⟩ = none := by
    rcases h.top with ⟨row, hrow, _, hbase⟩
    exact (congrArg (Option.bind · (Slot.get .base))
      ((h.type?_create_old (Nat.le_refl n)).trans hrow)).trans hbase
  exact Workspace.graph_apply_link hcarrier hvalue hfree

theorem extend (h : g.IsChain n) :
    ((g.create .type chainDecl).modify (⟨n⟩ : TypeId)
      (Slot.base.put (⟨n + 1⟩ : TypeId))).IsChain (n + 1) := by
  have hother : forall i, i ≠ n ->
      ((g.create .type chainDecl).modify (⟨n⟩ : TypeId)
        (Slot.base.put (⟨n + 1⟩ : TypeId))).type? ⟨i⟩ =
          (g.create .type chainDecl).type? ⟨i⟩ := by
    intro i hi
    apply find?_modify_of_ne
    rw [Ne, RowId.node_inj, RowId.mk.injEq]
    exact hi
  refine ⟨?size, ?below, ?top⟩
  case size =>
    calc
      _ = (g.types.push { chainDecl with }).size := Table.size_modify _ _ _
      _ = g.types.size + 1 := Table.size_push _ _
      _ = n + 1 + 1 := congrArg Nat.succ h.size
  case below =>
    intro i hi
    rcases Nat.lt_or_eq_of_le (Nat.le_of_lt_succ hi) with hlt | rfl
    · rw [hother i (Nat.ne_of_lt hlt), h.type?_create_old (Nat.le_of_lt hlt)]
      exact h.below i hlt
    · -- The last type so far is the one that gets a base.
      rcases h.top with ⟨row, hrow, hdecl, _⟩
      refine ⟨Slot.base.put (⟨i + 1⟩ : TypeId) row, ?_, hdecl, rfl⟩
      have hself := find?_modify_self (g.create .type chainDecl) (⟨i⟩ : TypeId)
        (Slot.base.put (⟨i + 1⟩ : TypeId))
      rw [type?, hself]
      exact congrArg (Option.map _) ((h.type?_create_old (Nat.le_refl i)).trans hrow)
  case top =>
    exact ⟨{ chainDecl with }, (hother (n + 1) (Nat.succ_ne_self n)).trans h.type?_create_new,
      rfl, rfl⟩

/-!
## Walking up

Every type of the chain is a definition and resolves to itself, so going up from the
`i`th comes to the next one, and from the last to nothing.
-/

theorem base? (h : g.IsChain n) {i : Nat} (hi : i < n) : g.base? ⟨i⟩ = some ⟨i + 1⟩ := by
  rcases h.below i hi with ⟨row, hrow, _, hbase⟩
  apply read_eq_some_iff.mpr
  constructor
  · exact Option.bind_eq_some_iff.mpr ⟨row, hrow, hbase⟩
  · exact h.isLive hi

theorem base?_top (h : g.IsChain n) : g.base? ⟨n⟩ = none := by
  rcases h.top with ⟨row, hrow, _, hbase⟩
  apply read_of_recorded_none
  exact (congrArg (Option.bind · (Slot.get .base)) hrow).trans hbase

theorem resolveType (h : g.IsChain n) {i : Nat} (hi : i ≤ n) (r : Resolver) :
    (r.resolveType g ⟨i⟩).value = some ⟨i⟩ := by
  rcases h.decl hi with ⟨row, hrow, hdecl⟩
  refine Resolver.value_resolveType_eq_some_iff.mpr ⟨row, hrow, Or.inl ⟨?_, rfl⟩⟩
  rw [hdecl]
  decide

end IsChain

theorem walk_of_steps {step : TypeId -> Option TypeId} {n : Nat}
    (hstep : forall i, i < n -> step ⟨i⟩ = some ⟨i + 1⟩) (htop : step ⟨n⟩ = none) (k : Nat) :
    walk step (some ⟨0⟩) k = if k ≤ n then some ⟨k⟩ else none := by
  induction k with
  | zero =>
      rw [walk, if_pos (Nat.zero_le n)]
  | succ k ih =>
      rw [walk, ih]
      rcases Nat.lt_trichotomy k n with hlt | rfl | hgt
      · rw [if_pos (Nat.le_of_lt hlt), if_pos (Nat.succ_le_of_lt hlt), Option.bind_some,
          hstep k hlt]
      · rw [if_pos (Nat.le_refl k), if_neg (Nat.not_succ_le_self k), Option.bind_some, htop]
      · rw [if_neg (Nat.not_le_of_lt hgt), if_neg (Nat.not_le_of_lt (Nat.lt_succ_of_lt hgt)),
          Option.bind_none]

end Graph

namespace Workspace

def chain : Nat -> List Edit
  | 0 => [.create .type Graph.chainDecl]
  | n + 1 => chain n ++ [.create .type Graph.chainDecl, .link .base ⟨n⟩ ⟨n + 1⟩]

theorem isChain_run (n : Nat) : (run {} (chain n)).graph.IsChain n := by
  induction n with
  | zero =>
      refine ⟨rfl, ?_, _, rfl, rfl, rfl⟩
      intro i hi
      exact absurd hi (Nat.not_lt_zero i)
  | succ n ih =>
      rw [chain, run_append]
      change (((run {} (chain n)).apply (.create .type Graph.chainDecl)).apply
        (.link .base ⟨n⟩ ⟨n + 1⟩)).graph.IsChain (n + 1)
      rw [ih.apply_link_create]
      exact ih.extend

end Workspace
end MetadataLabels
