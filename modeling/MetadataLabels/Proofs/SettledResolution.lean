import MetadataLabels.Proofs.RegistryNames

/-!
# Where resolution settles

Resolution settles at a definition, which stands for itself.  What a name is
bound to is a definition, but a recorded link is followed once and wherever it
leads.  So a query settles exactly if the link that it follows, should it follow
one, leads to a definition.
-/

namespace MetadataLabels

namespace Graph

def IsDefinition (g : Graph) (t : TypeId) : Prop :=
  exists row, g.type? t = some row ∧ row.isDefinition = true

/-- If the type is a reference with a live link, the link leads to a definition. -/
def LinksToDefinition (g : Graph) (t : TypeId) : Prop :=
  forall row d, g.type? t = some row -> row.isDefinition = false ->
    g.definition? t = some d -> g.IsDefinition d

end Graph

namespace Resolver

def Settled (r : Resolver) (g : Graph) (answer : Option TypeId) : Prop :=
  forall d, answer = some d -> g.IsDefinition d ∧ (r.resolveType g d).value = some d

/-- Each query for a type settles exactly if the type that it starts from links to nothing but
a definition. -/
structure SettlesByLinks (r : Resolver) (g : Graph) : Prop where
  type : forall t, r.Settled g (r.resolveType g t).value <-> g.LinksToDefinition t
  base : forall t, r.Settled g (r.baseType g t).value <->
    forall b, g.base? t = some b -> g.LinksToDefinition b
  signature : forall s, r.Settled g (r.resolveSignature g s).value <->
    forall t, s.named? = some t -> g.LinksToDefinition t

def BindsDefinitions (r : Resolver) (g : Graph) : Prop :=
  forall name d, (r.byName name).value = some d -> g.IsDefinition d

variable {r : Resolver} {g : Graph}

/-!
## Definitions stand for themselves
-/

theorem resolveType_of_isDefinition {t : TypeId} (h : g.IsDefinition t) (r : Resolver) :
    (r.resolveType g t).value = some t := by
  rcases h with ⟨row, hrow, hdef⟩
  exact value_resolveType_eq_some_iff.mpr ⟨row, hrow, Or.inl ⟨hdef, rfl⟩⟩

theorem settled_iff {answer : Option TypeId} :
    r.Settled g answer <-> forall d, answer = some d -> g.IsDefinition d := by
  constructor
  · intro h d hd
    exact (h d hd).left
  · intro h d hd
    exact ⟨h d hd, resolveType_of_isDefinition (h d hd) r⟩

theorem settled_bind_iff {start : Option TypeId} :
    r.Settled g (start.bind fun t => (r.resolveType g t).value) <->
      forall t, start = some t -> r.Settled g (r.resolveType g t).value := by
  cases start with
  | none =>
      constructor
      · intro _ t ht
        cases ht
      · intro _ d hd
        cases hd
  | some t =>
      constructor
      · intro h u hu
        cases hu
        exact h
      · intro h
        exact h t rfl

/-!
## The exact condition
-/

theorem settled_resolveType_iff (h : r.BindsDefinitions g) (t : TypeId) :
    r.Settled g (r.resolveType g t).value <-> g.LinksToDefinition t := by
  rw [settled_iff]
  constructor
  · intro hsettled row d hrow href hlink
    apply hsettled
    exact value_resolveType_eq_some_iff.mpr ⟨row, hrow, Or.inr (Or.inl ⟨href, hlink⟩)⟩
  · intro hlinks d hd
    rcases value_resolveType_eq_some_iff.mp hd with
      ⟨row, hrow, ⟨hdef, rfl⟩ | ⟨href, hlink⟩ | ⟨_, _, hname⟩⟩
    · exact ⟨row, hrow, hdef⟩
    · exact hlinks row d hrow href hlink
    · exact h row.fullName d hname

theorem settlesByLinks (h : r.BindsDefinitions g) : r.SettlesByLinks g where
  type := settled_resolveType_iff h
  base t := by
    rw [value_baseType, settled_bind_iff]
    exact forall_congr' fun b => imp_congr_right fun _ => settled_resolveType_iff h b
  signature s := by
    rw [value_resolveSignature, settled_bind_iff]
    exact forall_congr' fun t => imp_congr_right fun _ => settled_resolveType_iff h t

theorem bindsDefinitions_links (g : Graph) : BindsDefinitions .links g := by
  intro name d hd
  rw [value_byName_links] at hd
  cases hd

end Resolver

namespace Workspace

theorem bindsDefinitions_registry {w : Workspace} (h : w.RegistryCurrent) :
    Resolver.BindsDefinitions (.registry w.registry) w.graph := by
  intro name d hd
  rw [Resolver.value_byName_registry] at hd
  rcases Registry.findDefinition?_eq_some_iff.mp hd with ⟨r, hfound, hdef, rfl⟩
  rcases row_of_holder h (Registry.mem_holders_of_findByName? hfound) with ⟨row, hrow, htoken, _⟩
  refine ⟨row, hrow, ?_⟩
  change row.token.isTypeDef = true
  rw [htoken, hdef]

theorem resolvers_settle_by_links (edits : List Edit) :
    Resolver.SettlesByLinks .links (run {} edits).graph ∧
    Resolver.SettlesByLinks (.registry (run {} edits).registry) (run {} edits).graph :=
  ⟨Resolver.settlesByLinks (Resolver.bindsDefinitions_links _),
    Resolver.settlesByLinks
      (bindsDefinitions_registry (registryCurrent_run registryCurrent_empty edits))⟩

def detour : List Edit :=
  [.create .type ⟨⟨0x01000001⟩, .classType, ⟨"App", "Widget"⟩, none⟩,
    .create .type ⟨⟨0x01000002⟩, .classType, ⟨"App", "Widget"⟩, none⟩,
    .create .type ⟨⟨0x02000001⟩, .classType, ⟨"App", "Widget"⟩, none⟩,
    .link .definition ⟨0⟩ ⟨1⟩, .link .definition ⟨1⟩ ⟨2⟩]

/-- Resolution stops at the second reference, which resolves further. -/
theorem detour_stops_half_way :
    (Resolver.links.resolveType (run {} detour).graph ⟨0⟩).value = some ⟨1⟩ ∧
    (Resolver.links.resolveType (run {} detour).graph ⟨1⟩).value = some ⟨2⟩ ∧
    ¬ Resolver.links.Settled (run {} detour).graph
      (Resolver.links.resolveType (run {} detour).graph ⟨0⟩).value := by
  have hfirst : (Resolver.links.resolveType (run {} detour).graph ⟨0⟩).value = some ⟨1⟩ := by
    decide +kernel
  have hsecond : (Resolver.links.resolveType (run {} detour).graph ⟨1⟩).value = some ⟨2⟩ := by
    decide +kernel
  refine ⟨hfirst, hsecond, ?_⟩
  intro h
  have hself := (h ⟨1⟩ hfirst).right
  rw [hsecond] at hself
  cases hself

end Workspace
end MetadataLabels
