import MetadataLabels.Proofs.WorkspaceStep

/-!
# Recorded names of attributes

An attribute that is made from a type records the full name of the type.  A type
keeps its name and an identity is given out once, so after every run the recorded
name is that of the attribute's type, for as long as the type lives.
-/

namespace MetadataLabels

/-!
## Attributes of a changed row
-/

namespace Row

theorem customAttributes_ofDecl (k : Kind) (decl : Decl k) :
    customAttributes k (ofDecl k decl) = [] := by
  cases k <;> rfl

theorem customAttributes_append (l : MemberList) (member : RowId l.member) (row : Row l.owner) :
    customAttributes l.owner (l.append member row) = customAttributes l.owner row := by
  cases l <;> rfl

theorem customAttributes_put (s : Slot) (value : s.Value) (row : Row s.carrier) :
    customAttributes s.carrier (s.put value row) = customAttributes s.carrier row := by
  cases s <;> rfl

theorem mem_customAttributes_annotate {a b : Attribute} {k : Kind} {row : Row k}
    (h : b ∈ customAttributes k (annotate a k row)) : b ∈ customAttributes k row ∨ b = a := by
  cases k with
  | memberRef =>
      exact Or.inl h
  | _ =>
      exact (List.mem_append.mp h).imp_right List.mem_singleton.mp

end Row

namespace Graph

def Lists (g : Graph) (a : Attribute) : Prop :=
  exists (k : Kind) (id : RowId k), a ∈ g.attributes id

variable {g : Graph} {a : Attribute}

theorem lists_iff :
    g.Lists a <->
      exists (k : Kind) (id : RowId k) (row : Row k),
        g.find? id = some row ∧ a ∈ Row.customAttributes k row := by
  apply exists_congr
  intro k
  apply exists_congr
  intro id
  unfold attributes
  cases g.find? id with
  | none =>
      simp
  | some row =>
      simp

theorem lists_of_create {k : Kind} {decl : Decl k} (h : (g.create k decl).Lists a) :
    g.Lists a := by
  rcases lists_iff.mp h with ⟨k', id, row, hrow, ha⟩
  by_cases hid : id.node = (g.next k).node
  · have hk : k' = k := congrArg Node.kind hid
    subst hk
    rw [RowId.node_inj.mp hid, find?_create_next] at hrow
    cases hrow
    rw [Row.customAttributes_ofDecl] at ha
    cases ha
  · rw [find?_create_of_ne g k decl id hid] at hrow
    exact lists_iff.mpr ⟨k', id, row, hrow, ha⟩

theorem lists_of_modify {k : Kind} {id : RowId k} {f : Row k -> Row k} {p : Prop}
    (hf : forall row, a ∈ Row.customAttributes k (f row) -> a ∈ Row.customAttributes k row ∨ p)
    (h : (g.modify id f).Lists a) : g.Lists a ∨ p := by
  rcases lists_iff.mp h with ⟨k', other, row, hrow, ha⟩
  by_cases hid : other.node = id.node
  · have hk : k' = k := congrArg Node.kind hid
    subst hk
    rw [RowId.node_inj.mp hid, find?_modify_self] at hrow
    rcases Option.map_eq_some_iff.mp hrow with ⟨before, hbefore, rfl⟩
    refine (hf before ha).imp_left ?_
    intro hlisted
    exact lists_iff.mpr ⟨k', id, before, hbefore, hlisted⟩
  · rw [find?_modify_of_ne g id f other hid] at hrow
    exact Or.inl (lists_iff.mpr ⟨k', other, row, hrow, ha⟩)

theorem lists_of_retain {keep : Node -> Bool} (h : (g.retain keep).Lists a) : g.Lists a := by
  rcases lists_iff.mp h with ⟨k, id, row, hrow, ha⟩
  rw [find?_retain] at hrow
  split at hrow
  · exact lists_iff.mpr ⟨k, id, row, hrow, ha⟩
  · cases hrow

end Graph

/-!
## Along runs
-/

namespace Workspace

/-- The type of the attribute was made before, and while it lives it has the name that the
attribute records. -/
def NamedByType (w : Workspace) (a : Attribute) : Prop :=
  forall t, a.type = some t -> w.graph.Created t.node ∧
    forall decl : TypeDecl, w.graph.decl? t = some decl -> decl.fullName = a.fullName

def AttributesNamed (w : Workspace) : Prop :=
  forall a, w.graph.Lists a -> w.NamedByType a

variable {w w' : Workspace} {edit : Edit} {a : Attribute}

theorem Step.lists_before (h : w.Step edit w') (ha : w'.graph.Lists a) :
    w.graph.Lists a ∨ exists token source, w.attributeOf? token source = some a := by
  cases h with
  | refused _ =>
      exact Or.inl ha
  | filled _ _ _ =>
      exact Or.inl ha
  | created k decl =>
      exact Or.inl (Graph.lists_of_create ha)
  | appended _ _ =>
      refine Graph.lists_of_modify (fun row h => Or.inl ?_) ha
      rwa [Row.customAttributes_append] at h
  | annotated hsource _ _ =>
      refine Graph.lists_of_modify (fun row h => ?_) ha
      refine (Row.mem_customAttributes_annotate h).imp_right ?_
      rintro rfl
      exact ⟨_, _, hsource⟩
  | linked _ _ _ =>
      refine Graph.lists_of_modify (fun row h => Or.inl ?_) ha
      rwa [Row.customAttributes_put] at h
  | registered _ =>
      exact Or.inl ha
  | reclaimed _ =>
      exact Or.inl (Graph.lists_of_retain ha)
  | released _ =>
      exact Or.inl (Graph.lists_of_retain ha)

theorem namedByType_of_attributeOf? {token : Token} {source : AttributeSource}
    (h : w.attributeOf? token source = some a) : w.NamedByType a := by
  cases source with
  | name fullName =>
      cases h
      intro t ht
      cases ht
  | type id =>
      rcases Option.map_eq_some_iff.mp h with ⟨row, hrow, rfl⟩
      intro t ht
      cases ht
      refine ⟨Graph.created_of_isLive (Option.isSome_iff_exists.mpr ⟨row, hrow⟩), ?_⟩
      intro decl hdecl
      have hname : w.graph.decl? id = some row.toTypeDecl :=
        congrArg (Option.map (Row.decl .type)) hrow
      rw [hname] at hdecl
      cases hdecl
      rfl

theorem Step.namedByType (h : w.Step edit w') (ha : w.NamedByType a) : w'.NamedByType a := by
  intro t ht
  rcases ha t ht with ⟨hcreated, hname⟩
  refine ⟨h.created_node hcreated, ?_⟩
  intro decl hdecl
  exact hname decl (h.decl?_before hcreated hdecl)

theorem AttributesNamed.of_step (hw : w.AttributesNamed) (h : w.Step edit w') :
    w'.AttributesNamed := by
  intro a ha
  apply h.namedByType
  rcases h.lists_before ha with hbefore | ⟨token, source, hsource⟩
  · exact hw a hbefore
  · exact namedByType_of_attributeOf? hsource

theorem attributesNamed_empty : AttributesNamed {} := by
  intro a h
  rcases Graph.lists_iff.mp h with ⟨k, id, row, hrow, _⟩
  have hnone : ({} : Graph).find? id = none := by
    cases k <;> rfl
  rw [hnone] at hrow
  cases hrow

theorem AttributesNamed.run (hw : w.AttributesNamed) (edits : List Edit) :
    (w.run edits).AttributesNamed := by
  induction edits generalizing w with
  | nil =>
      exact hw
  | cons edit rest ih =>
      exact ih (hw.of_step (step_apply w edit))

end Workspace
end MetadataLabels
