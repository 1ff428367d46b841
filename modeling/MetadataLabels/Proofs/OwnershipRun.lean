import MetadataLabels.Proofs.WorkspaceRun

/-!
# Ownership along runs

A workspace is well owned if its roots are alive, if living rows own living rows
only, and if every living row is reached from a root.  Every step keeps this: a
change of a row adds at most a living row to what it owns, and where roots go the
rows that they alone led to go with them.
-/

namespace MetadataLabels

/-!
## What a changed row owns
-/

theorem MemberList.mem_owned_append {l : MemberList} {member : RowId l.member}
    {row : Row l.owner} {n : Node} :
    n ∈ Row.owned l.owner (l.append member row) <->
      n ∈ Row.owned l.owner row ∨ n = member.node := by
  cases l <;> simp [Row.owned, MemberList.append, or_assoc, or_comm, or_left_comm]

theorem Row.owned_annotate (a : Attribute) (k : Kind) (row : Row k) :
    Row.owned k (Row.annotate a k row) = Row.owned k row := by
  cases k <;> rfl

theorem Slot.mem_owned_put {s : Slot} {value : s.Value} {row : Row s.carrier} {n : Node}
    (h : n ∈ Row.owned s.carrier (s.put value row)) :
    n ∈ Row.owned s.carrier row ∨ (s.takesLink = false ∧ s.referent value = some n) := by
  cases s with
  | target =>
      rw [Row.owned, Slot.put, Option.toList_some, List.map_singleton,
        List.mem_singleton] at h
      subst h
      exact Or.inr ⟨rfl, rfl⟩
  | _ =>
      exact Or.inl h

theorem Slot.owned_subset_put {s : Slot} {row : Row s.carrier} (hfree : s.get row = none)
    (value : s.Value) : Row.owned s.carrier row ⊆ Row.owned s.carrier (s.put value row) := by
  cases s with
  | target =>
      change MemberRefRow.target row = none at hfree
      rw [Row.owned, hfree]
      exact List.nil_subset _
  | _ =>
      exact List.Subset.refl _

namespace Graph

theorem owned_of_find? {g : Graph} {n : Node} {row : Row n.kind}
    (h : g.find? n.id = some row) : g.owned n = Row.owned n.kind row := by
  unfold owned
  rw [h]

theorem owned_eq {g : Graph} {k : Kind} {id : RowId k} {row : Row k}
    (h : g.find? id = some row) : g.owned id.node = Row.owned k row :=
  owned_of_find? (n := id.node) h

theorem exists_row_of_mem_owned {g : Graph} {m n : Node} (h : n ∈ g.owned m) :
    exists row, g.find? m.id = some row ∧ n ∈ Row.owned m.kind row := by
  unfold owned at h
  split at h
  next row hrow =>
      exact ⟨row, hrow, h⟩
  next =>
      cases h

theorem isLive_of_mem_owned {g : Graph} {m n : Node} (h : n ∈ g.owned m) :
    g.isLive m = true := by
  rcases exists_row_of_mem_owned h with ⟨row, hrow, _⟩
  exact Option.isSome_iff_exists.mpr ⟨row, hrow⟩

theorem owned_modify_self {g : Graph} {k : Kind} {id : RowId k} {row : Row k}
    (h : g.find? id = some row) (f : Row k -> Row k) :
    (g.modify id f).owned id.node = Row.owned k (f row) := by
  apply owned_eq
  rw [find?_modify_self, h]
  rfl

theorem owned_modify_of_ne (g : Graph) {k : Kind} (id : RowId k) (f : Row k -> Row k)
    {m : Node} (h : m ≠ id.node) : (g.modify id f).owned m = g.owned m := by
  unfold owned
  rw [find?_modify_of_ne g id f m.id h]

theorem owned_create_next (g : Graph) (k : Kind) (decl : Decl k) :
    (g.create k decl).owned (g.next k).node = [] := by
  rw [owned_eq (find?_create_next g k decl)]
  cases k <;> rfl

theorem owned_create_of_ne (g : Graph) (k : Kind) (decl : Decl k) {m : Node}
    (h : m ≠ (g.next k).node) : (g.create k decl).owned m = g.owned m := by
  unfold owned
  rw [find?_create_of_ne g k decl m.id h]

theorem owned_retain {g : Graph} {keep : Node -> Bool} {m : Node} (h : keep m = true) :
    (g.retain keep).owned m = g.owned m := by
  unfold owned
  rw [find?_retain, Node.node_id, if_pos h]

theorem mem_owned_of_retain {g : Graph} {keep : Node -> Bool} {m n : Node}
    (h : n ∈ (g.retain keep).owned m) : n ∈ g.owned m := by
  -- A row that was taken out owns nothing, so less is owned after a release.
  have hlive := isLive_of_mem_owned h
  rw [isLive_retain] at hlive
  rw [owned_retain (Bool.and_eq_true_iff.mp hlive).left] at h
  exact h

theorem isLive_create (g : Graph) (k : Kind) (decl : Decl k) (n : Node) :
    (g.create k decl).isLive n = true <-> n = (g.next k).node ∨ g.isLive n = true := by
  by_cases h : n = (g.next k).node
  · subst h
    rw [isLive_node, find?_create_next]
    simp
  · rw [isLive, find?_create_of_ne g k decl n.id h]
    simp [h, isLive]

/-!
## Reachable rows
-/

theorem Reachable.mono {g g' : Graph} {roots roots' : List Node} {n : Node}
    (h : g.Reachable roots n) (hroots : forall m, m ∈ roots -> m ∈ roots')
    (howned : forall m, g.owned m ⊆ g'.owned m) : g'.Reachable roots' n := by
  induction h with
  | root hroot =>
      exact .root (hroots _ hroot)
  | step _ hmem ih =>
      exact .step ih (howned _ hmem)

theorem reachable_append {g : Graph} {first second : List Node} {n : Node} :
    g.Reachable (first ++ second) n <-> g.Reachable first n ∨ g.Reachable second n := by
  constructor
  · intro h
    induction h with
    | root hroot =>
        exact (List.mem_append.mp hroot).imp .root .root
    | step _ hmem ih =>
        exact ih.imp (.step · hmem) (.step · hmem)
  · rintro (h | h)
    · exact h.mono (fun _ => List.mem_append_left _) fun _ => List.Subset.refl _
    · exact h.mono (fun _ => List.mem_append_right _) fun _ => List.Subset.refl _

theorem reachable_retain {g : Graph} {roots : List Node} {keep : Node -> Bool}
    (hkeep : forall n, g.Reachable roots n -> keep n = true) {n : Node} :
    (g.retain keep).Reachable roots n <-> g.Reachable roots n := by
  constructor
  · intro h
    exact h.mono (fun _ hm => hm) fun _ _ hm => mem_owned_of_retain hm
  · intro h
    induction h with
    | root hroot =>
        exact .root hroot
    | step hm hmem ih =>
        rw [<- owned_retain (hkeep _ hm)] at hmem
        exact .step ih hmem

end Graph

namespace Workspace

structure WellOwned (w : Workspace) : Prop where
  root_live : forall n, n ∈ w.roots -> w.graph.isLive n = true
  owned_live : forall m n, n ∈ w.graph.owned m -> w.graph.isLive n = true
  reachable : forall n, w.graph.isLive n = true -> w.graph.Reachable w.roots n

variable {w w' : Workspace} {edit : Edit}

theorem isLive_of_reachable (hroots : forall n, n ∈ w.roots -> w.graph.isLive n = true)
    (howned : forall m n, n ∈ w.graph.owned m -> w.graph.isLive n = true) {n : Node}
    (h : w.graph.Reachable w.roots n) : w.graph.isLive n = true := by
  cases h with
  | root hroot =>
      exact hroots n hroot
  | step _ hmem =>
      exact howned _ n hmem

theorem WellOwned.isLive_iff (h : w.WellOwned) (n : Node) :
    w.graph.isLive n = true <-> w.graph.Reachable w.roots n :=
  ⟨h.reachable n, isLive_of_reachable h.root_live h.owned_live⟩

theorem contains_reach_iff {w : Workspace} {n : Node} :
    (w.graph.reach w.roots).contains n = true <-> w.graph.Reachable w.roots n := by
  rw [List.contains_iff_mem, Graph.mem_reach_iff]

/-!
## One step

Reachability is the same before and after where nothing is taken out of a row, and
collecting restores it where a root was given up.  A step that stores a type in the
registry gives up no root, since what it replaces is retired.
-/

theorem WellOwned.modify (h : w.WellOwned) {k : Kind} {id : RowId k} {f : Row k -> Row k}
    {row : Row k} (hrow : w.graph.find? id = some row)
    (hkeeps : Row.owned k row ⊆ Row.owned k (f row))
    (hlive : forall n, n ∈ Row.owned k (f row) -> w.graph.isLive n = true) :
    WellOwned { w with graph := w.graph.modify id f } where
  root_live n hn := by
    rw [Graph.isLive_modify]
    exact h.root_live n hn
  owned_live m n hn := by
    rw [Graph.isLive_modify]
    by_cases hm : m = id.node
    · rw [hm, Graph.owned_modify_self hrow] at hn
      exact hlive n hn
    · rw [Graph.owned_modify_of_ne w.graph id f hm] at hn
      exact h.owned_live m n hn
  reachable n hn := by
    rw [Graph.isLive_modify] at hn
    refine (h.reachable n hn).mono (fun _ hm => hm) ?_
    intro m
    by_cases hm : m = id.node
    · rw [hm, Graph.owned_modify_self hrow, Graph.owned_eq hrow]
      exact hkeeps
    · rw [Graph.owned_modify_of_ne w.graph id f hm]
      exact List.Subset.refl _

theorem WellOwned.create (h : w.WellOwned) (k : Kind) (decl : Decl k) :
    WellOwned { w with
      graph := w.graph.create k decl
      held := (w.graph.next k).node :: w.held } where
  root_live n hn := by
    rw [Graph.isLive_create]
    rcases List.mem_cons.mp hn with hnew | hold
    · exact Or.inl hnew
    · exact Or.inr (h.root_live n hold)
  owned_live m n hn := by
    rw [Graph.isLive_create]
    by_cases hm : m = (w.graph.next k).node
    · rw [hm, Graph.owned_create_next] at hn
      cases hn
    · rw [Graph.owned_create_of_ne w.graph k decl hm] at hn
      exact Or.inr (h.owned_live m n hn)
  reachable n hn := by
    rw [Graph.isLive_create] at hn
    rcases hn with hnew | hold
    · exact .root (List.mem_cons.mpr (Or.inl hnew))
    · refine (h.reachable n hold).mono (fun _ hm => List.mem_cons_of_mem _ hm) ?_
      intro m p hp
      have hm : m ≠ (w.graph.next k).node :=
        Graph.node_ne_next_of_created
          (Graph.created_of_isLive (Graph.isLive_of_mem_owned hp)) k
      rw [Graph.owned_create_of_ne w.graph k decl hm]
      exact hp

theorem wellOwned_collect (hroots : forall n, n ∈ w.roots -> w.graph.isLive n = true)
    (howned : forall m n, n ∈ w.graph.owned m -> w.graph.isLive n = true) :
    w.collect.WellOwned := by
  have hkeep : forall n, w.graph.Reachable w.roots n ->
      (w.graph.reach w.roots).contains n = true := fun _ => contains_reach_iff.mpr
  have hlive : forall n, w.graph.Reachable w.roots n -> w.collect.graph.isLive n = true := by
    intro n hn
    rw [collect, Graph.isLive_retain, hkeep n hn, isLive_of_reachable hroots howned hn]
    rfl
  constructor
  case root_live =>
    intro n hn
    exact hlive n (.root hn)
  case owned_live =>
    intro m n hn
    have hm := Graph.isLive_of_mem_owned hn
    rw [collect, Graph.isLive_retain] at hm
    have hreach := contains_reach_iff.mp (Bool.and_eq_true_iff.mp hm).left
    exact hlive n (.step hreach (Graph.mem_owned_of_retain hn))
  case reachable =>
    intro n hn
    rw [collect, Graph.isLive_retain] at hn
    exact (Graph.reachable_retain hkeep).mpr
      (contains_reach_iff.mp (Bool.and_eq_true_iff.mp hn).left)

/-- Storing a type gives up no root: what it replaces is retired. -/
theorem mem_roots_store {new : Registration} {n : Node} :
    n ∈ (w.store new).roots <-> n = new.type.node ∨ n ∈ w.roots := by
  rw [mem_roots_iff, mem_roots_iff]
  constructor
  · rintro (hheld | ⟨r, hr, rfl⟩ | ⟨t, ht, rfl⟩)
    · exact Or.inr (Or.inl hheld)
    · rcases List.mem_cons.mp hr with rfl | hold
      · exact Or.inl rfl
      · exact Or.inr (Or.inr (Or.inl ⟨r, List.mem_of_mem_filter hold, rfl⟩))
    · rcases List.mem_append.mp ht with hold | hreplaced
      · exact Or.inr (Or.inr (Or.inr ⟨t, hold, rfl⟩))
      · rcases List.mem_map.mp hreplaced with ⟨r, hr, rfl⟩
        exact Or.inr (Or.inr (Or.inl ⟨r, List.mem_of_mem_filter hr, rfl⟩))
  · rintro (rfl | hheld | ⟨r, hr, rfl⟩ | ⟨t, ht, rfl⟩)
    · exact Or.inr (Or.inl ⟨new, List.mem_cons_self, rfl⟩)
    · exact Or.inl hheld
    · by_cases htoken : r.token = new.token
      · have hreplaced : r ∈ w.registry.holdersOf new.token :=
          List.mem_filter.mpr ⟨hr, decide_eq_true htoken⟩
        exact Or.inr (Or.inr
          ⟨r.type, List.mem_append_right _ (List.mem_map_of_mem hreplaced), rfl⟩)
      · have hkept : r ∈ (w.registry.insert new).holders :=
          List.mem_cons_of_mem _ (List.mem_filter.mpr ⟨hr, decide_eq_true htoken⟩)
        exact Or.inr (Or.inl ⟨r, hkept, rfl⟩)
    · exact Or.inr (Or.inr ⟨t, List.mem_append_left _ ht, rfl⟩)

theorem WellOwned.store (h : w.WellOwned) {type : TypeId} {row : TypeRow}
    (hrow : w.graph.type? type = some row) :
    (w.store ⟨type, row.token, row.fullName⟩).WellOwned where
  root_live n hn := by
    rcases mem_roots_store.mp hn with rfl | hold
    · exact Option.isSome_iff_exists.mpr ⟨row, hrow⟩
    · exact h.root_live n hold
  owned_live := h.owned_live
  reachable n hn :=
    (h.reachable n hn).mono (fun _ hm => mem_roots_store.mpr (Or.inr hm)) fun _ =>
      List.Subset.refl _

theorem WellOwned.collect_of_roots (h : w.WellOwned) (hgraph : w'.graph = w.graph)
    (hroots : forall n, n ∈ w'.roots -> n ∈ w.roots) : w'.collect.WellOwned := by
  apply wellOwned_collect
  · rw [hgraph]
    exact fun n hn => h.root_live n (hroots n hn)
  · rw [hgraph]
    exact h.owned_live

theorem mem_roots_of_erase_retired {type : TypeId} {n : Node}
    (h : n ∈ roots { w with retired := w.retired.erase type }) : n ∈ w.roots :=
  mem_roots_iff.mpr ((mem_roots_iff.mp h).imp_right fun hrest =>
    hrest.imp_right fun ⟨t, ht, hnode⟩ => ⟨t, List.mem_of_mem_erase ht, hnode⟩)

theorem mem_roots_of_erase_held {m n : Node}
    (h : n ∈ roots { w with held := w.held.erase m }) : n ∈ w.roots :=
  mem_roots_iff.mpr ((mem_roots_iff.mp h).imp_left List.mem_of_mem_erase)

theorem WellOwned.of_step (h : w.WellOwned) (hstep : w.Step edit w') : w'.WellOwned := by
  cases hstep with
  | refused _ =>
      exact h
  | filled _ _ _ =>
      exact h
  | created k decl =>
      exact h.create k decl
  | @appended l owner member howner hmember =>
      rcases Graph.exists_row_of_isLive howner with ⟨row, hrow⟩
      apply h.modify hrow
      · intro n hn
        exact MemberList.mem_owned_append.mpr (Or.inl hn)
      · intro n hn
        rcases MemberList.mem_owned_append.mp hn with hold | rfl
        · rw [<- Graph.owned_eq hrow] at hold
          exact h.owned_live _ n hold
        · exact hmember
  | @annotated k carrier _ _ a _ hcarrier _ =>
      rcases Graph.exists_row_of_isLive hcarrier with ⟨row, hrow⟩
      apply h.modify hrow
      · rw [Row.owned_annotate]
        exact List.Subset.refl _
      · intro n hn
        rw [Row.owned_annotate, <- Graph.owned_eq hrow] at hn
        exact h.owned_live _ n hn
  | @linked s carrier value hcarrier hvalue hfree =>
      rcases Graph.exists_row_of_isLive hcarrier with ⟨row, hrow⟩
      have hget : s.get row = none := by
        rw [Graph.recorded, hrow] at hfree
        exact hfree
      apply h.modify hrow
      · exact Slot.owned_subset_put hget value
      · intro n hn
        rcases Slot.mem_owned_put hn with hold | ⟨htakes, hreferent⟩
        · rw [<- Graph.owned_eq hrow] at hold
          exact h.owned_live _ n hold
        · exact Graph.isLive_of_accepts hvalue htakes hreferent
  | registered hrow =>
      exact h.store hrow
  | reclaimed _ =>
      exact h.collect_of_roots rfl fun _ => mem_roots_of_erase_retired
  | released _ =>
      exact h.collect_of_roots rfl fun _ => mem_roots_of_erase_held

/-!
## Runs
-/

theorem WellOwned.apply (h : w.WellOwned) (edit : Edit) : (w.apply edit).WellOwned :=
  h.of_step (step_apply w edit)

theorem WellOwned.run (h : w.WellOwned) (edits : List Edit) : (w.run edits).WellOwned := by
  induction edits generalizing w with
  | nil =>
      exact h
  | cons edit rest ih =>
      exact ih (h.apply edit)

theorem isLive_empty (n : Node) : Graph.isLive {} n = false := by
  rcases n with ⟨k, index⟩
  cases k <;> rfl

theorem wellOwned_empty : WellOwned {} where
  root_live n hn := by
    cases hn
  owned_live m n hn := by
    have hm := Graph.isLive_of_mem_owned hn
    rw [isLive_empty] at hm
    cases hm
  reachable n hn := by
    rw [isLive_empty] at hn
    cases hn

end Workspace
end MetadataLabels
