import MetadataLabels.Proofs.PartialWalk
import MetadataLabels.Proofs.SameTypes

/-!
# Overloads are classes of signatures

Keeping the first of equal signatures leaves one for each class of them, because
equality is an equivalence.  So the number of overloads depends on no order: it
is the number of classes met on the way up, less the one that is looked at.
-/

namespace MetadataLabels

/-!
## Classes of a test
-/

namespace EquivalenceTest

variable {α : Type} {same : α -> α -> Bool}

def setoid (h : EquivalenceTest same) : Setoid α :=
  ⟨fun a b => same a b = true, h.equivalence⟩

def classes (h : EquivalenceTest same) (s : Set α) : Set (Quotient h.setoid) :=
  Quotient.mk h.setoid '' s

theorem mk_eq_mk_iff (h : EquivalenceTest same) {a b : α} :
    Quotient.mk h.setoid a = Quotient.mk h.setoid b <-> same a b = true :=
  Quotient.eq

theorem classes_eq (h : EquivalenceTest same) {s t : Set α}
    (hst : forall a, a ∈ s -> exists b, b ∈ t ∧ same a b = true)
    (hts : forall b, b ∈ t -> exists a, a ∈ s ∧ same a b = true) :
    h.classes s = h.classes t := by
  ext c
  constructor
  · intro hc
    rcases hc with ⟨a, ha, rfl⟩
    rcases hst a ha with ⟨b, hb, hab⟩
    exact ⟨b, hb, (h.mk_eq_mk_iff.mpr hab).symm⟩
  · intro hc
    rcases hc with ⟨b, hb, rfl⟩
    rcases hts b hb with ⟨a, ha, hab⟩
    exact ⟨a, ha, h.mk_eq_mk_iff.mpr hab⟩

theorem classes_cons (h : EquivalenceTest same) (a : α) (l : List α) :
    h.classes {x | x ∈ a :: l} =
      insert (Quotient.mk h.setoid a)
        (h.classes {x | x ∈ l.filter fun b => decide (same b a = false)}) := by
  ext c
  simp only [classes, Set.mem_insert_iff, Set.mem_image, Set.mem_ofPred_eq, List.mem_cons,
    List.mem_filter, decide_eq_true_eq]
  constructor
  · intro hc
    rcases hc with ⟨b, rfl | hb, rfl⟩
    · exact Or.inl rfl
    · cases hba : same b a with
      | true =>
          exact Or.inl (h.mk_eq_mk_iff.mpr hba)
      | false =>
          exact Or.inr ⟨b, ⟨hb, hba⟩, rfl⟩
  · intro hc
    rcases hc with rfl | ⟨b, ⟨hb, _⟩, rfl⟩
    · exact ⟨a, Or.inl rfl, rfl⟩
    · exact ⟨b, Or.inr hb, rfl⟩

theorem mk_not_mem_classes_filter (h : EquivalenceTest same) (a : α) (l : List α) :
    Quotient.mk h.setoid a ∉
      h.classes {x | x ∈ l.filter fun b => decide (same b a = false)} := by
  intro hc
  rcases hc with ⟨b, hb, hba⟩
  have hfalse := of_decide_eq_true (List.mem_filter.mp hb).right
  rw [h.mk_eq_mk_iff.mp hba] at hfalse
  cases hfalse

theorem finite_classes (h : EquivalenceTest same) (l : List α) :
    (h.classes {x | x ∈ l}).Finite :=
  l.finite_toSet.image _

/-- Keeping the first of the same elements leaves one for each class. -/
theorem length_eraseDupsBy (h : EquivalenceTest same) :
    forall l : List α, (l.eraseDupsBy same).length = (h.classes {x | x ∈ l}).ncard
  | [] => by
      simp [classes]
  | a :: l => by
      rw [List.eraseDupsBy_cons, List.length_cons, length_eraseDupsBy h, classes_cons,
        Set.ncard_insert_of_notMem (h.mk_not_mem_classes_filter a l) (h.finite_classes _)]
termination_by l => l.length
decreasing_by
  exact Nat.lt_succ_of_le (List.length_filter_le _ l)

end EquivalenceTest

/-!
## What is counted
-/

namespace Graph

def signatureClasses (g : Graph) (s : Set MethodSig) :
    Set (Quotient (sameMethodSig_test g).setoid) :=
  (sameMethodSig_test g).classes s

def listMethods (g : Graph) (t : TypeId) (methods : List MethodId) : Graph :=
  g.modify t fun row : TypeRow => { row with methods := methods }

theorem mem_signaturesNamed_iff {g : Graph} {name : String} {t : TypeId} {s : MethodSig} :
    s ∈ g.signaturesNamed name t <->
      exists m row, m ∈ g.methodsOf t ∧ g.method? m = some row ∧ row.name = name ∧
        row.signature = s := by
  simp only [signaturesNamed, List.mem_filterMap]
  constructor
  · intro h
    rcases h with ⟨row, ⟨m, hm, hrow⟩, hs⟩
    split at hs
    next hname =>
        exact ⟨m, row, hm, hrow, hname, Option.some.inj hs⟩
    next =>
        cases hs
  · intro h
    rcases h with ⟨m, row, hm, hrow, hname, rfl⟩
    exact ⟨row, ⟨m, hm, hrow⟩, if_pos hname⟩

/-!
## Other lists of methods
-/

variable {g : Graph} {t u : TypeId} {methods : List MethodId}

theorem sameTypes_listMethods (g : Graph) (t : TypeId) (methods : List MethodId) :
    g.SameTypes (g.listMethods t methods) :=
  sameTypes_modify g t (fun _ => rfl) (fun _ _ => rfl) (fun _ _ => rfl)

theorem isLive_of_mem_methodsOf {m : MethodId} (h : m ∈ g.methodsOf t) :
    g.isLive t.node = true := by
  cases hrow : g.find? t with
  | none =>
      rw [methodsOf, members, hrow] at h
      cases h
  | some row =>
      rw [isLive_node, hrow]
      rfl

theorem mem_methodsOf_listMethods {m : MethodId} :
    m ∈ (g.listMethods t methods).methodsOf u <->
      (u = t ∧ g.isLive t.node = true ∧ m ∈ methods) ∨ (u ≠ t ∧ m ∈ g.methodsOf u) := by
  by_cases hu : u = t
  · subst hu
    rw [methodsOf, members, listMethods, find?_modify_self, isLive_node]
    cases g.find? u with
    | none =>
        simp
    | some row =>
        simp [MemberList.get]
  · have hnode : u.node ≠ t.node := fun e => hu (RowId.node_inj.mp e)
    rw [methodsOf, members, listMethods, find?_modify_of_ne g t _ u hnode]
    simp [hu, methodsOf, members]

theorem mem_methodsOf_listMethods_of_perm (h : methods.Perm (g.methodsOf t)) {m : MethodId} :
    m ∈ (g.listMethods t methods).methodsOf u <-> m ∈ g.methodsOf u := by
  rw [mem_methodsOf_listMethods, h.mem_iff]
  constructor
  · intro hm
    rcases hm with ⟨rfl, _, hm⟩ | ⟨_, hm⟩
    · exact hm
    · exact hm
  · intro hm
    by_cases hu : u = t
    · subst hu
      exact Or.inl ⟨rfl, isLive_of_mem_methodsOf hm, hm⟩
    · exact Or.inr ⟨hu, hm⟩

theorem mem_methodsOf_listMethods_of_mem {m new : MethodId} (h : m ∈ g.methodsOf u) :
    m ∈ (g.listMethods t (g.methodsOf t ++ [new])).methodsOf u := by
  rw [mem_methodsOf_listMethods]
  by_cases hu : u = t
  · subst hu
    exact Or.inl ⟨rfl, isLive_of_mem_methodsOf h, List.mem_append_left [new] h⟩
  · exact Or.inr ⟨hu, h⟩

theorem mem_or_eq_of_mem_methodsOf_listMethods {m new : MethodId}
    (h : m ∈ (g.listMethods t (g.methodsOf t ++ [new])).methodsOf u) :
    m ∈ g.methodsOf u ∨ m = new := by
  rcases mem_methodsOf_listMethods.mp h with ⟨rfl, _, hm⟩ | ⟨_, hm⟩
  · exact (List.mem_append.mp hm).imp_right List.mem_singleton.mp
  · exact Or.inl hm

end Graph

namespace Resolver

/-- The first `n` of a sequence of types: what the type resolves to, then the base type of each
one before, as far as they can be resolved. -/
def ancestors (r : Resolver) (g : Graph) (t : TypeId) (n : Nat) : Set TypeId :=
  visitedWithin (fun u => (r.baseType g u).value) (r.resolveType g t).value n

def signaturesUp (r : Resolver) (g : Graph) (t : TypeId) (name : String) : Set MethodSig :=
  {s | exists u m row, u ∈ r.ancestors g t 200 ∧ m ∈ g.methodsOf u ∧
    g.method? m = some row ∧ row.name = name ∧ row.signature = s}

/-- How the other overloads are counted: by classes of signatures, whatever the order of the
methods and however often a class is met. -/
structure CountsClasses (r : Resolver) (g : Graph) (t : TypeId) (name : String) : Prop where
  empty : r.signaturesUp g t name = ∅ -> (r.otherOverloads g t name).value = 0
  others : (r.signaturesUp g t name).Nonempty ->
    (r.otherOverloads g t name).value + 1 =
      (g.signatureClasses (r.signaturesUp g t name)).ncard
  reordered : forall u methods, methods.Perm (g.methodsOf u) ->
    (r.otherOverloads (g.listMethods u methods) t name).value = (r.otherOverloads g t name).value
  repeated : forall u m row, g.method? m = some row ->
    (row.name = name -> exists s, s ∈ r.signaturesUp g t name ∧
      g.sameMethodSig s row.signature = true) ->
    (r.otherOverloads (g.listMethods u (g.methodsOf u ++ [m])) t name).value =
      (r.otherOverloads g t name).value

end Resolver

theorem Graph.SameTypes.ancestors {g g' : Graph} (h : g.SameTypes g') (r : Resolver)
    (t : TypeId) (n : Nat) : r.ancestors g' t n = r.ancestors g t n := by
  simp only [Resolver.ancestors, h.resolveType, h.baseType]

namespace Resolver

variable {r : Resolver} {g g' : Graph} {t : TypeId} {name : String}

/-!
## The way up
-/

theorem value_climb (fuel : Nat) (start : Option TypeId) :
    (r.climb g fuel start).value = path (fun u => (r.baseType g u).value) start fuel := by
  induction fuel generalizing start with
  | zero =>
      rw [value_climb_zero, path_zero]
  | succ fuel ih =>
      cases start with
      | none =>
          rw [value_climb_none, path_none]
      | some t =>
          rw [value_climb_succ, path_succ, ih]

theorem mem_lineage_iff {u : TypeId} :
    u ∈ (r.lineage g t).value <-> u ∈ r.ancestors g t 200 := by
  rw [value_lineage, value_climb, mem_path_iff]
  rfl

theorem setOf_signatures_lineage :
    {s | s ∈ (r.lineage g t).value.flatMap (g.signaturesNamed name)} =
      r.signaturesUp g t name := by
  ext s
  rw [Set.mem_ofPred_eq, List.mem_flatMap]
  constructor
  · intro h
    rcases h with ⟨u, hu, hs⟩
    rcases Graph.mem_signaturesNamed_iff.mp hs with ⟨m, row, hm, hrow⟩
    exact ⟨u, m, row, mem_lineage_iff.mp hu, hm, hrow⟩
  · intro h
    rcases h with ⟨u, m, row, hu, hm, hrow⟩
    exact ⟨u, mem_lineage_iff.mpr hu, Graph.mem_signaturesNamed_iff.mpr ⟨m, row, hm, hrow⟩⟩

theorem otherOverloads_eq_ncard (h : g.SameTypes g') :
    (r.otherOverloads g' t name).value =
      (g.signatureClasses (r.signaturesUp g' t name)).ncard - 1 := by
  rw [value_otherOverloads, Graph.distinctSignatures, h.sameMethodSig,
    (Graph.sameMethodSig_test g).length_eraseDupsBy, setOf_signatures_lineage,
    Graph.signatureClasses]

theorem finite_signatureClasses :
    (g.signatureClasses (r.signaturesUp g t name)).Finite := by
  rw [<- setOf_signatures_lineage]
  exact (Graph.sameMethodSig_test g).finite_classes _

/-!
## Order and repetition
-/

theorem signaturesUp_mono (h : g.SameTypes g') (hmethod : g'.method? = g.method?)
    (hlist : forall u m, m ∈ g.methodsOf u -> m ∈ g'.methodsOf u) :
    r.signaturesUp g t name ⊆ r.signaturesUp g' t name := by
  intro s hs
  rcases hs with ⟨u, m, row, hu, hm, hrow⟩
  rw [<- h.ancestors] at hu
  rw [<- hmethod] at hrow
  exact ⟨u, m, row, hu, hlist u m hm, hrow⟩

theorem otherOverloads_eq_of_classes (h : g.SameTypes g')
    (hsub : r.signaturesUp g t name ⊆ r.signaturesUp g' t name)
    (hsame : forall s, s ∈ r.signaturesUp g' t name ->
      exists s', s' ∈ r.signaturesUp g t name ∧ g.sameMethodSig s' s = true) :
    (r.otherOverloads g' t name).value = (r.otherOverloads g t name).value := by
  have hclasses : g.signatureClasses (r.signaturesUp g' t name) =
      g.signatureClasses (r.signaturesUp g t name) := by
    apply EquivalenceTest.classes_eq
    · intro s hs
      rcases hsame s hs with ⟨s', hs', hss'⟩
      exact ⟨s', hs', (Graph.sameMethodSig_test g).symm hss'⟩
    · intro s hs
      exact ⟨s, hsub hs, (Graph.sameMethodSig_test g).refl s⟩
  rw [otherOverloads_eq_ncard h, otherOverloads_eq_ncard (.refl g), hclasses]

theorem otherOverloads_reordered {u : TypeId} {methods : List MethodId}
    (h : methods.Perm (g.methodsOf u)) :
    (r.otherOverloads (g.listMethods u methods) t name).value =
      (r.otherOverloads g t name).value := by
  have htypes := g.sameTypes_listMethods u methods
  apply otherOverloads_eq_of_classes htypes
  · exact signaturesUp_mono htypes rfl fun _ _ =>
      (Graph.mem_methodsOf_listMethods_of_perm h).mpr
  · intro s hs
    refine ⟨s, ?_, (Graph.sameMethodSig_test g).refl s⟩
    exact signaturesUp_mono htypes.symm rfl
      (fun _ _ => (Graph.mem_methodsOf_listMethods_of_perm h).mp) hs

theorem otherOverloads_repeated {u : TypeId} {m : MethodId} {row : MethodRow}
    (hrow : g.method? m = some row)
    (hmet : row.name = name -> exists s, s ∈ r.signaturesUp g t name ∧
      g.sameMethodSig s row.signature = true) :
    (r.otherOverloads (g.listMethods u (g.methodsOf u ++ [m])) t name).value =
      (r.otherOverloads g t name).value := by
  have htypes := g.sameTypes_listMethods u (g.methodsOf u ++ [m])
  apply otherOverloads_eq_of_classes htypes
  · exact signaturesUp_mono htypes rfl fun _ _ => Graph.mem_methodsOf_listMethods_of_mem
  · intro s hs
    rcases hs with ⟨v, m', row', hv, hm', hrow', hname, rfl⟩
    rw [htypes.ancestors] at hv
    rcases Graph.mem_or_eq_of_mem_methodsOf_listMethods hm' with hold | rfl
    · exact ⟨row'.signature, ⟨v, m', row', hv, hold, hrow', hname, rfl⟩,
        (Graph.sameMethodSig_test g).refl _⟩
    · -- The new method itself: what it adds was met before.
      have hsame : row = row' := Option.some.inj (hrow.symm.trans hrow')
      subst hsame
      exact hmet hname

theorem otherOverloads_counts_classes (r : Resolver) (g : Graph) (t : TypeId) (name : String) :
    r.CountsClasses g t name where
  empty hempty := by
    rw [otherOverloads_eq_ncard (.refl g), hempty, Graph.signatureClasses,
      EquivalenceTest.classes, Set.image_empty, Set.ncard_empty]
  others hne := by
    have hpos : 0 < (g.signatureClasses (r.signaturesUp g t name)).ncard :=
      (Set.ncard_pos finite_signatureClasses).mpr (hne.image _)
    rw [otherOverloads_eq_ncard (.refl g), Nat.sub_add_cancel hpos]
  reordered _ _ := otherOverloads_reordered
  repeated _ _ _ := otherOverloads_repeated

end Resolver
end MetadataLabels
