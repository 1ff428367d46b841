import MetadataLabels.Proofs.Classification

/-!
# Resolving more keeps every answer

A resolver extends another if it resolves whatever the other resolves, and to the
same.  Then it keeps every positive answer that rests on resolution, and its
walks up a base chain begin with the walks of the other.  The registry extends
the links of the graph in this sense.
-/

namespace MetadataLabels
namespace Resolver

structure Extends (g : Graph) (r s : Resolver) : Prop where
  resolveType : forall t d, (r.resolveType g t).value = some d ->
    (s.resolveType g t).value = some d
  baseType : forall t d, (r.baseType g t).value = some d -> (s.baseType g t).value = some d
  resolveMethod : forall m d, r.resolveMethod g m = some d -> s.resolveMethod g m = some d
  resolveField : forall f d, r.resolveField g f = some d -> s.resolveField g f = some d
  resolveSignature : forall sig d, (r.resolveSignature g sig).value = some d ->
    (s.resolveSignature g sig).value = some d

/-- The walk over base types visited as many types as it may, or the last one has no base. -/
def WalkComplete (g : Graph) (types : List TypeId) : Prop :=
  types.length = Limit.levels ∨ exists last, types.getLast? = some last ∧ g.base? last = none

/-- Every positive answer of `r` is an answer of `s`, and `s` counts at least the overloads
that `r` counts. -/
structure KeepsAnswers (g : Graph) (r s : Resolver) : Prop where
  deprecated : forall target, (r.isDeprecated g target).value = true ->
    (s.isDeprecated g target).value = true
  extensionMethod : forall m, r.isExtension g m = true -> s.isExtension g m = true
  awaitable : forall returns, (r.isAwaitable g returns).value = true ->
    (s.isAwaitable g returns).value = true
  optional : forall p, (r.isOptional g p).value = true -> (s.isOptional g p).value = true
  badges : forall m, (r.methodBadges g m).value.bits &&& (s.methodBadges g m).value.bits =
    (r.methodBadges g m).value.bits
  overloads : forall t name, (r.otherOverloads g t name).value ≤
    (s.otherOverloads g t name).value
  overloads_eq : forall t name, WalkComplete g (r.lineage g t).value ->
    (s.otherOverloads g t name).value = (r.otherOverloads g t name).value

variable {g : Graph} {r s : Resolver}

/-!
## Extending the resolution of types is enough
-/

theorem baseType_of_resolveType
    (h : forall t d, (r.resolveType g t).value = some d -> (s.resolveType g t).value = some d)
    (t d : TypeId) (hd : (r.baseType g t).value = some d) :
    (s.baseType g t).value = some d := by
  rw [value_baseType] at hd ⊢
  rcases Option.bind_eq_some_iff.mp hd with ⟨b, hb, hbd⟩
  rw [hb, Option.bind_some]
  exact h b d hbd

theorem resolveSignature_of_resolveType
    (h : forall t d, (r.resolveType g t).value = some d -> (s.resolveType g t).value = some d) :
    forall sig d, (r.resolveSignature g sig).value = some d ->
      (s.resolveSignature g sig).value = some d
  | .named _ t, d, hd => h t d hd
  | .inst base _, d, hd => resolveSignature_of_resolveType h base d hd
  | .basic _, _, hd => nomatch hd
  | .modified _ _, _, hd => nomatch hd
  | .param _ _, _, hd => nomatch hd

theorem extends_of_resolveType
    (h : forall t d, (r.resolveType g t).value = some d ->
      (s.resolveType g t).value = some d) : Extends g r s where
  resolveType := h
  baseType := baseType_of_resolveType h
  resolveMethod _ _ hd := hd
  resolveField _ _ hd := hd
  resolveSignature := resolveSignature_of_resolveType h

theorem registry_extends_links (g : Graph) (reg : Registry) :
    Extends g .links (.registry reg) := by
  apply extends_of_resolveType
  intro t d hd
  rw [value_resolveType] at hd ⊢
  rcases Option.bind_eq_some_iff.mp hd with ⟨row, hrow, hanswer⟩
  rw [hrow, Option.bind_some]
  by_cases hdef : row.isDefinition = true
  · rw [if_pos hdef] at hanswer ⊢
    exact hanswer
  · rw [if_neg hdef, value_byName_links, Option.or_none] at hanswer
    rw [if_neg hdef, hanswer, Option.some_or]

/-!
## Positive answers
-/

theorem any_of_forall_some {α : Type} {a b : Option α} {p : α -> Bool}
    (h : forall x, a = some x -> b = some x) (ha : a.any p = true) : b.any p = true := by
  rcases (Option.any_eq_true p a).mp ha with ⟨x, hx, hp⟩
  exact (Option.any_eq_true p b).mpr ⟨x, h x hx, hp⟩

theorem Extends.attributesOf? (h : Extends g r s) :
    forall target l, (r.attributesOf? g target).value = some l ->
      (s.attributesOf? g target).value = some l
  | .type t, l, hl => by
      rcases Option.map_eq_some_iff.mp hl with ⟨d, hd, hattributes⟩
      exact Option.map_eq_some_iff.mpr ⟨d, h.resolveType t d hd, hattributes⟩
  | .method m, l, hl => by
      rcases Option.map_eq_some_iff.mp hl with ⟨d, hd, hattributes⟩
      exact Option.map_eq_some_iff.mpr ⟨d, h.resolveMethod m d hd, hattributes⟩
  | .field f, l, hl => by
      rcases Option.map_eq_some_iff.mp hl with ⟨d, hd, hattributes⟩
      exact Option.map_eq_some_iff.mpr ⟨d, h.resolveField f d hd, hattributes⟩
  | .property _, _, hl => hl
  | .event _, _, hl => hl

theorem Extends.isDeprecated (h : Extends g r s) (target : AttributeTarget)
    (hr : (r.isDeprecated g target).value = true) :
    (s.isDeprecated g target).value = true := by
  rw [value_isDeprecated] at hr ⊢
  exact any_of_forall_some (h.attributesOf? target) hr

theorem Extends.isExtension (h : Extends g r s) (m : MethodReference)
    (hr : r.isExtension g m = true) : s.isExtension g m = true :=
  any_of_forall_some (h.resolveMethod m) hr

theorem Extends.isAwaitable (h : Extends g r s) (returns : TypeSig)
    (hr : (r.isAwaitable g returns).value = true) :
    (s.isAwaitable g returns).value = true := by
  rw [value_isAwaitable] at hr ⊢
  exact any_of_forall_some (h.resolveSignature returns) hr

theorem bits_and_eq_left {b c : Badges} (hext : b.extension = true -> c.extension = true)
    (hawait : b.awaitable = true -> c.awaitable = true) : b.bits &&& c.bits = b.bits := by
  rcases b with ⟨bext, bawait⟩
  rcases c with ⟨cext, cawait⟩
  revert hext hawait
  cases bext <;> cases bawait <;> cases cext <;> cases cawait <;> decide

theorem Extends.badges (h : Extends g r s) (m : MethodReference) :
    (r.methodBadges g m).value.bits &&& (s.methodBadges g m).value.bits =
      (r.methodBadges g m).value.bits := by
  rw [value_methodBadges, value_methodBadges]
  apply bits_and_eq_left
  · exact h.isExtension m
  · intro hr
    rcases (Option.any_eq_true _ _).mp hr with ⟨signature, hsignature, hawait⟩
    exact (Option.any_eq_true _ _).mpr
      ⟨signature, hsignature, h.isAwaitable signature.returns.type hawait⟩

/-!
## Attribute hierarchies

The induction is on the fuel.  The two walks look at the same types for as long as
the one of `r` goes on.
-/

theorem Extends.derivesFromConstant (h : Extends g r s) (name : String) {fuel : Nat}
    {start start' : Option TypeId} (hstart : forall t, start = some t -> start' = some t)
    (hr : (r.derivesFromConstant g name fuel start).value = true) :
    (s.derivesFromConstant g name fuel start').value = true := by
  induction fuel generalizing start start' with
  | zero =>
      exact Bool.noConfusion hr
  | succ fuel ih =>
      cases start with
      | none =>
          rw [value_derivesFromConstant_none] at hr
          exact Bool.noConfusion hr
      | some t =>
          rw [hstart t rfl, value_derivesFromConstant_succ, Bool.or_eq_true]
          rw [value_derivesFromConstant_succ, Bool.or_eq_true] at hr
          rcases hr with hname | hrest
          · exact Or.inl hname
          · apply Or.inr
            refine ih ?_ hrest
            intro b hb
            rcases Option.bind_eq_some_iff.mp hb with ⟨d, hd, hbase⟩
            exact Option.bind_eq_some_iff.mpr ⟨d, h.resolveType t d hd, hbase⟩

theorem Extends.isConstantAttribute (h : Extends g r s) (a : Attribute)
    (hr : (r.isConstantAttribute g a).value = true) :
    (s.isConstantAttribute g a).value = true := by
  rw [value_isConstantAttribute, Bool.or_eq_true] at hr ⊢
  exact hr.imp_right (h.derivesFromConstant a.fullName fun _ ht => ht)

theorem Extends.isOptional (h : Extends g r s) (p : ParamId)
    (hr : (r.isOptional g p).value = true) : (s.isOptional g p).value = true := by
  rw [value_isOptional, Bool.or_eq_true] at hr ⊢
  refine hr.imp_right ?_
  intro hany
  rcases List.any_eq_true.mp hany with ⟨a, ha, hconstant⟩
  exact List.any_eq_true.mpr ⟨a, ha, h.isConstantAttribute a hconstant⟩

/-!
## Base chains
-/

theorem Extends.climb_prefix (h : Extends g r s) {fuel : Nat} {start start' : Option TypeId}
    (hstart : forall t, start = some t -> start' = some t) :
    (r.climb g fuel start).value <+: (s.climb g fuel start').value := by
  induction fuel generalizing start start' with
  | zero =>
      rw [value_climb_zero]
      exact List.nil_prefix
  | succ fuel ih =>
      cases start with
      | none =>
          rw [value_climb_none]
          exact List.nil_prefix
      | some t =>
          rw [hstart t rfl, value_climb_succ, value_climb_succ, List.cons_prefix_cons]
          exact ⟨rfl, ih (h.baseType t)⟩

theorem length_climb_le (r : Resolver) (g : Graph) (fuel : Nat) (start : Option TypeId) :
    (r.climb g fuel start).value.length ≤ fuel := by
  induction fuel generalizing start with
  | zero =>
      rw [value_climb_zero]
      exact Nat.le_refl 0
  | succ fuel ih =>
      cases start with
      | none =>
          rw [value_climb_none]
          exact Nat.zero_le _
      | some t =>
          rw [value_climb_succ, List.length_cons]
          exact Nat.succ_le_succ (ih _)

theorem value_climb_of_base?_eq_none {t : TypeId} (hbase : g.base? t = none) (fuel : Nat)
    (r : Resolver) : (r.climb g (fuel + 1) (some t)).value = [t] := by
  rw [value_climb_succ, value_baseType, hbase, Option.bind_none, value_climb_none]

theorem Extends.climb_eq_of_length (h : Extends g r s) {fuel : Nat}
    {start start' : Option TypeId} (hstart : forall t, start = some t -> start' = some t)
    (hlength : (r.climb g fuel start).value.length = fuel) :
    (r.climb g fuel start).value = (s.climb g fuel start').value := by
  apply (h.climb_prefix hstart).eq_of_length_le
  rw [hlength]
  exact length_climb_le s g fuel start'

theorem Extends.climb_eq_of_base?_eq_none (h : Extends g r s) {fuel : Nat}
    {start start' : Option TypeId} (hstart : forall t, start = some t -> start' = some t)
    {last : TypeId} (hlast : (r.climb g fuel start).value.getLast? = some last)
    (hbase : g.base? last = none) :
    (r.climb g fuel start).value = (s.climb g fuel start').value := by
  induction fuel generalizing start start' with
  | zero =>
      rw [value_climb_zero] at hlast
      cases hlast
  | succ fuel ih =>
      cases start with
      | none =>
          rw [value_climb_none] at hlast
          cases hlast
      | some t =>
          rw [hstart t rfl]
          rw [value_climb_succ] at hlast
          cases hrest : (r.climb g fuel (r.baseType g t).value).value with
          | nil =>
              -- The walk of `r` ends with `t`; without a base the walk of `s` ends there too.
              have heq : t = last := by
                simpa [hrest] using hlast
              subst heq
              rw [value_climb_of_base?_eq_none hbase, value_climb_of_base?_eq_none hbase]
          | cons b rest =>
              have hrestLast :
                  (r.climb g fuel (r.baseType g t).value).value.getLast? = some last := by
                rw [hrest, List.getLast?_cons_cons] at hlast
                rw [hrest]
                exact hlast
              rw [value_climb_succ, value_climb_succ, ih (h.baseType t) hrestLast]

theorem Extends.lineage_prefix (h : Extends g r s) (t : TypeId) :
    (r.lineage g t).value <+: (s.lineage g t).value := by
  rw [value_lineage, value_lineage]
  exact h.climb_prefix (h.resolveType t)

theorem Extends.lineage_eq (h : Extends g r s) {t : TypeId}
    (hcomplete : WalkComplete g (r.lineage g t).value) :
    (r.lineage g t).value = (s.lineage g t).value := by
  rw [value_lineage] at hcomplete
  rw [value_lineage, value_lineage]
  rcases hcomplete with hlength | ⟨last, hlast, hbase⟩
  · exact h.climb_eq_of_length (h.resolveType t) hlength
  · exact h.climb_eq_of_base?_eq_none (h.resolveType t) hlast hbase

/-!
## Counting over a longer chain
-/

theorem eraseDupsBy_prefix_append {α : Type} (same : α -> α -> Bool) :
    forall l m : List α, l.eraseDupsBy same <+: (l ++ m).eraseDupsBy same
  | [], _ => List.nil_prefix
  | a :: l, m => by
      rw [List.cons_append, List.eraseDupsBy_cons, List.eraseDupsBy_cons, List.filter_append,
        List.cons_prefix_cons]
      exact ⟨rfl, eraseDupsBy_prefix_append same _ _⟩
termination_by l => l.length
decreasing_by
  exact Nat.lt_succ_of_le (List.length_filter_le _ l)

theorem length_distinctSignatures_le (g : Graph) (name : String) {l m : List TypeId}
    (h : l <+: m) :
    (g.distinctSignatures name l).length ≤ (g.distinctSignatures name m).length := by
  rcases h with ⟨rest, rfl⟩
  unfold Graph.distinctSignatures
  rw [List.flatMap_append]
  exact (eraseDupsBy_prefix_append g.sameMethodSig _ _).length_le

theorem Extends.otherOverloads_le (h : Extends g r s) (t : TypeId) (name : String) :
    (r.otherOverloads g t name).value ≤ (s.otherOverloads g t name).value := by
  rw [value_otherOverloads, value_otherOverloads]
  exact Nat.sub_le_sub_right (length_distinctSignatures_le g name (h.lineage_prefix t)) 1

theorem Extends.otherOverloads_eq (h : Extends g r s) (t : TypeId) (name : String)
    (hcomplete : WalkComplete g (r.lineage g t).value) :
    (s.otherOverloads g t name).value = (r.otherOverloads g t name).value := by
  rw [value_otherOverloads, value_otherOverloads, h.lineage_eq hcomplete]

theorem Extends.keepsAnswers (h : Extends g r s) : KeepsAnswers g r s where
  deprecated := h.isDeprecated
  extensionMethod := h.isExtension
  awaitable := h.isAwaitable
  optional := h.isOptional
  badges := h.badges
  overloads := h.otherOverloads_le
  overloads_eq := h.otherOverloads_eq

/-- Over every graph and with every content, the registry resolves what the links resolve, to
the same, and so keeps every answer that the links give. -/
theorem registry_conservative (g : Graph) (reg : Registry) :
    Extends g .links (.registry reg) ∧ KeepsAnswers g .links (.registry reg) :=
  ⟨registry_extends_links g reg, (registry_extends_links g reg).keepsAnswers⟩

end Resolver
end MetadataLabels
