import MetadataLabels.Accessor
import MetadataLabels.Proofs.ResolverExtension
import MetadataLabels.Proofs.SlotHistory
import MetadataLabels.Proofs.TupleLevel

/-!
# Answers after a loss

Giving up holds takes rows out of a graph and changes none of those that stay.
Every query that follows links alone then keeps its answer or loses it: what it
resolves in the smaller graph, it resolved to the same before.
-/

namespace MetadataLabels

namespace Graph

def Within (later earlier : Graph) : Prop :=
  forall (k : Kind) (id : RowId k) (row : Row k),
    later.find? id = some row -> earlier.find? id = some row

/-- Each answer of the later graph is the answer of the earlier one, or says less. -/
structure Degrades (earlier later : Graph) : Prop where
  resolveType : forall t d, (Resolver.links.resolveType later t).value = some d ->
    (Resolver.links.resolveType earlier t).value = some d
  baseType : forall t d, (Resolver.links.baseType later t).value = some d ->
    (Resolver.links.baseType earlier t).value = some d
  resolveMethod : forall m d, Resolver.links.resolveMethod later m = some d ->
    Resolver.links.resolveMethod earlier m = some d
  resolveField : forall f d, Resolver.links.resolveField later f = some d ->
    Resolver.links.resolveField earlier f = some d
  resolveSignature : forall s d, (Resolver.links.resolveSignature later s).value = some d ->
    (Resolver.links.resolveSignature earlier s).value = some d
  deprecated : forall target, (Resolver.links.isDeprecated later target).value = true ->
    (Resolver.links.isDeprecated earlier target).value = true
  extensionMethod : forall m, Resolver.links.isExtension later m = true ->
    Resolver.links.isExtension earlier m = true
  awaitable : forall s, (Resolver.links.isAwaitable later s).value = true ->
    (Resolver.links.isAwaitable earlier s).value = true
  optional : forall p, (Resolver.links.isOptional later p).value = true ->
    (Resolver.links.isOptional earlier p).value = true
  delegate : forall t, later.isDelegate t = true -> earlier.isDelegate t = true
  nullable : forall i, later.isNullable i = true -> earlier.isNullable i = true
  badges : forall m, (Resolver.links.methodBadges later m).value.bits &&&
    (Resolver.links.methodBadges earlier m).value.bits =
      (Resolver.links.methodBadges later m).value.bits
  tupleRank : forall i n, (later.tupleRank? i).value = some n ->
    (earlier.tupleRank? i).value = some n
  accessor : forall m, later.accessorOf? m = none ∨
    later.accessorOf? m = earlier.accessorOf? m

variable {earlier later : Graph}

/-!
## Rows and links
-/

theorem within_refl (g : Graph) : g.Within g :=
  fun _ _ _ hrow => hrow

theorem Within.trans {latest : Graph} (h : latest.Within later) (h' : later.Within earlier) :
    latest.Within earlier :=
  fun k id row hrow => h' k id row (h k id row hrow)

theorem within_retain (g : Graph) (keep : Node -> Bool) : (g.retain keep).Within g := by
  intro k id row hrow
  rw [find?_retain] at hrow
  split at hrow
  · exact hrow
  · cases hrow

theorem Within.isLive (h : later.Within earlier) {n : Node} (hn : later.isLive n = true) :
    earlier.isLive n = true := by
  have hid : later.isLive n.id.node = true := hn
  rcases exists_row_of_isLive hid with ⟨row, hrow⟩
  exact Option.isSome_iff_exists.mpr ⟨row, h n.kind n.id row hrow⟩

theorem Within.live? (h : later.Within earlier) {k : Kind} {id other : RowId k}
    (hid : later.live? id = some other) : earlier.live? id = some other := by
  rw [live?_eq_some_iff] at hid ⊢
  exact ⟨hid.left, h.isLive hid.right⟩

theorem Within.read (h : later.Within earlier) {s : Slot} {carrier : RowId s.carrier}
    {value : s.Value} (hread : later.read s carrier = some value) :
    earlier.read s carrier = some value := by
  rw [read_eq_some_iff] at hread ⊢
  rcases hread with ⟨hrecorded, hcurrent⟩
  rcases Option.bind_eq_some_iff.mp hrecorded with ⟨row, hrow, hget⟩
  refine ⟨Option.bind_eq_some_iff.mpr ⟨row, h _ carrier row hrow, hget⟩, ?_⟩
  unfold isCurrent at hcurrent ⊢
  cases hreferent : s.referent value with
  | none =>
      rfl
  | some n =>
      rw [hreferent] at hcurrent
      exact h.isLive hcurrent

theorem Within.any_type? (h : later.Within earlier) {t : TypeId} {p : TypeRow -> Bool}
    (ht : (later.type? t).any p = true) : (earlier.type? t).any p = true :=
  Resolver.any_of_forall_some (h .type t) ht

theorem Within.mem_attributes (h : later.Within earlier) {k : Kind} {id : RowId k}
    {a : Attribute} (ha : a ∈ later.attributes id) : a ∈ earlier.attributes id := by
  unfold attributes at ha
  split at ha
  next row hrow =>
      unfold attributes
      rw [h k id row hrow]
      exact ha
  next =>
      cases ha

theorem Within.hasAttribute (h : later.Within earlier) {k : Kind} {id : RowId k}
    {name : String} (ha : hasAttribute (later.attributes id) name = true) :
    hasAttribute (earlier.attributes id) name = true := by
  rcases List.any_eq_true.mp ha with ⟨a, hmem, hname⟩
  exact List.any_eq_true.mpr ⟨a, h.mem_attributes hmem, hname⟩

/-!
## Resolution
-/

theorem Within.resolveType (h : later.Within earlier) (t d : TypeId)
    (hd : (Resolver.links.resolveType later t).value = some d) :
    (Resolver.links.resolveType earlier t).value = some d := by
  rw [Resolver.value_resolveType_eq_some_iff] at hd ⊢
  rcases hd with ⟨row, hrow, hdef | ⟨href, hlink⟩ | ⟨_, _, hname⟩⟩
  · exact ⟨row, h _ t row hrow, Or.inl hdef⟩
  · exact ⟨row, h _ t row hrow, Or.inr (Or.inl ⟨href, h.read hlink⟩)⟩
  · rw [Resolver.value_byName_links] at hname
    cases hname

theorem Within.baseType (h : later.Within earlier) (t d : TypeId)
    (hd : (Resolver.links.baseType later t).value = some d) :
    (Resolver.links.baseType earlier t).value = some d := by
  rw [Resolver.value_baseType] at hd ⊢
  rcases Option.bind_eq_some_iff.mp hd with ⟨b, hb, hbd⟩
  exact Option.bind_eq_some_iff.mpr ⟨b, h.read hb, h.resolveType b d hbd⟩

theorem Within.resolveSignature (h : later.Within earlier) (s : TypeSig) (d : TypeId)
    (hd : (Resolver.links.resolveSignature later s).value = some d) :
    (Resolver.links.resolveSignature earlier s).value = some d := by
  rw [Resolver.value_resolveSignature] at hd ⊢
  rcases Option.bind_eq_some_iff.mp hd with ⟨t, ht, htd⟩
  exact Option.bind_eq_some_iff.mpr ⟨t, ht, h.resolveType t d htd⟩

theorem Within.resolveMethod (h : later.Within earlier) (m : MethodReference) (d : MethodId)
    (hd : Resolver.links.resolveMethod later m = some d) :
    Resolver.links.resolveMethod earlier m = some d := by
  cases m with
  | definition id =>
      exact h.live? hd
  | member id =>
      simp only [Resolver.resolveMethod, MethodReference.definition?] at hd ⊢
      split at hd
      next target htarget =>
          rw [target?, h.read htarget]
          exact hd
      next =>
          cases hd

theorem Within.resolveField (h : later.Within earlier) (f : FieldReference) (d : FieldId)
    (hd : Resolver.links.resolveField later f = some d) :
    Resolver.links.resolveField earlier f = some d := by
  cases f with
  | definition id =>
      exact h.live? hd
  | member id =>
      simp only [Resolver.resolveField, FieldReference.definition?] at hd ⊢
      split at hd
      next target htarget =>
          rw [target?, h.read htarget]
          exact hd
      next =>
          cases hd

/-!
## Classification
-/

theorem Within.isExtension (h : later.Within earlier) (m : MethodReference)
    (hm : Resolver.links.isExtension later m = true) :
    Resolver.links.isExtension earlier m = true := by
  rcases (Option.any_eq_true _ _).mp hm with ⟨d, hd, hattribute⟩
  exact (Option.any_eq_true _ _).mpr ⟨d, h.resolveMethod m d hd, h.hasAttribute hattribute⟩

theorem Within.any_attributes (h : later.Within earlier) {k : Kind}
    {found before : Option (RowId k)} (hfound : forall d, found = some d -> before = some d)
    {name : String}
    (hname : (found.map later.attributes).any (MetadataLabels.hasAttribute · name) = true) :
    (before.map earlier.attributes).any (MetadataLabels.hasAttribute · name) = true := by
  -- A definition that is found and marked was found and marked before.
  rw [Option.any_map] at hname ⊢
  rcases (Option.any_eq_true _ _).mp hname with ⟨d, hd, hattribute⟩
  exact (Option.any_eq_true _ _).mpr ⟨d, hfound d hd, h.hasAttribute hattribute⟩

theorem Within.isDeprecated (h : later.Within earlier) (target : AttributeTarget)
    (ht : (Resolver.links.isDeprecated later target).value = true) :
    (Resolver.links.isDeprecated earlier target).value = true := by
  rw [Resolver.value_isDeprecated] at ht ⊢
  cases target with
  | type t =>
      exact h.any_attributes (h.resolveType t) ht
  | method m =>
      exact h.any_attributes (h.resolveMethod m) ht
  | field f =>
      exact h.any_attributes (h.resolveField f) ht
  | property p =>
      exact h.hasAttribute ht
  | event e =>
      exact h.hasAttribute ht

theorem Within.isAwaitable (h : later.Within earlier) (s : TypeSig)
    (hs : (Resolver.links.isAwaitable later s).value = true) :
    (Resolver.links.isAwaitable earlier s).value = true := by
  rw [Resolver.value_isAwaitable] at hs ⊢
  rcases (Option.any_eq_true _ _).mp hs with ⟨t, ht, hawait⟩
  exact (Option.any_eq_true _ _).mpr ⟨t, h.resolveSignature s t ht, h.any_type? hawait⟩

theorem Within.signature? (h : later.Within earlier) (m : MethodReference)
    (signature : MethodSig) (hm : m.signature? later = some signature) :
    m.signature? earlier = some signature := by
  cases m with
  | definition id =>
      rcases Option.map_eq_some_iff.mp hm with ⟨row, hrow, hsignature⟩
      exact Option.map_eq_some_iff.mpr ⟨row, h .method id row hrow, hsignature⟩
  | member id =>
      rcases Option.bind_eq_some_iff.mp hm with ⟨row, hrow, hsignature⟩
      exact Option.bind_eq_some_iff.mpr ⟨row, h .memberRef id row hrow, hsignature⟩

theorem Within.badges (h : later.Within earlier) (m : MethodReference) :
    (Resolver.links.methodBadges later m).value.bits &&&
      (Resolver.links.methodBadges earlier m).value.bits =
        (Resolver.links.methodBadges later m).value.bits := by
  rw [Resolver.value_methodBadges, Resolver.value_methodBadges]
  apply Resolver.bits_and_eq_left
  · exact h.isExtension m
  · intro hm
    rcases (Option.any_eq_true _ _).mp hm with ⟨signature, hsignature, hawait⟩
    exact (Option.any_eq_true _ _).mpr
      ⟨signature, h.signature? m signature hsignature, h.isAwaitable _ hawait⟩

theorem Within.isDelegate (h : later.Within earlier) (t : TypeId)
    (ht : later.isDelegate t = true) : earlier.isDelegate t = true := by
  refine Resolver.any_of_forall_some ?_ ht
  intro row hrow
  rcases Option.bind_eq_some_iff.mp hrow with ⟨b, hb, hbase⟩
  exact Option.bind_eq_some_iff.mpr ⟨b, h.read hb, h .type b row hbase⟩

/-!
## Attribute hierarchies

The induction is on the fuel.  The walk in the earlier graph meets every type that
the walk in the later one meets.
-/

theorem Within.derivesFromConstant (h : later.Within earlier) (name : String) {fuel : Nat}
    {start before : Option TypeId} (hstart : forall t, start = some t -> before = some t)
    (ht : (Resolver.links.derivesFromConstant later name fuel start).value = true) :
    (Resolver.links.derivesFromConstant earlier name fuel before).value = true := by
  induction fuel generalizing start before with
  | zero =>
      cases ht
  | succ fuel ih =>
      cases start with
      | none =>
          rw [Resolver.value_derivesFromConstant_none] at ht
          cases ht
      | some t =>
          rw [Resolver.value_derivesFromConstant_succ, Bool.or_eq_true] at ht
          rw [hstart t rfl, Resolver.value_derivesFromConstant_succ, Bool.or_eq_true]
          rcases ht with hname | hrest
          · exact Or.inl (h.any_type? hname)
          · apply Or.inr
            refine ih ?_ hrest
            intro b hb
            rcases Option.bind_eq_some_iff.mp hb with ⟨d, hd, hbase⟩
            exact Option.bind_eq_some_iff.mpr ⟨d, h.resolveType t d hd, h.read hbase⟩

theorem Within.isConstantAttribute (h : later.Within earlier) (a : Attribute)
    (ha : (Resolver.links.isConstantAttribute later a).value = true) :
    (Resolver.links.isConstantAttribute earlier a).value = true := by
  rw [Resolver.value_isConstantAttribute, Bool.or_eq_true] at ha ⊢
  refine ha.imp_right (h.derivesFromConstant a.fullName ?_)
  intro t ht
  rcases Option.bind_eq_some_iff.mp ht with ⟨id, hid, hlive⟩
  exact Option.bind_eq_some_iff.mpr ⟨id, hid, h.live? hlive⟩

theorem Within.isOptional (h : later.Within earlier) (p : ParamId)
    (hp : (Resolver.links.isOptional later p).value = true) :
    (Resolver.links.isOptional earlier p).value = true := by
  rw [Resolver.value_isOptional, Bool.or_eq_true] at hp ⊢
  rcases hp with hdefault | hattribute
  · rcases Option.isSome_iff_exists.mp hdefault with ⟨constant, hconstant⟩
    exact Or.inl (Option.isSome_iff_exists.mpr ⟨constant, h.read hconstant⟩)
  · rcases List.any_eq_true.mp hattribute with ⟨a, hmem, ha⟩
    exact Or.inr (List.any_eq_true.mpr
      ⟨a, h.mem_attributes hmem, h.isConstantAttribute a ha⟩)

/-!
## Tuples and nullables
-/

theorem Within.valueTypeName? (h : later.Within earlier) {s : TypeSig} {name : TypeName}
    (hs : later.valueTypeName? s = some name) : earlier.valueTypeName? s = some name := by
  rw [valueTypeName?_eq_some_iff] at hs ⊢
  rcases hs with ⟨t, row, hnamed, hrow, hname⟩
  exact ⟨t, row, hnamed, h .type t row hrow, hname⟩

theorem Within.tupleArity? (h : later.Within earlier) {i : Instantiation} {n : Nat}
    (hi : later.tupleArity? i = some n) : earlier.tupleArity? i = some n := by
  rw [tupleArity?_eq_some_iff] at hi ⊢
  exact ⟨h.valueTypeName? hi.left, hi.right⟩

theorem Within.tupleRankFrom (h : later.Within earlier) {fuel count rank : Nat}
    {i : Instantiation} (hi : later.tupleRankFrom fuel count i = .ok rank) :
    earlier.tupleRankFrom fuel count i = .ok rank := by
  induction fuel generalizing count i with
  | zero =>
      cases hi
  | succ fuel ih =>
      rcases tupleRankFrom_succ_eq_ok hi with
        ⟨n, harity, hlt, rfl⟩ | ⟨rest, harity, hrest, hcount⟩
      · exact tupleRankFrom_of_lt fuel count (h.tupleArity? harity) hlt
      · rw [tupleRankFrom_of_rest fuel count (h.tupleArity? harity), hrest]
        exact ih hcount

theorem value_tupleRank?_eq_some_iff {g : Graph} {i : Instantiation} {n : Nat} :
    (g.tupleRank? i).value = some n <-> g.checkedTupleRank i = .ok n := by
  unfold tupleRank?
  cases g.checkedTupleRank i with
  | ok rank =>
      simp
  | error e =>
      cases e <;> simp

theorem Within.tupleRank? (h : later.Within earlier) (i : Instantiation) (n : Nat)
    (hi : (later.tupleRank? i).value = some n) : (earlier.tupleRank? i).value = some n := by
  rw [value_tupleRank?_eq_some_iff] at hi ⊢
  exact h.tupleRankFrom hi

theorem Within.isNullable (h : later.Within earlier) (i : Instantiation)
    (hi : later.isNullable i = true) : earlier.isNullable i = true := by
  rcases Bool.and_eq_true_iff.mp hi with ⟨hlength, hname⟩
  exact Bool.and_eq_true_iff.mpr
    ⟨hlength, beq_iff_eq.mpr (h.valueTypeName? (beq_iff_eq.mp hname))⟩

/-!
## Accessors

The answer comes from the first property or event with a matching link.  If one of
them could be lost while its type lives, another would answer in its place; it
cannot, because the type owns them.
-/

theorem Within.recorded_eq (h : later.Within earlier) {s : Slot} {carrier : RowId s.carrier}
    (hlive : later.isLive carrier.node = true) :
    later.recorded s carrier = earlier.recorded s carrier := by
  rcases exists_row_of_isLive hlive with ⟨row, hrow⟩
  rw [recorded, recorded, hrow, h _ carrier row hrow]

theorem Within.members_eq (h : later.Within earlier) {l : MemberList} {owner : RowId l.owner}
    (hlive : later.isLive owner.node = true) :
    later.members l owner = earlier.members l owner := by
  rcases exists_row_of_isLive hlive with ⟨row, hrow⟩
  rw [members, members, hrow, h _ owner row hrow]

theorem mem_owned_of_mem_members {g : Graph} {l : MemberList} {owner : RowId l.owner}
    {member : RowId l.member} (h : member ∈ g.members l owner) :
    member.node ∈ g.owned owner.node := by
  unfold members at h
  split at h
  next row hrow =>
      rw [owned_eq hrow]
      have hnode : member.node ∈ (l.get row).map RowId.node := List.mem_map_of_mem h
      cases l with
      | methods | fields | properties | events | params =>
          simp only [Row.owned, List.mem_append]
          tauto
  next =>
      cases h

theorem findSome?_congr {α β : Type} {f f' : α -> Option β} {l : List α}
    (h : forall a, a ∈ l -> f a = f' a) : l.findSome? f = l.findSome? f' := by
  induction l with
  | nil =>
      rfl
  | cons a rest ih =>
      rw [List.findSome?_cons, List.findSome?_cons, h a List.mem_cons_self,
        ih fun b hb => h b (List.mem_cons_of_mem a hb)]

theorem Within.accessorOf? (h : later.Within earlier)
    (howned : forall m n, n ∈ later.owned m -> later.isLive n = true) (m : MethodId) :
    later.accessorOf? m = none ∨ later.accessorOf? m = earlier.accessorOf? m := by
  cases htype : later.declaringType? m with
  | none =>
      apply Or.inl
      rw [Graph.accessorOf?, htype]
  | some t =>
      apply Or.inr
      have hlive : later.isLive t.node = true := (read_eq_some_iff.mp htype).right
      have hbefore : earlier.declaringType? m = some t := h.read htype
      have hmember : forall (l : MemberList) (owner : RowId l.owner) member,
          member ∈ later.members l owner -> later.isLive member.node = true :=
        fun l owner member hmem => howned _ _ (mem_owned_of_mem_members hmem)
      have hproperties : (later.members .properties t).findSome? (later.propertyRole? m) =
          (later.members .properties t).findSome? (earlier.propertyRole? m) := by
        apply findSome?_congr
        intro p hp
        have hp' := hmember .properties t p hp
        rw [propertyRole?, propertyRole?, h.recorded_eq hp', h.recorded_eq hp']
      have hevents : (later.members .events t).findSome? (later.eventRole? m) =
          (later.members .events t).findSome? (earlier.eventRole? m) := by
        apply findSome?_congr
        intro e he
        have he' := hmember .events t e he
        rw [eventRole?, eventRole?, h.recorded_eq he', h.recorded_eq he']
      rw [h.members_eq (l := .properties) hlive] at hproperties
      rw [h.members_eq (l := .events) hlive] at hevents
      simp only [Graph.accessorOf?, htype, hbefore, h.members_eq (l := .properties) hlive,
        h.members_eq (l := .events) hlive, hproperties, hevents]

theorem Within.degrades (h : later.Within earlier)
    (howned : forall m n, n ∈ later.owned m -> later.isLive n = true) :
    earlier.Degrades later where
  resolveType := h.resolveType
  baseType := h.baseType
  resolveMethod := h.resolveMethod
  resolveField := h.resolveField
  resolveSignature := h.resolveSignature
  deprecated := h.isDeprecated
  extensionMethod := h.isExtension
  awaitable := h.isAwaitable
  optional := h.isOptional
  delegate := h.isDelegate
  nullable := h.isNullable
  badges := h.badges
  tupleRank := h.tupleRank?
  accessor := h.accessorOf? howned

end Graph

namespace Workspace

/-- What is given up: a hold by whoever has it, or a replaced type by the map of the registry. -/
inductive Loss
  | handle (n : Node)
  | retired (type : TypeId)

def Loss.edit : Loss -> Edit
  | .handle n => .release n
  | .retired type => .reclaim type

theorem within_loss (w : Workspace) (loss : Loss) :
    (w.apply loss.edit).graph.Within w.graph := by
  cases loss with
  | handle n =>
      simp only [Loss.edit, apply, release]
      split
      · exact Graph.within_retain w.graph _
      · exact Graph.within_refl w.graph
  | retired type =>
      simp only [Loss.edit, apply, reclaim]
      split
      · exact Graph.within_retain w.graph _
      · exact Graph.within_refl w.graph

theorem within_run_losses (w : Workspace) (losses : List Loss) :
    (w.run (losses.map Loss.edit)).graph.Within w.graph := by
  induction losses generalizing w with
  | nil =>
      exact Graph.within_refl w.graph
  | cons loss rest ih =>
      exact (ih (w.apply loss.edit)).trans (within_loss w loss)

theorem releases_only_degrade (edits : List Edit) (losses : List Loss) :
    (run {} edits).graph.Degrades ((run {} edits).run (losses.map Loss.edit)).graph :=
  (within_run_losses _ losses).degrades
    ((wellOwned_empty.run edits).run (losses.map Loss.edit)).owned_live

end Workspace
end MetadataLabels
