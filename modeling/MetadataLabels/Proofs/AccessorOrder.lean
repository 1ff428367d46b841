import MetadataLabels.Accessor
import MetadataLabels.Proofs.SameTypes

/-!
# The first link wins

The accessor slots of a type stand in one order: its properties as they are listed, each
getter before the setter, and then its events, each adder before the remover.  The
accessor of a method is the first slot of its declaring type that records the method.
Declarations, and the names in them, are not looked at.
-/

namespace MetadataLabels

namespace Accessor

def ofProperty (p : PropertyId) : List Accessor :=
  [.getter p, .setter p]

def ofEvent (e : EventId) : List Accessor :=
  [.adder e, .remover e]

end Accessor

def Row.redeclare : (k : Kind) -> Decl k -> Row k -> Row k
  | .type, d, r => { r with toTypeDecl := d }
  | .method, d, r => { r with toMethodDecl := d }
  | .field, d, r => { r with toFieldDecl := d }
  | .property, d, r => { r with toPropertyDecl := d }
  | .event, d, r => { r with toEventDecl := d }
  | .param, d, r => { r with toParamDecl := d }
  | .memberRef, d, r => { r with toMemberRefDecl := d }

namespace Slot

theorem keptBy_redeclare (s : Slot) {k : Kind} (d : Decl k) : s.KeptBy (Row.redeclare k d) := by
  intro h row
  subst h
  cases s <;> rfl

end Slot

namespace Graph

/-- The method that the slot of an accessor records, whether or not it still lives. -/
def linked? (g : Graph) : Accessor -> Option MethodId
  | .getter p => g.recorded .getter p
  | .setter p => g.recorded .setter p
  | .adder e => g.recorded .adder e
  | .remover e => g.recorded .remover e

def accessorSlots (g : Graph) (t : TypeId) : List Accessor :=
  (g.members .properties t).flatMap Accessor.ofProperty ++
    (g.members .events t).flatMap Accessor.ofEvent

def DeclaredBy (g : Graph) (m : MethodId) (t : TypeId) : Prop :=
  g.recorded .declaringType m = some t ∧ g.isLive t.node = true

def PropertyLinks (g : Graph) (m : MethodId) (p : PropertyId) : Prop :=
  g.recorded .getter p = some m ∨ g.recorded .setter p = some m

def EventLinks (g : Graph) (m : MethodId) (e : EventId) : Prop :=
  g.recorded .adder e = some m ∨ g.recorded .remover e = some m

def redeclare (g : Graph) {k : Kind} (id : RowId k) (decl : Decl k) : Graph :=
  g.modify id (Row.redeclare k decl)

structure FindsFirstLink (g : Graph) (m : MethodId) : Prop where
  none_iff : g.accessorOf? m = none <-> forall t, g.DeclaredBy m t ->
    (forall p, p ∈ g.members .properties t -> ¬ g.PropertyLinks m p) ∧
    (forall e, e ∈ g.members .events t -> ¬ g.EventLinks m e)
  some_iff : forall a, g.accessorOf? m = some a <-> exists t before after, g.DeclaredBy m t ∧
    g.accessorSlots t = before ++ a :: after ∧ g.linked? a = some m ∧
    (forall b, b ∈ before -> g.linked? b ≠ some m)
  property : forall t before p after, g.DeclaredBy m t ->
    g.members .properties t = before ++ p :: after ->
    (forall q, q ∈ before -> ¬ g.PropertyLinks m q) -> g.PropertyLinks m p ->
    g.accessorOf? m = some (if g.recorded .getter p = some m then .getter p else .setter p)
  event : forall t before e after, g.DeclaredBy m t ->
    (forall p, p ∈ g.members .properties t -> ¬ g.PropertyLinks m p) ->
    g.members .events t = before ++ e :: after ->
    (forall f, f ∈ before -> ¬ g.EventLinks m f) -> g.EventLinks m e ->
    g.accessorOf? m = some (if g.recorded .adder e = some m then .adder e else .remover e)
  redeclared : forall (k : Kind) (id : RowId k) (decl : Decl k),
    (g.redeclare id decl).accessorOf? m = g.accessorOf? m

variable {g : Graph} {m : MethodId} {t : TypeId}

/-!
## Two slots of one owner
-/

def roleAmong? (g : Graph) (m : MethodId) (first second : Accessor) : Option Accessor :=
  if g.linked? first = some m then some first
  else if g.linked? second = some m then some second
  else none

section Roles

variable {first second : Accessor}

theorem roleAmong?_eq_find? :
    g.roleAmong? m first second =
      [first, second].find? fun a => decide (g.linked? a = some m) := by
  rw [roleAmong?]
  by_cases hfirst : g.linked? first = some m
  · simp [hfirst]
  · by_cases hsecond : g.linked? second = some m
    · simp [hfirst, hsecond]
    · simp [hfirst, hsecond]

theorem roleAmong?_of_links (h : g.linked? first = some m ∨ g.linked? second = some m) :
    g.roleAmong? m first second =
      some (if g.linked? first = some m then first else second) := by
  rw [roleAmong?]
  split
  next =>
      rfl
  next hfirst =>
      rw [if_pos (h.resolve_left hfirst)]

theorem roleAmong?_eq_none_iff :
    g.roleAmong? m first second = none <->
      ¬ (g.linked? first = some m ∨ g.linked? second = some m) := by
  constructor
  · intro h hlinks
    rw [roleAmong?_of_links hlinks] at h
    cases h
  · intro h
    rcases not_or.mp h with ⟨hfirst, hsecond⟩
    rw [roleAmong?, if_neg hfirst, if_neg hsecond]

end Roles

section Owners

variable {k : Kind} {first second : RowId k -> Accessor} {owners before after : List (RowId k)}
  {owner : RowId k}

theorem findSome?_roleAmong?_eq_none_iff :
    (owners.findSome? fun o => g.roleAmong? m (first o) (second o)) = none <->
      forall o, o ∈ owners -> ¬ (g.linked? (first o) = some m ∨ g.linked? (second o) = some m) := by
  simp only [List.findSome?_eq_none_iff, roleAmong?_eq_none_iff]

theorem findSome?_roleAmong?_of_first
    (hbefore : forall o, o ∈ before ->
      ¬ (g.linked? (first o) = some m ∨ g.linked? (second o) = some m))
    (howner : g.linked? (first owner) = some m ∨ g.linked? (second owner) = some m) :
    ((before ++ owner :: after).findSome? fun o => g.roleAmong? m (first o) (second o)) =
      some (if g.linked? (first owner) = some m then first owner else second owner) := by
  rw [List.findSome?_append, findSome?_roleAmong?_eq_none_iff.mpr hbefore, Option.none_or,
    List.findSome?_cons, roleAmong?_of_links howner]

end Owners

/-!
## The lists of a type
-/

theorem propertyRole?_eq_roleAmong? :
    g.propertyRole? m = fun p => g.roleAmong? m (.getter p) (.setter p) :=
  rfl

theorem eventRole?_eq_roleAmong? :
    g.eventRole? m = fun e => g.roleAmong? m (.adder e) (.remover e) :=
  rfl

theorem declaringType?_eq_some_iff : g.declaringType? m = some t <-> g.DeclaredBy m t :=
  read_eq_some_iff

theorem exists_declaredBy_of_accessorOf? {a : Accessor} (h : g.accessorOf? m = some a) :
    exists t, g.DeclaredBy m t := by
  cases htype : g.declaringType? m with
  | none =>
      rw [accessorOf?, htype] at h
      cases h
  | some t =>
      exact ⟨t, declaringType?_eq_some_iff.mp htype⟩

theorem accessorOf?_of_declaredBy (h : g.DeclaredBy m t) :
    g.accessorOf? m =
      ((g.members .properties t).findSome? fun p => g.roleAmong? m (.getter p) (.setter p)).or
        ((g.members .events t).findSome? fun e => g.roleAmong? m (.adder e) (.remover e)) := by
  rw [accessorOf?, declaringType?_eq_some_iff.mpr h, propertyRole?_eq_roleAmong?,
    eventRole?_eq_roleAmong?]
  dsimp only
  cases (g.members .properties t).findSome? fun p => g.roleAmong? m (.getter p) (.setter p) <;>
    rfl

theorem accessorOf?_eq_find? (h : g.DeclaredBy m t) :
    g.accessorOf? m = (g.accessorSlots t).find? fun a => decide (g.linked? a = some m) := by
  simp only [accessorOf?_of_declaredBy h, accessorSlots, List.find?_append, List.find?_flatMap,
    roleAmong?_eq_find?, Accessor.ofProperty, Accessor.ofEvent]

theorem accessorOf?_eq_none_iff :
    g.accessorOf? m = none <-> forall t, g.DeclaredBy m t ->
      (forall p, p ∈ g.members .properties t -> ¬ g.PropertyLinks m p) ∧
      (forall e, e ∈ g.members .events t -> ¬ g.EventLinks m e) := by
  have hsearch : forall t, g.DeclaredBy m t -> (g.accessorOf? m = none <->
      (forall p, p ∈ g.members .properties t -> ¬ g.PropertyLinks m p) ∧
      (forall e, e ∈ g.members .events t -> ¬ g.EventLinks m e)) := by
    intro t ht
    rw [accessorOf?_of_declaredBy ht, Option.or_eq_none_iff, findSome?_roleAmong?_eq_none_iff,
      findSome?_roleAmong?_eq_none_iff]
    rfl
  constructor
  · intro h t ht
    exact (hsearch t ht).mp h
  · intro h
    by_contra hfound
    rcases Option.ne_none_iff_exists'.mp hfound with ⟨a, ha⟩
    rcases exists_declaredBy_of_accessorOf? ha with ⟨t, ht⟩
    exact hfound ((hsearch t ht).mpr (h t ht))

theorem accessorOf?_eq_some_iff {a : Accessor} :
    g.accessorOf? m = some a <-> exists t before after, g.DeclaredBy m t ∧
      g.accessorSlots t = before ++ a :: after ∧ g.linked? a = some m ∧
      (forall b, b ∈ before -> g.linked? b ≠ some m) := by
  constructor
  · intro h
    rcases exists_declaredBy_of_accessorOf? h with ⟨t, ht⟩
    rw [accessorOf?_eq_find? ht] at h
    rcases List.find?_eq_some_iff_append.mp h with ⟨hlinked, before, after, hslots, hbefore⟩
    refine ⟨t, before, after, ht, hslots, of_decide_eq_true hlinked, ?_⟩
    intro b hb
    simpa using hbefore b hb
  · intro h
    rcases h with ⟨t, before, after, ht, hslots, hlinked, hbefore⟩
    rw [accessorOf?_eq_find? ht]
    refine List.find?_eq_some_iff_append.mpr ⟨decide_eq_true hlinked, before, after, hslots, ?_⟩
    intro b hb
    simpa using hbefore b hb

/-!
## Declarations
-/

theorem members_redeclare {k : Kind} (id : RowId k) (decl : Decl k) (l : MemberList)
    (owner : RowId l.owner) : (g.redeclare id decl).members l owner = g.members l owner := by
  by_cases h : owner.node = id.node
  · have hk : k = l.owner := (congrArg Node.kind h).symm
    subst hk
    rw [members, members, redeclare, RowId.node_inj.mp h, find?_modify_self]
    cases g.find? id with
    | none =>
        rfl
    | some row =>
        cases l <;> rfl
  · rw [members, members, redeclare, find?_modify_of_ne g id _ owner h]

theorem recorded_redeclare {k : Kind} (id : RowId k) (decl : Decl k) (s : Slot)
    (carrier : RowId s.carrier) :
    (g.redeclare id decl).recorded s carrier = g.recorded s carrier :=
  recorded_modify_of_keptBy (s.keptBy_redeclare decl) id

theorem accessorOf?_redeclare {k : Kind} (id : RowId k) (decl : Decl k) :
    (g.redeclare id decl).accessorOf? m = g.accessorOf? m := by
  have htype : (g.redeclare id decl).declaringType? m = g.declaringType? m :=
    read_modify_of_keptBy (Slot.keptBy_redeclare .declaringType decl) id m
  have hproperty : (g.redeclare id decl).propertyRole? m = g.propertyRole? m := by
    funext p
    simp only [propertyRole?, recorded_redeclare]
  have hevent : (g.redeclare id decl).eventRole? m = g.eventRole? m := by
    funext e
    simp only [eventRole?, recorded_redeclare]
  simp only [accessorOf?, htype, hproperty, hevent, members_redeclare]

/-- For every method of every graph, the accessor is the first slot that links to it. -/
theorem accessorOf?_finds_first_link (g : Graph) (m : MethodId) : g.FindsFirstLink m where
  none_iff := accessorOf?_eq_none_iff
  some_iff _ := accessorOf?_eq_some_iff
  property t before p after ht hproperties hbefore hp := by
    have hfirst : ((before ++ p :: after).findSome? fun q =>
        g.roleAmong? m (.getter q) (.setter q)) =
          some (if g.recorded .getter p = some m then .getter p else .setter p) :=
      findSome?_roleAmong?_of_first hbefore hp
    rw [accessorOf?_of_declaredBy ht, hproperties, hfirst, Option.some_or]
  event t before e after ht hnone hevents hbefore he := by
    have hproperties : ((g.members .properties t).findSome? fun p =>
        g.roleAmong? m (.getter p) (.setter p)) = none :=
      findSome?_roleAmong?_eq_none_iff.mpr hnone
    have hfirst : ((before ++ e :: after).findSome? fun f =>
        g.roleAmong? m (.adder f) (.remover f)) =
          some (if g.recorded .adder e = some m then .adder e else .remover e) :=
      findSome?_roleAmong?_of_first hbefore he
    rw [accessorOf?_of_declaredBy ht, hproperties, Option.none_or, hevents, hfirst]
  redeclared _ id decl := accessorOf?_redeclare id decl

end Graph
end MetadataLabels
