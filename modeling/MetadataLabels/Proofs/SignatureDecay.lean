import Mathlib.Data.List.Basic
import Mathlib.Tactic.ByContra
import MetadataLabels.Proofs.SignatureEquivalence
import MetadataLabels.Proofs.WorkspaceStep

/-!
# Equality of signatures over time

A test of two signatures looks at the graph only to compare the types that they
link to, and the more of these are the same the more signatures are equal.  Over a
run, links that differ never become the same, and links that are the same become
different only with the release of one of them.  Both laws carry over to signatures
of any nesting.
-/

namespace MetadataLabels

/-!
## Links of a signature
-/

mutual

def TypeSig.links : TypeSig -> List TypeId
  | .basic _ => []
  | .modified _ of => of.links
  | .named _ t => [t]
  | .param _ _ => []
  | .inst base args => base.links ++ TypeSig.linksAll args

def TypeSig.linksAll : List TypeSig -> List TypeId
  | [] => []
  | s :: rest => s.links ++ TypeSig.linksAll rest

end

def Instantiation.links (i : Instantiation) : List TypeId :=
  i.base.links ++ TypeSig.linksAll i.args

def ParamSig.links (p : ParamSig) : List TypeId :=
  p.type.links

def MethodSig.links (m : MethodSig) : List TypeId :=
  m.returns.links ++ m.params.flatMap ParamSig.links

def FieldSig.links (f : FieldSig) : List TypeId :=
  f.type.links

def MemberSig.links : MemberSig -> List TypeId
  | .method m => m.links
  | .field f => f.links

namespace Graph

def LinksStaySame (g g' : Graph) (l l' : List TypeId) : Prop :=
  forall t, t ∈ l -> forall t', t' ∈ l' -> g.sameType t t' = true -> g'.sameType t t' = true

theorem LinksStaySame.left {g g' : Graph} {l m l' m' : List TypeId}
    (h : LinksStaySame g g' (l ++ m) (l' ++ m')) : LinksStaySame g g' l l' :=
  fun t ht t' ht' => h t (List.mem_append_left m ht) t' (List.mem_append_left m' ht')

theorem LinksStaySame.right {g g' : Graph} {l m l' m' : List TypeId}
    (h : LinksStaySame g g' (l ++ m) (l' ++ m')) : LinksStaySame g g' m m' :=
  fun t ht t' ht' => h t (List.mem_append_right l ht) t' (List.mem_append_right l' ht')

end Graph

/-!
## Tests of linked types

Such a test may compare anything that no graph can change, and beyond that only
links.  What it calls equal stays equal as long as the links do.
-/

/-- A test that compares values by their links and by what no graph can change. -/
structure LinkTest {α : Type} (links : α -> List TypeId) (same : Graph -> α -> α -> Bool) :
    Prop where
  stays : forall {g g' : Graph} {a b : α}, g.LinksStaySame g' (links a) (links b) ->
    same g a b = true -> same g' a b = true

namespace LinkTest

variable {α β : Type} {links links' : α -> List TypeId} {same same' : Graph -> α -> α -> Bool}

theorem constant (same : α -> α -> Bool) : LinkTest (fun _ => []) fun _ => same :=
  ⟨fun _ hab => hab⟩

theorem comap (h : LinkTest links same) (f : β -> α) :
    LinkTest (fun b => links (f b)) fun g a b => same g (f a) (f b) :=
  ⟨fun hlinks hab => h.stays hlinks hab⟩

theorem and (h : LinkTest links same) (h' : LinkTest links' same') :
    LinkTest (fun a => links a ++ links' a) fun g a b => same g a b && same' g a b where
  stays hlinks hab := by
    rcases Bool.and_eq_true_iff.mp hab with ⟨hsame, hsame'⟩
    exact Bool.and_eq_true_iff.mpr
      ⟨h.stays hlinks.left hsame, h'.stays hlinks.right hsame'⟩

theorem isEqv (h : LinkTest links same) :
    LinkTest (fun l : List α => l.flatMap links) fun g l m => l.isEqv m (same g) where
  stays {g g' l m} hlinks hlm := by
    induction l generalizing m with
    | nil =>
        cases m with
        | nil =>
            rfl
        | cons b m =>
            exact Bool.noConfusion hlm
    | cons a l ih =>
        cases m with
        | nil =>
            exact Bool.noConfusion hlm
        | cons b m =>
            rcases Bool.and_eq_true_iff.mp hlm with ⟨hab, hrest⟩
            exact Bool.and_eq_true_iff.mpr ⟨h.stays hlinks.left hab, ih hlinks.right hrest⟩

end LinkTest

namespace Graph

theorem sameType_linkTest : LinkTest (fun t => [t]) sameType :=
  ⟨fun hlinks hab => hlinks _ List.mem_cons_self _ List.mem_cons_self hab⟩

mutual

theorem sameSig_of_linksStaySame {g g' : Graph} :
    forall {a b : TypeSig}, g.LinksStaySame g' a.links b.links ->
      g.sameSig a b = true -> g'.sameSig a b = true
  | .basic _, .basic _, _, hab => hab
  | .modified _ _, .modified _ _, hlinks, hab => by
      rcases Bool.and_eq_true_iff.mp hab with ⟨hmodifier, hof⟩
      exact Bool.and_eq_true_iff.mpr ⟨hmodifier, sameSig_of_linksStaySame hlinks hof⟩
  | .named _ _, .named _ _, hlinks, hab => by
      rcases Bool.and_eq_true_iff.mp hab with ⟨hstorage, htype⟩
      exact Bool.and_eq_true_iff.mpr ⟨hstorage, sameType_linkTest.stays hlinks htype⟩
  | .param _ _, .param _ _, _, hab => hab
  | .inst _ _, .inst _ _, hlinks, hab => by
      rcases Bool.and_eq_true_iff.mp hab with ⟨hbase, hargs⟩
      exact Bool.and_eq_true_iff.mpr
        ⟨sameSig_of_linksStaySame hlinks.left hbase,
          sameSigs_of_linksStaySame hlinks.right hargs⟩

theorem sameSigs_of_linksStaySame {g g' : Graph} :
    forall {l m : List TypeSig},
      g.LinksStaySame g' (TypeSig.linksAll l) (TypeSig.linksAll m) ->
      g.sameSigs l m = true -> g'.sameSigs l m = true
  | [], [], _, _ => rfl
  | _ :: _, _ :: _, hlinks, hlm => by
      rcases Bool.and_eq_true_iff.mp hlm with ⟨hab, hrest⟩
      exact Bool.and_eq_true_iff.mpr
        ⟨sameSig_of_linksStaySame hlinks.left hab,
          sameSigs_of_linksStaySame hlinks.right hrest⟩

end

theorem sameSig_linkTest : LinkTest TypeSig.links sameSig :=
  ⟨sameSig_of_linksStaySame⟩

theorem sameSigs_linkTest : LinkTest TypeSig.linksAll sameSigs :=
  ⟨sameSigs_of_linksStaySame⟩

theorem sameInst_linkTest : LinkTest Instantiation.links sameInst :=
  (sameSig_linkTest.comap Instantiation.base).and (sameSigs_linkTest.comap Instantiation.args)

theorem sameParam_linkTest : LinkTest ParamSig.links sameParam :=
  ((LinkTest.constant (· == ·)).comap ParamSig.byRef).and
    (sameSig_linkTest.comap ParamSig.type)

theorem sameMethodSig_linkTest : LinkTest MethodSig.links sameMethodSig :=
  (((((LinkTest.constant (· == ·)).comap MethodSig.hasThis).and
    ((LinkTest.constant (· == ·)).comap MethodSig.vararg)).and
    ((LinkTest.constant (· == ·)).comap MethodSig.genericCount)).and
    (sameParam_linkTest.comap MethodSig.returns)).and
    (sameParam_linkTest.isEqv.comap MethodSig.params)

theorem sameFieldSig_linkTest : LinkTest FieldSig.links sameFieldSig :=
  sameSig_linkTest.comap FieldSig.type

theorem sameMemberSig_of_linksStaySame {g g' : Graph} :
    forall {a b : MemberSig}, g.LinksStaySame g' a.links b.links ->
      g.sameMemberSig a b = true -> g'.sameMemberSig a b = true
  | .method _, .method _, hlinks, hab => sameMethodSig_linkTest.stays hlinks hab
  | .field _, .field _, hlinks, hab => sameFieldSig_linkTest.stays hlinks hab

theorem sameMemberSig_linkTest : LinkTest MemberSig.links sameMemberSig :=
  ⟨sameMemberSig_of_linksStaySame⟩

theorem sameType_iff_decl? {g : Graph} {a b : TypeId} :
    g.sameType a b = true <->
      a = b ∨ exists x y : TypeDecl,
        g.decl? a = some x ∧ g.decl? b = some y ∧ x.name = y.name := by
  rw [sameType_iff]
  apply or_congr_right
  constructor
  · intro h
    rcases h with ⟨x, y, hx, hy, hname⟩
    exact ⟨x.toTypeDecl, y.toTypeDecl, Option.map_eq_some_iff.mpr ⟨x, hx, rfl⟩,
      Option.map_eq_some_iff.mpr ⟨y, hy, rfl⟩, hname⟩
  · intro h
    rcases h with ⟨x, y, hx, hy, hname⟩
    rcases Option.map_eq_some_iff.mp hx with ⟨row, hrow, rfl⟩
    rcases Option.map_eq_some_iff.mp hy with ⟨row', hrow', rfl⟩
    exact ⟨row, row', hrow, hrow', hname⟩

end Graph

namespace Workspace

/-!
## Links over a run
-/

variable {w : Workspace} {a b : TypeId} {edits : List Edit}

theorem sameType_of_run (ha : w.graph.Created a.node) (hb : w.graph.Created b.node)
    (hab : (w.run edits).graph.sameType a b = true) : w.graph.sameType a b = true := by
  rw [Graph.sameType_iff_decl?] at hab ⊢
  rcases hab with rfl | ⟨x, y, hx, hy, hname⟩
  · exact Or.inl rfl
  · exact Or.inr ⟨x, y, decl?_of_run ha hx, decl?_of_run hb hy, hname⟩

theorem sameType_run_of_isLive (hab : w.graph.sameType a b = true)
    (ha : w.graph.isLive a.node = true -> (w.run edits).graph.isLive a.node = true)
    (hb : w.graph.isLive b.node = true -> (w.run edits).graph.isLive b.node = true) :
    (w.run edits).graph.sameType a b = true := by
  rw [Graph.sameType_iff_decl?] at hab ⊢
  rcases hab with rfl | ⟨x, y, hx, hy, hname⟩
  · exact Or.inl rfl
  · have hla := Graph.isLive_of_decl? hx
    have hlb := Graph.isLive_of_decl? hy
    exact Or.inr ⟨x, y, decl?_run_of_isLive (Graph.created_of_isLive hla) hx (ha hla),
      decl?_run_of_isLive (Graph.created_of_isLive hlb) hy (hb hlb), hname⟩

/-!
## Signatures over a run
-/

/-- Once the types that two values link to exist, the values never become equal, and they
become unequal only with the release of one of these types. -/
def OnlyDecays {α : Type} (w : Workspace) (links : α -> List TypeId)
    (same : Graph -> α -> α -> Bool) : Prop :=
  forall a b, (forall t, t ∈ links a ++ links b -> w.graph.Created t.node) ->
    forall edits,
      (same w.graph a b = false -> same (w.run edits).graph a b = false) ∧
      (same w.graph a b = true -> same (w.run edits).graph a b = false ->
        exists t, t ∈ links a ++ links b ∧
          w.graph.isLive t.node = true ∧ (w.run edits).graph.isLive t.node = false)

theorem onlyDecays_of_linkTest {α : Type} {links : α -> List TypeId}
    {same : Graph -> α -> α -> Bool} (w : Workspace) (h : LinkTest links same) :
    w.OnlyDecays links same := by
  intro a b hcreated edits
  constructor
  · intro hbefore
    have hlinks : (w.run edits).graph.LinksStaySame w.graph (links a) (links b) :=
      fun t ht t' ht' => sameType_of_run (hcreated t (List.mem_append_left _ ht))
        (hcreated t' (List.mem_append_right _ ht'))
    rw [Bool.eq_false_iff] at hbefore ⊢
    exact fun hafter => hbefore (h.stays hlinks hafter)
  · intro hbefore hafter
    by_contra hkept
    -- No link is lost, so what was the same is so still.
    have hlive : forall t, t ∈ links a ++ links b -> w.graph.isLive t.node = true ->
        (w.run edits).graph.isLive t.node = true :=
      fun t ht ht' => Bool.of_not_eq_false fun hlost => hkept ⟨t, ht, ht', hlost⟩
    have hlinks : w.graph.LinksStaySame (w.run edits).graph (links a) (links b) :=
      fun t ht t' ht' hsame => sameType_run_of_isLive hsame
        (hlive t (List.mem_append_left _ ht)) (hlive t' (List.mem_append_right _ ht'))
    exact Bool.false_ne_true (hafter.symm.trans (h.stays hlinks hbefore))

/-- From every state on, equality of links and of signatures of every form can only be lost,
and only together with a type. -/
theorem signature_equality_only_decays (w : Workspace) :
    w.OnlyDecays (fun t => [t]) Graph.sameType ∧
    w.OnlyDecays TypeSig.links Graph.sameSig ∧
    w.OnlyDecays Instantiation.links Graph.sameInst ∧
    w.OnlyDecays ParamSig.links Graph.sameParam ∧
    w.OnlyDecays MethodSig.links Graph.sameMethodSig ∧
    w.OnlyDecays FieldSig.links Graph.sameFieldSig ∧
    w.OnlyDecays MemberSig.links Graph.sameMemberSig :=
  ⟨w.onlyDecays_of_linkTest Graph.sameType_linkTest,
    w.onlyDecays_of_linkTest Graph.sameSig_linkTest,
    w.onlyDecays_of_linkTest Graph.sameInst_linkTest,
    w.onlyDecays_of_linkTest Graph.sameParam_linkTest,
    w.onlyDecays_of_linkTest Graph.sameMethodSig_linkTest,
    w.onlyDecays_of_linkTest Graph.sameFieldSig_linkTest,
    w.onlyDecays_of_linkTest Graph.sameMemberSig_linkTest⟩

def namesakes : List Edit :=
  [.create .type ⟨⟨0x02000001⟩, .classType, ⟨"App", "Widget"⟩, none⟩,
    .create .type ⟨⟨0x01000001⟩, .classType, ⟨"App", "Widget"⟩, none⟩]

theorem namesakes_parted_by_release :
    let vector := fun t => TypeSig.modified .vector (.named .reference t)
    let later := (run {} namesakes).run [.release ⟨.type, 1⟩]
    (run {} namesakes).graph.sameSig (vector ⟨0⟩) (vector ⟨1⟩) = true ∧
      later.graph.sameSig (vector ⟨0⟩) (vector ⟨1⟩) = false ∧
      exists t, t ∈ (vector ⟨0⟩).links ++ (vector ⟨1⟩).links ∧
        (run {} namesakes).graph.isLive t.node = true ∧ later.graph.isLive t.node = false := by
  intro vector later
  have hbefore : (run {} namesakes).graph.sameSig (vector ⟨0⟩) (vector ⟨1⟩) = true := by
    decide +kernel
  have hafter : later.graph.sameSig (vector ⟨0⟩) (vector ⟨1⟩) = false := by
    decide +kernel
  have hcreated : forall t, t ∈ (vector ⟨0⟩).links ++ (vector ⟨1⟩).links ->
      (run {} namesakes).graph.Created t.node := by
    intro t ht
    apply Graph.created_of_isLive
    rcases List.mem_pair.mp ht with rfl | rfl <;> decide +kernel
  have hdecays := (signature_equality_only_decays (run {} namesakes)).right.left
  exact ⟨hbefore, hafter, (hdecays _ _ hcreated _).right hbefore hafter⟩

end Workspace
end MetadataLabels
