import MetadataLabels.Signature.Equality

/-!
# Equality of signatures is an equivalence

A link to a living type is known by the name of the type, a dangling one by
itself.  Tests that compare what their arguments are known by are closed under
taking parts, pairs and lists, and that lifts the law from links to signatures
of any nesting.
-/

namespace MetadataLabels

/-!
## Tests for equivalences
-/

/-- A reflexive test that cannot tell apart what it calls the same. -/
structure EquivalenceTest {α : Type} (same : α -> α -> Bool) : Prop where
  refl : forall a, same a a = true
  congr_left : forall {a b}, same a b = true -> forall c, same a c = same b c

namespace EquivalenceTest

variable {α β : Type} {same : α -> α -> Bool} {other : α -> α -> Bool}

theorem symm (h : EquivalenceTest same) {a b : α} (hab : same a b = true) :
    same b a = true := by
  rw [<- h.congr_left hab a]
  exact h.refl a

theorem trans (h : EquivalenceTest same) {a b c : α} (hab : same a b = true)
    (hbc : same b c = true) : same a c = true := by
  rw [h.congr_left hab c]
  exact hbc

theorem equivalence (h : EquivalenceTest same) :
    Equivalence fun a b => same a b = true :=
  ⟨h.refl, h.symm, h.trans⟩

theorem beq [BEq α] [LawfulBEq α] :
    EquivalenceTest fun a b : α => a == b where
  refl a := BEq.refl a
  congr_left hab c := by
    rw [eq_of_beq hab]

theorem comap (h : EquivalenceTest same) (f : β -> α) :
    EquivalenceTest fun a b => same (f a) (f b) where
  refl a := h.refl (f a)
  congr_left hab c := h.congr_left hab (f c)

theorem and (h : EquivalenceTest same) (h' : EquivalenceTest other) :
    EquivalenceTest fun a b => same a b && other a b where
  refl a := by
    rw [h.refl, h'.refl]
    rfl
  congr_left hab c := by
    rcases Bool.and_eq_true_iff.mp hab with ⟨hsame, hother⟩
    rw [h.congr_left hsame c, h'.congr_left hother c]

theorem isEqv (h : EquivalenceTest same) :
    EquivalenceTest fun l m : List α => l.isEqv m same where
  refl l := by
    induction l with
    | nil =>
        rfl
    | cons a l ih =>
        rw [List.isEqv, h.refl, ih]
        rfl
  congr_left {l m} hlm n := by
    induction l generalizing m n with
    | nil =>
        cases m with
        | nil =>
            rfl
        | cons b m =>
            exact Bool.noConfusion hlm
    | cons a l ih =>
        cases m with
        | nil =>
            exact Bool.noConfusion hlm
        | cons b m =>
            rcases Bool.and_eq_true_iff.mp hlm with ⟨hab, hrest⟩
            cases n with
            | nil =>
                rfl
            | cons c n =>
                rw [List.isEqv, List.isEqv, h.congr_left hab c, ih hrest n]

theorem isEqv_replace (h : EquivalenceTest same) (before after : List α) (a b : α) :
    (before ++ a :: after).isEqv (before ++ b :: after) same = same a b := by
  induction before with
  | nil =>
      rw [List.nil_append, List.nil_append, List.isEqv, (h.isEqv).refl after, Bool.and_true]
  | cons first rest ih =>
      rw [List.cons_append, List.cons_append, List.isEqv, h.refl first, Bool.true_and, ih]

end EquivalenceTest

namespace Graph

/-!
## Links to types
-/

/-- Two different rows are the same type only if both live and have the same name. -/
theorem sameType_iff {g : Graph} {a b : TypeId} :
    g.sameType a b = true <->
      a = b ∨ exists x y, g.type? a = some x ∧ g.type? b = some y ∧ x.name = y.name := by
  unfold sameType
  cases g.type? a with
  | none =>
      simp
  | some x =>
      cases g.type? b with
      | none =>
          simp
      | some y =>
          simp

theorem sameType_of_live {g : Graph} {a b : TypeId} {x : TypeRow}
    (hx : g.type? a = some x) :
    g.sameType a b = true <-> exists y, g.type? b = some y ∧ x.name = y.name := by
  rw [sameType_iff]
  constructor
  · rintro (rfl | ⟨x', y, hx', hy, hname⟩)
    · exact ⟨x, hx, rfl⟩
    · rw [hx] at hx'
      cases hx'
      exact ⟨y, hy, hname⟩
  · rintro ⟨y, hy, hname⟩
    exact Or.inr ⟨x, y, hx, hy, hname⟩

theorem sameType_test (g : Graph) : EquivalenceTest g.sameType where
  refl a := sameType_iff.mpr (Or.inl rfl)
  congr_left {a b} hab c := by
    rcases sameType_iff.mp hab with rfl | ⟨x, y, hx, hy, hname⟩
    · rfl
    · -- Both links are live, so from here on they are known by their common name.
      rw [Bool.eq_iff_iff, sameType_of_live hx, sameType_of_live hy, hname]

/-!
## Signatures of any nesting

The induction is on the first signature together with the lists of arguments in it.
-/

mutual

theorem sameSig_refl (g : Graph) : forall s : TypeSig, g.sameSig s s = true
  | .basic _ => by
      simp [sameSig]
  | .modified _ of => by
      simp [sameSig, sameSig_refl g of]
  | .named _ t => by
      simp [sameSig, (g.sameType_test).refl t]
  | .param _ _ => by
      simp [sameSig]
  | .inst base args => by
      simp [sameSig, sameSig_refl g base, sameSigs_refl g args]

theorem sameSigs_refl (g : Graph) : forall l : List TypeSig, g.sameSigs l l = true
  | [] => rfl
  | s :: rest => by
      simp [sameSigs, sameSig_refl g s, sameSigs_refl g rest]

end

mutual

theorem sameSig_congr_left (g : Graph) :
    forall {a b : TypeSig}, g.sameSig a b = true ->
      forall c, g.sameSig a c = g.sameSig b c
  | .basic _, .basic _, hab, c => by
      have htype := eq_of_beq hab
      rw [htype]
  | .modified m a, .modified n b, hab, c => by
      rcases Bool.and_eq_true_iff.mp hab with ⟨hmodifier, hof⟩
      rw [eq_of_beq hmodifier]
      cases c with
      | modified k c =>
          rw [sameSig, sameSig, sameSig_congr_left g hof c]
      | _ =>
          rfl
  | .named s a, .named t b, hab, c => by
      rcases Bool.and_eq_true_iff.mp hab with ⟨hstorage, htype⟩
      rw [eq_of_beq hstorage]
      cases c with
      | named u c =>
          rw [sameSig, sameSig, (g.sameType_test).congr_left htype c]
      | _ =>
          rfl
  | .param o i, .param p j, hab, c => by
      rcases Bool.and_eq_true_iff.mp hab with ⟨howner, hindex⟩
      rw [eq_of_beq howner, eq_of_beq hindex]
  | .inst a as, .inst b bs, hab, c => by
      rcases Bool.and_eq_true_iff.mp hab with ⟨hbase, hargs⟩
      cases c with
      | inst c cs =>
          rw [sameSig, sameSig, sameSig_congr_left g hbase c,
            sameSigs_congr_left g hargs cs]
      | _ =>
          rfl

theorem sameSigs_congr_left (g : Graph) :
    forall {l m : List TypeSig}, g.sameSigs l m = true ->
      forall n, g.sameSigs l n = g.sameSigs m n
  | [], [], _, _ => rfl
  | a :: l, b :: m, hlm, n => by
      rcases Bool.and_eq_true_iff.mp hlm with ⟨hab, hrest⟩
      cases n with
      | nil =>
          rfl
      | cons c n =>
          rw [sameSigs, sameSigs, sameSig_congr_left g hab c,
            sameSigs_congr_left g hrest n]

end

theorem sameSig_test (g : Graph) : EquivalenceTest g.sameSig :=
  ⟨sameSig_refl g, sameSig_congr_left g⟩

theorem sameSigs_test (g : Graph) : EquivalenceTest g.sameSigs :=
  ⟨sameSigs_refl g, sameSigs_congr_left g⟩

theorem length_eq_of_sameSigs {g : Graph} :
    forall {l m : List TypeSig}, g.sameSigs l m = true -> l.length = m.length
  | [], [], _ => rfl
  | _ :: _, _ :: _, h => by
      rcases Bool.and_eq_true_iff.mp h with ⟨_, hrest⟩
      exact congrArg Nat.succ (length_eq_of_sameSigs hrest)

theorem sameSigs_append (g : Graph) (l' m' : List TypeSig) :
    forall {l m : List TypeSig}, l.length = m.length ->
      g.sameSigs (l ++ l') (m ++ m') = (g.sameSigs l m && g.sameSigs l' m')
  | [], [], _ => rfl
  | a :: l, b :: m, h => by
      have hrest := sameSigs_append g l' m' (Nat.succ.inj h)
      rw [List.cons_append, List.cons_append, sameSigs, sameSigs, hrest, Bool.and_assoc]

theorem sameInst_test (g : Graph) : EquivalenceTest g.sameInst :=
  ((g.sameSig_test).comap Instantiation.base).and
    ((g.sameSigs_test).comap Instantiation.args)

/-!
## Signatures of members
-/

theorem sameParam_test (g : Graph) : EquivalenceTest g.sameParam :=
  (EquivalenceTest.beq.comap ParamSig.byRef).and ((g.sameSig_test).comap ParamSig.type)

theorem sameMethodSig_test (g : Graph) : EquivalenceTest g.sameMethodSig :=
  ((((EquivalenceTest.beq.comap MethodSig.hasThis).and
    (EquivalenceTest.beq.comap MethodSig.vararg)).and
    (EquivalenceTest.beq.comap MethodSig.genericCount)).and
    ((g.sameParam_test).comap MethodSig.returns)).and
    ((g.sameParam_test).isEqv.comap MethodSig.params)

theorem sameFieldSig_test (g : Graph) : EquivalenceTest g.sameFieldSig :=
  (g.sameSig_test).comap FieldSig.type

theorem sameMemberSig_congr_left (g : Graph) :
    forall {a b : MemberSig}, g.sameMemberSig a b = true ->
      forall c, g.sameMemberSig a c = g.sameMemberSig b c
  | .method _, .method _, hab, .method c => (g.sameMethodSig_test).congr_left hab c
  | .method _, .method _, _, .field _ => rfl
  | .field _, .field _, hab, .field c => (g.sameFieldSig_test).congr_left hab c
  | .field _, .field _, _, .method _ => rfl

theorem sameMemberSig_test (g : Graph) : EquivalenceTest g.sameMemberSig where
  refl
    | .method m => (g.sameMethodSig_test).refl m
    | .field f => (g.sameFieldSig_test).refl f
  congr_left := g.sameMemberSig_congr_left

theorem signature_equivalences (g : Graph) :
    Equivalence (fun a b : TypeId => g.sameType a b = true) ∧
    Equivalence (fun a b : TypeSig => g.sameSig a b = true) ∧
    Equivalence (fun a b : Instantiation => g.sameInst a b = true) ∧
    Equivalence (fun a b : ParamSig => g.sameParam a b = true) ∧
    Equivalence (fun a b : MethodSig => g.sameMethodSig a b = true) ∧
    Equivalence (fun a b : FieldSig => g.sameFieldSig a b = true) ∧
    Equivalence (fun a b : MemberSig => g.sameMemberSig a b = true) :=
  ⟨(g.sameType_test).equivalence, (g.sameSig_test).equivalence,
    (g.sameInst_test).equivalence, (g.sameParam_test).equivalence,
    (g.sameMethodSig_test).equivalence, (g.sameFieldSig_test).equivalence,
    (g.sameMemberSig_test).equivalence⟩

end Graph
end MetadataLabels
