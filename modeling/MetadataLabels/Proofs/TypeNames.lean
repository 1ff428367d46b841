import MetadataLabels.Proofs.RegistryLog
import MetadataLabels.Proofs.SignatureEquivalence
import MetadataLabels.Workspace

/-!
# Names and full names

Links and signatures compare the namespace and the name of two types, the index
of the registry their full names.  A full name does not tell where the namespace
ends, so the two comparisons agree unless both types have one full name and end
the namespace at different dots of it.
-/

namespace MetadataLabels

/-!
## One full name, two dots
-/

namespace TypeName

/-- The namespace of `a` ends later in the full name than that of `b`: it goes on into the name
of `b`, up to one of the dots there. -/
def CutsLater (a b : TypeName) : Prop :=
  a.scope ≠ "" ∧
    exists middle, a.scope = full ⟨b.scope, middle⟩ ∧ b.name = middle ++ "." ++ a.name

theorem full_of_scope_ne {n : TypeName} (h : n.scope ≠ "") :
    n.full = n.scope ++ "." ++ n.name :=
  if_neg h

theorem full_append (scope front rest : String) :
    full ⟨scope, front ++ rest⟩ = full ⟨scope, front⟩ ++ rest := by
  by_cases h : scope = ""
  · simp [full, h]
  · simp [full, h, String.append_assoc]

theorem full_eq_of_cutsLater {a b : TypeName} (h : a.CutsLater b) : a.full = b.full := by
  rcases h with ⟨hscope, middle, hmiddle, hname⟩
  calc
    a.full = full ⟨b.scope, middle⟩ ++ ("." ++ a.name) := by
      rw [full_of_scope_ne hscope, hmiddle, String.append_assoc]
    _ = full ⟨b.scope, b.name⟩ := by
      rw [hname, String.append_assoc, full_append]

theorem length_name_lt_of_cutsLater {a b : TypeName} (h : a.CutsLater b) :
    a.name.length < b.name.length := by
  rcases h with ⟨_, middle, _, hname⟩
  have hdot : ".".length = 1 := rfl
  rw [hname, String.length_append, String.length_append, hdot]
  omega

theorem ne_of_cutsLater {a b : TypeName} (h : a.CutsLater b) : a ≠ b := by
  rintro rfl
  exact Nat.lt_irrefl _ (length_name_lt_of_cutsLater h)

theorem not_cutsLater_of_not_mem {a b : TypeName} (h : '.' ∉ b.name.toList) :
    ¬ a.CutsLater b := by
  rintro ⟨_, middle, _, hname⟩
  apply h
  rw [hname]
  simp

theorem toList_append_dot (front rest : String) :
    (front ++ "." ++ rest).toList = front.toList ++ '.' :: rest.toList := by
  simp

theorem eq_or_between_of_append {s n t m : String} {extra : List Char}
    (hfront : t.toList = s.toList ++ extra)
    (hrest : '.' :: n.toList = extra ++ '.' :: m.toList) :
    (s = t ∧ n = m) ∨ exists middle, t = s ++ "." ++ middle ∧ n = middle ++ "." ++ m := by
  cases extra with
  | nil =>
      -- Nothing is between the two cuts, so both are at the same dot.
      left
      constructor
      · rw [<- String.toList_inj, hfront, List.append_nil]
      · rw [<- String.toList_inj]
        exact (List.cons.inj hrest).right
  | cons dot between =>
      -- The first cut takes a dot away from what is between; the rest of it is the middle.
      right
      rcases List.cons.inj hrest with ⟨rfl, hn⟩
      refine ⟨String.ofList between, ?_, ?_⟩
      · rw [<- String.toList_inj, toList_append_dot, String.toList_ofList, hfront]
      · rw [<- String.toList_inj, toList_append_dot, String.toList_ofList]
        exact hn

theorem eq_or_between_of_append_dot {s n t m : String}
    (h : s ++ "." ++ n = t ++ "." ++ m) :
    (s = t ∧ n = m) ∨
      (exists middle, s = t ++ "." ++ middle ∧ m = middle ++ "." ++ n) ∨
      (exists middle, t = s ++ "." ++ middle ∧ n = middle ++ "." ++ m) := by
  rw [<- String.toList_inj, toList_append_dot, toList_append_dot] at h
  rcases List.append_eq_append_iff.mp h with ⟨extra, ht, hn⟩ | ⟨extra, hs, hm⟩
  · exact (eq_or_between_of_append ht hn).imp_right Or.inr
  · rcases eq_or_between_of_append hs hm with ⟨hst, hnm⟩ | hbetween
    · exact Or.inl ⟨hst.symm, hnm.symm⟩
    · exact Or.inr (Or.inl hbetween)

theorem cutsLater_of_scope_eq_empty {a b : TypeName} (hb : b.scope = "") (ha : a.scope ≠ "")
    (h : a.full = b.full) : a.CutsLater b := by
  rw [full_of_scope_ne ha, full, if_pos hb] at h
  refine ⟨ha, a.scope, ?_, h.symm⟩
  rw [full, if_pos hb]

/-- Two types have one full name exactly if they are named alike or one of them ends the
namespace later in it than the other. -/
theorem full_eq_full_iff {a b : TypeName} :
    a.full = b.full <-> a = b ∨ a.CutsLater b ∨ b.CutsLater a := by
  constructor
  · intro h
    by_cases ha : a.scope = ""
    · by_cases hb : b.scope = ""
      · left
        rw [full, if_pos ha, full, if_pos hb] at h
        rw [TypeName.mk.injEq, ha, hb]
        exact ⟨rfl, h⟩
      · exact Or.inr (Or.inr (cutsLater_of_scope_eq_empty ha hb h.symm))
    · by_cases hb : b.scope = ""
      · exact Or.inr (Or.inl (cutsLater_of_scope_eq_empty hb ha h))
      · rw [full_of_scope_ne ha, full_of_scope_ne hb] at h
        rcases eq_or_between_of_append_dot h with
          ⟨hscope, hname⟩ | ⟨middle, hscope, hname⟩ | ⟨middle, hscope, hname⟩
        · left
          rw [TypeName.mk.injEq]
          exact ⟨hscope, hname⟩
        · refine Or.inr (Or.inl ⟨ha, middle, ?_, hname⟩)
          rw [full, if_neg hb, hscope]
        · refine Or.inr (Or.inr ⟨hb, middle, ?_, hname⟩)
          rw [full, if_neg ha, hscope]
  · rintro (rfl | hlater | hlater)
    · rfl
    · exact full_eq_of_cutsLater hlater
    · exact (full_eq_of_cutsLater hlater).symm

end TypeName

/-!
## Tokens under one name
-/

namespace Registry

def ListsTogether (reg : Registry) (a b : Token) : Prop :=
  exists name, a ∈ reg.tokens name ∧ b ∈ reg.tokens name

/-- The type was registered, and nothing of another full name under its token. -/
def RegisteredAs (log : List Registration) (t : TypeId) (row : TypeRow) : Prop :=
  ⟨t, row.token, row.fullName⟩ ∈ log ∧
    forall r, r ∈ log -> r.token = row.token -> r.fullName = row.fullName

variable {log : List Registration}

theorem mem_tokens_iff_of_registeredAs {t : TypeId} {row : TypeRow}
    (h : RegisteredAs log t row) {name : String} :
    row.token ∈ (ofLog log).tokens name <-> row.fullName = name := by
  rw [mem_tokens_ofLog, mem_tokensUnder]
  constructor
  · rintro ⟨r, hr, hname, htoken⟩
    rw [<- hname, h.right r hr htoken]
  · intro hname
    exact ⟨_, h.left, hname, rfl⟩

theorem listsTogether_iff {a b : TypeId} {x y : TypeRow} (ha : RegisteredAs log a x)
    (hb : RegisteredAs log b y) :
    (ofLog log).ListsTogether x.token y.token <-> x.fullName = y.fullName := by
  unfold ListsTogether
  simp only [mem_tokens_iff_of_registeredAs ha, mem_tokens_iff_of_registeredAs hb]
  constructor
  · rintro ⟨name, hx, hy⟩
    rw [hx, hy]
  · intro h
    exact ⟨y.fullName, h, rfl⟩

end Registry

/-!
## Signatures that differ in one link
-/

namespace Graph

variable {g : Graph} {a b : TypeId} {x y : TypeRow}

theorem sameSig_named (g : Graph) (storage : Storage) (a b : TypeId) :
    g.sameSig (.named storage a) (.named storage b) = g.sameType a b := by
  rw [sameSig, BEq.refl, Bool.true_and]

theorem sameMethodSig_replace (g : Graph) (m : MethodSig) (before after : List ParamSig)
    (byRef : Bool) (s t : TypeSig) :
    g.sameMethodSig { m with params := before ++ ⟨byRef, s⟩ :: after }
      { m with params := before ++ ⟨byRef, t⟩ :: after } = g.sameSig s t := by
  simp only [sameMethodSig, (g.sameParam_test).isEqv_replace, sameParam, BEq.refl,
    (g.sameSig_test).refl, Bool.true_and]

/-!
## Agreement
-/

/-- All that compares the names of two types comes to one result: links, the test of a name,
signatures, overloads and the index of any registry that has both types. -/
structure NamesAgree (g : Graph) (a b : TypeId) (x y : TypeRow) : Prop where
  link : g.sameType a b = true <-> a = b ∨ x.fullName = y.fullName
  named : x.isNamed y.name.scope y.name.name = true <-> x.fullName = y.fullName
  signature : forall log, Registry.RegisteredAs log a x -> Registry.RegisteredAs log b y ->
    forall storage, g.sameSig (.named storage a) (.named storage b) = true <->
      (Registry.ofLog log).ListsTogether x.token y.token
  overload : forall log, Registry.RegisteredAs log a x -> Registry.RegisteredAs log b y ->
    forall (m : MethodSig) (before after : List ParamSig) (byRef : Bool) (storage : Storage),
      g.sameMethodSig { m with params := before ++ ⟨byRef, .named storage a⟩ :: after }
        { m with params := before ++ ⟨byRef, .named storage b⟩ :: after } = true <->
          (Registry.ofLog log).ListsTogether x.token y.token

theorem isNamed_iff : x.isNamed y.name.scope y.name.name = true <-> x.name = y.name :=
  beq_iff_eq

theorem sameType_iff_name (hx : g.type? a = some x) (hy : g.type? b = some y) :
    g.sameType a b = true <-> x.name = y.name := by
  rw [sameType_of_live hx, hy]
  constructor
  · rintro ⟨_, hrow, hname⟩
    cases hrow
    exact hname
  · intro hname
    exact ⟨y, rfl, hname⟩

theorem namesAgree_of_name_iff (hx : g.type? a = some x) (hy : g.type? b = some y)
    (h : x.name = y.name <-> x.fullName = y.fullName) : g.NamesAgree a b x y where
  link := by
    rw [sameType_iff_name hx hy, h]
    constructor
    · exact Or.inr
    · rintro (rfl | hname)
      · rw [hx] at hy
        cases hy
        rfl
      · exact hname
  named := isNamed_iff.trans h
  signature log ha hb storage := by
    rw [sameSig_named, sameType_iff_name hx hy, h, Registry.listsTogether_iff ha hb]
  overload log ha hb m before after byRef storage := by
    rw [sameMethodSig_replace, sameSig_named, sameType_iff_name hx hy, h,
      Registry.listsTogether_iff ha hb]

theorem namesAgree_iff_not_cutsLater (hx : g.type? a = some x) (hy : g.type? b = some y) :
    g.NamesAgree a b x y <-> ¬ x.name.CutsLater y.name ∧ ¬ y.name.CutsLater x.name := by
  constructor
  · intro h
    have hname : x.fullName = y.fullName -> x.name = y.name := fun hfull =>
      isNamed_iff.mp (h.named.mpr hfull)
    constructor
    · intro hlater
      exact TypeName.ne_of_cutsLater hlater (hname (TypeName.full_eq_of_cutsLater hlater))
    · intro hlater
      exact TypeName.ne_of_cutsLater hlater
        (hname (TypeName.full_eq_of_cutsLater hlater).symm).symm
  · rintro ⟨hnotx, hnoty⟩
    apply namesAgree_of_name_iff hx hy
    constructor
    · exact congrArg TypeName.full
    · intro hfull
      rcases TypeName.full_eq_full_iff.mp hfull with hname | hlater | hlater
      · exact hname
      · exact absurd hlater hnotx
      · exact absurd hlater hnoty

end Graph

namespace Workspace

def referenceAndDefinition : List Edit :=
  [.create .type ⟨⟨0x01000001⟩, .classType, ⟨"App.Controls", "Widget"⟩, some "App"⟩,
    .create .type ⟨⟨0x02000001⟩, .classType, ⟨"App.Controls", "Widget"⟩, none⟩]

theorem namesAgree_referenceAndDefinition :
    exists x y, (run {} referenceAndDefinition).graph.type? ⟨0⟩ = some x ∧
      (run {} referenceAndDefinition).graph.type? ⟨1⟩ = some y ∧
      (run {} referenceAndDefinition).graph.NamesAgree ⟨0⟩ ⟨1⟩ x y := by
  refine ⟨_, _, rfl, rfl, (Graph.namesAgree_iff_not_cutsLater rfl rfl).mpr ⟨?_, ?_⟩⟩
  · exact TypeName.not_cutsLater_of_not_mem (by decide)
  · exact TypeName.not_cutsLater_of_not_mem (by decide)

def twoCuts : List Edit :=
  [.create .type ⟨⟨0x02000001⟩, .classType, ⟨"A.B", "C"⟩, none⟩,
    .create .type ⟨⟨0x02000002⟩, .classType, ⟨"A", "B.C"⟩, none⟩]

theorem twoCuts_disagree :
    exists x y, (run {} twoCuts).graph.type? ⟨0⟩ = some x ∧
      (run {} twoCuts).graph.type? ⟨1⟩ = some y ∧
      x.fullName = y.fullName ∧
      (run {} twoCuts).graph.sameType ⟨0⟩ ⟨1⟩ = false ∧
      x.isNamed y.name.scope y.name.name = false ∧
      ¬ (run {} twoCuts).graph.NamesAgree ⟨0⟩ ⟨1⟩ x y := by
  have hsame : (run {} twoCuts).graph.sameType ⟨0⟩ ⟨1⟩ = false := by
    decide +kernel
  refine ⟨_, _, rfl, rfl, by decide, hsame, by decide, ?_⟩
  intro h
  have hlink := h.link.mpr (Or.inr (by decide))
  rw [hsame] at hlink
  cases hlink

end Workspace
end MetadataLabels
