import MetadataLabels.Proofs.Classification
import MetadataLabels.Proofs.RegistryNames

/-!
# The order of registrations

Which type a full name finds may depend on the order in which types were
registered.  Resolution asks less: it takes a definition or nothing.  If no token
and no name of a definition is used twice, then every query that resolves gives
the same answer and the same notices, whatever the order was and however often a
type was registered.
-/

namespace MetadataLabels
namespace Registry

/-!
## Logs without a choice
-/

/-- No two registrations share a token, and no two of definitions share a full name. -/
structure Unambiguous (log : List Registration) : Prop where
  token : forall r, r ∈ log -> forall s, s ∈ log -> r.token = s.token -> r = s
  definition : forall r, r ∈ log -> forall s, s ∈ log -> r.token.isTypeDef = true ->
    s.token.isTypeDef = true -> r.fullName = s.fullName -> r = s

variable {log first second : List Registration}

theorem Unambiguous.of_mem_iff (h : Unambiguous first)
    (hsame : forall r, r ∈ first <-> r ∈ second) : Unambiguous second where
  token r hr s hs := h.token r ((hsame r).mpr hr) s ((hsame s).mpr hs)
  definition r hr s hs := h.definition r ((hsame r).mpr hr) s ((hsame s).mpr hs)

theorem Unambiguous.get?_eq_some_iff (h : Unambiguous log) {token : Token}
    {r : Registration} :
    (ofLog log).get? token = some r <-> r ∈ log ∧ r.token = token := by
  rw [get?_ofLog]
  constructor
  · exact mem_of_latest?
  · rintro ⟨hr, htoken⟩
    have hsome : (latest? log token).isSome = true :=
      isSome_latest?.mpr (List.mem_map.mpr ⟨r, hr, htoken⟩)
    rcases Option.isSome_iff_exists.mp hsome with ⟨s, hs⟩
    rcases mem_of_latest? hs with ⟨hmem, hsToken⟩
    rw [hs, h.token s hmem r hr (hsToken.trans htoken.symm)]

theorem Unambiguous.stillNamed (h : Unambiguous log) (name : String) :
    StillNamed log name := by
  intro token hlead
  rcases Option.isSome_iff_exists.mp (isSome_latest?_leading? hlead) with ⟨r, hlatest⟩
  rcases mem_of_latest? hlatest with ⟨hr, htoken⟩
  rcases mem_tokensUnder.mp (mem_of_preferred? hlead) with ⟨s, hs, hname, hsToken⟩
  have hsr : s = r := h.token s hs r hr (hsToken.trans htoken.symm)
  exact ⟨r, hlatest, by rw [<- hsr, hname]⟩

theorem Unambiguous.mem_of_findByName? (h : Unambiguous log) {name : String}
    {r : Registration} (hr : (ofLog log).findByName? name = some r) :
    r ∈ log ∧ r.fullName = name :=
  ⟨(h.get?_eq_some_iff.mp (get?_of_findByName? hr)).left,
    fullName_of_findByName? (h.stillNamed name) hr⟩

theorem Unambiguous.findDefinition?_eq_some_iff (h : Unambiguous log) {name : String}
    {t : TypeId} :
    (ofLog log).findDefinition? name = some t <->
      exists r, r ∈ log ∧ r.fullName = name ∧ r.token.isTypeDef = true ∧ r.type = t := by
  rw [Registry.findDefinition?_eq_some_iff]
  constructor
  · rintro ⟨r, hr, hdef, htype⟩
    rcases h.mem_of_findByName? hr with ⟨hmem, hname⟩
    exact ⟨r, hmem, hname, hdef, htype⟩
  · rintro ⟨r, hr, rfl, hdef, htype⟩
    have hget : (ofLog log).get? r.token = some r := h.get?_eq_some_iff.mpr ⟨hr, rfl⟩
    rcases Option.isSome_iff_exists.mp (isSome_findByName?_of_get? hget) with ⟨s, hs⟩
    have hsDef := isTypeDef_of_findByName? hget hdef hs
    rcases h.mem_of_findByName? hs with ⟨hsMem, hsName⟩
    -- Both are definitions of one name, so the definition found is the registered one.
    have hsr : s = r := h.definition s hsMem r hr hsDef hdef hsName
    exact ⟨s, hs, hsDef, by rw [hsr, htype]⟩

/-!
## Two logs of the same registrations
-/

theorem get?_ofLog_eq (h : Unambiguous first)
    (hsame : forall r, r ∈ first <-> r ∈ second) (token : Token) :
    (ofLog first).get? token = (ofLog second).get? token := by
  apply Option.ext
  intro r
  rw [h.get?_eq_some_iff, (h.of_mem_iff hsame).get?_eq_some_iff, hsame r]

theorem size_ofLog_eq (hsame : forall r, r ∈ first <-> r ∈ second) :
    (ofLog first).size = (ofLog second).size := by
  have htokens : (first.map fun r => r.token).toFinset = (second.map fun r => r.token).toFinset := by
    ext token
    simp only [List.mem_toFinset, List.mem_map, hsame]
  rw [size_ofLog, size_ofLog, htokens]

theorem findDefinition?_ofLog_eq (h : Unambiguous first)
    (hsame : forall r, r ∈ first <-> r ∈ second) (name : String) :
    (ofLog first).findDefinition? name = (ofLog second).findDefinition? name := by
  apply Option.ext
  intro t
  rw [h.findDefinition?_eq_some_iff, (h.of_mem_iff hsame).findDefinition?_eq_some_iff]
  simp only [hsame]

end Registry

/-!
## Resolvers that bind names alike

A query asks for a name only through resolution of types, so nothing else has to be
the same.  The two walks are compared one step at a time.
-/

namespace Resolver

structure SameAnswers (r s : Resolver) : Prop where
  resolveType : forall g t, r.resolveType g t = s.resolveType g t
  baseType : forall g t, r.baseType g t = s.baseType g t
  resolveSignature : forall g sig, r.resolveSignature g sig = s.resolveSignature g sig
  isAwaitable : forall g returns, r.isAwaitable g returns = s.isAwaitable g returns
  isDeprecated : forall g target, r.isDeprecated g target = s.isDeprecated g target
  isOptional : forall g p, r.isOptional g p = s.isOptional g p
  methodBadges : forall g m, r.methodBadges g m = s.methodBadges g m
  otherOverloads : forall g t name, r.otherOverloads g t name = s.otherOverloads g t name

variable {r s : Resolver}

theorem resolveType_congr (h : forall name, r.byName name = s.byName name) :
    r.resolveType = s.resolveType := by
  funext g t
  simp only [Resolver.resolveType, h]

theorem baseType_congr (h : r.resolveType = s.resolveType) : r.baseType = s.baseType := by
  funext g t
  simp only [Resolver.baseType, h]

theorem resolveSignature_congr (h : r.resolveType = s.resolveType) (g : Graph) :
    forall sig : TypeSig, r.resolveSignature g sig = s.resolveSignature g sig
  | .named _ t => congrFun (congrFun h g) t
  | .inst base _ => resolveSignature_congr h g base
  | .basic _ => rfl
  | .modified _ _ => rfl
  | .param _ _ => rfl

theorem isAwaitable_congr (h : r.resolveType = s.resolveType) (g : Graph)
    (returns : TypeSig) : r.isAwaitable g returns = s.isAwaitable g returns := by
  simp only [Resolver.isAwaitable, resolveSignature_congr h]

theorem isDeprecated_congr (h : r.resolveType = s.resolveType) (g : Graph)
    (target : AttributeTarget) : r.isDeprecated g target = s.isDeprecated g target := by
  cases target with
  | type t =>
      simp only [Resolver.isDeprecated, Resolver.attributesOf?, h]
  | _ =>
      rfl

theorem methodBadges_congr (h : r.resolveType = s.resolveType) (g : Graph)
    (m : MethodReference) : r.methodBadges g m = s.methodBadges g m := by
  simp only [Resolver.methodBadges, isAwaitable_congr h]
  rfl

theorem derivesFromConstant_congr (h : r.resolveType = s.resolveType) (g : Graph)
    (name : String) (fuel : Nat) (start : Option TypeId) :
    r.derivesFromConstant g name fuel start = s.derivesFromConstant g name fuel start := by
  induction fuel generalizing start with
  | zero =>
      rfl
  | succ fuel ih =>
      cases start with
      | none =>
          rfl
      | some t =>
          simp only [Resolver.derivesFromConstant, h, ih]

theorem isOptional_congr (h : r.resolveType = s.resolveType) (g : Graph) (p : ParamId) :
    r.isOptional g p = s.isOptional g p := by
  have hattribute : r.isConstantAttribute g = s.isConstantAttribute g := by
    funext a
    simp only [Resolver.isConstantAttribute, derivesFromConstant_congr h]
  simp only [Resolver.isOptional, hattribute]

theorem climb_congr (h : r.resolveType = s.resolveType) (g : Graph) (fuel : Nat)
    (start : Option TypeId) : r.climb g fuel start = s.climb g fuel start := by
  induction fuel generalizing start with
  | zero =>
      cases start <;> rfl
  | succ fuel ih =>
      cases start with
      | none =>
          rfl
      | some t =>
          simp only [Resolver.climb, baseType_congr h, ih]

theorem otherOverloads_congr (h : r.resolveType = s.resolveType) (g : Graph) (t : TypeId)
    (name : String) : r.otherOverloads g t name = s.otherOverloads g t name := by
  simp only [Resolver.otherOverloads, Resolver.lineage, h, climb_congr h]

theorem sameAnswers_of_byName (h : forall name, r.byName name = s.byName name) :
    SameAnswers r s where
  resolveType g t := congrFun (congrFun (resolveType_congr h) g) t
  baseType g t := congrFun (congrFun (baseType_congr (resolveType_congr h)) g) t
  resolveSignature := resolveSignature_congr (resolveType_congr h)
  isAwaitable := isAwaitable_congr (resolveType_congr h)
  isDeprecated := isDeprecated_congr (resolveType_congr h)
  isOptional := isOptional_congr (resolveType_congr h)
  methodBadges := methodBadges_congr (resolveType_congr h)
  otherOverloads := otherOverloads_congr (resolveType_congr h)

end Resolver

namespace Registry

/-- Registries of the same registrations have the same holders, the same size, and resolve alike
in every query, if the registrations leave no choice. -/
theorem registration_order_irrelevant {first second : List Registration}
    (h : Unambiguous first) (hsame : forall r, r ∈ first <-> r ∈ second) :
    (forall token, (ofLog first).get? token = (ofLog second).get? token) ∧
    (ofLog first).size = (ofLog second).size ∧
    Resolver.SameAnswers (.registry (ofLog first)) (.registry (ofLog second)) := by
  refine ⟨get?_ofLog_eq h hsame, size_ofLog_eq hsame, Resolver.sameAnswers_of_byName ?_⟩
  intro name
  simp only [Resolver.byName, findDefinition?_ofLog_eq h hsame]

def referencesLast : List Registration :=
  [⟨⟨0⟩, ⟨0x02000001⟩, "App.Widget"⟩, ⟨⟨1⟩, ⟨0x01000001⟩, "App.Widget"⟩,
    ⟨⟨2⟩, ⟨0x01000002⟩, "App.Gadget"⟩, ⟨⟨3⟩, ⟨0x01000003⟩, "App.Gadget"⟩]

def referencesFirst : List Registration :=
  referencesLast.reverse ++ referencesLast

/-- The order decides what the name of the missing definition finds, and nothing else. -/
theorem references_in_either_order :
    (ofLog referencesLast).findByName? "App.Gadget" ≠
      (ofLog referencesFirst).findByName? "App.Gadget" ∧
    (forall token, (ofLog referencesLast).get? token = (ofLog referencesFirst).get? token) ∧
    (ofLog referencesLast).size = (ofLog referencesFirst).size ∧
    Resolver.SameAnswers (.registry (ofLog referencesLast)) (.registry (ofLog referencesFirst)) := by
  have hunambiguous : Unambiguous referencesLast := ⟨by decide, by decide⟩
  have hsame : forall r, r ∈ referencesLast <-> r ∈ referencesFirst := by
    intro r
    simp [referencesFirst]
  exact ⟨by decide, registration_order_irrelevant hunambiguous hsame⟩

end Registry
end MetadataLabels
