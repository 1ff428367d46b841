import MetadataLabels.Proofs.Resolution
import MetadataLabels.Proofs.WorkspaceRun

/-!
# Looking up by full name

The index of names is never pruned, while a token may be taken over by a type with
another name.  A lookup by name is right exactly as long as the token that the
name stands for was not taken over in this way.
-/

namespace MetadataLabels
namespace Workspace

/-!
## What a lookup by name promises
-/

def Registers (w : Workspace) (t : TypeId) (row : TypeRow) : Prop :=
  w.graph.type? t = some row ∧
    exists r, w.registry.get? row.token = some r ∧ r.type = t

/-- A name finds something exactly if a registered type has that name, then it finds such a
type, and a definition if there is one.  A reference of that name without a live link is
bound to nothing else. -/
structure FindsByName (w : Workspace) (name : String) : Prop where
  isSome_iff : (w.registry.findByName? name).isSome = true <->
    exists t row, w.Registers t row ∧ row.fullName = name
  registered : forall r, w.registry.findByName? name = some r ->
    exists row, w.Registers r.type row ∧ row.fullName = name
  definition : forall r t row, w.registry.findByName? name = some r ->
    w.Registers t row -> row.fullName = name -> row.isDefinition = true ->
      exists found, w.graph.type? r.type = some found ∧ found.isDefinition = true
  bound : forall t row d, w.graph.type? t = some row -> row.isDefinition = false ->
    w.graph.definition? t = none -> row.fullName = name ->
      ((Resolver.registry w.registry).resolveType w.graph t).value = some d ->
        exists found, w.graph.type? d = some found ∧ found.fullName = name

/-!
## Registered types
-/

theorem row_of_holder {w : Workspace} (h : w.RegistryCurrent) {r : Registration}
    (hr : r ∈ w.registry.holders) :
    exists row, w.graph.type? r.type = some row ∧
      row.token = r.token ∧ row.fullName = r.fullName := by
  rcases h r hr with ⟨decl, hdecl, htoken, hname⟩
  rcases Option.map_eq_some_iff.mp hdecl with ⟨row, hrow, hrowDecl⟩
  refine ⟨row, hrow, ?_, ?_⟩
  · rw [<- htoken, <- hrowDecl]
    rfl
  · rw [<- hname, <- hrowDecl]
    rfl

theorem row_of_get? {w : Workspace} (h : w.RegistryCurrent) {token : Token}
    {r : Registration} (hr : w.registry.get? token = some r) :
    exists row, w.graph.type? r.type = some row ∧
      row.token = r.token ∧ row.fullName = r.fullName :=
  row_of_holder h (List.mem_of_find?_eq_some hr)

theorem registers_of_get? {w : Workspace} (h : w.RegistryCurrent) {token : Token}
    {r : Registration} (hr : w.registry.get? token = some r) :
    exists row, w.Registers r.type row ∧ row.fullName = r.fullName := by
  rcases row_of_get? h hr with ⟨row, hrow, htoken, hname⟩
  refine ⟨row, ⟨hrow, r, ?_, rfl⟩, hname⟩
  rw [htoken, Registry.token_of_get? hr, hr]

theorem fullName_of_registers {w : Workspace} (h : w.RegistryCurrent) {t : TypeId}
    {row : TypeRow} (ht : w.Registers t row) :
    exists r, w.registry.get? row.token = some r ∧ r.fullName = row.fullName := by
  rcases ht with ⟨hrow, r, hr, htype⟩
  rcases row_of_get? h hr with ⟨found, hfound, _, hname⟩
  rw [htype, hrow] at hfound
  cases hfound
  exact ⟨r, hr, hname.symm⟩

end Workspace

/-!
## Names that are still held
-/

namespace Registry

/-- The token that the name stands for was last registered under that same name. -/
def StillNamed (log : List Registration) (name : String) : Prop :=
  forall token, leading? log name = some token ->
    exists r, latest? log token = some r ∧ r.fullName = name

theorem findByName?_ofLog_eq_some {log : List Registration} {name : String}
    {r : Registration} (h : (ofLog log).findByName? name = some r) :
    exists token, leading? log name = some token ∧ latest? log token = some r := by
  rw [findByName?_ofLog] at h
  exact Option.bind_eq_some_iff.mp h

theorem fullName_of_findByName? {log : List Registration} {name : String}
    (hstill : StillNamed log name) {r : Registration}
    (h : (ofLog log).findByName? name = some r) : r.fullName = name := by
  rcases findByName?_ofLog_eq_some h with ⟨token, hlead, hlatest⟩
  rcases hstill token hlead with ⟨s, hs, hname⟩
  rw [hlatest] at hs
  cases hs
  exact hname

theorem isSome_findByName?_of_get? {log : List Registration} {token : Token}
    {r : Registration} (h : (ofLog log).get? token = some r) :
    ((ofLog log).findByName? r.fullName).isSome = true := by
  rw [get?_ofLog] at h
  rcases mem_of_latest? h with ⟨hr, _⟩
  apply Option.isSome_iff_ne_none.mpr
  intro hnone
  exact (findByName?_ofLog_eq_none log r.fullName).mp hnone r hr rfl

theorem isTypeDef_of_findByName? {log : List Registration} {token : Token}
    {definition r : Registration} (hget : (ofLog log).get? token = some definition)
    (hdef : token.isTypeDef = true)
    (h : (ofLog log).findByName? definition.fullName = some r) :
    r.token.isTypeDef = true := by
  rcases findByName?_ofLog_eq_some h with ⟨lead, hlead, hlatest⟩
  rw [(mem_of_latest? hlatest).right]
  exact isTypeDef_of_preferred? hlead (mem_tokens_ofLog.mp (mem_tokens_of_get? hget)) hdef

theorem get?_of_findByName? {log : List Registration} {name : String} {r : Registration}
    (h : (ofLog log).findByName? name = some r) : (ofLog log).get? r.token = some r := by
  rcases findByName?_ofLog_eq_some h with ⟨token, _, hlatest⟩
  rw [get?_ofLog, (mem_of_latest? hlatest).right, hlatest]

end Registry

namespace Workspace

open Registry

/-!
## The exact condition
-/

theorem stillNamed_of_findsByName {w : Workspace} (hcur : w.RegistryCurrent)
    {log : List Registration} (hlog : w.registry = ofLog log) {name : String}
    (h : w.FindsByName name) : StillNamed log name := by
  intro token hlead
  rcases Option.isSome_iff_exists.mp (isSome_latest?_leading? hlead) with ⟨r, hlatest⟩
  have hfound : w.registry.findByName? name = some r := by
    rw [hlog, findByName?_ofLog, hlead, Option.bind_some, hlatest]
  rcases h.registered r hfound with ⟨row, hreg, hname⟩
  have hget : w.registry.get? token = some r := by
    rw [hlog, get?_ofLog, hlatest]
  rcases row_of_get? hcur hget with ⟨found, hrow, _, hrowName⟩
  rw [hreg.left] at hrow
  cases hrow
  exact ⟨r, hlatest, hrowName.symm.trans hname⟩

theorem findsByName_of_stillNamed {w : Workspace} (hcur : w.RegistryCurrent)
    {log : List Registration} (hlog : w.registry = ofLog log) {name : String}
    (hstill : StillNamed log name) : w.FindsByName name := by
  have hget : forall r, w.registry.findByName? name = some r ->
      w.registry.get? r.token = some r := by
    intro r hr
    rw [hlog] at hr ⊢
    exact get?_of_findByName? hr
  have hname : forall r, w.registry.findByName? name = some r -> r.fullName = name := by
    intro r hr
    rw [hlog] at hr
    exact fullName_of_findByName? hstill hr
  have hregistered : forall r, w.registry.findByName? name = some r ->
      exists row, w.Registers r.type row ∧ row.fullName = name := by
    intro r hr
    rcases registers_of_get? hcur (hget r hr) with ⟨row, hrow, hrowName⟩
    exact ⟨row, hrow, hrowName.trans (hname r hr)⟩
  constructor
  case isSome_iff =>
    constructor
    · intro h
      rcases Option.isSome_iff_exists.mp h with ⟨r, hr⟩
      exact ⟨r.type, hregistered r hr⟩
    · rintro ⟨t, row, hrow, rfl⟩
      rcases fullName_of_registers hcur hrow with ⟨r, hr, hrName⟩
      rw [hlog] at hr ⊢
      rw [<- hrName]
      exact isSome_findByName?_of_get? hr
  case registered =>
    exact hregistered
  case definition =>
    -- No use of `hstill`: a definition stays preferred whatever became of the name.
    rintro r t row hr hrow rfl hdef
    rcases fullName_of_registers hcur hrow with ⟨held, hheld, hheldName⟩
    rcases row_of_get? hcur (hget r hr) with ⟨found, hfound, htoken, _⟩
    refine ⟨found, hfound, ?_⟩
    rw [hlog] at hheld hr
    rw [<- hheldName] at hr
    change found.token.isTypeDef = true
    rw [htoken]
    exact isTypeDef_of_findByName? hheld hdef hr
  case bound =>
    rintro t row d hrow href hlink rfl hd
    rw [Resolver.value_resolveType_unlinked hrow href hlink,
      Resolver.value_byName_registry] at hd
    rcases findDefinition?_eq_some_iff.mp hd with ⟨r, hr, _, htype⟩
    rcases hregistered r hr with ⟨found, hfound, hfoundName⟩
    rw [<- htype]
    exact ⟨found, hfound.left, hfoundName⟩

theorem findsByName_iff_stillNamed (edits : List Edit) (name : String) :
    (run {} edits).FindsByName name <-> StillNamed (registrations {} edits) name := by
  have hcur := registryCurrent_run registryCurrent_empty edits
  have hlog := registry_run_empty edits
  exact ⟨stillNamed_of_findsByName hcur hlog, findsByName_of_stillNamed hcur hlog⟩

def takeover : List Edit :=
  [.create .type ⟨⟨0x02000001⟩, .classType, ⟨"App", "Old"⟩, none⟩,
    .create .type ⟨⟨0x02000001⟩, .classType, ⟨"App", "New"⟩, none⟩,
    .register ⟨0⟩, .register ⟨1⟩,
    .create .type ⟨⟨0x01000001⟩, .classType, ⟨"App", "Old"⟩, none⟩]

/-- The name of a type that is gone from the registry finds the type that took its token over,
and binds a reference to it. -/
theorem takeover_finds_other_name :
    (run {} takeover).registry.findByName? "App.Old" =
      some ⟨⟨1⟩, ⟨0x02000001⟩, "App.New"⟩ ∧
    ((Resolver.registry (run {} takeover).registry).resolveType
      (run {} takeover).graph ⟨2⟩).value = some ⟨1⟩ ∧
    ¬ (run {} takeover).FindsByName "App.Old" := by
  have hfound : (run {} takeover).registry.findByName? "App.Old" =
      some ⟨⟨1⟩, ⟨0x02000001⟩, "App.New"⟩ := by
    decide +kernel
  have hname : ((run {} takeover).graph.type? ⟨1⟩).map (fun row => row.fullName) =
      some "App.New" := by
    decide +kernel
  refine ⟨hfound, by decide +kernel, ?_⟩
  intro h
  rcases h.registered _ hfound with ⟨row, hreg, hrowName⟩
  rw [hreg.left, Option.map_some, hrowName] at hname
  exact absurd hname (by decide)

end Workspace
end MetadataLabels
