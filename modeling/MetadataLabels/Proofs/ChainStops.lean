import MetadataLabels.Proofs.BaseChain

/-!
# Why a base chain stops

Counting overloads goes up a base chain until a type has no base, a type does not
resolve, or two hundred types were visited and there is one more.  Exactly one of
these happens, and the notices of the count tell which: a resolver that binds names
reports the type that it could not bind, and a warning names the type that was left
out.
-/

namespace MetadataLabels

/-- Why the way up a base chain stops: at a type without a base, before a type that does not
resolve, or before a type that is one too many. -/
inductive Stop
  | noBase
  | unresolved (t : TypeId)
  | limit (t : TypeId)

namespace Stop

def notices (r : Resolver) (g : Graph) : Stop -> List Notice
  | .noBase => []
  | .unresolved t =>
      match r with
      | .links => []
      | .registry _ => [.unresolvedType ((g.type? t).elim "" fun row => row.fullName)]
  | .limit t => [g.longChain t]

variable {r : Resolver} {g : Graph} {stop : Stop}

theorem notices_eq_nil_iff (hr : r ≠ .links) : stop.notices r g = [] <-> .noBase = stop := by
  cases r with
  | links =>
      exact absurd rfl hr
  | registry reg =>
      cases stop <;> simp [notices]

theorem levels_eq_trace_iff (hr : r ≠ .links) :
    (stop.notices r g).map Notice.level = [.trace] <-> exists t, .unresolved t = stop := by
  cases r with
  | links =>
      exact absurd rfl hr
  | registry reg =>
      cases stop <;> simp [notices, Graph.longChain, Notice.level]

theorem levels_eq_warn_iff :
    (stop.notices r g).map Notice.level = [.warn] <-> exists t, .limit t = stop := by
  cases r <;> cases stop <;> simp [notices, Graph.longChain, Notice.level]

end Stop

namespace Resolver

inductive StopsBy (r : Resolver) (g : Graph) (t : TypeId) (limit : Nat) : Stop -> Prop
  | start : (r.resolveType g t).value = none -> StopsBy r g t limit (.unresolved t)
  | noBase {n : Nat} {u : TypeId} :
      n < limit -> r.nthBase? g t n = some u -> g.base? u = none -> StopsBy r g t limit .noBase
  | base {n : Nat} {u b : TypeId} :
      n < limit -> r.nthBase? g t n = some u -> g.base? u = some b ->
        (r.resolveType g b).value = none -> StopsBy r g t limit (.unresolved b)
  | limit {u : TypeId} : r.nthBase? g t limit = some u -> StopsBy r g t limit (.limit u)

/-- The way up has one reason to stop, which is what the notices report. -/
structure TellsStop (r : Resolver) (g : Graph) (t : TypeId) (name : String) : Prop where
  stops : exists stop, forall other, r.StopsBy g t 200 other <-> other = stop
  reported : forall stop, r.StopsBy g t 200 stop ->
    (r.otherOverloads g t name).notices = stop.notices r g
  silent_iff : r ≠ .links ->
    ((r.otherOverloads g t name).notices = [] <-> r.StopsBy g t 200 .noBase)
  trace_iff : r ≠ .links -> ((r.otherOverloads g t name).notices.map Notice.level = [.trace] <->
    exists u, r.StopsBy g t 200 (.unresolved u))
  warn_iff : (r.otherOverloads g t name).notices.map Notice.level = [.warn] <->
    exists u, r.StopsBy g t 200 (.limit u)

variable {r : Resolver} {g : Graph} {t d b : TypeId} {limit : Nat} {stop : Stop}

/-!
## Notices of one step
-/

theorem notices_resolveType_of_some (h : (r.resolveType g t).value = some d) :
    (r.resolveType g t).notices = [] := by
  unfold resolveType at h ⊢
  cases hrow : g.type? t with
  | none =>
      rfl
  | some row =>
      rw [hrow] at h
      dsimp only at h ⊢
      split at h
      next hdef =>
          rw [if_pos hdef]
          rfl
      next hdef =>
          rw [if_neg hdef]
          cases hlink : g.definition? t with
          | some _ =>
              rfl
          | none =>
              rw [hlink] at h
              cases r with
              | links =>
                  cases h
              | registry reg =>
                  rw [value_byName_registry] at h
                  simp only [byName, h]
                  rfl

theorem notices_resolveType_of_none (hlive : g.isLive t.node = true)
    (h : (r.resolveType g t).value = none) :
    (r.resolveType g t).notices = (Stop.unresolved t).notices r g := by
  rcases Graph.exists_row_of_isLive hlive with ⟨row, hrow⟩
  change g.type? t = some row at hrow
  unfold resolveType at h ⊢
  simp only [Stop.notices, hrow] at h ⊢
  split at h
  next =>
      cases h
  next hdef =>
      rw [if_neg hdef]
      cases hlink : g.definition? t with
      | some _ =>
          rw [hlink] at h
          cases h
      | none =>
          rw [hlink] at h
          cases r with
          | links =>
              rfl
          | registry reg =>
              rw [value_byName_registry] at h
              simp only [byName, h]
              rfl

theorem notices_climb_succ (fuel : Nat) (t : TypeId) :
    (r.climb g (fuel + 1) (some t)).notices =
      (r.baseType g t).notices ++ (r.climb g fuel (r.baseType g t).value).notices := by
  rw [climb, Logged.notices_bind, Logged.notices_bind, Logged.notices_pure, List.append_nil]

theorem baseType_of_base? (h : g.base? t = some b) : r.baseType g t = r.resolveType g b := by
  rw [baseType, h]

theorem baseType_of_base?_eq_none (h : g.base? t = none) : r.baseType g t = pure none := by
  rw [baseType, h]

/-!
## One type further up
-/

theorem nthBase?_of_resolveType_eq_none (h : (r.resolveType g t).value = none) (n : Nat) :
    r.nthBase? g t n = none := by
  rw [nthBase?, h, walk_none]

theorem eq_of_nthBase?_zero {u : TypeId} (hd : (r.resolveType g t).value = some d)
    (hu : r.nthBase? g t 0 = some u) : u = d :=
  Option.some.inj (hu.symm.trans hd)

theorem nthBase?_succ (hd : (r.resolveType g t).value = some d) (n : Nat) :
    r.nthBase? g t (n + 1) = walk (fun u => (r.baseType g u).value) (r.baseType g d).value n := by
  rw [nthBase?, hd, walk_succ, Option.bind_some]

theorem nthBase?_succ_of_base? (hd : (r.resolveType g t).value = some d)
    (hb : g.base? d = some b) (n : Nat) : r.nthBase? g t (n + 1) = r.nthBase? g b n := by
  rw [nthBase?_succ hd, baseType_of_base? hb, nthBase?]

theorem nthBase?_succ_of_base?_eq_none (hd : (r.resolveType g t).value = some d)
    (hb : g.base? d = none) (n : Nat) : r.nthBase? g t (n + 1) = none := by
  rw [nthBase?_succ hd, baseType_of_base?_eq_none hb, Logged.value_pure, walk_none]

theorem stopsBy_iff_of_unresolved (h : (r.resolveType g t).value = none) :
    r.StopsBy g t limit stop <-> stop = .unresolved t := by
  constructor
  · intro hstop
    cases hstop with
    | start _ =>
        rfl
    | noBase _ hu _ | base _ hu _ _ | limit hu =>
        rw [nthBase?_of_resolveType_eq_none h] at hu
        cases hu
  · intro hstop
    rw [hstop]
    exact .start h

theorem stopsBy_zero_iff (hd : (r.resolveType g t).value = some d) :
    r.StopsBy g t 0 stop <-> stop = .limit d := by
  constructor
  · intro hstop
    cases hstop with
    | start hnone =>
        rw [hd] at hnone
        cases hnone
    | noBase hn _ _ =>
        exact absurd hn (Nat.not_lt_zero _)
    | base hn _ _ _ =>
        exact absurd hn (Nat.not_lt_zero _)
    | limit hu =>
        rw [eq_of_nthBase?_zero hd hu]
  · intro hstop
    rw [hstop]
    exact .limit hd

theorem stopsBy_succ_iff_of_base?_eq_none (hd : (r.resolveType g t).value = some d)
    (hb : g.base? d = none) : r.StopsBy g t (limit + 1) stop <-> stop = .noBase := by
  constructor
  · intro hstop
    cases hstop with
    | start hnone =>
        rw [hd] at hnone
        cases hnone
    | noBase _ _ _ =>
        rfl
    | @base n u _ _ hu hbase _ =>
        cases n with
        | zero =>
            rw [eq_of_nthBase?_zero hd hu, hb] at hbase
            cases hbase
        | succ n =>
            rw [nthBase?_succ_of_base?_eq_none hd hb] at hu
            cases hu
    | limit hu =>
        rw [nthBase?_succ_of_base?_eq_none hd hb] at hu
        cases hu
  · intro hstop
    rw [hstop]
    exact .noBase (Nat.zero_lt_succ limit) hd hb

theorem stopsBy_succ_iff_of_base? (hd : (r.resolveType g t).value = some d)
    (hb : g.base? d = some b) : r.StopsBy g t (limit + 1) stop <-> r.StopsBy g b limit stop := by
  constructor
  · intro hstop
    cases hstop with
    | start hnone =>
        rw [hd] at hnone
        cases hnone
    | @noBase n u hn hu hbase =>
        cases n with
        | zero =>
            rw [eq_of_nthBase?_zero hd hu, hb] at hbase
            cases hbase
        | succ n =>
            rw [nthBase?_succ_of_base? hd hb] at hu
            exact .noBase (Nat.lt_of_succ_lt_succ hn) hu hbase
    | @base n u _ hn hu hbase hnone =>
        cases n with
        | zero =>
            rw [eq_of_nthBase?_zero hd hu, hb] at hbase
            cases hbase
            exact .start hnone
        | succ n =>
            rw [nthBase?_succ_of_base? hd hb] at hu
            exact .base (Nat.lt_of_succ_lt_succ hn) hu hbase hnone
    | limit hu =>
        rw [nthBase?_succ_of_base? hd hb] at hu
        exact .limit hu
  · intro hstop
    cases hstop with
    | start hnone =>
        exact .base (Nat.zero_lt_succ limit) hd hb hnone
    | noBase hn hu hbase =>
        rw [<- nthBase?_succ_of_base? hd hb] at hu
        exact .noBase (Nat.succ_lt_succ hn) hu hbase
    | base hn hu hbase hnone =>
        rw [<- nthBase?_succ_of_base? hd hb] at hu
        exact .base (Nat.succ_lt_succ hn) hu hbase hnone
    | limit hu =>
        rw [<- nthBase?_succ_of_base? hd hb] at hu
        exact .limit hu

/-!
## The whole way up
-/

def ReportsStop (r : Resolver) (g : Graph) (t : TypeId) (limit : Nat) : Prop :=
  exists stop, (forall other, r.StopsBy g t limit other <-> other = stop) ∧
    (r.resolveType g t).notices ++ (r.climb g limit (r.resolveType g t).value).notices =
      stop.notices r g

theorem reportsStop_of_unresolved (hlive : g.isLive t.node = true)
    (h : (r.resolveType g t).value = none) : r.ReportsStop g t limit := by
  refine ⟨.unresolved t, fun _ => stopsBy_iff_of_unresolved h, ?_⟩
  rw [h, notices_resolveType_of_none hlive h]
  cases limit <;> exact List.append_nil _

theorem reportsStop_zero (hd : (r.resolveType g t).value = some d) : r.ReportsStop g t 0 := by
  refine ⟨.limit d, fun _ => stopsBy_zero_iff hd, ?_⟩
  rw [hd, notices_resolveType_of_some hd]
  rfl

theorem reportsStop_of_base?_eq_none (hd : (r.resolveType g t).value = some d)
    (hb : g.base? d = none) : r.ReportsStop g t (limit + 1) := by
  refine ⟨.noBase, fun _ => stopsBy_succ_iff_of_base?_eq_none hd hb, ?_⟩
  rw [hd, notices_resolveType_of_some hd, notices_climb_succ, baseType_of_base?_eq_none hb]
  cases limit <;> rfl

theorem reportsStop_of_base? (hd : (r.resolveType g t).value = some d)
    (hb : g.base? d = some b) (h : r.ReportsStop g b limit) : r.ReportsStop g t (limit + 1) := by
  rcases h with ⟨stop, hstop, hnotices⟩
  refine ⟨stop, ?_, ?_⟩
  · intro other
    rw [stopsBy_succ_iff_of_base? hd hb, hstop]
  · rw [hd, notices_resolveType_of_some hd, List.nil_append, notices_climb_succ,
      baseType_of_base? hb, hnotices]

theorem reportsStop (limit : Nat) {t : TypeId} (hlive : g.isLive t.node = true) :
    r.ReportsStop g t limit := by
  -- The induction is on how many types may be visited; a base that is read is alive, so it takes
  -- the place of the type.
  induction limit generalizing t with
  | zero =>
      cases hd : (r.resolveType g t).value with
      | none =>
          exact reportsStop_of_unresolved hlive hd
      | some d =>
          exact reportsStop_zero hd
  | succ limit ih =>
      cases hd : (r.resolveType g t).value with
      | none =>
          exact reportsStop_of_unresolved hlive hd
      | some d =>
          cases hb : g.base? d with
          | none =>
              exact reportsStop_of_base?_eq_none hd hb
          | some b =>
              exact reportsStop_of_base? hd hb (ih (Graph.read_eq_some_iff.mp hb).right)

theorem notices_otherOverloads (r : Resolver) (g : Graph) (t : TypeId) (name : String) :
    (r.otherOverloads g t name).notices =
      (r.resolveType g t).notices ++ (r.climb g 200 (r.resolveType g t).value).notices := by
  rw [otherOverloads, Logged.notices_bind, Logged.notices_pure, List.append_nil, lineage,
    Logged.notices_bind]
  rfl

theorem otherOverloads_tells_stop (r : Resolver) (g : Graph) (t : TypeId) (name : String)
    (hlive : g.isLive t.node = true) : r.TellsStop g t name := by
  rcases reportsStop (r := r) 200 hlive with ⟨stop, hstop, hnotices⟩
  rw [<- notices_otherOverloads r g t name] at hnotices
  constructor
  case stops =>
    exact ⟨stop, hstop⟩
  case reported =>
    intro other hother
    rw [(hstop other).mp hother]
    exact hnotices
  case silent_iff =>
    intro hr
    rw [hnotices, hstop, Stop.notices_eq_nil_iff hr]
  case trace_iff =>
    intro hr
    simp only [hnotices, hstop, Stop.levels_eq_trace_iff hr]
  case warn_iff =>
    simp only [hnotices, hstop, Stop.levels_eq_warn_iff]

end Resolver

namespace Workspace

def foreignBase : List Edit :=
  [.create .type ⟨⟨0x02000001⟩, .classType, ⟨"App", "Circle"⟩, none⟩,
    .create .type ⟨⟨0x01000001⟩, .classType, ⟨"Other", "Figure"⟩, some "Other"⟩,
    .link .base ⟨0⟩ ⟨1⟩]

/-- Two hundred types leave no notice, one more is warned of, and a base that is bound to nothing
leaves a trace. -/
theorem stops_told_apart :
    ((run {} (chain 199)).graph.isLive (⟨0⟩ : TypeId).node = true ∧
      ((Resolver.registry {}).otherOverloads (run {} (chain 199)).graph ⟨0⟩ "Draw").notices =
        []) ∧
    ((run {} (chain 200)).graph.isLive (⟨0⟩ : TypeId).node = true ∧
      ((Resolver.registry {}).otherOverloads (run {} (chain 200)).graph ⟨0⟩ "Draw").notices =
        [.baseChain "App.Link" 200]) ∧
    ((run {} foreignBase).graph.isLive (⟨0⟩ : TypeId).node = true ∧
      ((Resolver.registry {}).otherOverloads (run {} foreignBase).graph ⟨0⟩ "Draw").notices =
        [.unresolvedType "Other.Figure"]) := by
  have hshort := (isChain_run 199).isLive (Nat.zero_le 199)
  have hlong := (isChain_run 200).isLive (Nat.zero_le 200)
  have hforeign : (run {} foreignBase).graph.isLive (⟨0⟩ : TypeId).node = true := by
    decide +kernel
  refine ⟨⟨hshort, ?_⟩, ⟨hlong, ?_⟩, ⟨hforeign, ?_⟩⟩
  · refine (Resolver.otherOverloads_tells_stop (.registry {}) _ _ "Draw" hshort).reported .noBase ?_
    refine .noBase (n := 199) (u := ⟨199⟩) (by decide) ?_ (isChain_run 199).base?_top
    exact nthBase?_chain (.registry {}) 199 199
  · rcases (isChain_run 200).decl (Nat.le_refl 200) with ⟨row, hrow, hdecl⟩
    have hstop : (Resolver.registry {}).StopsBy (run {} (chain 200)).graph ⟨0⟩ 200
        (.limit ⟨200⟩) :=
      .limit (nthBase?_chain (.registry {}) 200 200)
    rw [(Resolver.otherOverloads_tells_stop (.registry {}) _ _ "Draw" hlong).reported _ hstop,
      Stop.notices, Graph.longChain, hrow, Option.elim_some, hdecl]
    decide
  · have hstop : (Resolver.registry {}).StopsBy (run {} foreignBase).graph ⟨0⟩ 200
        (.unresolved ⟨1⟩) :=
      .base (n := 0) (u := ⟨0⟩) (by decide) (by decide +kernel) (by decide +kernel)
        (by decide +kernel)
    rw [(Resolver.otherOverloads_tells_stop (.registry {}) _ _ "Draw" hforeign).reported _ hstop]
    decide +kernel

end Workspace
end MetadataLabels
