import MetadataLabels.Overload

/-!
# Warnings

Of the notices that a query gives, a warning says that a walk was cut and the
answer may be wrong.  Resolving a reference never warns, and a question to several
elements warns as often as those warn that are asked.
-/

namespace MetadataLabels
namespace Logged

variable {α β : Type}

def warnings (x : Logged α) : List Notice :=
  x.notices.filter fun notice => notice.level == .warn

/-- The elements that are asked: all up to the first that answers yes. -/
def asked (p : α -> Logged Bool) : List α -> List α
  | [] => []
  | a :: rest => a :: if (p a).value then [] else asked p rest

@[simp]
theorem warnings_pure (a : α) : (pure a : Logged α).warnings = [] :=
  rfl

@[simp]
theorem warnings_bind (x : Logged α) (f : α -> Logged β) :
    (x >>= f).warnings = x.warnings ++ (f x.value).warnings := by
  rw [warnings, notices_bind, List.filter_append]
  rfl

theorem warnings_note (notice : Notice) :
    (note notice).warnings = if notice.level = .warn then [notice] else [] := by
  rw [warnings, notices_note]
  cases h : notice.level with
  | warn =>
      simp [h]
  | trace =>
      simp [h]

theorem warnings_orElse (x y : Logged Bool) :
    (orElse x y).warnings = x.warnings ++ if x.value then [] else y.warnings := by
  rw [orElse, warnings_bind]
  cases x.value <;> rfl

theorem warnings_anyM (p : α -> Logged Bool) (l : List α) :
    (anyM p l).warnings = (asked p l).flatMap fun a => (p a).warnings := by
  induction l with
  | nil =>
      rfl
  | cons a rest ih =>
      rw [anyM, warnings_orElse, ih, asked, List.flatMap_cons]
      cases (p a).value <;> rfl

end Logged

namespace Resolver

/-!
## Resolution
-/

theorem warnings_byName (r : Resolver) (name : String) : (r.byName name).warnings = [] := by
  cases r with
  | links =>
      rfl
  | registry reg =>
      rw [byName]
      cases reg.findDefinition? name with
      | some t =>
          rfl
      | none =>
          rw [Logged.warnings_bind, Logged.warnings_note, Logged.warnings_pure]
          rfl

theorem warnings_resolveType (r : Resolver) (g : Graph) (t : TypeId) :
    (r.resolveType g t).warnings = [] := by
  unfold resolveType
  cases g.type? t with
  | none =>
      rfl
  | some row =>
      dsimp only
      split
      · rfl
      · cases g.definition? t with
        | some d =>
            rfl
        | none =>
            exact warnings_byName r row.fullName

theorem warnings_baseType (r : Resolver) (g : Graph) (t : TypeId) :
    (r.baseType g t).warnings = [] := by
  unfold baseType
  cases g.base? t with
  | some b =>
      exact warnings_resolveType r g b
  | none =>
      rfl

end Resolver
end MetadataLabels
