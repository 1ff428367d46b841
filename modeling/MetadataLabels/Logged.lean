import MetadataLabels.Notice

/-!
# Answers with notices

A query answers a value and the notices it gave on the way, oldest first.  The
queries stay pure: whoever asks decides what becomes of the notices.
-/

namespace MetadataLabels

structure Logged (α : Type) where
  value : α
  notices : List Notice

namespace Logged

def note (notice : Notice) : Logged Unit :=
  ⟨(), [notice]⟩

instance : Monad Logged where
  pure a := ⟨a, []⟩
  bind x f := ⟨(f x.value).value, x.notices ++ (f x.value).notices⟩

instance : LawfulMonad Logged := LawfulMonad.mk' Logged
  (by
    intro α x
    change Logged.mk x.value (x.notices ++ []) = x
    rw [List.append_nil])
  (by
    intro α β a f
    rfl)
  (by
    intro α β γ x f g
    exact congrArg (Logged.mk _) (List.append_assoc _ _ _))

/-- The first part is asked first; the second is asked only if the first answered no. -/
def orElse (x y : Logged Bool) : Logged Bool := do
  if <- x then pure true else y

def anyM {α : Type} (p : α -> Logged Bool) : List α -> Logged Bool
  | [] => pure false
  | a :: rest => orElse (p a) (anyM p rest)

/-! ## Views -/

@[simp]
theorem value_pure {α : Type} (a : α) : (pure a : Logged α).value = a :=
  rfl

@[simp]
theorem notices_pure {α : Type} (a : α) : (pure a : Logged α).notices = [] :=
  rfl

@[simp]
theorem value_bind {α β : Type} (x : Logged α) (f : α -> Logged β) :
    (x >>= f).value = (f x.value).value :=
  rfl

@[simp]
theorem notices_bind {α β : Type} (x : Logged α) (f : α -> Logged β) :
    (x >>= f).notices = x.notices ++ (f x.value).notices :=
  rfl

@[simp]
theorem notices_note (notice : Notice) : (note notice).notices = [notice] :=
  rfl

@[simp]
theorem value_map {α β : Type} (f : α -> β) (x : Logged α) : (f <$> x).value = f x.value :=
  rfl

@[simp]
theorem notices_map {α β : Type} (f : α -> β) (x : Logged α) :
    (f <$> x).notices = x.notices := by
  change x.notices ++ [] = x.notices
  simp

theorem value_orElse (x y : Logged Bool) : (orElse x y).value = (x.value || y.value) := by
  cases h : x.value <;> simp [orElse, h]

theorem value_anyM {α : Type} (p : α -> Logged Bool) (l : List α) :
    (anyM p l).value = l.any fun a => (p a).value := by
  induction l with
  | nil =>
      rfl
  | cons a rest ih =>
      simp [anyM, value_orElse, ih]

end Logged
end MetadataLabels
