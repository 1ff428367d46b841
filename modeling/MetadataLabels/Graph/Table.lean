/-!
# Tables

A table of rows under indices that are given out once.  A row may be removed,
but its index is never used again.
-/

namespace MetadataLabels

structure Table (α : Type) where
  rows : Array (Option α) := #[]

namespace Table

variable {α : Type}

def size (t : Table α) : Nat :=
  t.rows.size

def get? (t : Table α) (i : Nat) : Option α :=
  t.rows[i]?.join

/-- The new row is stored under the index `t.size`. -/
def push (t : Table α) (row : α) : Table α :=
  ⟨t.rows.push (some row)⟩

def modify (t : Table α) (i : Nat) (f : α -> α) : Table α :=
  match t.get? i with
  | some row => ⟨t.rows.setIfInBounds i (some (f row))⟩
  | none => t

def retain (t : Table α) (keep : Nat -> Bool) : Table α :=
  ⟨t.rows.mapIdx fun i row => if keep i then row else none⟩

/-! ## Rows after an operation -/

theorem get?_eq_none_of_size_le {t : Table α} {i : Nat} (h : t.size ≤ i) :
    t.get? i = none := by
  have hnone : t.rows[i]? = none := Array.getElem?_eq_none h
  simp [get?, hnone]

theorem lt_size_of_get? {t : Table α} {i : Nat} {row : α} (h : t.get? i = some row) :
    i < t.size := by
  apply Nat.lt_of_not_le
  intro hle
  rw [get?_eq_none_of_size_le hle] at h
  cases h

@[simp]
theorem size_push (t : Table α) (row : α) : (t.push row).size = t.size + 1 := by
  simp [push, size]

theorem get?_push (t : Table α) (row : α) (i : Nat) :
    (t.push row).get? i = if i = t.size then some row else t.get? i := by
  by_cases h : i = t.size
  · subst h
    simp [push, get?, size]
  · simp only [push, get?, size] at h ⊢
    rw [Array.getElem?_push]
    simp [h]

@[simp]
theorem size_modify (t : Table α) (i : Nat) (f : α -> α) : (t.modify i f).size = t.size := by
  unfold modify
  split
  · simp [size]
  · rfl

theorem get?_modify (t : Table α) (i : Nat) (f : α -> α) (j : Nat) :
    (t.modify i f).get? j = if j = i then (t.get? i).map f else t.get? j := by
  unfold modify
  split
  next row hrow =>
      have hlt : i < t.rows.size := lt_size_of_get? hrow
      by_cases h : j = i
      · subst h
        rw [if_pos rfl, hrow]
        simp [get?, hlt]
      · have h' : ¬ i = j := fun e => h e.symm
        simp [get?, h, h']
  next hrow =>
      by_cases h : j = i
      · subst h
        simp [hrow]
      · simp [h]

@[simp]
theorem size_retain (t : Table α) (keep : Nat -> Bool) : (t.retain keep).size = t.size := by
  simp [retain, size]

theorem get?_retain (t : Table α) (keep : Nat -> Bool) (i : Nat) :
    (t.retain keep).get? i = if keep i then t.get? i else none := by
  simp only [retain, get?, Array.getElem?_mapIdx]
  cases t.rows[i]? with
  | none =>
      simp
  | some row =>
      by_cases h : keep i = true <;> simp [h]

end Table
end MetadataLabels
