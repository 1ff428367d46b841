import MetadataLabels.Resource

/-!
# Placeholders in templates

A template is cut at its placeholders into pieces that hold none, and substitution joins
the pieces by the value instead.  Placeholders do not overlap, so no other occurrence
comes about at a joint.  A value that could not stand inside a placeholder leaves no
placeholder behind, whatever braces stand around it.
-/

namespace MetadataLabels
namespace Template

def placeholder : List Char :=
  ['\x7b', '0', '\x7d']

def Free (text : List Char) : Prop :=
  ¬ placeholder <:+: text

/-- The template is made of the pieces with a placeholder between each two of them, and no piece
holds another one. -/
structure SplitsInto (template : List Char) (pieces : List (List Char)) : Prop where
  nonempty : pieces ≠ []
  joined : placeholder.intercalate pieces = template
  free : forall piece, piece ∈ pieces -> Free piece

/-- A value that has no part in a placeholder: it holds no brace and does not begin with zero. -/
structure Inert (value : List Char) : Prop where
  nonempty : value ≠ []
  left : '\x7b' ∉ value
  right : '\x7d' ∉ value
  leading : value.head? ≠ some '0'

variable {value text rest : List Char} {c : Char}

/-!
## Free texts

A text is free if no placeholder stands anywhere in it.
-/

theorem free_nil : Free [] := by
  intro h
  cases List.infix_nil.mp h

theorem free_cons_iff : Free (c :: text) <-> ¬ placeholder <+: c :: text ∧ Free text := by
  rw [Free, List.infix_cons_iff, not_or]
  rfl

theorem prefix_of_prefix_append_placeholder (htext : text ≠ [])
    (h : placeholder <+: text ++ (placeholder ++ rest)) : placeholder <+: text := by
  match text, h with
  | [], _ => exact absurd rfl htext
  | [a], h => simp [placeholder] at h
  | [a, b], h => simp [placeholder] at h
  | a :: b :: c :: others, h => simpa [placeholder] using h

/-!
## Substitution
-/

theorem substitute_cons (h : ¬ placeholder <+: c :: rest) (value : List Char) :
    substitute value (c :: rest) = c :: substitute value rest := by
  rw [substitute]
  rintro others rfl rfl
  exact h ⟨others, rfl⟩

theorem substitute_of_free (h : Free text) (value : List Char) : substitute value text = text := by
  induction text with
  | nil =>
      rfl
  | cons c rest ih =>
      rw [free_cons_iff] at h
      rw [substitute_cons h.left, ih h.right]

theorem substitute_append_placeholder (h : Free text) (value rest : List Char) :
    substitute value (text ++ (placeholder ++ rest)) = text ++ (value ++ substitute value rest) := by
  induction text with
  | nil =>
      rfl
  | cons c others ih =>
      have hfree := free_cons_iff.mp h
      have hnone : ¬ placeholder <+: c :: (others ++ (placeholder ++ rest)) := fun hfront =>
        hfree.left (prefix_of_prefix_append_placeholder (List.cons_ne_nil c others) hfront)
      rw [List.cons_append, substitute_cons hnone, ih hfree.right, List.cons_append]

theorem substitute_intercalate (value : List Char) : forall {pieces : List (List Char)},
    (forall piece, piece ∈ pieces -> Free piece) ->
      substitute value (placeholder.intercalate pieces) = value.intercalate pieces
  | [], _ => rfl
  | [piece], h => by
      rw [List.intercalate_singleton, List.intercalate_singleton,
        substitute_of_free (h piece List.mem_cons_self)]
  | piece :: next :: others, h => by
      have hrest := substitute_intercalate value fun p hp => h p (List.mem_cons_of_mem piece hp)
      rw [List.intercalate_cons_cons, List.intercalate_cons_cons, List.append_assoc,
        substitute_append_placeholder (h piece List.mem_cons_self), hrest, List.append_assoc]

theorem SplitsInto.substitute {template : List Char} {pieces : List (List Char)}
    (h : SplitsInto template pieces) (value : List Char) :
    substitute value template = value.intercalate pieces := by
  rw [<- h.joined, substitute_intercalate value h.free]

/-!
## Pieces of a template
-/

theorem prefix_intercalate (piece : List Char) (others : List (List Char)) :
    piece <+: placeholder.intercalate (piece :: others) := by
  cases others with
  | nil =>
      simp only [List.intercalate_singleton, List.prefix_rfl]
  | cons next others =>
      rw [List.intercalate_cons_cons, List.append_assoc]
      exact List.prefix_append _ _

theorem SplitsInto.cons {pieces : List (List Char)} (h : SplitsInto rest pieces)
    (hnone : ¬ placeholder <+: c :: rest) : exists pieces, SplitsInto (c :: rest) pieces := by
  cases pieces with
  | nil =>
      exact absurd rfl h.nonempty
  | cons piece others =>
      have hpiece : c :: piece <+: c :: rest := by
        rw [List.cons_prefix_cons, <- h.joined]
        exact ⟨rfl, prefix_intercalate piece others⟩
      have hfree := List.forall_mem_cons.mp h.free
      refine ⟨(c :: piece) :: others, List.cons_ne_nil _ _, ?_, ?_⟩
      · rw [List.intercalate_cons_cons_left, h.joined]
      · refine List.forall_mem_cons.mpr ⟨free_cons_iff.mpr ⟨?_, hfree.left⟩, hfree.right⟩
        exact fun hfront => hnone (hfront.trans hpiece)

theorem SplitsInto.consEmpty {pieces : List (List Char)} (h : SplitsInto rest pieces) :
    SplitsInto (placeholder ++ rest) ([] :: pieces) where
  nonempty := List.cons_ne_nil _ _
  joined := by
    rw [List.intercalate_cons_of_ne_nil h.nonempty, h.joined]
    rfl
  free := List.forall_mem_cons.mpr ⟨free_nil, h.free⟩

theorem not_prefix_cons (h : forall others, c = '\x7b' -> rest = '0' :: '\x7d' :: others -> False) :
    ¬ placeholder <+: c :: rest := by
  rintro ⟨others, hothers⟩
  injection hothers with hc hrest
  exact h others hc.symm hrest.symm

theorem exists_splitsInto (template : List Char) : exists pieces, SplitsInto template pieces := by
  induction template using substitute.induct with
  | case1 rest ih =>
      rcases ih with ⟨pieces, h⟩
      exact ⟨[] :: pieces, h.consEmpty⟩
  | case2 c rest hnone ih =>
      rcases ih with ⟨pieces, h⟩
      exact h.cons (not_prefix_cons hnone)
  | case3 =>
      refine ⟨[[]], List.cons_ne_nil _ _, rfl, ?_⟩
      exact List.forall_mem_singleton.mpr free_nil

/-!
## What substitution leaves

A placeholder in the outcome would begin in a piece and end in a value, or the other
way round.  An inert value can take neither part.
-/

theorem free_append (hvalue : '\x7b' ∉ value) (h : Free text) : Free (value ++ text) := by
  induction value with
  | nil =>
      exact h
  | cons c others ih =>
      rw [List.mem_cons, not_or] at hvalue
      rw [List.cons_append, free_cons_iff]
      refine ⟨?_, ih hvalue.right⟩
      intro hfront
      exact hvalue.left (List.cons_prefix_cons.mp hfront).left

theorem exists_cons_of_substitute (hvalue : value ≠ []) (hc : value.head? ≠ some c)
    (h : substitute value text = c :: rest) :
    exists others, text = c :: others ∧ substitute value others = rest := by
  induction text using substitute.induct with
  | case1 others _ =>
      rcases List.exists_cons_of_ne_nil hvalue with ⟨first, tail, rfl⟩
      injection h with hfirst _
      rw [hfirst] at hc
      exact absurd rfl hc
  | case2 d others hnone _ =>
      rw [substitute_cons (not_prefix_cons hnone)] at h
      injection h with hd hrest
      exact ⟨others, by rw [hd], hrest⟩
  | case3 =>
      cases h

theorem Inert.ends_before (h : Inert value) (hend : substitute value text = '0' :: '\x7d' :: rest) :
    exists others, text = '0' :: '\x7d' :: others := by
  rcases exists_cons_of_substitute h.nonempty h.leading hend with ⟨others, rfl, hothers⟩
  have hbrace : value.head? ≠ some '\x7d' := fun hhead => h.right (List.mem_of_head? hhead)
  rcases exists_cons_of_substitute h.nonempty hbrace hothers with ⟨last, rfl, _⟩
  exact ⟨last, rfl⟩

theorem Inert.free_substitute (h : Inert value) (text : List Char) :
    Free (substitute value text) := by
  induction text using substitute.induct with
  | case1 rest ih =>
      exact free_append h.left ih
  | case2 c rest hnone ih =>
      rw [substitute_cons (not_prefix_cons hnone), free_cons_iff]
      refine ⟨?_, ih⟩
      rintro ⟨others, hothers⟩
      injection hothers with hc hrest
      rcases h.ends_before hrest.symm with ⟨last, hlast⟩
      exact hnone last hc.symm hlast
  | case3 =>
      exact free_nil

end Template
end MetadataLabels
