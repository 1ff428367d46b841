import MetadataLabels.Name

/-!
# Names cut at the last delimiter

The last delimiter is searched among the characters, and the text is cut between bytes.  A
delimiter has one byte, so in front of it and behind it the cut falls between two
characters.  It therefore never fails, and leaves what stands on one side of the last
delimiter.
-/

namespace MetadataLabels
namespace Name

/-- What stands in front of the last arity mark and what stands behind the last path separator,
for every text. -/
structure CutsAtLast (text : String) : Prop where
  arity_between : forall offset, lastOffset? (· == arityMark) text.toList = some offset ->
    String.Pos.Raw.IsValid text ⟨offset⟩
  arity_succeeds : withoutArity? text = some (withoutArity text)
  arity_front : forall front rest : String, text = front ++ String.singleton '\x60' ++ rest ->
    front.toList.head? ≠ some '<' -> '\x60' ∉ rest.toList -> withoutArity text = front
  arity_kept : withoutArity text = text <-> '\x60' ∉ text.toList ∨ text.toList.head? = some '<'
  file_between : forall offset, lastOffset? isPathSeparator text.toList = some offset ->
    String.Pos.Raw.IsValid text ⟨offset + 1⟩
  file_succeeds : fileName? text = some (fileName text)
  file_suffix : exists front, text = front ++ fileName text
  file_free : '/' ∉ (fileName text).toList ∧ '\\' ∉ (fileName text).toList
  file_longest : forall front rest : String, text = front ++ rest -> '/' ∉ rest.toList ->
    '\\' ∉ rest.toList -> rest.length ≤ (fileName text).length
  file_behind : forall (front : String) (c : Char), c = '/' ∨ c = '\\' ->
    fileName (front ++ String.singleton c ++ text) = fileName text
  file_idempotent : fileName (fileName text) = fileName text

def Free (p : Char -> Bool) (text : String) : Prop :=
  forall c, c ∈ text.toList -> p c = false

variable {p : Char -> Bool} {c : Char} {front rest text : String}

/-!
## The last delimiter

A text has no delimiter, or it is a front, a delimiter and a rest that has none.  The
offset of that delimiter is the length of the front in bytes.
-/

theorem toList_split (front rest : String) (c : Char) :
    (front ++ String.singleton c ++ rest).toList = front.toList ++ c :: rest.toList := by
  rw [String.toList_append, String.toList_append, String.toList_singleton, List.append_assoc,
    List.singleton_append]

theorem lastOffset?_of_forall {text : List Char} (h : forall c, c ∈ text -> p c = false) :
    lastOffset? p text = none := by
  induction text with
  | nil =>
      rfl
  | cons c rest ih =>
      rw [lastOffset?, ih fun d hd => h d (List.mem_cons_of_mem c hd), h c List.mem_cons_self]
      rfl

theorem lastOffset?_append {front rest : List Char} (hc : p c = true)
    (hrest : forall d, d ∈ rest -> p d = false) :
    lastOffset? p (front ++ c :: rest) = some (String.ofList front).utf8ByteSize := by
  induction front with
  | nil =>
      rw [List.nil_append, lastOffset?, lastOffset?_of_forall hrest, hc]
      rfl
  | cons d front ih =>
      rw [List.cons_append, lastOffset?, ih, String.ofList_cons, String.utf8ByteSize_append,
        String.utf8ByteSize_singleton]

theorem lastOffset?_split (hc : p c = true) (hrest : Free p rest) :
    lastOffset? p (front ++ String.singleton c ++ rest).toList = some front.utf8ByteSize := by
  rw [toList_split, lastOffset?_append hc hrest, String.ofList_toList]

theorem forall_or_append (p : Char -> Bool) (text : List Char) :
    (forall c, c ∈ text -> p c = false) ∨ exists front c rest,
      text = front ++ c :: rest ∧ p c = true ∧ forall d, d ∈ rest -> p d = false := by
  induction text with
  | nil =>
      exact Or.inl (List.forall_mem_nil _)
  | cons c text ih =>
      rcases ih with hfree | ⟨front, d, rest, rfl, hd, hrest⟩
      · cases hc : p c with
        | true =>
            exact Or.inr ⟨[], c, text, rfl, hc, hfree⟩
        | false =>
            exact Or.inl (List.forall_mem_cons.mpr ⟨hc, hfree⟩)
      · exact Or.inr ⟨c :: front, d, rest, rfl, hd, hrest⟩

theorem free_or_split (p : Char -> Bool) (text : String) :
    Free p text ∨ exists front c rest,
      text = front ++ String.singleton c ++ rest ∧ p c = true ∧ Free p rest := by
  rcases forall_or_append p text.toList with hfree | ⟨front, c, rest, htext, hc, hrest⟩
  · exact Or.inl hfree
  · refine Or.inr ⟨String.ofList front, c, String.ofList rest, ?_, hc, ?_⟩
    · rw [<- String.toList_inj, toList_split, String.toList_ofList, String.toList_ofList, htext]
    · rw [Free, String.toList_ofList]
      exact hrest

theorem exists_split_of_lastOffset? {offset : Nat} (h : lastOffset? p text.toList = some offset) :
    exists front c rest, text = front ++ String.singleton c ++ rest ∧ p c = true ∧
      front.utf8ByteSize = offset := by
  rcases free_or_split p text with hfree | ⟨front, c, rest, rfl, hc, hrest⟩
  · rw [lastOffset?_of_forall hfree] at h
    cases h
  · rw [lastOffset?_split hc hrest, Option.some.injEq] at h
    exact ⟨front, c, rest, rfl, hc, h⟩

/-!
## Slices

Between the byte lengths of two fronts stands what the longer has in addition.
-/

theorem isValid_append (front rest : String) :
    String.Pos.Raw.IsValid (front ++ rest) ⟨front.utf8ByteSize⟩ :=
  String.Pos.Raw.isValid_iff_exists_append.mpr ⟨front, rest, rfl, rfl⟩

theorem slice?_append (front text rest : String) :
    slice? (front ++ text ++ rest) front.utf8ByteSize (front ++ text).utf8ByteSize = some text := by
  have hle : front.utf8ByteSize ≤ (front ++ text).utf8ByteSize := by
    rw [String.utf8ByteSize_append]
    exact Nat.le_add_right _ _
  have hstart : String.Pos.Raw.IsValid (front ++ text ++ rest) ⟨front.utf8ByteSize⟩ := by
    rw [String.append_assoc]
    exact isValid_append front (text ++ rest)
  have hstop := isValid_append (front ++ text) rest
  have hbytes : (front ++ text ++ rest).toByteArray.extract front.utf8ByteSize
      (front ++ text).utf8ByteSize = text.toByteArray := by
    rw [String.append_assoc, String.utf8ByteSize_append, String.toByteArray_append,
      String.toByteArray_append]
    exact (ByteArray.extract_append_size_add (i := 0)).trans
      (ByteArray.extract_append_eq_left text.size_toByteArray.symm)
  rw [slice?, dif_pos ⟨hle, hstart, hstop⟩, Option.some.injEq, <- String.toByteArray_inj,
    String.toByteArray_extract, hbytes]

-- A slice inside a character is no text.
example : slice? "日" 0 1 = none := by
  decide +kernel

/-!
## Arity marks
-/

theorem free_arityMark_iff : Free (· == arityMark) text <-> '\x60' ∉ text.toList := by
  constructor
  · intro h hmem
    have hmark := h _ hmem
    cases hmark
  · intro h c hc
    exact beq_eq_false_iff_ne.mpr (ne_of_mem_of_not_mem hc h)

theorem head?_split_iff :
    (front ++ String.singleton '\x60' ++ rest).toList.head? = some '<' <->
      front.toList.head? = some '<' := by
  rw [toList_split, List.head?_append, List.head?_cons]
  cases front.toList.head? with
  | none =>
      decide
  | some c =>
      rfl

theorem kept_or_split (text : String) :
    ('\x60' ∉ text.toList ∨ text.toList.head? = some '<') ∨ exists front rest,
      text = front ++ String.singleton '\x60' ++ rest ∧ front.toList.head? ≠ some '<' ∧
        '\x60' ∉ rest.toList := by
  by_cases hhead : text.toList.head? = some '<'
  · exact Or.inl (Or.inr hhead)
  · rcases free_or_split (· == arityMark) text with hfree | ⟨front, c, rest, rfl, hc, hrest⟩
    · exact Or.inl (Or.inl (free_arityMark_iff.mp hfree))
    · rw [beq_iff_eq] at hc
      subst hc
      exact Or.inr ⟨front, rest, rfl, mt head?_split_iff.mpr hhead, free_arityMark_iff.mp hrest⟩

theorem isValid_arityMark {offset : Nat}
    (h : lastOffset? (· == arityMark) text.toList = some offset) :
    String.Pos.Raw.IsValid text ⟨offset⟩ := by
  rcases exists_split_of_lastOffset? h with ⟨front, c, rest, rfl, _, rfl⟩
  rw [String.append_assoc]
  exact isValid_append front _

theorem withoutArity?_of_kept (h : '\x60' ∉ text.toList ∨ text.toList.head? = some '<') :
    withoutArity? text = some text := by
  rw [withoutArity?]
  split
  next offset hoffset =>
      rcases h with hfree | hhead
      · rw [lastOffset?_of_forall (free_arityMark_iff.mpr hfree)] at hoffset
        cases hoffset
      · rw [if_pos hhead]
  next =>
      rfl

theorem withoutArity?_split (hfront : front.toList.head? ≠ some '<')
    (hrest : '\x60' ∉ rest.toList) :
    withoutArity? (front ++ String.singleton '\x60' ++ rest) = some front := by
  have hoffset : lastOffset? (· == arityMark) (front ++ String.singleton '\x60' ++ rest).toList =
      some front.utf8ByteSize :=
    lastOffset?_split rfl (free_arityMark_iff.mpr hrest)
  have hslice := slice?_append "" front (String.singleton '\x60' ++ rest)
  rw [String.empty_append, <- String.append_assoc] at hslice
  rw [withoutArity?, hoffset]
  simp only [if_neg (mt head?_split_iff.mp hfront)]
  exact hslice

theorem withoutArity?_eq_some (text : String) : withoutArity? text = some (withoutArity text) := by
  rcases kept_or_split text with hkept | ⟨front, rest, rfl, hfront, hrest⟩
  · rw [withoutArity, withoutArity?_of_kept hkept]
    rfl
  · rw [withoutArity, withoutArity?_split hfront hrest]
    rfl

theorem withoutArity_split (hfront : front.toList.head? ≠ some '<')
    (hrest : '\x60' ∉ rest.toList) :
    withoutArity (front ++ String.singleton '\x60' ++ rest) = front := by
  rw [withoutArity, withoutArity?_split hfront hrest]
  rfl

theorem withoutArity_eq_self_iff :
    withoutArity text = text <-> '\x60' ∉ text.toList ∨ text.toList.head? = some '<' := by
  constructor
  · intro h
    rcases kept_or_split text with hkept | ⟨front, rest, rfl, hfront, hrest⟩
    · exact hkept
    · rw [withoutArity_split hfront hrest] at h
      have hlist := congrArg String.toList h
      rw [toList_split, List.self_eq_append_right] at hlist
      cases hlist
  · intro h
    rw [withoutArity, withoutArity?_of_kept h]
    rfl

/-!
## Path separators
-/

theorem isPathSeparator_iff : isPathSeparator c = true <-> c = '/' ∨ c = '\\' := by
  rw [isPathSeparator, Bool.or_eq_true, beq_iff_eq, beq_iff_eq]

theorem free_isPathSeparator_iff :
    Free isPathSeparator text <-> '/' ∉ text.toList ∧ '\\' ∉ text.toList := by
  constructor
  · intro h
    constructor
    · intro hmem
      cases h _ hmem
    · intro hmem
      cases h _ hmem
  · intro h c hc
    rw [<- Bool.not_eq_true, isPathSeparator_iff]
    rintro (rfl | rfl)
    · exact h.left hc
    · exact h.right hc

theorem utf8ByteSize_separator (hc : isPathSeparator c = true) (front : String) :
    (front ++ String.singleton c).utf8ByteSize = front.utf8ByteSize + 1 := by
  rw [String.utf8ByteSize_append]
  rcases isPathSeparator_iff.mp hc with rfl | rfl <;> rfl

theorem isValid_separator {offset : Nat}
    (h : lastOffset? isPathSeparator text.toList = some offset) :
    String.Pos.Raw.IsValid text ⟨offset + 1⟩ := by
  rcases exists_split_of_lastOffset? h with ⟨front, c, rest, rfl, hc, rfl⟩
  rw [<- utf8ByteSize_separator hc front]
  exact isValid_append _ rest

theorem fileName?_of_free (h : Free isPathSeparator text) : fileName? text = some text := by
  rw [fileName?, lastOffset?_of_forall h]

theorem fileName?_split (hc : isPathSeparator c = true) (hrest : Free isPathSeparator rest) :
    fileName? (front ++ String.singleton c ++ rest) = some rest := by
  have hslice := slice?_append (front ++ String.singleton c) rest ""
  rw [String.append_empty, utf8ByteSize_separator hc] at hslice
  rw [fileName?, lastOffset?_split hc hrest]
  exact hslice

theorem fileName_of_free (h : Free isPathSeparator text) : fileName text = text := by
  rw [fileName, fileName?_of_free h]
  rfl

theorem fileName_split (hc : isPathSeparator c = true) (hrest : Free isPathSeparator rest) :
    fileName (front ++ String.singleton c ++ rest) = rest := by
  rw [fileName, fileName?_split hc hrest]
  rfl

theorem fileName?_eq_some (text : String) : fileName? text = some (fileName text) := by
  rcases free_or_split isPathSeparator text with hfree | ⟨front, c, rest, rfl, hc, hrest⟩
  · rw [fileName_of_free hfree, fileName?_of_free hfree]
  · rw [fileName_split hc hrest, fileName?_split hc hrest]

theorem free_fileName (text : String) : Free isPathSeparator (fileName text) := by
  rcases free_or_split isPathSeparator text with hfree | ⟨front, c, rest, rfl, hc, hrest⟩
  · rw [fileName_of_free hfree]
    exact hfree
  · rw [fileName_split hc hrest]
    exact hrest

theorem exists_eq_append_fileName (text : String) : exists front, text = front ++ fileName text := by
  rcases free_or_split isPathSeparator text with hfree | ⟨front, c, rest, rfl, hc, hrest⟩
  · refine ⟨"", ?_⟩
    rw [fileName_of_free hfree, String.empty_append]
  · refine ⟨front ++ String.singleton c, ?_⟩
    rw [fileName_split hc hrest]

theorem length_le_of_suffix {text back rest : List Char} (hback : c :: back <:+ text)
    (hrest : rest <:+ text) (hc : c ∉ rest) : rest.length ≤ back.length := by
  -- A suffix that is longer than what follows a delimiter has the delimiter in it.
  rcases List.suffix_or_suffix_of_suffix hrest hback with hshort | hlong
  · rcases List.suffix_cons_iff.mp hshort with rfl | hsuffix
    · exact absurd List.mem_cons_self hc
    · exact hsuffix.length_le
  · exact absurd (hlong.subset List.mem_cons_self) hc

theorem length_le_fileName (hrest : Free isPathSeparator rest) :
    rest.length ≤ (fileName (front ++ rest)).length := by
  rcases free_or_split isPathSeparator (front ++ rest) with hfree | ⟨other, c, back, heq, hc, hback⟩
  · rw [fileName_of_free hfree, String.length_append]
    exact Nat.le_add_left _ _
  · have hlist := congrArg String.toList heq
    rw [String.toList_append, toList_split] at hlist
    rw [heq, fileName_split hc hback, <- String.length_toList, <- String.length_toList]
    apply length_le_of_suffix ⟨other.toList, hlist.symm⟩ (List.suffix_append _ _)
    intro hmem
    rw [hrest c hmem] at hc
    cases hc

theorem fileName_append (front : String) (hc : isPathSeparator c = true) (text : String) :
    fileName (front ++ String.singleton c ++ text) = fileName text := by
  rcases free_or_split isPathSeparator text with hfree | ⟨front', d, rest, rfl, hd, hrest⟩
  · rw [fileName_split hc hfree, fileName_of_free hfree]
  · rw [fileName_split hd hrest, <- String.append_assoc, <- String.append_assoc,
      fileName_split hd hrest]

theorem texts_cut_at_last (text : String) : CutsAtLast text where
  arity_between _ := isValid_arityMark
  arity_succeeds := withoutArity?_eq_some text
  arity_front _ _ h hfront hrest := h ▸ withoutArity_split hfront hrest
  arity_kept := withoutArity_eq_self_iff
  file_between _ := isValid_separator
  file_succeeds := fileName?_eq_some text
  file_suffix := exists_eq_append_fileName text
  file_free := free_isPathSeparator_iff.mp (free_fileName text)
  file_longest _ _ h hslash hbackslash :=
    h ▸ length_le_fileName (free_isPathSeparator_iff.mpr ⟨hslash, hbackslash⟩)
  file_behind front _ hc := fileName_append front (isPathSeparator_iff.mpr hc) text
  file_idempotent := fileName_of_free (free_fileName text)

-- Characters of three bytes stand on both sides of the last mark.
example : withoutArity "日\x60日\x60日" = "日\x60日" := by
  decide +kernel

end Name
end MetadataLabels
