import Mathlib.Data.List.Chain
import MetadataLabels.Literal

/-!
# Groups of digits

Where separators go is decided from left to right, by how many characters are left.
What comes out is grouping from the right: the text is cut into blocks of the group
size, of which only the leftmost may be shorter, and the blocks are joined by
separators.  A block that ends in a minus sign is joined without one, so a sign
never stands alone in front of a separator.
-/

namespace MetadataLabels
namespace Digits

/-- The text cut from the right into blocks of `size` characters. -/
structure CutsInto (size : Nat) (text : List Char) (blocks : List (List Char)) : Prop where
  flatten : blocks.flatten = text
  nonempty : forall b, b ∈ blocks -> b ≠ []
  length_le : forall b, b ∈ blocks -> b.length ≤ size
  length_tail : forall b, b ∈ blocks.tail -> b.length = size

/-- The characters of the blocks, and `none` for a separator between two blocks.  There is none
behind a block that ends in a minus sign. -/
def separate : List (List Char) -> List (Option Char)
  | [] => []
  | [block] => block.map some
  | block :: next :: rest =>
      block.map some ++ ((if block.getLast? = some '-' then [] else [none]) ++
        separate (next :: rest))

def written (marks : List (Option Char)) : List Char :=
  marks.map fun mark => mark.getD '_'

/-- One more character on the left: it joins the leftmost block if there is room. -/
def consBlock (size : Nat) (c : Char) : List (List Char) -> List (List Char)
  | [] => [[c]]
  | block :: rest => if block.length < size then (c :: block) :: rest else [c] :: block :: rest

def cut (size : Nat) (text : List Char) : List (List Char) :=
  text.foldr (consBlock size) []

/-- How a number is grouped: by blocks from the right, with a separator between two of them unless
the left one ends in a minus sign. -/
structure GroupsFromRight (lead number : String) (size : Nat) : Prop where
  plain : forall separators, separators = false ∨ size = 0 ->
    groupedNumber separators lead number size = lead ++ number
  cut : 0 < size -> exists blocks, CutsInto size number.toList blocks ∧
    forall other, CutsInto size number.toList other -> other = blocks
  joined : 0 < size -> forall blocks, CutsInto size number.toList blocks ->
    groupedNumber true lead number size = lead ++ String.ofList (written (separate blocks))
  short : number.length ≤ size -> groupedNumber true lead number size = lead ++ number
  between : forall blocks, CutsInto size number.toList blocks -> forall front back,
    separate blocks = front ++ none :: back ->
      exists c, front.getLast? = some (some c) ∧ c ≠ '-'
  deleted : '_' ∉ number.toList -> exists digits : List Char,
    groupedNumber true lead number size = lead ++ String.ofList digits ∧
      digits.filter (· ≠ '_') = number.toList
  count : 0 < size -> forall blocks, CutsInto size number.toList blocks ->
    forall sign digits, number.toList = sign ++ digits -> sign = [] ∨ sign = ['-'] ->
      digits ≠ [] -> '-' ∉ digits ->
        (separate blocks).count none = (digits.length - 1) / size

variable {size : Nat} {text : List Char} {blocks other : List (List Char)} {c : Char}

/-!
## Cutting

Blocks cut from the right are all full but the leftmost, which has from one to `size`
characters.  There is one way to cut a text like that.
-/

theorem CutsInto.tail {block : List Char} {rest : List (List Char)}
    (h : CutsInto size text (block :: rest)) : CutsInto size rest.flatten rest where
  flatten := rfl
  nonempty b hb := h.nonempty b (List.mem_cons_of_mem block hb)
  length_le b hb := h.length_le b (List.mem_cons_of_mem block hb)
  length_tail b hb := h.length_tail b (List.mem_of_mem_tail hb)

theorem cutsInto_consBlock (hsize : 0 < size) (h : CutsInto size text blocks) :
    CutsInto size (c :: text) (consBlock size c blocks) := by
  cases blocks with
  | nil =>
      have htext := h.flatten
      subst htext
      refine ⟨rfl, ?_, ?_, ?_⟩ <;> simp [consBlock]
      omega
  | cons block rest =>
      rw [consBlock]
      split
      next hroom =>
          have hrest := h.tail
          refine ⟨congrArg (c :: ·) h.flatten, ?_, ?_, h.length_tail⟩
          · exact List.forall_mem_cons.mpr ⟨List.cons_ne_nil c block, hrest.nonempty⟩
          · exact List.forall_mem_cons.mpr ⟨hroom, hrest.length_le⟩
      next hfull =>
          refine ⟨congrArg (c :: ·) h.flatten, ?_, ?_, ?_⟩
          · exact List.forall_mem_cons.mpr ⟨List.cons_ne_nil c [], h.nonempty⟩
          · exact List.forall_mem_cons.mpr ⟨hsize, h.length_le⟩
          · -- The block that was leftmost is now behind another one, so it has to be full.
            refine List.forall_mem_cons.mpr ⟨?_, h.length_tail⟩
            exact Nat.le_antisymm (h.length_le block List.mem_cons_self) (Nat.not_lt.mp hfull)

theorem cutsInto_cut (hsize : 0 < size) (text : List Char) :
    CutsInto size text (cut size text) := by
  induction text with
  | nil =>
      refine ⟨rfl, ?_, ?_, ?_⟩ <;> simp [cut]
  | cons c rest ih =>
      exact cutsInto_consBlock hsize ih

theorem length_flatten_of_forall (h : forall b, b ∈ blocks -> b.length = size) :
    blocks.flatten.length = size * blocks.length := by
  induction blocks with
  | nil =>
      rfl
  | cons block rest ih =>
      rw [List.flatten_cons, List.length_append, h block List.mem_cons_self,
        ih fun b hb => h b (List.mem_cons_of_mem block hb), List.length_cons, Nat.mul_succ,
        Nat.add_comm]

namespace CutsInto

theorem text_eq_nil_iff (h : CutsInto size text blocks) : text = [] <-> blocks = [] := by
  constructor
  · intro htext
    apply List.eq_nil_iff_forall_not_mem.mpr
    intro b hb
    exact h.nonempty b hb (List.flatten_eq_nil_iff.mp (h.flatten.trans htext) b hb)
  · intro hblocks
    rw [<- h.flatten, hblocks]
    rfl

variable {block : List Char} {rest : List (List Char)}

theorem length_text (h : CutsInto size text (block :: rest)) :
    text.length = block.length + size * rest.length := by
  have hrest : rest.flatten.length = size * rest.length :=
    length_flatten_of_forall h.length_tail
  rw [<- h.flatten, List.flatten_cons, List.length_append, hrest]

theorem lengths (h : CutsInto size text (block :: rest)) :
    block.length = (text.length - 1) % size + 1 ∧ rest.length = (text.length - 1) / size := by
  have hpos : 0 < block.length := List.length_pos_iff.mpr (h.nonempty block List.mem_cons_self)
  have hle : block.length ≤ size := h.length_le block List.mem_cons_self
  have hlt : block.length - 1 < size := by omega
  have hpred : text.length - 1 = block.length - 1 + size * rest.length := by
    rw [h.length_text]
    omega
  constructor
  · rw [hpred, Nat.add_mul_mod_self_left, Nat.mod_eq_of_lt hlt, Nat.sub_add_cancel hpos]
  · rw [hpred, Nat.add_mul_div_left _ _ (Nat.lt_of_lt_of_le hpos hle), Nat.div_eq_of_lt hlt,
      Nat.zero_add]

theorem eq (h : CutsInto size text blocks) (h' : CutsInto size text other) : other = blocks := by
  induction blocks generalizing text other with
  | nil =>
      exact h'.text_eq_nil_iff.mp (h.text_eq_nil_iff.mpr rfl)
  | cons block rest ih =>
      cases other with
      | nil =>
          have hnil := h.text_eq_nil_iff.mp (h'.text_eq_nil_iff.mpr rfl)
          cases hnil
      | cons block' rest' =>
          have hlength : block'.length = block.length := h'.lengths.left.trans h.lengths.left.symm
          have hflatten : block' ++ rest'.flatten = block ++ rest.flatten :=
            h'.flatten.trans h.flatten.symm
          rcases List.append_inj hflatten hlength with ⟨hblock, hrest⟩
          have htail := h'.tail
          rw [hrest] at htail
          rw [hblock, ih h.tail htail]

end CutsInto

/-!
## Joining

Inside a block no place is a multiple of the group size away from the end; in front of
a block every place is.  So separators come between blocks only.
-/

theorem length_append_mod (front : List Char) {rest : List Char} (hrest : size ∣ rest.length) :
    ((front ++ rest).length + 1) % size = (front.length + 1) % size := by
  rcases hrest with ⟨k, hk⟩
  rw [List.length_append, hk, Nat.add_right_comm, Nat.add_mul_mod_self_left]

theorem groupAfter_append {front rest : List Char} (hfront : front.length < size)
    (hrest : size ∣ rest.length) (previous : Char) :
    groupAfter size previous (front ++ rest) =
      front ++ groupAfter size (front.getLastD previous) rest := by
  induction front generalizing previous with
  | nil =>
      rfl
  | cons c front ih =>
      rw [List.length_cons] at hfront
      have hne : ¬ (((front ++ rest).length + 1) % size = 0 ∧ previous ≠ '-') := by
        rw [length_append_mod front hrest, Nat.mod_eq_of_lt hfront]
        exact fun h => Nat.succ_ne_zero front.length h.left
      rw [List.cons_append, groupAfter, if_neg hne, ih (Nat.lt_of_succ_lt hfront),
        List.getLastD_cons]
      rfl

theorem groupAfter_block {front rest : List Char} (hblock : (c :: front).length = size)
    (hrest : size ∣ rest.length) (previous : Char) :
    groupAfter size previous (c :: front ++ rest) =
      (if previous = '-' then [] else [separator]) ++
        (c :: front ++ groupAfter size (front.getLastD c) rest) := by
  have hmod : ((front ++ rest).length + 1) % size = 0 := by
    rw [length_append_mod front hrest, <- hblock, List.length_cons, Nat.mod_self]
  have hfront : front.length < size := by
    rw [<- hblock]
    exact Nat.lt_succ_self front.length
  rw [List.cons_append, groupAfter, groupAfter_append hfront hrest]
  by_cases hprevious : previous = '-'
  · rw [if_pos hprevious, if_neg fun h => h.right hprevious]
    rfl
  · rw [if_neg hprevious, if_pos ⟨hmod, hprevious⟩]
    rfl

theorem written_map_some (text : List Char) : written (text.map some) = text := by
  rw [written, List.map_map]
  exact List.map_id text

theorem written_append (marks marks' : List (Option Char)) :
    written (marks ++ marks') = written marks ++ written marks' :=
  List.map_append

theorem groupAfter_flatten {block : List Char} {last : Char} {rest : List (List Char)}
    (hsize : 0 < size) (hlast : block.getLast? = some last)
    (hrest : forall b, b ∈ rest -> b.length = size) :
    block ++ groupAfter size last rest.flatten = written (separate (block :: rest)) := by
  induction rest generalizing block last with
  | nil =>
      rw [separate, written_map_some, List.flatten_nil, groupAfter, List.append_nil]
  | cons next rest ih =>
      have hfull := hrest next List.mem_cons_self
      have hothers : forall b, b ∈ rest -> b.length = size := fun b hb =>
        hrest b (List.mem_cons_of_mem next hb)
      have hdvd : size ∣ rest.flatten.length := ⟨rest.length, length_flatten_of_forall hothers⟩
      cases next with
      | nil =>
          exact absurd hfull (Nat.ne_of_lt hsize)
      | cons c front =>
          have hfront : (c :: front).getLast? = some (front.getLastD c) := by
            rw [List.getLast?_cons, List.getLastD_eq_getLast?]
          rw [List.flatten_cons, groupAfter_block hfull hdvd, ih hfront hothers, separate,
            written_append, written_append, written_map_some]
          simp only [hlast, Option.some.injEq]
          split <;> rfl

theorem group_eq_written (hsize : 0 < size) (h : CutsInto size text blocks) :
    group size text = written (separate blocks) := by
  cases blocks with
  | nil =>
      rw [h.text_eq_nil_iff.mpr rfl]
      rfl
  | cons block rest =>
      cases block with
      | nil =>
          exact absurd rfl (h.nonempty [] List.mem_cons_self)
      | cons c front =>
          have hrest : forall b, b ∈ rest -> b.length = size := h.length_tail
          have hdvd : size ∣ rest.flatten.length := ⟨rest.length, length_flatten_of_forall hrest⟩
          have hfront : (c :: front).getLast? = some (front.getLastD c) := by
            rw [List.getLast?_cons, List.getLastD_eq_getLast?]
          rw [<- h.flatten, List.flatten_cons, List.cons_append, group,
            groupAfter_append (h.length_le _ List.mem_cons_self) hdvd,
            <- groupAfter_flatten hsize hfront hrest]
          rfl

/-!
## Where separators stand

Of two neighbours among the marks one may be a separator if the other is a character,
and a character on its left is no minus sign.
-/

def Fits (before mark : Option Char) : Prop :=
  mark = none -> exists c, before = some c ∧ c ≠ '-'

theorem isChain_fits_of_none {marks : List (Option Char)} (h : (none :: marks).IsChain Fits)
    (before : Option Char) : (before :: marks).IsChain Fits := by
  cases marks with
  | nil =>
      exact .singleton before
  | cons mark rest =>
      rw [List.isChain_cons_cons] at h
      refine .cons_cons ?_ h.right
      intro hmark
      rcases h.left hmark with ⟨c, hc, _⟩
      cases hc

theorem isChain_fits_append {front : List Char} {marks : List (Option Char)}
    (h : (some (front.getLastD c) :: marks).IsChain Fits) (before : Option Char) :
    (before :: ((c :: front).map some ++ marks)).IsChain Fits := by
  induction front generalizing c before with
  | nil =>
      exact .cons_cons (fun hmark => absurd hmark (Option.some_ne_none c)) h
  | cons d front ih =>
      rw [List.getLastD_cons] at h
      exact .cons_cons (fun hmark => absurd hmark (Option.some_ne_none c)) (ih h (some c))

theorem isChain_fits_separate : forall {blocks : List (List Char)},
    (forall b, b ∈ blocks -> b ≠ []) -> (none :: separate blocks).IsChain Fits
  | [], _ => .singleton none
  | [] :: _, h => absurd rfl (h [] List.mem_cons_self)
  | [c :: front], _ => by
      rw [separate, <- List.append_nil (List.map some (c :: front))]
      exact isChain_fits_append (.singleton _) none
  | (c :: front) :: next :: rest, h => by
      have hrest := isChain_fits_separate fun b hb => h b (List.mem_cons_of_mem (c :: front) hb)
      rw [separate]
      apply isChain_fits_append
      split
      next =>
          exact isChain_fits_of_none hrest _
      next hlast =>
          refine .cons_cons ?_ hrest
          intro _
          refine ⟨front.getLastD c, rfl, ?_⟩
          rw [List.getLast?_cons, <- List.getLastD_eq_getLast?, Option.some.injEq] at hlast
          exact hlast

theorem CutsInto.between (h : CutsInto size text blocks) {front back : List (Option Char)}
    (hmarks : separate blocks = front ++ none :: back) :
    exists c, front.getLast? = some (some c) ∧ c ≠ '-' := by
  have hchain := isChain_fits_separate h.nonempty
  rw [hmarks, <- List.cons_append, List.isChain_append] at hchain
  rcases hchain.right.right _ (List.getLast?_cons ..) none rfl rfl with ⟨c, hbefore, hc⟩
  refine ⟨c, ?_, hc⟩
  cases hlast : front.getLast? with
  | none =>
      rw [hlast] at hbefore
      cases hbefore
  | some mark =>
      rw [hlast] at hbefore
      exact congrArg some hbefore

/-!
## How many separators there are

One less than there are blocks.  A sign in front of a number may open a block of its
own, and then the separator behind that block is the one left out.
-/

theorem count_none_separate : forall {block : List Char} {rest : List (List Char)},
    (forall b, b ∈ block :: rest -> b.getLast? ≠ some '-') ->
      (separate (block :: rest)).count none = rest.length
  | block, [], _ => by
      rw [separate]
      simp [List.count_eq_zero]
  | block, next :: rest, h => by
      have hrest := count_none_separate fun b hb => h b (List.mem_cons_of_mem block hb)
      rw [separate, if_neg (h block List.mem_cons_self), List.count_append, List.count_append,
        hrest, List.length_cons]
      simp [List.count_eq_zero, Nat.add_comm]

theorem CutsInto.count_none (h : CutsInto size text blocks) (htext : text ≠ [])
    (hminus : '-' ∉ text) : (separate blocks).count none = (text.length - 1) / size := by
  cases blocks with
  | nil =>
      exact absurd (h.text_eq_nil_iff.mpr rfl) htext
  | cons block rest =>
      rw [count_none_separate, h.lengths.right]
      intro b hb hlast
      apply hminus
      rw [<- h.flatten]
      exact List.mem_flatten_of_mem hb (List.mem_of_getLast? hlast)

theorem separate_consBlock_minus {block : List Char} (hblock : block ≠ [])
    (rest : List (List Char)) :
    separate (consBlock size '-' (block :: rest)) = some '-' :: separate (block :: rest) := by
  rw [consBlock]
  split
  · cases rest with
    | nil =>
        rfl
    | cons next rest =>
        rcases List.exists_cons_of_ne_nil hblock with ⟨c, front, rfl⟩
        rw [separate, List.getLast?_cons_cons]
        rfl
  · rfl

theorem CutsInto.count_none_of_sign (hsize : 0 < size) {sign digits : List Char}
    (h : CutsInto size (sign ++ digits) blocks) (hsign : sign = [] ∨ sign = ['-'])
    (hdigits : digits ≠ []) (hminus : '-' ∉ digits) :
    (separate blocks).count none = (digits.length - 1) / size := by
  rcases hsign with rfl | rfl
  · exact h.count_none hdigits hminus
  · have hcut := cutsInto_cut hsize digits
    rw [<- hcut.count_none hdigits hminus, (cutsInto_consBlock hsize hcut).eq h]
    cases hblocks : cut size digits with
    | nil =>
        exact absurd (hcut.text_eq_nil_iff.mpr hblocks) hdigits
    | cons block rest =>
        have hblock : block ≠ [] := hcut.nonempty block (by rw [hblocks]; exact List.mem_cons_self)
        rw [separate_consBlock_minus hblock]
        rfl

/-!
## Deleting separators
-/

theorem filter_groupAfter (previous : Char) (text : List Char) :
    (groupAfter size previous text).filter (· ≠ '_') = text.filter (· ≠ '_') := by
  induction text generalizing previous with
  | nil =>
      rfl
  | cons c rest ih =>
      rw [groupAfter]
      split
      · rw [List.filter_cons_of_neg (by decide), List.filter_cons, ih, List.filter_cons]
      · rw [List.filter_cons, ih, List.filter_cons]

theorem filter_group (text : List Char) :
    (group size text).filter (· ≠ '_') = text.filter (· ≠ '_') := by
  cases text with
  | nil =>
      rfl
  | cons c rest =>
      rw [group, List.filter_cons, filter_groupAfter, List.filter_cons]

theorem filter_of_not_mem (h : '_' ∉ text) : text.filter (· ≠ '_') = text := by
  apply List.filter_eq_self.mpr
  intro c hc
  apply decide_eq_true
  intro heq
  exact h (heq ▸ hc)

theorem filter_group_of_not_mem (h : '_' ∉ text) : (group size text).filter (· ≠ '_') = text := by
  rw [filter_group, filter_of_not_mem h]

theorem group_of_length_le (h : text.length ≤ size) : group size text = text := by
  cases text with
  | nil =>
      rfl
  | cons c rest =>
      rw [group, groupAfter_of_length_lt h]

theorem group_zero (text : List Char) : group 0 text = text := by
  cases text with
  | nil =>
      rfl
  | cons c rest =>
      rw [group, groupAfter_zero]

/-!
## Grouped numbers
-/

theorem groupedNumber_of_group_eq {number : String}
    (h : group size number.toList = number.toList) (separators : Bool) (lead : String) :
    groupedNumber separators lead number size = lead ++ number := by
  unfold groupedNumber
  split
  · rw [h, String.ofList_toList]
  · rfl

theorem groupedNumber_by_blocks (lead number : String) (size : Nat) :
    GroupsFromRight lead number size where
  plain separators h := by
    rcases h with rfl | rfl
    · rfl
    · exact groupedNumber_of_group_eq (group_zero number.toList) separators lead
  cut hsize := ⟨Digits.cut size number.toList, cutsInto_cut hsize number.toList,
    fun _ => (cutsInto_cut hsize number.toList).eq⟩
  joined hsize _ h := by
    rw [<- group_eq_written hsize h]
    rfl
  short h := groupedNumber_of_group_eq (group_of_length_le h) true lead
  between _ h _ _ := h.between
  deleted h := ⟨group size number.toList, rfl, filter_group_of_not_mem h⟩
  count hsize _ h _ _ hnumber hsign hdigits hminus := by
    rw [hnumber] at h
    exact h.count_none_of_sign hsize hsign hdigits hminus

-- A sign that fills the leftmost block is joined without a separator.
example : groupedNumber true "" "-123456" 3 = "-123_456" := by
  decide +kernel

end Digits
end MetadataLabels
