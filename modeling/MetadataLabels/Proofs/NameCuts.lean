import Mathlib.Data.List.Forall2
import MetadataLabels.Name
import MetadataLabels.Proofs.DigitReading

/-!
# Names cut to a length

A name is escaped character by character until there are enough, and what is too much
is cut off as so many bytes.  Only the last escape can be too much.  An escape has one
byte for each character, so the cut falls between two characters, and what is left is
the front of the whole escaped name.
-/

namespace MetadataLabels
namespace Name

def ShownAs (c : Char) (text : List Char) : Prop :=
  0x20 ≤ c.toNat ∧ text = [c] ∨
    c.toNat < 0x20 ∧ exists code : List Char,
      code.length = 4 ∧ Numeral.number? 16 code = some c.toNat ∧ text = '\\' :: 'u' :: code

/-- The first 256 characters of the whole escaped name are shown.  Where more were written, there
are as many bytes as are cut off, and the cut falls between two characters. -/
structure CutsBetweenCharacters (name : String) : Prop where
  front : exists parts, List.Forall₂ ShownAs name.toList parts ∧
    display (some name) = String.ofList (parts.flatten.take 256)
  succeeds : shorten? 256 name = some (display (some name))
  enough : forall w, w = Written.fill 256 {} name.toList -> 256 < w.length ->
    w.length - 256 ≤ w.text.utf8ByteSize
  between : forall w, w = Written.fill 256 {} name.toList -> 256 < w.length ->
    String.Pos.Raw.IsValid w.text ⟨w.text.utf8ByteSize - (w.length - 256)⟩

/-!
## Escapes

A control character becomes six ASCII characters, of which the last four are its code;
any other character stands for itself.
-/

theorem lt_space_iff {c : Char} : c < ' ' <-> c.toNat < 0x20 :=
  Iff.rfl

theorem escape_of_visible {c : Char} (h : 0x20 ≤ c.toNat) : escape c = [c] := by
  rw [escape, if_neg]
  rw [lt_space_iff]
  exact Nat.not_lt.mpr h

theorem escape_of_lt_space {c : Char} (h : c < ' ') :
    escape c = '\\' :: 'u' :: Numeral.upper (Numeral.padded 4 c.toNat) :=
  if_pos h

theorem number?_code {c : Char} (h : c < ' ') :
    Numeral.number? 16 (Numeral.upper (Numeral.padded 4 c.toNat)) = some c.toNat := by
  rw [Numeral.number?_upper_padded, Nat.mod_eq_of_lt]
  rw [lt_space_iff] at h
  omega

theorem length_code (c : Char) :
    (Numeral.upper (Numeral.padded 4 c.toNat)).length = 4 := by
  rw [Numeral.upper, List.length_map, Numeral.length_padded]

theorem shownAs_escape (c : Char) : ShownAs c (escape c) := by
  by_cases h : c < ' '
  · exact Or.inr ⟨lt_space_iff.mp h, _, length_code c, number?_code h, escape_of_lt_space h⟩
  · have hvisible : 0x20 ≤ c.toNat := Nat.not_lt.mp fun hlt => h (lt_space_iff.mpr hlt)
    exact Or.inl ⟨hvisible, escape_of_visible hvisible⟩

theorem length_escape_of_lt_space {c : Char} (h : c < ' ') :
    (escape c).length = Written.escapeLength := by
  rw [escape_of_lt_space h, List.length_cons, List.length_cons, length_code]
  rfl

def escapeLetters : List Char :=
  '\\' :: 'u' :: Numeral.digits

theorem mem_escapeLetters {c d : Char} (h : c < ' ') (hd : d ∈ escape c) : d ∈ escapeLetters := by
  rw [escape_of_lt_space h] at hd
  rcases List.mem_cons.mp hd with rfl | hd
  · exact List.mem_cons_self
  rcases List.mem_cons.mp hd with rfl | hd
  · exact List.mem_cons_of_mem _ List.mem_cons_self
  have hdigit : d ∈ Numeral.digits := Numeral.mem_digits_of_number? (number?_code h) hd
  exact List.mem_cons_of_mem _ (List.mem_cons_of_mem _ hdigit)

theorem toNat_escapeLetters : forall c, c ∈ escapeLetters -> 0x20 ≤ c.toNat ∧ c.toNat ≤ 0x7F := by
  simp [escapeLetters, Numeral.digits]

theorem ascii_of_mem_escape {c d : Char} (h : c < ' ') (hd : d ∈ escape c) :
    0x20 ≤ d.toNat ∧ d.toNat ≤ 0x7F :=
  toNat_escapeLetters d (mem_escapeLetters h hd)

namespace Written

/-- The characters of `front` are written, and what exceeds the limit has one byte for each
character. -/
structure Holds (limit : Nat) (w : Written) (front : List Char) : Prop where
  text : w.text = String.ofList front
  length : w.length = front.length
  beyond : forall c, c ∈ front.drop limit -> c.utf8Size = 1

variable {limit : Nat} {w : Written} {front : List Char}

/-!
## Filling
-/

theorem text_add (w : Written) (c : Char) :
    (w.add c).text = w.text ++ String.ofList (escape c) := by
  rw [add]
  split
  next =>
      rfl
  next h =>
      rw [escape, if_neg h]
      rfl

theorem length_add (w : Written) (c : Char) :
    (w.add c).length = w.length + (escape c).length := by
  rw [add]
  split
  next h =>
      rw [length_escape_of_lt_space h]
  next h =>
      rw [escape, if_neg h]
      rfl

theorem Holds.add (h : w.Holds limit front) (hroom : w.length < limit) (c : Char) :
    (w.add c).Holds limit (front ++ escape c) where
  text := by
  -- A single character reaches the limit at most, so only an escape exceeds it.
    rw [text_add, h.text, String.ofList_append]
  length := by
    rw [length_add, h.length, List.length_append]
  beyond d hd := by
    have hfront : front.length < limit := h.length ▸ hroom
    rw [List.drop_append, List.drop_eq_nil_of_le (Nat.le_of_lt hfront), List.nil_append] at hd
    by_cases hc : c < ' '
    · exact Char.utf8Size_eq_one_iff.mpr (ascii_of_mem_escape hc (List.mem_of_mem_drop hd)).right
    · have hone : (escape c).length ≤ limit - front.length := by
        rw [escape, if_neg hc, List.length_singleton]
        exact Nat.sub_pos_of_lt hfront
      rw [List.drop_eq_nil_of_le hone] at hd
      cases hd

theorem Holds.fill (h : w.Holds limit front) (name : List Char) :
    exists chars, (fill limit w name).Holds limit chars ∧
      chars.take limit = (front ++ escaped name).take limit := by
  induction name generalizing w front with
  | nil =>
      refine ⟨front, h, ?_⟩
      rw [escaped, List.flatMap_nil, List.append_nil]
  | cons c rest ih =>
      rw [Written.fill]
      split
      next hfull =>
          refine ⟨front, h, ?_⟩
          rw [List.take_append_of_le_length (h.length ▸ hfull)]
      next hroom =>
          rcases ih (h.add (Nat.not_le.mp hroom) c) with ⟨chars, hchars, htake⟩
          refine ⟨chars, hchars, ?_⟩
          rw [htake, escaped, escaped, List.flatMap_cons, List.append_assoc]

theorem holds_empty (limit : Nat) : ({} : Written).Holds limit [] where
  text := rfl
  length := rfl
  beyond := by
    rw [List.drop_nil]
    exact List.forall_mem_nil _

theorem exists_holds_fill (limit : Nat) (name : List Char) :
    exists chars, (fill limit {} name).Holds limit chars ∧
      chars.take limit = (escaped name).take limit :=
  (holds_empty limit).fill name

/-!
## Cutting

Taking away as many bytes as the end of a text has leaves what stands before the end.
-/

theorem fromUTF8?_toUTF8 (text : String) : String.fromUTF8? text.toUTF8 = some text :=
  dif_pos text.isValidUTF8

theorem dropBytes?_append (text rest : String) :
    dropBytes? (text ++ rest) rest.utf8ByteSize = some text := by
  have hkept : (text ++ rest).toUTF8.extract 0 text.utf8ByteSize = text.toUTF8 := by
    rw [String.toUTF8_eq_toByteArray, String.toUTF8_eq_toByteArray, String.toByteArray_append]
    exact ByteArray.extract_append_eq_left text.size_toByteArray.symm
  rw [dropBytes?, String.utf8ByteSize_append, if_pos (Nat.le_add_left _ _), Nat.add_sub_cancel,
    hkept, fromUTF8?_toUTF8]

-- A cut inside a character leaves no text.
example : dropBytes? "日" 1 = none := by
  decide +kernel

theorem utf8ByteSize_of_forall {chars : List Char} (h : forall c, c ∈ chars -> c.utf8Size = 1) :
    (String.ofList chars).utf8ByteSize = chars.length := by
  induction chars with
  | nil =>
      rfl
  | cons c rest ih =>
      have hrest := ih fun d hd => h d (List.mem_cons_of_mem c hd)
      rw [String.ofList_cons, String.utf8ByteSize_append, hrest, String.utf8ByteSize_singleton,
        h c List.mem_cons_self, List.length_cons, Nat.add_comm]

theorem Holds.split (h : w.Holds limit front) :
    exists rest : String, w.text = String.ofList (front.take limit) ++ rest ∧
      rest.utf8ByteSize = w.length - limit := by
  refine ⟨String.ofList (front.drop limit), ?_, ?_⟩
  · rw [<- String.ofList_append, List.take_append_drop, h.text]
  · rw [utf8ByteSize_of_forall h.beyond, List.length_drop, h.length]

theorem Holds.cut? (h : w.Holds limit front) :
    w.cut? limit = some (String.ofList (front.take limit)) := by
  rw [Written.cut?]
  split
  next =>
      rcases h.split with ⟨rest, htext, hsize⟩
      rw [htext, <- hsize, dropBytes?_append]
  next hshort =>
      rw [h.text, List.take_of_length_le (h.length ▸ Nat.not_lt.mp hshort)]

theorem Holds.enough (h : w.Holds limit front) : w.length - limit ≤ w.text.utf8ByteSize := by
  rcases h.split with ⟨rest, htext, hsize⟩
  rw [htext, <- hsize, String.utf8ByteSize_append]
  exact Nat.le_add_left _ _

theorem Holds.isValid_cut (h : w.Holds limit front) :
    String.Pos.Raw.IsValid w.text ⟨w.text.utf8ByteSize - (w.length - limit)⟩ := by
  rcases h.split with ⟨rest, htext, hsize⟩
  rw [String.Pos.Raw.isValid_iff_exists_append]
  refine ⟨String.ofList (front.take limit), rest, htext, ?_⟩
  rw [String.Pos.Raw.ext_iff, htext, <- hsize, String.utf8ByteSize_append, Nat.add_sub_cancel]
  rfl

end Written

/-!
## Shortening
-/

theorem shorten?_eq (limit : Nat) (name : String) :
    shorten? limit name = some (String.ofList ((escaped name.toList).take limit)) := by
  rcases Written.exists_holds_fill limit name.toList with ⟨chars, hchars, htake⟩
  rw [shorten?, hchars.cut?, htake]

theorem display_some (name : String) :
    display (some name) = String.ofList ((escaped name.toList).take 256) := by
  rw [display, shorten?_eq]
  rfl

theorem names_cut_between_characters (name : String) : CutsBetweenCharacters name := by
  rcases Written.exists_holds_fill 256 name.toList with ⟨chars, hchars, _⟩
  constructor
  case front =>
    refine ⟨name.toList.map escape, ?_, display_some name⟩
    rw [List.forall₂_map_right_iff, List.forall₂_same]
    exact fun c _ => shownAs_escape c
  case succeeds =>
    rw [shorten?_eq, display_some]
  case enough =>
    rintro w rfl _
    exact hchars.enough
  case between =>
    rintro w rfl _
    exact hchars.isValid_cut

-- The limit falls inside the escape of the tab, behind a character of three bytes.
example : shorten? 4 "日\tx" = some "日\\u0" := by
  decide +kernel

end Name
end MetadataLabels
