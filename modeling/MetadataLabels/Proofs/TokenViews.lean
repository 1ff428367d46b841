import MetadataLabels.Proofs.DigitReading
import MetadataLabels.Token

/-!
# Views of a token

A token is seen as a number, as a table and a row, and as a text.  Each view determines the
token, and all of them put tokens into the same order: the table is the leading byte of the
number, and digits of a fixed width, leading zeros included, compare like the numbers that
they write.
-/

namespace MetadataLabels

namespace Numeral

/-!
## The order of padded digits
-/

theorem digitChar_lt_digitChar :
    forall n, n < 16 -> forall m, m < n -> Nat.digitChar m < Nat.digitChar n := by
  decide

/-- Of two texts, fronts of one length decide the order unless they are equal. -/
theorem append_lt_append {front front' : List Char} (hlength : front.length = front'.length)
    (h : front < front') (back back' : List Char) : front ++ back < front' ++ back' := by
  induction front generalizing front' with
  | nil =>
      rw [List.eq_nil_of_length_eq_zero hlength.symm] at h
      exact absurd h (List.lt_irrefl [])
  | cons c front ih =>
      cases front' with
      | nil =>
          cases hlength
      | cons c' front' =>
          rw [List.cons_append, List.cons_append, List.cons_lt_cons_iff]
          rcases List.cons_lt_cons_iff.mp h with hc | ⟨hc, hfront⟩
          · exact Or.inl hc
          · exact Or.inr ⟨hc, ih (Nat.succ.inj hlength) hfront⟩

theorem padded_lt_padded {width m n : Nat} (hn : n < 16 ^ width) (h : m < n) :
    padded width m < padded width n := by
  induction width generalizing m n with
  | zero =>
      rw [Nat.pow_zero] at hn
      omega
  | succ width ih =>
      rw [padded, padded]
      rcases Nat.lt_or_ge (m / 16) (n / 16) with hfront | hfront
      · have hlength : (padded width (m / 16)).length = (padded width (n / 16)).length := by
          rw [length_padded, length_padded]
        rw [Nat.pow_succ, Nat.mul_comm] at hn
        exact append_lt_append hlength (ih (Nat.div_lt_of_lt_mul hn) hfront) _ _
      · have hsame : m / 16 = n / 16 := by
          omega
        have hlast : m % 16 < n % 16 := by
          omega
        rw [hsame]
        apply List.append_left_lt
        rw [List.cons_lt_cons_iff]
        exact Or.inl (digitChar_lt_digitChar _ (Nat.mod_lt n (by decide)) _ hlast)

end Numeral

namespace Token

/-- The number, the two parts and the text of a token agree on what it is and on where it stands
among others. -/
structure ViewsAgree : Prop where
  table_bits : forall t : Token, t.table = (t.value >>> 24).toUInt8
  row_bits : forall t : Token, t.row = t.value &&& 0x00FFFFFF
  value_bits : forall (table : UInt8) (row : UInt32),
    (ofParts table row).value = (table.toUInt32 <<< 24) ||| (row &&& 0x00FFFFFF)
  rebuilt : forall t : Token, ofParts t.table t.row = t
  parts : forall (table : UInt8) (row : UInt32), (ofParts table row).table = table ∧
    (ofParts table row).row.toNat = row.toNat % 2 ^ 24
  ordered_by_parts : forall a b : Token,
    a.le b = true <-> a.table < b.table ∨ a.table = b.table ∧ a.row ≤ b.row
  ordered_by_text : forall a b : Token, a.le b = true <-> a.text ≤ b.text
  length_text : forall t : Token, t.text.length = 10
  injective_text : Function.Injective text
  sorted : forall tokens : List Token,
    (sort tokens).map text = (tokens.map text).mergeSort fun s s' => decide (s ≤ s')

variable {a b : Token}

/-!
## Parts
-/

theorem eq_iff_toNat : a = b <-> a.value.toNat = b.value.toNat := by
  constructor
  · intro h
    rw [h]
  · intro h
    cases a
    cases b
    exact congrArg Token.mk (UInt32.toNat_inj.mp h)

theorem toNat_rows : (0x1000000 : UInt32).toNat = 2 ^ 24 :=
  rfl

theorem toNat_table (t : Token) : t.table.toNat = t.value.toNat / 2 ^ 24 := by
  have hlt := t.value.toNat_lt
  rw [table, UInt32.toNat_toUInt8, UInt32.toNat_div, toNat_rows]
  omega

theorem toNat_row (t : Token) : t.row.toNat = t.value.toNat % 2 ^ 24 := by
  rw [row, UInt32.toNat_mod, toNat_rows]

theorem toNat_value_ofParts (table : UInt8) (row : UInt32) :
    (ofParts table row).value.toNat = table.toNat * 2 ^ 24 + row.toNat % 2 ^ 24 := by
  have hlt := table.toNat_lt
  rw [ofParts, UInt32.toNat_add, UInt32.toNat_mul, UInt32.toNat_mod, UInt8.toNat_toUInt32,
    toNat_rows]
  omega

theorem ofParts_table_row (t : Token) : ofParts t.table t.row = t := by
  rw [eq_iff_toNat, toNat_value_ofParts, toNat_table, toNat_row]
  omega

theorem table_ofParts (table : UInt8) (row : UInt32) : (ofParts table row).table = table := by
  rw [<- UInt8.toNat_inj, toNat_table, toNat_value_ofParts]
  omega

theorem toNat_row_ofParts (table : UInt8) (row : UInt32) :
    (ofParts table row).row.toNat = row.toNat % 2 ^ 24 := by
  rw [toNat_row, toNat_value_ofParts]
  omega

/-!
## Bits
-/

theorem table_eq_shiftRight (t : Token) : t.table = (t.value >>> 24).toUInt8 := by
  have hlt := t.value.toNat_lt
  have hshift : (24 : UInt32).toNat % 32 = 24 := rfl
  rw [<- UInt8.toNat_inj, toNat_table, UInt32.toNat_toUInt8, UInt32.toNat_shiftRight, hshift,
    Nat.shiftRight_eq_div_pow]
  omega

theorem toNat_and_mask (row : UInt32) : (row &&& 0x00FFFFFF).toNat = row.toNat % 2 ^ 24 := by
  have hmask : (0x00FFFFFF : UInt32).toNat = 2 ^ 24 - 1 := rfl
  rw [UInt32.toNat_and, hmask, Nat.and_two_pow_sub_one_eq_mod]

theorem row_eq_and (t : Token) : t.row = t.value &&& 0x00FFFFFF := by
  rw [<- UInt32.toNat_inj, toNat_row, toNat_and_mask]

theorem value_ofParts_eq_or (table : UInt8) (row : UInt32) :
    (ofParts table row).value = (table.toUInt32 <<< 24) ||| (row &&& 0x00FFFFFF) := by
  have hlt := table.toNat_lt
  have hrow : row.toNat % 2 ^ 24 < 2 ^ 24 := Nat.mod_lt _ (by decide)
  have hshift : (24 : UInt32).toNat % 32 = 24 := rfl
  have htable : table.toNat <<< 24 % 2 ^ 32 = table.toNat <<< 24 := by
    rw [Nat.shiftLeft_eq]
    omega
  rw [<- UInt32.toNat_inj, toNat_value_ofParts, UInt32.toNat_or, UInt32.toNat_shiftLeft, hshift,
    UInt8.toNat_toUInt32, htable, toNat_and_mask, <- Nat.shiftLeft_add_eq_or_of_lt hrow,
    Nat.shiftLeft_eq]

/-!
## Order
-/

theorem le_iff_toNat : a.le b = true <-> a.value.toNat ≤ b.value.toNat := by
  rw [le, decide_eq_true_iff, UInt32.le_iff_toNat_le]

theorem le_iff_parts :
    a.le b = true <-> a.table < b.table ∨ a.table = b.table ∧ a.row ≤ b.row := by
  rw [le_iff_toNat, UInt8.lt_iff_toNat_lt, <- UInt8.toNat_inj, UInt32.le_iff_toNat_le, toNat_table,
    toNat_table, toNat_row, toNat_row]
  omega

/-!
## Texts
-/

theorem toList_text (t : Token) :
    t.text.toList = ['0', 'x'] ++ Numeral.padded 8 t.value.toNat := by
  simp [text, Numeral.paddedHex]

theorem length_text (t : Token) : t.text.length = 10 := by
  rw [<- String.length_toList, toList_text, List.length_append, Numeral.length_padded]
  rfl

theorem text_lt_text (h : a.value.toNat < b.value.toNat) : a.text < b.text := by
  rw [String.lt_iff, toList_text, toList_text]
  exact List.append_left_lt (Numeral.padded_lt_padded b.value.toNat_lt h)

theorem text_lt_text_iff : a.text < b.text <-> a.value.toNat < b.value.toNat := by
  constructor
  · intro h
    rcases Nat.lt_trichotomy a.value.toNat b.value.toNat with hlt | heq | hgt
    · exact hlt
    · rw [eq_iff_toNat.mpr heq] at h
      exact absurd h (String.lt_irrefl b.text)
    · exact absurd (text_lt_text hgt) (String.lt_asymm h)
  · exact text_lt_text

theorem text_le_text_iff : a.text ≤ b.text <-> a.value.toNat ≤ b.value.toNat := by
  rw [<- String.not_lt, text_lt_text_iff, Nat.not_lt]

theorem text_injective : Function.Injective text := by
  intro a b h
  rw [eq_iff_toNat]
  rcases Nat.lt_trichotomy a.value.toNat b.value.toNat with hlt | heq | hgt
  · exact absurd h (String.ne_of_lt (text_lt_text hlt))
  · exact heq
  · exact absurd h.symm (String.ne_of_lt (text_lt_text hgt))

theorem map_text_sort (tokens : List Token) :
    (sort tokens).map text = (tokens.map text).mergeSort fun s s' => decide (s ≤ s') := by
  apply List.map_mergeSort
  intro a _ b _
  rw [Bool.eq_iff_iff, decide_eq_true_iff, le_iff_toNat, text_le_text_iff]

theorem token_views_agree : ViewsAgree where
  table_bits := table_eq_shiftRight
  row_bits := row_eq_and
  value_bits := value_ofParts_eq_or
  rebuilt := ofParts_table_row
  parts table row := ⟨table_ofParts table row, toNat_row_ofParts table row⟩
  ordered_by_parts _ _ := le_iff_parts
  ordered_by_text a b := by
    rw [le_iff_toNat, text_le_text_iff]
  length_text := length_text
  injective_text := text_injective
  sorted := map_text_sort

-- The high byte of a row does not show in the table.
example : (ofParts 0x02 0xFF123456).text = "0x02123456" := by
  decide +kernel

end Token
end MetadataLabels
