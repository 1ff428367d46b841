import MetadataLabels.Proofs.Classification
import MetadataLabels.Proofs.DigitReading
import MetadataLabels.Proofs.Placeholders

/-!
# Tooltips of overloads

A tooltip is there exactly if there are other overloads.  A single one has a text of its
own, which is shown as it is; for more of them the template shows their number at every
placeholder, and at no other place.  A number other than zero leaves no placeholder
behind, however the template is made.
-/

namespace MetadataLabels

/-- The text of a key.  English stands in for an entry that a table lacks. -/
def Resources.text : Resources -> ResourceKey -> String
  | .english, key => key.english
  | .localized entries, key => (entries.lookup key).getD key.english

namespace Resolver

structure TooltipTells (r : Resolver) (g : Graph) (resources : Resources) (t : TypeId)
    (name : String) : Prop where
  none_iff : (r.overloadTooltip g resources t name).value = none <->
    (r.otherOverloads g t name).value = 0
  one : (r.otherOverloads g t name).value = 1 ->
    (r.overloadTooltip g resources t name).value =
      some (" (+ " ++ resources.text .oneMethodOverload ++ ")")
  many : forall n, (r.otherOverloads g t name).value = n -> 2 ≤ n ->
    forall pieces, Template.SplitsInto (resources.text .nMethodOverloads).toList pieces ->
      (r.overloadTooltip g resources t name).value =
        some (" (+ " ++ String.ofList ((Numeral.decimalDigits n).intercalate pieces) ++ ")")
  splits : exists pieces, Template.SplitsInto (resources.text .nMethodOverloads).toList pieces
  missing : forall entries key, resources = .localized entries -> key ∉ entries.map Prod.fst ->
    resources.text key = key.english
  replaced : forall n, 1 ≤ n ->
    Template.Free ((OverloadSummary.many n).render resources).value.toList

end Resolver

/-!
## Texts
-/

namespace Resources

theorem value_lookup (resources : Resources) (key : ResourceKey) :
    (resources.lookup key).value = resources.text key := by
  cases resources with
  | english =>
      rfl
  | localized entries =>
      rw [lookup, text]
      cases entries.lookup key <;> rfl

theorem text_of_missing {entries : List (ResourceKey × String)} {key : ResourceKey}
    (h : key ∉ entries.map Prod.fst) : (localized entries).text key = key.english := by
  have hnone : entries.lookup key = none := by
    rw [List.lookup_eq_none_iff]
    intro entry hentry
    rw [bne_iff_ne]
    rintro rfl
    exact h (List.mem_map_of_mem hentry)
  rw [text, hnone, Option.getD_none]

end Resources

theorem Numeral.inert_decimalDigits {n : Nat} (hn : 0 < n) :
    Template.Inert (decimalDigits n) where
  nonempty := Nat.toDigits_ne_nil
  left := not_mem_of_number? (number?_decimalDigits n) (by decide)
  right := not_mem_of_number? (number?_decimalDigits n) (by decide)
  leading := head?_decimalDigits_ne_zero hn

theorem fillTemplate_of_splitsInto {template : String} {pieces : List (List Char)}
    (h : Template.SplitsInto template.toList pieces) (n : Nat) :
    fillTemplate template n = String.ofList ((Numeral.decimalDigits n).intercalate pieces) := by
  rw [fillTemplate, h.substitute]

theorem free_fillTemplate {n : Nat} (hn : 0 < n) (template : String) :
    Template.Free (fillTemplate template n).toList := by
  rw [fillTemplate, String.toList_ofList]
  exact (Numeral.inert_decimalDigits hn).free_substitute template.toList

namespace OverloadSummary

theorem value_render_one (resources : Resources) :
    (one.render resources).value = resources.text .oneMethodOverload :=
  resources.value_lookup .oneMethodOverload

theorem value_render_many (resources : Resources) (n : Nat) :
    ((many n).render resources).value = fillTemplate (resources.text .nMethodOverloads) n := by
  rw [<- Resources.value_lookup]
  rfl

theorem ofCount_of_two_le {n : Nat} (h : 2 ≤ n) : ofCount n = some (many n) := by
  match n, h with
  | _ + 2, _ => rfl

theorem ofCount_eq_none_iff {n : Nat} : ofCount n = none <-> n = 0 := by
  match n with
  | 0 => simp [ofCount]
  | 1 => simp [ofCount]
  | n + 2 => simp [ofCount_of_two_le (Nat.le_add_left 2 n)]

end OverloadSummary

namespace Resolver

variable {r : Resolver} {g : Graph} {resources : Resources} {t : TypeId} {name : String}

/-!
## Tooltips
-/

theorem value_overloadTooltip (r : Resolver) (g : Graph) (resources : Resources) (t : TypeId)
    (name : String) :
    (r.overloadTooltip g resources t name).value =
      (OverloadSummary.ofCount (r.otherOverloads g t name).value).map fun summary =>
        " (+ " ++ (summary.render resources).value ++ ")" := by
  have hsummary : (r.overloadSummary g t name).value =
      OverloadSummary.ofCount (r.otherOverloads g t name).value := rfl
  rw [overloadTooltip, Logged.value_bind, hsummary]
  cases OverloadSummary.ofCount (r.otherOverloads g t name).value <;> rfl

/-- For both resolvers and every table of texts, the tooltip tells the number of other
overloads. -/
theorem overloadTooltip_tells_number (r : Resolver) (g : Graph) (resources : Resources)
    (t : TypeId) (name : String) : r.TooltipTells g resources t name where
  none_iff := by
    rw [value_overloadTooltip, Option.map_eq_none_iff, OverloadSummary.ofCount_eq_none_iff]
  one hone := by
    rw [value_overloadTooltip, hone, <- OverloadSummary.value_render_one]
    rfl
  many n hn hmany pieces hpieces := by
    rw [value_overloadTooltip, hn, OverloadSummary.ofCount_of_two_le hmany, Option.map_some,
      OverloadSummary.value_render_many, fillTemplate_of_splitsInto hpieces]
  splits := Template.exists_splitsInto _
  missing entries key hentries hkey := by
    rw [hentries, Resources.text_of_missing hkey]
  replaced n hn := by
    rw [OverloadSummary.value_render_many]
    exact free_fillTemplate hn _

end Resolver

-- Braces around a placeholder do not make another one.
example : fillTemplate "\x7b\x7b0\x7d0\x7d" 10 = "\x7b100\x7d" := by
  decide +kernel

-- Only zero could.
example : fillTemplate "\x7b\x7b0\x7d\x7d" 0 = "\x7b0\x7d" := by
  decide +kernel

end MetadataLabels
