import MetadataLabels.Error
import MetadataLabels.Logged

/-!
# Localizable texts

The tooltip texts that a host may localize.  A table of localized texts falls
back to English for a missing entry and records that it did.
-/

namespace MetadataLabels

/-! ## Keys -/

namespace ResourceKey

def parse (id : String) : Except Error ResourceKey :=
  match all.find? fun key => key.id == id with
  | some key => .ok key
  | none => .error (.unknownResource id)

end ResourceKey

/-! ## Sources of texts -/

inductive Resources
  | english
  | localized (entries : List (ResourceKey × String))

namespace Resources

def lookup : Resources -> ResourceKey -> Logged String
  | .english, key => pure key.english
  | .localized entries, key =>
      match entries.lookup key with
      | some text => pure text
      | none => do
          Logged.note (.missingText key)
          pure key.english

end Resources

/-! ## Placeholders -/

namespace Template

/-- Replaces every placeholder from left to right; what was put in is not looked at again. -/
def substitute (value : List Char) : List Char -> List Char
  | '\x7b' :: '0' :: '\x7d' :: rest => value ++ substitute value rest
  | c :: rest => c :: substitute value rest
  | [] => []

end Template

def fillTemplate (template : String) (n : Nat) : String :=
  String.ofList (Template.substitute (Numeral.decimalDigits n) template.toList)

end MetadataLabels
