import MetadataLabels.Text.Numeral

/-!
# Quoted text

The form in which descriptions show a name or a string constant: between
double quotes, on one line.  Quotes, backslashes and control characters are
escaped; every other character stands for itself.
-/

namespace MetadataLabels
namespace Quoted

def isControl (c : Char) : Bool :=
  c.toNat < 0x20 || c.toNat == 0x7F

/-- The five short escapes come first; another control character is named by its code point. -/
def escape (c : Char) : List Char :=
  if c = '"' then ['\\', '"']
  else if c = '\\' then ['\\', '\\']
  else if c = '\n' then ['\\', 'n']
  else if c = '\t' then ['\\', 't']
  else if c = '\r' then ['\\', 'r']
  else if c = '\x00' then ['\\', '0']
  else if isControl c then
    ['\\', 'u', '\x7b'] ++ Numeral.hexDigits c.toNat ++ ['\x7d']
  else [c]

def encode (text : List Char) : List Char :=
  '"' :: (text.flatMap escape ++ ['"'])

end Quoted

def quoted (text : String) : String :=
  String.ofList (Quoted.encode text.toList)

end MetadataLabels
