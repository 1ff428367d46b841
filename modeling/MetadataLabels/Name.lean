import MetadataLabels.Limit
import MetadataLabels.Text.Numeral

/-!
# Names made safe to display

Names in metadata are chosen by whoever produced it: they may hold control
characters and be arbitrarily long.  `Name.display` gives a bounded text
without control characters; `Name.withoutArity` and `Name.fileName` cut a name
at its last delimiter.
-/

namespace MetadataLabels
namespace Name

/-!
## Display

Characters are escaped one after the other until the limit is reached.  The last
escape may go beyond it, and what exceeds the limit is then cut off again, as that
many bytes.
-/

def missing : String := "<<NULL>>"

def escape (c : Char) : List Char :=
  if c < ' ' then
    '\\' :: 'u' :: Numeral.upper (Numeral.padded 4 c.toNat)
  else
    [c]

def escaped (text : List Char) : List Char :=
  text.flatMap escape

structure Written where
  text : String := ""
  length : Nat := 0

namespace Written

def escapeLength : Nat := 6

def add (w : Written) (c : Char) : Written :=
  if c < ' ' then
    ⟨w.text ++ String.ofList (escape c), w.length + escapeLength⟩
  else
    ⟨w.text.push c, w.length + 1⟩

def fill (limit : Nat) : Written -> List Char -> Written
  | w, [] => w
  | w, c :: rest => if limit ≤ w.length then w else fill limit (w.add c) rest

/-- The text without its last `n` bytes.  There is none if the text has fewer bytes or if the
cut falls inside a character. -/
def dropBytes? (text : String) (n : Nat) : Option String :=
  if n ≤ text.utf8ByteSize then
    String.fromUTF8? (text.toUTF8.extract 0 (text.utf8ByteSize - n))
  else
    none

def cut? (limit : Nat) (w : Written) : Option String :=
  if limit < w.length then dropBytes? w.text (w.length - limit) else some w.text

end Written

/-- At most `limit` characters of the escaped name, cut through an escape if the limit falls
there. -/
def shorten? (limit : Nat) (name : String) : Option String :=
  (Written.fill limit {} name.toList).cut? limit

def display : Option String -> String
  | none => missing
  | some name => (shorten? Limit.nameLength name).getD missing

/-!
## Cuts

Offsets count bytes.  A cut is partial, as it could fall inside a character; where
it fails, the name is kept.
-/

def lastOffset? (p : Char -> Bool) : List Char -> Option Nat
  | [] => none
  | c :: rest =>
      match lastOffset? p rest with
      | some offset => some (c.utf8Size + offset)
      | none => if p c then some 0 else none

/-- The text between two byte offsets.  There is none if they are out of order, or if one of them
lies beyond the text or inside a character. -/
def slice? (text : String) (start stop : Nat) : Option String :=
  if h : start ≤ stop ∧ String.Pos.Raw.IsValid text ⟨start⟩ ∧ String.Pos.Raw.IsValid text ⟨stop⟩ then
    some (String.extract ⟨⟨start⟩, h.2.1⟩ ⟨⟨stop⟩, h.2.2⟩)
  else
    none

def arityMark : Char := '\x60'

/-- Cuts a name at its last arity mark.  A name that starts with `<` was generated by a compiler
and is kept. -/
def withoutArity? (name : String) : Option String :=
  match lastOffset? (· == arityMark) name.toList with
  | some offset => if name.toList.head? = some '<' then some name else slice? name 0 offset
  | none => some name

def withoutArity (name : String) : String :=
  (withoutArity? name).getD name

def isPathSeparator (c : Char) : Bool :=
  c == '/' || c == '\\'

def fileName? (path : String) : Option String :=
  match lastOffset? isPathSeparator path.toList with
  | some offset => slice? path (offset + 1) path.utf8ByteSize
  | none => some path

def fileName (path : String) : String :=
  (fileName? path).getD path

end Name
end MetadataLabels
