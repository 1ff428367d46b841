import MetadataLabels.Graph.Kind
import MetadataLabels.Token

/-!
# The type registry

The types of a session, found by token and by full name.  A token has one
holder, the type registered last under it.  The index of names keeps every
token that was ever registered under a name, in the order of first
registration.

The two lists stand for maps that other code provides.  What is asked of such maps
is named as the laws of `KeyedMap`, and any two maps with these laws answer like the
lists.  When a map drops a holder that was replaced is no part of the registry; it is
left open in the runs of a workspace.
-/

namespace MetadataLabels

structure Registration where
  type : TypeId
  token : Token
  fullName : String
deriving DecidableEq

structure Registry where
  holders : List Registration := []
  names : List (String × List Token) := []

namespace Registry

/-! ## Registering -/

def addToken (token : Token) (tokens : List Token) : List Token :=
  if token ∈ tokens then tokens else tokens ++ [token]

def addName (name : String) (token : Token) :
    List (String × List Token) -> List (String × List Token)
  | [] => [(name, [token])]
  | (other, tokens) :: rest =>
      if other = name then
        (other, addToken token tokens) :: rest
      else
        (other, tokens) :: addName name token rest

def holdersOf (reg : Registry) (token : Token) : List Registration :=
  reg.holders.filter fun old => old.token = token

/-- The new holder of a token replaces the old one; the name of the old one stays indexed. -/
def insert (reg : Registry) (new : Registration) : Registry where
  holders := new :: reg.holders.filter fun old => old.token ≠ new.token
  names := addName new.fullName new.token reg.names

/-! ## Looking up -/

def get? (reg : Registry) (token : Token) : Option Registration :=
  reg.holders.find? fun r => r.token = token

def tokens (reg : Registry) (name : String) : List Token :=
  (reg.names.lookup name).getD []

/-- The holders of the tokens under the name: the first definition among them, and without a
definition the first of them. -/
def findByName? (reg : Registry) (name : String) : Option Registration :=
  let candidates := (reg.tokens name).filterMap reg.get?
  match candidates.find? fun r => r.token.isTypeDef with
  | some definition => some definition
  | none => candidates.head?

def findDefinition? (reg : Registry) (name : String) : Option TypeId :=
  match reg.findByName? name with
  | some r => if r.token.isTypeDef then some r.type else none
  | none => none

def size (reg : Registry) : Nat :=
  reg.holders.length

def isEmpty (reg : Registry) : Bool :=
  reg.holders.isEmpty

/-! ## Entries after a registration -/

theorem lookup_addName (name other : String) (token : Token)
    (names : List (String × List Token)) :
    (addName name token names).lookup other =
      if other = name then some (addToken token ((names.lookup name).getD []))
      else names.lookup other := by
  induction names with
  | nil =>
      by_cases h : other = name
      · simp [addName, addToken, h]
      · have hb : (other == name) = false := by simpa using h
        simp [addName, List.lookup_cons, h, hb]
  | cons entry rest ih =>
      rcases entry with ⟨key, tokens⟩
      by_cases hk : key = name
      · subst hk
        by_cases h : other = key
        · simp [addName, h]
        · have hb : (other == key) = false := by simpa using h
          simp [addName, List.lookup_cons, h, hb]
      · by_cases h : other = name
        · subst h
          have hb : (other == key) = false := by simpa using fun e => hk e.symm
          simp [addName, List.lookup_cons, hk, hb, ih]
        · simp [addName, List.lookup_cons, hk, h, ih]

theorem tokens_insert (reg : Registry) (new : Registration) (name : String) :
    (reg.insert new).tokens name =
      if name = new.fullName then addToken new.token (reg.tokens name) else reg.tokens name := by
  simp only [tokens, insert, lookup_addName]
  by_cases h : name = new.fullName
  · subst h
    simp
  · simp [h]

theorem get?_insert (reg : Registry) (new : Registration) (token : Token) :
    (reg.insert new).get? token = if new.token = token then some new else reg.get? token := by
  by_cases h : new.token = token
  · simp [get?, insert, h]
  · simp only [get?, insert, List.find?_cons, h, decide_false, if_false, List.find?_filter]
    congr 1
    funext r
    by_cases hr : r.token = token
    · have hne : ¬ token = new.token := fun e => h e.symm
      simp [hr, hne]
    · simp [hr]

end Registry
end MetadataLabels
