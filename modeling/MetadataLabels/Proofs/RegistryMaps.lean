import Mathlib.Data.List.AList
import MetadataLabels.Proofs.RegistryLog

/-!
# The maps behind the registry

The two indexes of a registry are maps that other code provides.  What is asked of
them is named here, and no more than this: an entry is found under its key until
another one takes the key, and the size is the number of keys that have an entry.  A
registry over any two maps that keep these laws answers as `Registry` does.

When such a map drops an entry that lost its key is not among the laws.  What is
found does not depend on it.  What is alive does, and there a run of a workspace
lets the map drop the entry at any point.
-/

namespace MetadataLabels

/-!
## What is asked of a map
-/

structure KeyedMap (Key Entry : Type) [DecidableEq Key] where
  Carrier : Type
  empty : Carrier
  get? : Carrier -> Key -> Option Entry
  insert : Carrier -> Key -> Entry -> Carrier
  size : Carrier -> Nat
  get?_empty : forall k, get? empty k = none
  get?_insert : forall m k e k',
    get? (insert m k e) k' = if k = k' then some e else get? m k'
  size_empty : size empty = 0
  size_insert : forall m k e,
    size (insert m k e) = if (get? m k).isSome then size m else size m + 1

/-- Lists of entries in which no key stands twice keep the laws. -/
def KeyedMap.assoc (Key Entry : Type) [DecidableEq Key] : KeyedMap Key Entry where
  Carrier := AList fun _ : Key => Entry
  empty := ∅
  get? m k := m.lookup k
  insert m k e := AList.insert k e m
  size m := m.keys.length
  get?_empty := AList.lookup_empty
  get?_insert m k e k' := by
    by_cases h : k = k'
    · subst h
      rw [AList.lookup_insert, if_pos rfl]
    · rw [AList.lookup_insert_ne fun e => h e.symm, if_neg h]
  size_empty := rfl
  size_insert m k e := by
    rw [AList.keys_insert, List.length_cons, List.length_erase]
    by_cases h : k ∈ m.keys
    · have hlookup : (m.lookup k).isSome = true := AList.lookup_isSome.mpr h
      have hpos : 0 < m.keys.length := List.length_pos_of_mem h
      rw [if_pos h, if_pos hlookup]
      omega
    · have hlookup : ¬ (m.lookup k).isSome = true := fun hk => h (AList.lookup_isSome.mp hk)
      rw [if_neg h, if_neg hlookup]

/-!
## Registries over maps
-/

structure MapRegistry (types : KeyedMap Token Registration)
    (names : KeyedMap String (List Token)) where
  holders : types.Carrier := types.empty
  index : names.Carrier := names.empty

namespace MapRegistry

variable {types : KeyedMap Token Registration} {names : KeyedMap String (List Token)}

def get? (reg : MapRegistry types names) (token : Token) : Option Registration :=
  types.get? reg.holders token

def tokens (reg : MapRegistry types names) (name : String) : List Token :=
  (names.get? reg.index name).getD []

def insert (reg : MapRegistry types names) (new : Registration) : MapRegistry types names where
  holders := types.insert reg.holders new.token new
  index := names.insert reg.index new.fullName
    (Registry.addToken new.token (reg.tokens new.fullName))

def findByName? (reg : MapRegistry types names) (name : String) : Option Registration :=
  let candidates := (reg.tokens name).filterMap reg.get?
  match candidates.find? fun r => r.token.isTypeDef with
  | some definition => some definition
  | none => candidates.head?

def size (reg : MapRegistry types names) : Nat :=
  types.size reg.holders

def isEmpty (reg : MapRegistry types names) : Bool :=
  reg.size == 0

def ofLog (types : KeyedMap Token Registration) (names : KeyedMap String (List Token))
    (log : List Registration) : MapRegistry types names :=
  log.foldl insert {}

theorem ofLog_append_singleton (log : List Registration) (r : Registration) :
    ofLog types names (log ++ [r]) = (ofLog types names log).insert r := by
  simp [ofLog]

theorem get?_insert (reg : MapRegistry types names) (new : Registration) (token : Token) :
    (reg.insert new).get? token = if new.token = token then some new else reg.get? token :=
  types.get?_insert _ _ _ _

theorem tokens_insert (reg : MapRegistry types names) (new : Registration) (name : String) :
    (reg.insert new).tokens name =
      if name = new.fullName then Registry.addToken new.token (reg.tokens name)
      else reg.tokens name := by
  rw [tokens, insert, names.get?_insert]
  by_cases h : name = new.fullName
  · rw [if_pos h, if_pos h.symm, h]
    rfl
  · rw [if_neg h, if_neg fun e => h e.symm]
    rfl

theorem get?_ofLog (log : List Registration) (token : Token) :
    (ofLog types names log).get? token = (Registry.ofLog log).get? token := by
  induction log using List.reverseRecOn with
  | nil =>
      exact types.get?_empty token
  | append_singleton log r ih =>
      rw [ofLog_append_singleton, Registry.ofLog_append_singleton, get?_insert,
        Registry.get?_insert, ih]

theorem tokens_ofLog (log : List Registration) (name : String) :
    (ofLog types names log).tokens name = (Registry.ofLog log).tokens name := by
  induction log using List.reverseRecOn generalizing name with
  | nil =>
      exact congrArg (Option.getD · []) (names.get?_empty name)
  | append_singleton log r ih =>
      rw [ofLog_append_singleton, Registry.ofLog_append_singleton, tokens_insert,
        Registry.tokens_insert, ih]

theorem size_ofLog (log : List Registration) :
    (ofLog types names log).size = (Registry.ofLog log).size := by
  induction log using List.reverseRecOn with
  | nil =>
      exact types.size_empty
  | append_singleton log r ih =>
      have hget : (ofLog types names log).get? r.token = (Registry.ofLog log).get? r.token :=
        get?_ofLog log r.token
      rw [Registry.size_ofLog_append_singleton, <- ih, <- hget, ofLog_append_singleton]
      exact types.size_insert _ _ _

/-- Whatever maps stand behind it, a registry gives the answers of `Registry`. -/
theorem answers_ofLog (log : List Registration) :
    (forall token, (ofLog types names log).get? token = (Registry.ofLog log).get? token) ∧
    (forall name, (ofLog types names log).findByName? name =
      (Registry.ofLog log).findByName? name) ∧
    (ofLog types names log).size = (Registry.ofLog log).size ∧
    (ofLog types names log).isEmpty = (Registry.ofLog log).isEmpty := by
  have hget : (ofLog types names log).get? = (Registry.ofLog log).get? :=
    funext (get?_ofLog log)
  refine ⟨get?_ofLog log, ?_, size_ofLog log, ?_⟩
  · intro name
    rw [findByName?, tokens_ofLog, hget]
    rfl
  · rw [Bool.eq_iff_iff, Registry.isEmpty_iff_size, isEmpty, size_ofLog, beq_iff_eq]

end MapRegistry
end MetadataLabels
