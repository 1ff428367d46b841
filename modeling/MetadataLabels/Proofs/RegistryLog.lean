import Mathlib.Data.Finset.Card
import Mathlib.Data.Finset.Dedup
import MetadataLabels.Registry

/-!
# The registry and its log

A registry is the outcome of a log of registrations.  Its answers are stated
here by the log alone: the last registration of a token holds it, and a full
name stands for one of the tokens that were ever registered under it.
-/

namespace MetadataLabels
namespace Registry

/-!
## Logs

What a log says about a token is its last registration, and about a full name the
tokens under it, oldest first and with repetitions.
-/

def ofLog (log : List Registration) : Registry :=
  log.foldl insert {}

def latest? (log : List Registration) (token : Token) : Option Registration :=
  log.findRev? fun r => r.token = token

def tokensUnder (log : List Registration) (name : String) : List Token :=
  (log.filter fun r => r.fullName = name).map fun r => r.token

/-- The first definition among the tokens, and without a definition the first of them. -/
def preferred? (tokens : List Token) : Option Token :=
  match tokens.find? Token.isTypeDef with
  | some definition => some definition
  | none => tokens.head?

def leading? (log : List Registration) (name : String) : Option Token :=
  preferred? (tokensUnder log name)

@[simp]
theorem ofLog_nil : ofLog [] = {} :=
  rfl

@[simp]
theorem ofLog_append_singleton (log : List Registration) (r : Registration) :
    ofLog (log ++ [r]) = (ofLog log).insert r := by
  simp [ofLog]

theorem latest?_append_singleton (log : List Registration) (r : Registration)
    (token : Token) :
    latest? (log ++ [r]) token =
      if r.token = token then some r else latest? log token := by
  by_cases h : r.token = token
  · simp [latest?, h]
  · simp [latest?, h]

theorem tokensUnder_append_singleton (log : List Registration) (r : Registration)
    (name : String) :
    tokensUnder (log ++ [r]) name =
      if name = r.fullName then tokensUnder log name ++ [r.token]
      else tokensUnder log name := by
  by_cases h : name = r.fullName
  · simp [tokensUnder, h]
  · have h' : ¬ r.fullName = name := fun e => h e.symm
    simp [tokensUnder, h, h']

theorem mem_tokensUnder {log : List Registration} {name : String} {token : Token} :
    token ∈ tokensUnder log name <->
      exists r, r ∈ log ∧ r.fullName = name ∧ r.token = token := by
  simp [tokensUnder, and_assoc]

theorem mem_of_latest? {log : List Registration} {token : Token} {r : Registration}
    (h : latest? log token = some r) : r ∈ log ∧ r.token = token := by
  have hfind : log.reverse.find? (fun r => r.token = token) = some r := by
    simpa [latest?] using h
  constructor
  · simpa using List.mem_of_find?_eq_some hfind
  · simpa using List.find?_some hfind

theorem isSome_latest? {log : List Registration} {token : Token} :
    (latest? log token).isSome = true <-> token ∈ log.map fun r => r.token := by
  simp [latest?]

/-!
## Holders
-/

theorem get?_ofLog (log : List Registration) (token : Token) :
    (ofLog log).get? token = latest? log token := by
  induction log using List.reverseRecOn with
  | nil =>
      rfl
  | append_singleton log r ih =>
      rw [ofLog_append_singleton, get?_insert, latest?_append_singleton, ih]

theorem token_of_get? {reg : Registry} {token : Token} {r : Registration}
    (h : reg.get? token = some r) : r.token = token := by
  simpa using List.find?_some h

theorem isSome_get? {reg : Registry} {token : Token} :
    (reg.get? token).isSome = true <-> token ∈ reg.holders.map fun r => r.token := by
  simp [get?]

theorem nodup_tokens_insert {reg : Registry} (new : Registration)
    (h : (reg.holders.map fun r => r.token).Nodup) :
    ((reg.insert new).holders.map fun r => r.token).Nodup := by
  have hrest :
      ((reg.holders.filter fun old => old.token ≠ new.token).map fun r => r.token).Nodup :=
    h.sublist (List.filter_sublist.map _)
  have hnew :
      new.token ∉ (reg.holders.filter fun old => old.token ≠ new.token).map
        fun r => r.token := by
    simp
  simpa [insert] using List.nodup_cons.mpr ⟨hnew, hrest⟩

theorem nodup_tokens_ofLog (log : List Registration) :
    ((ofLog log).holders.map fun r => r.token).Nodup := by
  induction log using List.reverseRecOn with
  | nil =>
      exact List.nodup_nil
  | append_singleton log r ih =>
      rw [ofLog_append_singleton]
      exact nodup_tokens_insert r ih

theorem size_ofLog (log : List Registration) :
    (ofLog log).size = (log.map fun r => r.token).toFinset.card := by
  have hsame :
      ((ofLog log).holders.map fun r => r.token).toFinset =
        (log.map fun r => r.token).toFinset := by
    ext token
    rw [List.mem_toFinset, List.mem_toFinset, <- isSome_get?, <- isSome_latest?, get?_ofLog]
  rw [<- hsame, List.toFinset_card_of_nodup (nodup_tokens_ofLog log), List.length_map]
  rfl

theorem size_ofLog_append_singleton (log : List Registration) (r : Registration) :
    (ofLog (log ++ [r])).size =
      if ((ofLog log).get? r.token).isSome then (ofLog log).size else (ofLog log).size + 1 := by
  have hset : ((log ++ [r]).map fun s => s.token).toFinset =
      Insert.insert r.token (log.map fun s => s.token).toFinset := by
    ext token
    simp
  rw [size_ofLog, size_ofLog, hset, Finset.card_insert_eq_ite, get?_ofLog]
  simp only [List.mem_toFinset, isSome_latest?]

theorem isEmpty_iff_size (reg : Registry) : reg.isEmpty = true <-> reg.size = 0 := by
  simp [isEmpty, size]

/-!
## Names

The index keeps the tokens of a name without repetition.  Which token comes first
among those with a property is the same for the index and for the log, and that
is all that a lookup by name asks.
-/

theorem find?_addToken (p : Token -> Bool) (token : Token) (tokens : List Token) :
    (addToken token tokens).find? p = (tokens ++ [token]).find? p := by
  unfold addToken
  split
  next hmem =>
      -- The token is listed already, so a second one is never the first with the property.
      rw [List.find?_append]
      cases hfind : tokens.find? p with
      | some found =>
          rfl
      | none =>
          have hp : ¬ p token = true := List.find?_eq_none.mp hfind token hmem
          simp [hp]
  next =>
      rfl

theorem find?_tokens_ofLog (p : Token -> Bool) (log : List Registration) (name : String) :
    ((ofLog log).tokens name).find? p = (tokensUnder log name).find? p := by
  induction log using List.reverseRecOn with
  | nil =>
      rfl
  | append_singleton log r ih =>
      rw [ofLog_append_singleton, tokens_insert, tokensUnder_append_singleton]
      by_cases h : name = r.fullName
      · rw [if_pos h, if_pos h, find?_addToken, List.find?_append, List.find?_append, ih]
      · rw [if_neg h, if_neg h, ih]

theorem find?_true (tokens : List Token) :
    tokens.find? (fun _ => true) = tokens.head? := by
  cases tokens <;> rfl

theorem preferred?_tokens_ofLog (log : List Registration) (name : String) :
    preferred? ((ofLog log).tokens name) = leading? log name := by
  unfold leading? preferred?
  rw [find?_tokens_ofLog, <- find?_true, <- find?_true, find?_tokens_ofLog]

theorem mem_tokens_ofLog {log : List Registration} {name : String} {token : Token} :
    token ∈ (ofLog log).tokens name <-> token ∈ tokensUnder log name := by
  have hfind := find?_tokens_ofLog (fun t => t == token) log name
  have hsome := Bool.eq_iff_iff.mp (congrArg Option.isSome hfind)
  rw [List.find?_isSome, List.find?_isSome] at hsome
  simpa using hsome

theorem mem_of_preferred? {tokens : List Token} {token : Token}
    (h : preferred? tokens = some token) : token ∈ tokens := by
  unfold preferred? at h
  split at h
  next definition hfind =>
      rw [<- Option.some.inj h]
      exact List.mem_of_find?_eq_some hfind
  next =>
      exact List.mem_of_head? h

theorem preferred?_eq_none {tokens : List Token} :
    preferred? tokens = none <-> tokens = [] := by
  cases tokens with
  | nil =>
      simp [preferred?]
  | cons token rest =>
      cases hfind : (token :: rest).find? Token.isTypeDef <;> simp [preferred?, hfind]

theorem isTypeDef_of_preferred? {tokens : List Token} {token definition : Token}
    (h : preferred? tokens = some token) (hmem : definition ∈ tokens)
    (hdef : definition.isTypeDef = true) : token.isTypeDef = true := by
  unfold preferred? at h
  split at h
  next found hfind =>
      rw [<- Option.some.inj h]
      exact List.find?_some hfind
  next hfind =>
      exact absurd hdef (List.find?_eq_none.mp hfind definition hmem)

theorem isSome_get?_of_mem_tokens {log : List Registration} {name : String} {token : Token}
    (h : token ∈ (ofLog log).tokens name) : ((ofLog log).get? token).isSome = true := by
  -- No token is ever given up, so every token of the index has a holder.
  rcases mem_tokensUnder.mp (mem_tokens_ofLog.mp h) with ⟨r, hr, _, htoken⟩
  rw [get?_ofLog, isSome_latest?]
  exact List.mem_map.mpr ⟨r, hr, htoken⟩

/-- Choosing among the holders of tokens is choosing among the tokens. -/
theorem find?_filterMap_get? {reg : Registry} (p : Token -> Bool) {tokens : List Token}
    (h : forall token, token ∈ tokens -> (reg.get? token).isSome = true) :
    (tokens.filterMap reg.get?).find? (fun r => p r.token) =
      (tokens.find? p).bind reg.get? := by
  induction tokens with
  | nil =>
      rfl
  | cons token rest ih =>
      have hrest := ih fun t ht => h t (List.mem_cons_of_mem token ht)
      rcases Option.isSome_iff_exists.mp (h token List.mem_cons_self) with ⟨r, hr⟩
      rw [List.filterMap_cons_some hr, List.find?_cons, List.find?_cons, token_of_get? hr]
      cases p token with
      | true =>
          exact hr.symm
      | false =>
          exact hrest

theorem head?_filterMap_get? {reg : Registry} {tokens : List Token}
    (h : forall token, token ∈ tokens -> (reg.get? token).isSome = true) :
    (tokens.filterMap reg.get?).head? = tokens.head?.bind reg.get? := by
  cases tokens with
  | nil =>
      rfl
  | cons token rest =>
      rcases Option.isSome_iff_exists.mp (h token List.mem_cons_self) with ⟨r, hr⟩
      simp [hr]

theorem mem_holders_of_findByName? {reg : Registry} {name : String} {r : Registration}
    (h : reg.findByName? name = some r) : r ∈ reg.holders := by
  have hmem : r ∈ (reg.tokens name).filterMap reg.get? := by
    simp only [findByName?] at h
    split at h
    next definition hfind =>
        cases h
        exact List.mem_of_find?_eq_some hfind
    next =>
        exact List.mem_of_head? h
  rcases List.mem_filterMap.mp hmem with ⟨token, _, hget⟩
  exact List.mem_of_find?_eq_some hget

theorem findByName?_eq {reg : Registry} {name : String}
    (h : forall token, token ∈ reg.tokens name -> (reg.get? token).isSome = true) :
    reg.findByName? name = (preferred? (reg.tokens name)).bind reg.get? := by
  unfold findByName? preferred?
  simp only [find?_filterMap_get? Token.isTypeDef h, head?_filterMap_get? h]
  cases hfind : (reg.tokens name).find? Token.isTypeDef with
  | none =>
      rfl
  | some definition =>
      have hmem := List.mem_of_find?_eq_some hfind
      rcases Option.isSome_iff_exists.mp (h definition hmem) with ⟨r, hr⟩
      simp [hr]

theorem findByName?_ofLog (log : List Registration) (name : String) :
    (ofLog log).findByName? name = (leading? log name).bind (latest? log) := by
  rw [findByName?_eq fun token htoken => isSome_get?_of_mem_tokens htoken,
    preferred?_tokens_ofLog, funext (get?_ofLog log)]

theorem isSome_latest?_leading? {log : List Registration} {name : String} {token : Token}
    (h : leading? log name = some token) : (latest? log token).isSome = true := by
  rw [<- get?_ofLog]
  exact isSome_get?_of_mem_tokens (mem_tokens_ofLog.mpr (mem_of_preferred? h))

theorem findByName?_ofLog_eq_none (log : List Registration) (name : String) :
    (ofLog log).findByName? name = none <-> forall r, r ∈ log -> r.fullName ≠ name := by
  have hnone : leading? log name = none <-> forall r, r ∈ log -> r.fullName ≠ name := by
    unfold leading?
    rw [preferred?_eq_none]
    simp [tokensUnder]
  rw [findByName?_ofLog, <- hnone]
  cases hlead : leading? log name with
  | none =>
      simp
  | some token =>
      rcases Option.isSome_iff_exists.mp (isSome_latest?_leading? hlead) with ⟨r, hr⟩
      simp [hr]

/-!
## Registering again
-/

theorem get?_insert_of_get? {reg : Registry} {r : Registration}
    (h : reg.get? r.token = some r) (token : Token) :
    (reg.insert r).get? token = reg.get? token := by
  rw [get?_insert]
  by_cases htoken : r.token = token
  · rw [if_pos htoken, <- htoken, h]
  · rw [if_neg htoken]

theorem tokens_insert_of_mem {reg : Registry} {r : Registration}
    (h : r.token ∈ reg.tokens r.fullName) (name : String) :
    (reg.insert r).tokens name = reg.tokens name := by
  rw [tokens_insert]
  by_cases hname : name = r.fullName
  · rw [if_pos hname, hname, addToken, if_pos h]
  · rw [if_neg hname]

theorem mem_tokens_of_get? {log : List Registration} {token : Token} {r : Registration}
    (h : (ofLog log).get? token = some r) : token ∈ (ofLog log).tokens r.fullName := by
  rw [get?_ofLog] at h
  rcases mem_of_latest? h with ⟨hr, htoken⟩
  exact mem_tokens_ofLog.mpr (mem_tokensUnder.mpr ⟨r, hr, rfl, htoken⟩)

theorem findByName?_insert_of_get? {log : List Registration} {r : Registration}
    (h : (ofLog log).get? r.token = some r) (name : String) :
    ((ofLog log).insert r).findByName? name = (ofLog log).findByName? name := by
  have hget : ((ofLog log).insert r).get? = (ofLog log).get? :=
    funext (get?_insert_of_get? h)
  unfold findByName?
  rw [tokens_insert_of_mem (mem_tokens_of_get? h), hget]

theorem size_insert_of_get? {log : List Registration} {r : Registration}
    (h : (ofLog log).get? r.token = some r) :
    ((ofLog log).insert r).size = (ofLog log).size := by
  rw [<- ofLog_append_singleton, size_ofLog_append_singleton, h, Option.isSome_some, if_pos rfl]

/-!
## Refinement
-/

/-- Every answer of the registry is determined by the log of registrations, and registering
once more what is registered changes none of them. -/
theorem ofLog_refines_log (log : List Registration) :
    (forall token, (ofLog log).get? token = latest? log token) ∧
    (ofLog log).size = (log.map fun r => r.token).toFinset.card ∧
    ((ofLog log).isEmpty = true <-> (ofLog log).size = 0) ∧
    (forall name, (ofLog log).findByName? name = none <->
      forall r, r ∈ log -> r.fullName ≠ name) ∧
    (forall name, (ofLog log).findByName? name =
      (leading? log name).bind (latest? log)) ∧
    (forall r, (ofLog log).get? r.token = some r ->
      (forall token, ((ofLog log).insert r).get? token = (ofLog log).get? token) ∧
      ((ofLog log).insert r).size = (ofLog log).size ∧
      ((ofLog log).insert r).isEmpty = (ofLog log).isEmpty ∧
      forall name, ((ofLog log).insert r).findByName? name =
        (ofLog log).findByName? name) := by
  refine ⟨get?_ofLog log, size_ofLog log, isEmpty_iff_size _,
    findByName?_ofLog_eq_none log, findByName?_ofLog log, ?_⟩
  intro r hr
  have hsize := size_insert_of_get? hr
  have hempty : ((ofLog log).insert r).isEmpty = (ofLog log).isEmpty := by
    rw [Bool.eq_iff_iff, isEmpty_iff_size, isEmpty_iff_size, hsize]
  exact ⟨get?_insert_of_get? hr, hsize, hempty, findByName?_insert_of_get? hr⟩

end Registry
end MetadataLabels
