import Fulla.Cache.ClientTransparency
import Fulla.Model.RedisFormat

/-!
# The commands of the client cache

Both look-ups of `RedisCachedClientRepository` put the client id into the text of their `GET`, and
the Redis client formats that text; the fill passes its key as an argument of the `SET`.  Either
text ends at a NUL, as C strings do.
-/

namespace Fulla.ClientKeys

open RedisFormat RedisCachedClientRepository ClientTransparency

/-- `execCommandAsync(.., cmd.c_str())`, without arguments. -/
def lookupCommand (clientId : String) : Except FormatError (List (List Char)) :=
  format (cStr ("GET fulla:cache:client:" ++ clientId).toList) []

/-- `execCommandAsync(.., "SET %s %s EX %d", key.c_str(), payload.c_str(), clientTtlSeconds_)`. -/
def fillCommand (clientId payload : String) (clientTtlSeconds : Int) :
    Except FormatError (List (List Char)) :=
  format "SET %s %s EX %d".toList
    [.str (cStr (clientKey clientId).toList), .str (cStr payload.toList), .int clientTtlSeconds]

/-- The look-up asks for one key, the one that every fill of the client stores under. -/
def OwnEntry (clientId : String) : Prop :=
  ∃ key, lookupCommand clientId = .ok ["GET".toList, key] ∧
    ∀ payload clientTtlSeconds, fillCommand clientId payload clientTtlSeconds =
      .ok ["SET".toList, key, cStr payload.toList, "EX".toList, (toString clientTtlSeconds).toList]

section Commands

variable {clientId : String}

theorem fillCommand_eq (clientId payload : String) (clientTtlSeconds : Int) :
    fillCommand clientId payload clientTtlSeconds =
      .ok ["SET".toList, cStr (clientKey clientId).toList, cStr payload.toList, "EX".toList,
        (toString clientTtlSeconds).toList] := by
  have text : "SET %s %s EX %d".toList = "SET".toList ++ ' ' :: '%' :: 's' :: ' ' :: '%' :: 's' ::
      ' ' :: ("EX".toList ++ [' ', '%', 'd']) := rfl
  rw [fillCommand, text, format, formatLoop_append (by decide) (by decide)
      (.inr (by decide)),
    formatLoop_space, formatLoop_str, formatLoop_space, formatLoop_str, formatLoop_space,
    formatLoop_append (by decide) (by decide)
      (.inr (by decide)), formatLoop_space,
    formatLoop_int]
  rfl

theorem toList_clientKey (clientId : String) :
    (clientKey clientId).toList = "fulla:cache:client:".toList ++ clientId.toList :=
  String.toList_append

theorem cStr_clientKey (clientId : String) :
    cStr (clientKey clientId).toList = "fulla:cache:client:".toList ++ cStr clientId.toList := by
  rw [toList_clientKey]
  exact cStr_append (by decide) _

theorem lookupCommand_iff :
    lookupCommand clientId = .ok ["GET".toList, cStr (clientKey clientId).toList] ↔
      Plain (cStr clientId.toList) := by
  have text : cStr ("GET fulla:cache:client:" ++ clientId).toList =
      "GET".toList ++ ' ' :: cStr (clientKey clientId).toList := by
    rw [String.toList_append, cStr_append (by decide), cStr_clientKey]
    rfl
  have some_ : cStr (clientKey clientId).toList ≠ [] := by
    rw [cStr_clientKey]
    exact List.cons_ne_nil _ _
  rw [lookupCommand, text]
  have key_plain : Plain (cStr (clientKey clientId).toList) ↔ Plain (cStr clientId.toList) := by
    rw [cStr_clientKey]
    exact plain_append_iff (by decide) (by decide)
  rw [← key_plain]
  exact format_word_iff (by decide) (by decide) (by decide) some_

end Commands

/-- A client id addresses its own entry exactly if, up to a NUL, it has no space and no `%` but
at its end. -/
theorem own_entry_iff (clientId : String) : OwnEntry clientId ↔ Plain (cStr clientId.toList) := by
  rw [← lookupCommand_iff]
  constructor
  · rintro ⟨key, found, stored⟩
    have keys := (stored "" 0).symm.trans (fillCommand_eq clientId "" 0)
    rw [found, (List.cons.inj (List.cons.inj (Except.ok.inj keys)).2).1]
  · exact fun found => ⟨_, found, fillCommand_eq clientId⟩

/-- One id reads the entry of another client, one is three words, and one takes an argument that
is not there. -/
theorem foreign_entry_read :
    (lookupCommand "100%%" = .ok ["GET".toList, (clientKey "100%").toList] ∧
        ¬ OwnEntry "100%%") ∧
      lookupCommand "a b" = .ok ["GET".toList, (clientKey "a").toList, "b".toList] ∧
        lookupCommand "%s" = .error .missingArgument := by
  refine ⟨⟨rfl, fun own => ?_⟩, rfl, rfl⟩
  exact absurd ((own_entry_iff _).mp own) (by decide)

/-! ## The tasks -/

/-- The client library of the cache, formatting a command without arguments. -/
def commandWords (text : String) : Option (List String) :=
  (format (cStr text.toList) []).toOption.map fun words => words.map String.ofList

theorem ok_of_toOption {ε α : Type} {x : Except ε α} {a : α} (some_ : x.toOption = some a) :
    x = .ok a := by
  cases x with
  | error e => cases some_
  | ok b => exact congrArg Except.ok (Option.some.inj some_)

/-- Of ids without a NUL these are the ones whose look-ups read the key that the fill stores. -/
theorem keyRead_iff (cfg : ClientCache) (formats : cfg.formatCommand = commandWords)
    {clientId : String} (clean : Char.ofNat 0 ∉ clientId.toList) :
    keyRead cfg clientId = some (clientKey clientId) ↔ Plain clientId.toList := by
  have whole : cStr (clientKey clientId).toList = (clientKey clientId).toList := by
    rw [cStr_clientKey, cStr_of_clean clean]
    exact (toList_clientKey clientId).symm
  rw [← cStr_of_clean clean, ← lookupCommand_iff, whole]
  have words : getWords cfg clientId =
      (lookupCommand clientId).toOption.map fun words => words.map String.ofList := by
    rw [getWords, formats]
    rfl
  constructor
  · intro read
    have get := words.symm.trans (words_of_keyRead read)
    obtain ⟨found, answered, eq⟩ := Option.map_eq_some_iff.mp get
    have letters : found = ["GET".toList, (clientKey clientId).toList] := by
      have lists := congrArg (List.map String.toList) eq
      simpa [Function.comp_def] using lists
    rw [← letters]
    exact ok_of_toOption answered
  · intro found
    refine keyRead_of_words (words.trans ?_) rfl
    rw [found]
    simp [Except.toOption]

end Fulla.ClientKeys
