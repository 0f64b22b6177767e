import Fulla.Model.LikePatterns
import Fulla.Storage.Db

/-!
# Revoking tokens by prefix

`TokenManagementService::revokeToken` deletes the access tokens whose name is `LIKE` the given
text with a `%` behind.  It does not escape the text, as `UserAdminService` does for its search,
so the text is a prefix only where `LIKE` takes it as it is.
-/

namespace Fulla

open Conc

namespace TokenManagementService

/-- What becomes of a statement. -/
inductive DbClient where
  | unavailable
  | throws (what : String)
  | executes
deriving DecidableEq, Repr

/-- What a revocation answers. -/
inductive RevokeAnswer where
  | error (code detail : String)
  | success (message : String)
deriving DecidableEq, Repr

/-- The table of access tokens. -/
abbrev AccessTokens := Table OAuth2AccessToken.token

/-- `DELETE FROM oauth2_access_tokens WHERE token LIKE pattern`, and the number of rows. -/
def deleteLike (pattern : String) (tokens : AccessTokens) : Nat × AccessTokens :=
  (tokens.rows.countP fun t => like pattern t.token, tokens.keep fun t => !like pattern t.token)

/-- `TokenManagementService::revokeToken`. -/
def revokeToken (db : DbClient) (tokenPrefix : String) (tokens : AccessTokens) :
    RevokeAnswer × AccessTokens :=
  if tokenPrefix = "" then
    (.error "VALIDATION_MISSING_REQUIRED_FIELD" "tokenPrefix is required", tokens)
  else
    match db with
    | .unavailable => (.error "DB_CONNECTION_ERROR" "Database unavailable", tokens)
    | .throws what => (.error "DB_QUERY_ERROR" ("Failed to revoke token: " ++ what), tokens)
    | .executes =>
      match deleteLike (tokenPrefix ++ "%") tokens with
      | (0, tokens) => (.error "VALIDATION_RESOURCE_NOT_FOUND" "Token not found", tokens)
      | (_ + 1, tokens) => (.success "Token revoked", tokens)

/-- The token begins with the text. -/
def Begins (tokenPrefix : String) (t : OAuth2AccessToken) : Prop :=
  tokenPrefix.toList <+: t.token.toList

instance (tokenPrefix : String) (t : OAuth2AccessToken) : Decidable (Begins tokenPrefix t) :=
  inferInstanceAs (Decidable (tokenPrefix.toList <+: t.token.toList))

/-- The tokens that begin with the text are gone and the others are there, and the answer is
not-found exactly when there was none. -/
structure RemovesPrefix (tokenPrefix : String) (before : AccessTokens) (answer : RevokeAnswer)
    (after : AccessTokens) : Prop where
  rows : ∀ t, t ∈ after.rows ↔ t ∈ before.rows ∧ ¬ Begins tokenPrefix t
  notFound : answer = .error "VALIDATION_RESOURCE_NOT_FOUND" "Token not found" ↔
    ∀ t ∈ before.rows, ¬ Begins tokenPrefix t

section Revoking

variable {tokenPrefix : String}

theorem revokeToken_executes (tokens : AccessTokens) (given : tokenPrefix ≠ "") :
    (revokeToken .executes tokenPrefix tokens).2 =
        tokens.keep (fun t => !like (tokenPrefix ++ "%") t.token) ∧
      ((revokeToken .executes tokenPrefix tokens).1 =
          .error "VALIDATION_RESOURCE_NOT_FOUND" "Token not found" ↔
        ∀ t ∈ tokens.rows, like (tokenPrefix ++ "%") t.token = false) := by
  have none_ : (tokens.rows.countP fun t => like (tokenPrefix ++ "%") t.token) = 0 ↔
      ∀ t ∈ tokens.rows, like (tokenPrefix ++ "%") t.token = false := by
    simp only [List.countP_eq_zero, Bool.not_eq_true]
  rw [revokeToken, if_neg given, ← none_]
  dsimp only [deleteLike]
  cases tokens.rows.countP fun t => like (tokenPrefix ++ "%") t.token with
  | zero => exact ⟨rfl, iff_of_true rfl rfl⟩
  | succ n => exact ⟨rfl, iff_of_false (fun eq => by cases eq) (fun eq => by cases eq)⟩

/-- A token under any name. -/
def tokenNamed (name : String) : OAuth2AccessToken :=
  { token := name, clientId := "app", userId := "alice", scope := "openid", expiresAt := 10 }

/-- Whatever the table, a text removes the tokens that begin with it, if and only if it has
neither a wildcard nor the escape. -/
theorem revokeToken_removes_prefix_iff (tokenPrefix : String) (given : tokenPrefix ≠ "") :
    (∀ tokens, RemovesPrefix tokenPrefix tokens (revokeToken .executes tokenPrefix tokens).1
        (revokeToken .executes tokenPrefix tokens).2) ↔
      ∀ c ∈ tokenPrefix.toList, c ≠ '%' ∧ c ≠ '_' ∧ c ≠ '\\' := by
  have plain : (∀ c ∈ tokenPrefix.toList, c ≠ '%' ∧ c ≠ '_' ∧ c ≠ '\\') ↔
      ∀ c ∈ tokenPrefix.toList, isLikePlain c = true := by
    simp [isLikePlain, and_assoc]
  rw [plain, ← like_prefix_iff]
  constructor
  · intro removes name
    have rows := (removes (Table.empty.assign (tokenNamed name))).rows (tokenNamed name)
    have stored : tokenNamed name ∈ (Table.empty.assign (tokenNamed name) : AccessTokens).rows := by
      rw [Table.mem_rows_iff, Table.find?_assign, if_pos rfl]
    rw [(revokeToken_executes _ given).1, Table.mem_keep, and_congr_right_iff] at rows
    have apart := rows stored
    rw [Bool.not_eq_true', ← Bool.not_eq_true, not_iff_not] at apart
    exact apart
  · intro exact_ tokens
    obtain ⟨after, answer⟩ := revokeToken_executes tokens given
    refine ⟨fun t => ?_, answer.trans (forall₂_congr fun t _ => ?_)⟩
    · rw [after, Table.mem_keep, Bool.not_eq_true', ← Bool.not_eq_true, exact_ t.token]
      rfl
    · rw [← Bool.not_eq_true, exact_ t.token]
      rfl

theorem revokeToken_removes_prefix_ab :
    RemovesPrefix "ab" (Table.empty.assign (tokenNamed "abc"))
      (revokeToken .executes "ab" (Table.empty.assign (tokenNamed "abc"))).1
      (revokeToken .executes "ab" (Table.empty.assign (tokenNamed "abc"))).2 :=
  (revokeToken_removes_prefix_iff "ab" (by decide)).mpr (by simp) _

end Revoking

/-- An underscore removes every token but the empty one, and reports success. -/
theorem underscore_removes_all :
    (revokeToken .executes "_" (Table.empty.assign (tokenNamed "abc"))).1 =
        .success "Token revoked" ∧
      ¬ RemovesPrefix "_" (Table.empty.assign (tokenNamed "abc"))
        (revokeToken .executes "_" (Table.empty.assign (tokenNamed "abc"))).1
        (revokeToken .executes "_" (Table.empty.assign (tokenNamed "abc"))).2 := by
  refine ⟨by decide, fun removes => ?_⟩
  have stays := (removes.rows (tokenNamed "abc")).mpr ⟨by decide, by decide⟩
  exact absurd stays (by decide)

end TokenManagementService

end Fulla
