import Fulla.Model.Text
import Mathlib.Data.List.Induction
import Mathlib.Data.Set.Insert
import Mathlib.Logic.Function.Basic
import Std.Data.String.ToInt

/-!
# Consents in memory

`MemoryConsentRepository.cc` keeps consents in a map from texts: a user, a client and a scope
are joined by colons.  A user is a number and `CLIENT_ID_PATTERN` has no colon, so whatever the
scope is the text stands for one triple only, and the map is a set of triples.
-/

namespace Fulla

/-- What a consent is given for. -/
structure ConsentTriple where
  internalUserId : Int32
  clientId : String
  scope : String
deriving DecidableEq, Repr

/-- `^[a-zA-Z0-9._-]{1,128}$`. -/
def matchesClientId (clientId : String) : Bool :=
  1 ≤ clientId.length && clientId.length ≤ 128 &&
    clientId.toList.all fun c => c.isAlphanum || c = '.' || c = '_' || c = '-'

namespace MemoryConsentRepository

/-- `userConsents_`: the second of the consent. -/
abbrev Consents := String → Option Int

/-- The text under which a consent is stored. -/
def key (t : ConsentTriple) : String :=
  toString t.internalUserId.toInt ++ ":" ++ t.clientId ++ ":" ++ t.scope

/-- The map has the key. -/
def hasUserConsent (userConsents : Consents) (t : ConsentTriple) : Bool :=
  (userConsents (key t)).isSome

/-- The key is set. -/
def saveUserConsent (userConsents : Consents) (t : ConsentTriple) (now : Int) : Consents :=
  Function.update userConsents (key t) (some now)

/-- The key is erased. -/
def revokeUserConsent (userConsents : Consents) (t : ConsentTriple) : Consents :=
  Function.update userConsents (key t) none

/-! ## Keys -/

section Keys

theorem colon_notMem_clientId {clientId : String} (matches_ : matchesClientId clientId = true) :
    ':' ∉ clientId.toList := by
  intro mem
  simp only [matchesClientId, Bool.and_eq_true, List.all_eq_true] at matches_
  exact absurd (matches_.2 ':' mem) (by decide)

/-- Two texts cut at their first colon. -/
theorem cut_inj {a a' b b' : List Char} (clean : ':' ∉ a) (clean' : ':' ∉ a')
    (same : a ++ ':' :: b = a' ++ ':' :: b') : a = a' ∧ b = b' := by
  induction a generalizing a' with
  | nil =>
      cases a' with
      | nil => exact ⟨rfl, (List.cons.inj same).2⟩
      | cons c a' =>
          cases (List.cons.inj same).1
          exact absurd List.mem_cons_self clean'
  | cons c a ih =>
      cases a' with
      | nil =>
          cases (List.cons.inj same).1
          exact absurd List.mem_cons_self clean
      | cons c' a' =>
          obtain ⟨rfl, rest⟩ := List.cons.inj same
          obtain ⟨rfl, eq⟩ := ih (fun mem => clean (List.mem_cons_of_mem _ mem))
            (fun mem => clean' (List.mem_cons_of_mem _ mem)) rest
          exact ⟨rfl, eq⟩

theorem key_inj {t t' : ConsentTriple} (matches_ : matchesClientId t.clientId = true)
    (matches' : matchesClientId t'.clientId = true) (same : key t = key t') : t = t' := by
  have parts (t : ConsentTriple) : (key t).toList =
      (Int.repr t.internalUserId.toInt).toList ++ ':' :: (t.clientId.toList ++ ':' ::
        t.scope.toList) := by
    simp [key, toString]
  have lists := congrArg String.toList same
  rw [parts, parts] at lists
  obtain ⟨user, rest⟩ := cut_inj (notMem_toString (by decide) (by decide) _)
    (notMem_toString (by decide) (by decide) _) lists
  obtain ⟨client, scope⟩ := cut_inj (colon_notMem_clientId matches_)
    (colon_notMem_clientId matches') rest
  have users : t.internalUserId = t'.internalUserId :=
    Int32.toInt_inj.mp (Int.repr_injective (String.toList_inj.mp user))
  obtain ⟨u, c, s⟩ := t
  obtain ⟨u', c', s'⟩ := t'
  cases users
  cases String.toList_inj.mp client
  cases String.toList_inj.mp scope
  rfl

end Keys

/-! ## Histories -/

/-- A call, and when a consent is saved its time. -/
inductive ConsentCall where
  | save (t : ConsentTriple) (now : Int)
  | revoke (t : ConsentTriple)
  | has (t : ConsentTriple)

namespace ConsentCall

/-- What a call is about. -/
def triple : ConsentCall → ConsentTriple
  | save t _ => t
  | revoke t => t
  | has t => t

/-- What a call does to the map. -/
def exec (userConsents : Consents) : ConsentCall → Consents
  | save t now => saveUserConsent userConsents t now
  | revoke t => revokeUserConsent userConsents t
  | has _ => userConsents

/-- What the call makes of a set of triples. -/
def act (granted : Set ConsentTriple) : ConsentCall → Set ConsentTriple
  | save t _ => insert t granted
  | revoke t => granted \ {t}
  | has _ => granted

end ConsentCall

/-- A sequence of calls on an empty map. -/
def run (calls : List ConsentCall) : Consents :=
  calls.foldl ConsentCall.exec fun _ => none

/-- What the calls leave granted. -/
def granted (calls : List ConsentCall) : Set ConsentTriple :=
  calls.foldl ConsentCall.act ∅

section Histories

variable {userConsents : Consents} {call : ConsentCall} {calls : List ConsentCall}
  {t : ConsentTriple}

/-- A call of another triple is another key. -/
theorem hasUserConsent_exec_of_ne (matches_ : matchesClientId t.clientId = true)
    (called : matchesClientId call.triple.clientId = true) (other : call.triple ≠ t) :
    hasUserConsent (call.exec userConsents) t = hasUserConsent userConsents t := by
  have apart : key t ≠ key call.triple := fun same => other (key_inj matches_ called same).symm
  cases call with
  | save t' now => exact congrArg Option.isSome (Function.update_of_ne apart _ _)
  | revoke t' => exact congrArg Option.isSome (Function.update_of_ne apart _ _)
  | has t' => rfl

theorem hasUserConsent_exec (matches_ : matchesClientId t.clientId = true)
    (called : matchesClientId call.triple.clientId = true) {set : Set ConsentTriple}
    (holds : hasUserConsent userConsents t = true ↔ t ∈ set) :
    hasUserConsent (call.exec userConsents) t = true ↔ t ∈ call.act set := by
  by_cases same : call.triple = t
  · cases call with
    | save t' now =>
        cases same
        refine iff_of_true ?_ (Set.mem_insert _ _)
        exact congrArg Option.isSome (Function.update_self _ _ userConsents)
    | revoke t' =>
        cases same
        refine iff_of_false (Bool.eq_false_iff.mp ?_) fun mem => mem.2 rfl
        exact congrArg Option.isSome (Function.update_self _ _ userConsents)
    | has t' => exact holds
  · rw [hasUserConsent_exec_of_ne matches_ called same, holds]
    cases call with
    | save t' now =>
        exact (or_iff_right (Ne.symm same)).symm
    | revoke t' => exact (and_iff_left (Ne.symm same)).symm
    | has t' => rfl

/-- The map is the set of triples. -/
theorem hasUserConsent_run (valid : ∀ call ∈ calls, matchesClientId call.triple.clientId = true)
    (matches_ : matchesClientId t.clientId = true) :
    hasUserConsent (run calls) t = true ↔ t ∈ granted calls := by
  induction calls using List.reverseRecOn with
  | nil => exact iff_of_false Bool.false_ne_true id
  | append_singleton calls call ih =>
      have before : hasUserConsent (run calls) t = true ↔ t ∈ granted calls :=
        ih fun c mem => valid c (List.mem_append_left _ mem)
      rw [run, granted, List.foldl_append, List.foldl_append]
      exact hasUserConsent_exec matches_ (valid call (by simp)) before

theorem mem_act {set : Set ConsentTriple} :
    t ∈ call.act set ↔ (t ∈ set ∧ call ≠ .revoke t) ∨ ∃ now, call = .save t now := by
  cases call with
  | save t' now =>
      rw [ConsentCall.act, Set.mem_insert_iff]
      simp [eq_comm, or_comm]
  | revoke t' =>
      rw [ConsentCall.act, Set.mem_sdiff, Set.mem_singleton_iff]
      simp [eq_comm]
  | has t' => simp [ConsentCall.act]

/-- The latest call that wrote the triple saved it. -/
theorem mem_granted_iff :
    t ∈ granted calls ↔
      ∃ before now after, calls = before ++ .save t now :: after ∧ .revoke t ∉ after := by
  induction calls using List.reverseRecOn with
  | nil =>
      refine iff_of_false id ?_
      rintro ⟨before, now, after, no, -⟩
      simp at no
  | append_singleton calls call ih =>
      have step : t ∈ granted (calls ++ [call]) ↔
          (t ∈ granted calls ∧ call ≠ .revoke t) ∨ ∃ now, call = .save t now := by
        rw [granted, List.foldl_append]
        exact mem_act
      rw [step, ih]
      constructor
      · rintro (⟨⟨before, now, after, rfl, kept⟩, other⟩ | ⟨now, rfl⟩)
        · refine ⟨before, now, after ++ [call], by simp, fun mem => ?_⟩
          rcases List.mem_append.mp mem with old | last
          · exact kept old
          · exact other (List.mem_singleton.mp last).symm
        · exact ⟨calls, now, [], rfl, List.not_mem_nil⟩
      · rintro ⟨before, now, after, eq, kept⟩
        rcases List.eq_nil_or_concat after with rfl | ⟨after, last, rfl⟩
        · exact .inr ⟨now, (List.append_inj' eq rfl).2 |> List.cons.inj |>.1⟩
        · have whole : calls ++ [call] = (before ++ .save t now :: after) ++ [last] := by
            rw [eq]
            simp
          obtain ⟨rfl, tail⟩ := List.append_inj' whole rfl
          cases (List.cons.inj tail).1
          refine .inl ⟨⟨before, now, after, rfl, fun mem => kept (by simp [mem])⟩, fun same => ?_⟩
          exact kept (by simp [same])

end Histories

/-- After any calls the answer for a triple is whether the latest save or revoke of it was a
save, and no call of another triple changes it. -/
theorem consents_are_triples (calls : List ConsentCall)
    (valid : ∀ call ∈ calls, matchesClientId call.triple.clientId = true) (t : ConsentTriple)
    (matches_ : matchesClientId t.clientId = true) :
    (hasUserConsent (run calls) t = true ↔
        ∃ before now after, calls = before ++ .save t now :: after ∧ .revoke t ∉ after) ∧
      ∀ call : ConsentCall, matchesClientId call.triple.clientId = true → call.triple ≠ t →
        hasUserConsent (run (calls ++ [call])) t = hasUserConsent (run calls) t := by
  refine ⟨(hasUserConsent_run valid matches_).trans mem_granted_iff, fun call called other => ?_⟩
  rw [run, List.foldl_append]
  exact hasUserConsent_exec_of_ne matches_ called other

/-- A scope with a colon, and another that it ends in. -/
theorem two_scopes_apart :
    hasUserConsent (run [.save ⟨7, "app", "a:b"⟩ 1, .revoke ⟨7, "app", "b"⟩]) ⟨7, "app", "a:b"⟩ =
      true :=
  (consents_are_triples [.save ⟨7, "app", "a:b"⟩ 1, .revoke ⟨7, "app", "b"⟩] (by decide)
    ⟨7, "app", "a:b"⟩ (by decide)).1.mpr ⟨[], 1, [.revoke ⟨7, "app", "b"⟩], rfl, by simp⟩

end MemoryConsentRepository

end Fulla
