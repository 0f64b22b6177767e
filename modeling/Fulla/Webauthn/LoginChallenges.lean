import Fulla.Identity.Minting
import Fulla.Model.JsonText
import Fulla.Model.Text
import Fulla.Web.Session
import Fulla.Webauthn.Challenges

/-!
# Challenges of passkey logins

`authenticateBegin` leaves a challenge and the second it was issued at in the session, as one
text, and `authenticateFinish` takes it out again before it looks at anything.  The session's
`insert` keeps an existing value and `authenticateBegin` does not erase first, so a begin while a
challenge is pending answers with a challenge that is stored nowhere.
-/

namespace Fulla

open Conc

namespace WebAuthnService

/-- `issueAuthenticationChallenge` at a clock and a draw: the session value is the challenge, a bar
and the clock. -/
def issueSessionChallenge (svc : WebAuthnService) (now : Int64)
    (draw : Draw kChallengeBytes) : Option IssuedSessionChallenge :=
  svc.crypto.map fun crypto =>
    { challenge := generateChallenge crypto draw
      sessionValue := generateChallenge crypto draw ++ "|" ++ toString now.toInt }

theorem issueAuthenticationChallenge_run (svc : WebAuthnService) (draws : (n : Nat) → Draw n)
    (now : Int64) (challenges : Challenges) :
    svc.issueAuthenticationChallenge.run (svc.execChallenges draws now.toInt) challenges =
      (svc.issueSessionChallenge now (draws kChallengeBytes), challenges) := by
  unfold issueAuthenticationChallenge issueSessionChallenge
  cases svc.crypto <;> rfl

/-- What stands before and after the last bar: `rfind`. -/
def splitLastBar (value : String) : Option (String × String) :=
  let after := value.toList.reverse.takeWhile (· ≠ '|')
  match value.toList.reverse.drop after.length with
  | [] => none
  | _ :: before => some (String.ofList before.reverse, String.ofList after.reverse)

/-- `WebAuthnService::verifyAuthenticationChallenge`. -/
def verifyAuthenticationChallenge (svc : WebAuthnService) (now : Int64)
    (sessionValue presentedChallenge : String) : Bool :=
  match splitLastBar sessionValue with
  | none => false
  | some (stored, rest) =>
    match stoInt (2 ^ 63) rest with
    | none => false
    | some issuedAt =>
      if now.toInt - issuedAt > svc.challengeTtlSeconds then false
      else stored = presentedChallenge

/-! ## The session value -/

theorem splitLastBar_append {challenge rest : String} (plain : '|' ∉ rest.toList) :
    splitLastBar (challenge ++ "|" ++ rest) = some (challenge, rest) := by
  have plain' : ∀ c ∈ rest.toList.reverse, decide (c ≠ '|') = true := by
    intro c mem
    refine decide_eq_true fun same => plain ?_
    subst same
    exact List.mem_reverse.mp mem
  have text : (challenge ++ "|" ++ rest).toList.reverse =
      rest.toList.reverse ++ '|' :: challenge.toList.reverse := by
    simp [String.toList_append]
  have after : (challenge ++ "|" ++ rest).toList.reverse.takeWhile (· ≠ '|') =
      rest.toList.reverse := by
    rw [text, List.takeWhile_append_of_pos plain', List.takeWhile_cons_of_neg (by decide),
      List.append_nil]
  simp only [splitLastBar, after]
  rw [text, List.drop_left]
  simp

/-- What was issued verifies for its own challenge within the lifetime. -/
theorem verifyAuthenticationChallenge_issued (svc : WebAuthnService) (now issuedAt : Int64)
    (challenge presented : String) :
    svc.verifyAuthenticationChallenge now (challenge ++ "|" ++ toString issuedAt.toInt) presented =
      decide (challenge = presented ∧ now.toInt - issuedAt.toInt ≤ svc.challengeTtlSeconds) := by
  have low : -((2 ^ 63 : Nat) : Int) ≤ issuedAt.toInt := Int64.le_toInt issuedAt
  have high : issuedAt.toInt < ((2 ^ 63 : Nat) : Int) := Int64.toInt_lt issuedAt
  simp only [verifyAuthenticationChallenge, splitLastBar_append
    (notMem_toString (by decide) (by decide) _),
    stoInt_toString low high]
  by_cases late : now.toInt - issuedAt.toInt > svc.challengeTtlSeconds
  · rw [if_pos late, eq_comm, decide_eq_false_iff_not]
    exact fun both => absurd both.2 (Int.not_le.mpr late)
  · have inTime := Int.not_lt.mp late
    rw [if_neg late]
    simp only [inTime, and_true]

end WebAuthnService

/-- The controller, with what it uses of the libraries. -/
structure WebAuthnController where
  /-- None when no service was injected. -/
  service : Option WebAuthnService
  /-- None where the decoder throws. -/
  base64UrlDecode : String → Option (List UInt8)
  /-- None where `Json::Reader` refuses the text. -/
  readJson : List UInt8 → Option Json

namespace WebAuthnController

open WebAuthnService (AssertionInput)
open WebAuthnService.Registrations (sampleCrypto)

/-- The `challenge` member of the client data; whatever goes wrong leaves it empty. -/
def presentedChallenge (c : WebAuthnController) (clientDataJSON : String) : String :=
  match (c.base64UrlDecode clientDataJSON).bind c.readJson with
  | none => ""
  | some parsed =>
    match parsed.hasMember "challenge", parsed.textAt "challenge" with
    | .ok true, .ok challenge => challenge
    | _, _ => ""

/-- What `authenticateBegin` answers. -/
inductive BeginAnswer where
  | unavailable
  | failed
  | options (challenge : String)
deriving DecidableEq, Repr

/-- The answer and the value of `webauthn_auth_challenge` afterwards. -/
def authenticateBegin (c : WebAuthnController) (now : Int64)
    (draw : Draw WebAuthnService.kChallengeBytes) (stored : Option String) :
    BeginAnswer × Option String :=
  match c.service with
  | none => (.unavailable, stored)
  | some svc =>
    match svc.issueSessionChallenge now draw with
    | none => (.failed, stored)
    | some issued => (.options issued.challenge, Session.insert stored issued.sessionValue)

/-- What `authenticateFinish` answers before the assertion. -/
inductive FinishAnswer where
  | invalidInput
  | missingField
  | unavailable
  | invalidCredentials
  /-- The gate is passed, and the assertion is verified next. -/
  | verify (presentedChallenge : String)
deriving DecidableEq, Repr

/-- `challengeOk` for the value that was in the session. -/
def challengeOk (svc : WebAuthnService) (now : Int64) (sessionValue presented : String) : Bool :=
  sessionValue ≠ "" && presented ≠ "" &&
    svc.verifyAuthenticationChallenge now sessionValue presented

/-- The gate, for a session value and a presented challenge. -/
def passes (c : WebAuthnController) (now : Int64) (presented : String) (stored : Option String) :
    Bool :=
  c.service.any fun svc => challengeOk svc now (Session.text stored) presented

/-- Without an input when the body is not of the required form, or a field of it has no text. -/
def authenticateFinish (c : WebAuthnController) (now : Int64)
    (input : Option AssertionInput) (stored : Option String) : FinishAnswer × Option String :=
  match input with
  | none => (.invalidInput, stored)
  | some input =>
    if input.id = "" ∨ input.rawId = "" ∨ input.authenticatorData = "" ∨
        input.clientDataJSON = "" ∨ input.signature = "" then (.missingField, stored)
    else
      match c.service with
      | none => (.unavailable, stored)
      | some svc =>
        let presented := c.presentedChallenge input.clientDataJSON
        if challengeOk svc now (Session.text stored) presented then (.verify presented, none)
        else (.invalidCredentials, none)

/-- The fields that the handler asks for. -/
def Complete (input : AssertionInput) : Prop :=
  input.id ≠ "" ∧ input.rawId ≠ "" ∧ input.authenticatorData ≠ "" ∧ input.clientDataJSON ≠ "" ∧
    input.signature ≠ ""

theorem authenticateFinish_verify_iff (c : WebAuthnController) (now : Int64)
    {input : AssertionInput} (complete : Complete input) (stored : Option String) :
    (c.authenticateFinish now (some input) stored).1 =
        .verify (c.presentedChallenge input.clientDataJSON) ↔
      c.passes now (c.presentedChallenge input.clientDataJSON) stored = true := by
  obtain ⟨id, rawId, authData, clientData, signature⟩ := complete
  simp only [authenticateFinish, id, rawId, authData, clientData, signature, or_self, if_false,
    passes]
  cases c.service with
  | none => simp
  | some svc =>
      simp only [Option.any_some]
      split
      · rename_i ok
        simp [ok]
      · rename_i closed
        simp [closed]

/-! ## Histories -/

/-- The two requests of a login. -/
inductive Request where
  | begin_ (now : Int64) (draw : Draw WebAuthnService.kChallengeBytes)
  | finish (now : Int64) (input : Option AssertionInput)

variable (c : WebAuthnController)

/-- The session's value after a request. -/
def next (stored : Option String) : Request → Option String
  | .begin_ now draw => (c.authenticateBegin now draw stored).2
  | .finish now input => (c.authenticateFinish now input stored).2

/-- The session value before a request, and the request. -/
abbrev Entry := Option String × Request

/-- The challenge that a begin answered with, and when. -/
def issued : Entry → Option (String × Int64)
  | (stored, .begin_ now draw) =>
    match (c.authenticateBegin now draw stored).1 with
    | .options challenge => some (challenge, now)
    | _ => none
  | _ => none

/-- A finish that reached the gate. -/
def attempted : Entry → Bool
  | (stored, .finish now input) =>
    match (c.authenticateFinish now input stored).1 with
    | .invalidCredentials => true
    | .verify _ => true
    | _ => false
  | _ => false

/-- The challenge of the most recent begin, unless a finish was attempted since. -/
def latest : List Entry → Option (String × Int64)
  | [] => none
  | e :: h => if attempted c e then none else (issued c e).or (latest h)

/-- The challenge of the first begin since the last attempted finish. -/
def first : List Entry → Option (String × Int64)
  | [] => none
  | e :: h => if attempted c e then none else (first h).or (issued c e)

/-- The challenge, if it was issued at most the lifetime ago. -/
def alive (now : Int64) (pending : Option (String × Int64)) : Option String :=
  (pending.filter fun p => c.service.any fun svc =>
    now.toInt - p.2.toInt ≤ svc.challengeTtlSeconds).map Prod.fst

/-- A sequence of requests in one session. -/
def run (requests : List Request) : List Entry × Option String :=
  History.run (next c) none requests

/-- The most recent begin issued this challenge, at most the lifetime ago, and no finish was
attempted since. -/
def LatestIssued (now : Int64) (presented : String) (h : List Entry) : Prop :=
  Since (fun e => ∃ svc issuedAt, c.service = some svc ∧ issued c e = some (presented, issuedAt) ∧
      now.toInt - issuedAt.toInt ≤ svc.challengeTtlSeconds)
    (fun e => attempted c e = true ∨ (issued c e).isSome = true) h

variable {c} {h : List Entry} {stored : Option String}

theorem alive_eq_some {now : Int64} {pending : Option (String × Int64)} {challenge : String} :
    alive c now pending = some challenge ↔ ∃ svc issuedAt, c.service = some svc ∧
      pending = some (challenge, issuedAt) ∧
      now.toInt - issuedAt.toInt ≤ svc.challengeTtlSeconds := by
  unfold alive
  constructor
  · intro found
    obtain ⟨⟨text, issuedAt⟩, kept, rfl⟩ := Option.map_eq_some_iff.mp found
    obtain ⟨held, inTime⟩ := Option.filter_eq_some_iff.mp kept
    obtain ⟨svc, service, live⟩ := (Option.any_eq_true ..).mp inTime
    exact ⟨svc, issuedAt, service, held, of_decide_eq_true live⟩
  · rintro ⟨svc, issuedAt, service, rfl, live⟩
    have inTime : (c.service.any fun svc => now.toInt - issuedAt.toInt ≤ svc.challengeTtlSeconds) =
        true := (Option.any_eq_true ..).mpr ⟨svc, service, decide_eq_true live⟩
    exact Option.map_eq_some_iff.mpr
      ⟨(challenge, issuedAt), Option.filter_eq_some_iff.mpr ⟨rfl, inTime⟩, rfl⟩

/-- A begin is no attempt. -/
theorem issued_of_attempted {e : Entry} (reached : attempted c e = true) : issued c e = none := by
  obtain ⟨stored, r⟩ := e
  cases r with
  | begin_ now draw => cases reached
  | finish now input => rfl

theorem latestIssued_iff {now : Int64} {presented : String} :
    LatestIssued c now presented h ↔ alive c now (latest c h) = some presented := by
  rw [alive_eq_some]
  induction h with
  | nil =>
      constructor
      · intro never
        exact never.elim
      · intro found
        obtain ⟨_, _, _, none, _⟩ := found
        cases none
  | cons e h ih =>
      unfold LatestIssued at ih ⊢
      rw [Since.cons, ih, latest]
      cases reached : attempted c e with
      | true =>
          simp [issued_of_attempted reached]
      | false =>
          cases gave : issued c e with
          | none => simp
          | some p => simp

/-- One request on a session that holds the first challenge since the last attempt. -/
theorem next_stored
    (kept : stored = (first c h).map fun p => p.1 ++ "|" ++ toString p.2.toInt) (r : Request) :
    next c stored r =
      (first c ((stored, r) :: h)).map fun p => p.1 ++ "|" ++ toString p.2.toInt := by
  cases r with
  | begin_ now draw =>
      have step : next c stored (.begin_ now draw) = (stored.or ((issued c (stored, .begin_ now
          draw)).map fun p => p.1 ++ "|" ++ toString p.2.toInt)) := by
        simp only [next, issued, authenticateBegin, WebAuthnService.issueSessionChallenge,
          Session.insert]
        cases c.service with
        | none => simp
        | some svc =>
            cases ready : svc.crypto with
            | none => simp [ready]
            | some crypto =>
                simp only [ready, Option.map_some]
      have begun : attempted c (stored, .begin_ now draw) = false := rfl
      rw [step, first, begun, kept]
      cases first c h <;> simp
  | finish now input =>
      have step : next c stored (.finish now input) =
          if attempted c (stored, .finish now input) then none else stored := by
        simp only [next, attempted, authenticateFinish]
        cases input with
        | none => simp
        | some input =>
            dsimp only
            split
            · simp
            · cases c.service with
              | none => simp
              | some svc =>
                  dsimp only
                  split <;> simp
      rw [step, first, kept]
      split
      · rfl
      · simp [issued]

/-- The session holds the first challenge since the last attempt. -/
theorem run_stored (requests : List Request) :
    (run c requests).2 = (first c (run c requests).1).map
      fun p => p.1 ++ "|" ++ toString p.2.toInt := by
  have step : ∀ (h : List Entry) (stored : Option String) (r : Request),
      stored = (first c h).map (fun p => p.1 ++ "|" ++ toString p.2.toInt) → True →
      next c stored r =
        (first c ((stored, r) :: h)).map fun p => p.1 ++ "|" ++ toString p.2.toInt := by
    intro h stored r kept _
    exact next_stored kept r
  exact History.run_invariant
    (I := fun h stored => stored = (first c h).map fun p => p.1 ++ "|" ++ toString p.2.toInt)
    rfl step requests (History.each_of_forall fun _ _ => trivial)

/-- The gate passes for the first challenge since the last attempt. -/
theorem passes_iff {now : Int64} {presented : String} (requests : List Request) :
    c.passes now presented (run c requests).2 = true ↔
      presented ≠ "" ∧ alive c now (first c (run c requests).1) = some presented := by
  rw [run_stored, alive_eq_some, passes]
  cases c.service with
  | none => simp
  | some svc =>
      cases first c (run c requests).1 with
      | none => simp [challengeOk, Session.text]
      | some p =>
          obtain ⟨challenge, issuedAt⟩ := p
          have full : challenge ++ "|" ++ toString issuedAt.toInt ≠ "" := by
            intro empty
            have lists := congrArg String.toList empty
            simp [String.toList_append] at lists
          simp only [Option.any_some, Option.map_some, challengeOk, Session.text, Option.getD_some,
            WebAuthnService.verifyAuthenticationChallenge_issued, Bool.and_eq_true,
            decide_eq_true_eq, full, ne_eq, not_false_eq_true, true_and, Option.some.injEq,
            Prod.mk.injEq]
          constructor
          · intro both
            exact ⟨both.1, svc, issuedAt, rfl, ⟨both.2.1, rfl⟩, both.2.2⟩
          · intro both
            obtain ⟨some_, svc', t, rfl, ⟨same, rfl⟩, live⟩ := both
            exact ⟨some_, same, live⟩

/-! ## Latest wins -/

section Encoder

variable (encodes : ∀ svc crypto, c.service = some svc → svc.crypto = some crypto →
  ∀ bytes, bytes ≠ [] → crypto.base64UrlEncode bytes ≠ "")
include encodes

theorem issued_ne_empty {e : Entry} {p : String × Int64} (gave : issued c e = some p) :
    p.1 ≠ "" := by
  obtain ⟨stored, r⟩ := e
  cases r with
  | finish now input => cases gave
  | begin_ now draw =>
      cases ready : c.service with
      | none => simp [issued, authenticateBegin, ready] at gave
      | some svc =>
          cases provided : svc.crypto with
          | none =>
              simp [issued, authenticateBegin, WebAuthnService.issueSessionChallenge, ready,
                provided] at gave
          | some crypto =>
              simp only [issued, authenticateBegin, WebAuthnService.issueSessionChallenge,
                ready, provided, Option.map_some, Option.some.injEq] at gave
              subst gave
              refine encodes svc crypto ready provided _ ?_
              intro empty
              have short := congrArg List.length empty
              rw [Draw.buffer, List.length_append, List.length_drop, List.length_replicate] at short
              have size : WebAuthnService.kChallengeBytes = 32 := rfl
              rw [List.length_nil] at short
              omega

theorem first_ne_empty {p : String × Int64} (is : first c h = some p) : p.1 ≠ "" := by
  induction h with
  | nil => cases is
  | cons e h ih =>
      rw [first] at is
      split at is
      · cases is
      · rcases Option.or_eq_some_iff.mp is with older | ⟨_, gave⟩
        · exact ih older
        · exact issued_ne_empty encodes gave

theorem passes_iff_first {now : Int64} {presented : String} (requests : List Request) :
    c.passes now presented (run c requests).2 = true ↔
      alive c now (first c (run c requests).1) = some presented := by
  rw [passes_iff]
  refine ⟨And.right, fun is => ⟨?_, is⟩⟩
  obtain ⟨_, issuedAt, _, stands, _⟩ := alive_eq_some.mp is
  exact first_ne_empty encodes stands

end Encoder

/-- A complete finish is verified when the gate passes.  The gate passes for the challenge of the
latest begin, and for no other, just when the first begin since the last attempt and the latest one
stand for the same live challenge. -/
theorem login_challenge_latest_iff (c : WebAuthnController)
    (encodes : ∀ svc crypto, c.service = some svc → svc.crypto = some crypto →
      ∀ bytes, bytes ≠ [] → crypto.base64UrlEncode bytes ≠ "")
    (requests : List Request) (now : Int64) :
    (∀ input, Complete input →
      ((c.authenticateFinish now (some input) (run c requests).2).1 =
          .verify (c.presentedChallenge input.clientDataJSON) ↔
        c.passes now (c.presentedChallenge input.clientDataJSON) (run c requests).2 = true)) ∧
    ((∀ presented, c.passes now presented (run c requests).2 = true ↔
        LatestIssued c now presented (run c requests).1) ↔
      alive c now (first c (run c requests).1) = alive c now (latest c (run c requests).1)) := by
  refine ⟨fun input complete => authenticateFinish_verify_iff c now complete _, ?_⟩
  have sides : ∀ presented,
      ((c.passes now presented (run c requests).2 = true ↔
          LatestIssued c now presented (run c requests).1) ↔
        (alive c now (first c (run c requests).1) = some presented ↔
          alive c now (latest c (run c requests).1) = some presented)) := by
    intro presented
    rw [passes_iff_first encodes, latestIssued_iff]
  rw [forall_congr' sides]
  exact Option.ext_iff.symm

/-- Its client data is the challenge itself. -/
def sampleController : WebAuthnController where
  service := some { crypto := some sampleCrypto }
  base64UrlDecode := fun text => some (text.toList.map fun ch => UInt8.ofNat ch.toNat)
  readJson := fun bytes =>
    some (.obj [("challenge", .str (String.ofList (bytes.map fun b => Char.ofNat b.toNat)))])

/-- An assertion over a challenge. -/
def sampleInput (challenge : String) : AssertionInput where
  id := "key"
  rawId := "key"
  authenticatorData := "data"
  clientDataJSON := challenge
  signature := "signature"
  userHandle := ""

/-- A draw of equal bytes. -/
def sampleDraw (byte : UInt8) : Draw WebAuthnService.kChallengeBytes :=
  Draw.filled (List.replicate 32 byte)

/-- The challenge made of them. -/
def sampleChallenge (byte : UInt8) : String :=
  WebAuthnService.generateChallenge sampleCrypto (sampleDraw byte)

/-- One begin, and a finish within five minutes. -/
theorem login_challenge_one_begin :
    let requests := [Request.begin_ 100 (sampleDraw 1)]
    sampleController.passes 400 (sampleChallenge 1) (run sampleController requests).2 = true ∧
      LatestIssued sampleController 400 (sampleChallenge 1) (run sampleController requests).1 := by
  intro requests
  have encodes : ∀ svc crypto, sampleController.service = some svc → svc.crypto = some crypto →
      ∀ bytes, bytes ≠ [] → crypto.base64UrlEncode bytes ≠ "" := by
    intro svc crypto ready provided bytes some_ empty
    cases ready
    cases provided
    have lists := congrArg String.toList empty
    simp [sampleCrypto, some_] at lists
  have said := (login_challenge_latest_iff sampleController encodes requests 400).2.mpr rfl
    (sampleChallenge 1)
  have issued : LatestIssued sampleController 400 (sampleChallenge 1)
      (run sampleController requests).1 := by
    refine .now ⟨_, 100, rfl, rfl, by decide⟩
  exact ⟨said.mpr issued, issued⟩

/-- A second begin while the first challenge is pending: its challenge is refused. -/
theorem login_challenge_second_begin :
    ∃ (c : WebAuthnController) (requests : List Request) (now : Int64) (input : AssertionInput),
      Complete input ∧
      LatestIssued c now (c.presentedChallenge input.clientDataJSON) (run c requests).1 ∧
      (c.authenticateFinish now (some input) (run c requests).2).1 = .invalidCredentials := by
  refine ⟨sampleController, [.begin_ 100 (sampleDraw 1), .begin_ 101 (sampleDraw 2)], 102,
    sampleInput (sampleChallenge 2), ?_, ?_, ?_⟩
  · exact ⟨by decide, by decide, by decide, by decide, by decide⟩
  · exact .now ⟨_, 101, rfl, rfl, by decide⟩
  · decide

end WebAuthnController

end Fulla
