import Fulla.Conc.History
import Fulla.Webauthn.WebAuthnService

/-!
# Registration challenges over whole runs

The map of registration challenges is overwritten by an issue, swept by the issues of every
other subject and erased by every attempt to finish.  `Standing` says the same by the history
alone: the challenge was issued to the subject, and since then nothing was issued to it and
it did not try to finish.  An entry of the map is one that stands (`Kept.stands`), and one
that stands is in the map unless its lifetime is over (`Kept.stored`).
-/

namespace Fulla

open Conc

namespace WebAuthnService

namespace Registrations

/-- A call of the service, with the clock it reads. -/
inductive Request where
  | issue (now : Int) (subject : String) (draw : Draw kChallengeBytes)
  | finish (now : Int) (userId : Int32) (subject presentedChallenge : String)
      (input : RegistrationInput) (fault : Bool)

/-- The second of a request. -/
def Request.now : Request → Int
  | issue now _ _ => now
  | finish now _ _ _ _ _ => now

variable (svc : WebAuthnService)

/-- What a request does to the map. -/
def next (s : Registrations) : Request → Registrations
  | .issue now subject draw =>
    { s with challenges := (svc.issueRegistrationChallenge now draw subject s.challenges).2 }
  | .finish now userId subject presentedChallenge input fault =>
    (svc.finishRegistrationVerified now fault userId subject presentedChallenge input s).2

/-- The map before a request, and the request. -/
abbrev Entry := Registrations × Request

/-- The call issued `challenge` to `subject`. -/
def Issued (subject challenge : String) (e : Entry) : Prop :=
  ∃ now draw, e.2 = .issue now subject draw ∧
    (svc.issueRegistrationChallenge now draw subject e.1.challenges).1 = some challenge

/-- The call was an attempt of `subject` to finish, right or wrong. -/
def Attempted (subject : String) (e : Entry) : Prop :=
  ∃ now userId presentedChallenge input fault,
    e.2 = .finish now userId subject presentedChallenge input fault

/-- The call ends the challenge of `subject`. -/
def Ends (subject : String) (e : Entry) : Prop :=
  (∃ challenge, Issued svc subject challenge e) ∨ Attempted subject e

/-- `challenge` is the last one issued to `subject`, at `issuedAt`, and there was no attempt
to finish since. -/
def Standing (subject challenge : String) (issuedAt : Int) (h : List Entry) : Prop :=
  Since (fun e => Issued svc subject challenge e ∧ e.2.now = issuedAt) (Ends svc subject) h

/-! ## One call -/

variable {svc} {crypto : WebAuthnCrypto}

theorem live_iff {now : Int} {entry : ChallengeEntry} :
    svc.live now entry = true ↔ now - entry.issuedAt ≤ svc.challengeTtlSeconds := by
  simp [live]

theorem issue_eq (ready : svc.crypto = some crypto) {subject : String} (named : subject ≠ "")
    (now : Int) (draw : Draw kChallengeBytes) (challenges : Challenges) :
    svc.issueRegistrationChallenge now draw subject challenges =
      (some (generateChallenge crypto draw),
        (challenges.keep (svc.live now)).assign ⟨subject, generateChallenge crypto draw, now⟩) := by
  simp only [issueRegistrationChallenge, ready, if_neg named]

theorem find?_consume (now : Int) (subject presented : String) (challenges : Challenges)
    (other : String) :
    (svc.consumeRegistrationChallenge now subject presented challenges).2.find? other =
      if other = subject then none else challenges.find? other := by
  unfold consumeRegistrationChallenge
  split
  · next absent =>
      split
      · next same => rw [same, absent]
      · rfl
  · exact Table.find?_erase ..

theorem finish_challenges (ready : svc.crypto = some crypto) (repo : svc.hasRepo = true)
    (now : Int) (fault : Bool) (userId : Int32) (subject presented : String)
    (input : RegistrationInput) (s : Registrations) :
    (svc.finishRegistrationVerified now fault userId subject presented input s).2.challenges =
      (svc.consumeRegistrationChallenge now subject presented s.challenges).2 := by
  simp only [finishRegistrationVerified, ready, repo]
  split
  · rfl
  · split <;> rfl

/-- Behind a closed gate nothing is stored. -/
theorem finish_of_closed {now : Int} {subject presented : String} {s : Registrations}
    (closed : svc.registrationGate now subject presented s.challenges = false) (fault : Bool)
    (userId : Int32) (input : RegistrationInput) :
    (svc.finishRegistrationVerified now fault userId subject presented input s).1 ∈
        ["INTERNAL_ERROR", "WEBAUTHN_CHALLENGE_MISMATCH"] ∧
      (svc.finishRegistrationVerified now fault userId subject presented input s).2.credentials =
        s.credentials := by
  cases ready : svc.crypto with
  | none => simp [finishRegistrationVerified, ready]
  | some crypto =>
      cases repo : svc.hasRepo with
      | false => simp [finishRegistrationVerified, ready, repo]
      | true =>
          simp only [registrationGate, repo, ready, Option.isSome_some, Bool.true_and] at closed
          simp [finishRegistrationVerified, ready, repo, closed]

/-- The sweep of an issue leaves the live challenge of another subject where it is. -/
theorem find?_issue_of_ne {now : Int} {draw : Draw kChallengeBytes} {subject other : String}
    {challenges : Challenges} {entry : ChallengeEntry} (ne : other ≠ subject)
    (stored : challenges.find? other = some entry) (alive : svc.live now entry = true) :
    (svc.issueRegistrationChallenge now draw subject challenges).2.find? other = some entry := by
  unfold issueRegistrationChallenge
  split
  · exact stored
  · split
    · exact stored
    · rw [Table.find?_assign, if_neg ne, Table.find?_keep, stored]
      simp [Option.filter, alive]

/-! ## Whole runs -/

variable (svc) in
/-- The map and the history agree. -/
structure Kept (h : List Entry) (s : Registrations) : Prop where
  stands : ∀ subject entry, s.challenges.find? subject = some entry →
    Standing svc subject entry.challenge entry.issuedAt h
  stored : ∀ subject challenge issuedAt, Standing svc subject challenge issuedAt h →
    s.challenges.find? subject = some ⟨subject, challenge, issuedAt⟩ ∨
      ∃ e ∈ h, svc.challengeTtlSeconds < e.2.now - issuedAt

theorem ends_issue_iff (ready : svc.crypto = some crypto) {subject other : String} {now : Int}
    {draw : Draw kChallengeBytes} {s : Registrations} (named : subject ≠ "") :
    Ends svc other (s, .issue now subject draw) ↔ other = subject := by
  constructor
  · intro ends
    rcases ends with ⟨_, _, _, same, _⟩ | ⟨_, _, _, _, _, bad⟩
    · cases same
      rfl
    · cases bad
  · intro same
    subst same
    exact .inl ⟨_, now, draw, rfl, by rw [issue_eq ready named]⟩

theorem kept_issue (ready : svc.crypto = some crypto) {h : List Entry} {s : Registrations}
    (kept : Kept svc h s) {now : Int} {subject : String} {draw : Draw kChallengeBytes}
    (named : subject ≠ "") :
    Kept svc ((s, .issue now subject draw) :: h) (next svc s (.issue now subject draw)) := by
  have table : (next svc s (.issue now subject draw)).challenges =
      (s.challenges.keep (svc.live now)).assign
        ⟨subject, generateChallenge crypto draw, now⟩ := by
    rw [next, issue_eq ready named]
  have others : ∀ other, other ≠ subject →
      ¬ Ends svc other (s, .issue now subject draw) := by
    intro other ne ends
    exact ne ((ends_issue_iff ready named).mp ends)
  constructor
  · intro other entry found
    rw [table, Table.find?_assign] at found
    split at found
    · next same =>
        cases found
        subst same
        refine .now ⟨⟨now, draw, rfl, ?_⟩, rfl⟩
        rw [issue_eq ready named]
    · next ne =>
        rw [Table.find?_keep, Option.filter_eq_some_iff] at found
        exact .keep (others other ne) (kept.stands other entry found.1)
  · intro other challenge issuedAt standing
    rw [table, Table.find?_assign]
    rcases standing with ⟨⟨now', draw', same, issued⟩, time⟩ | ⟨still, standing⟩
    · cases same
      rw [issue_eq ready named] at issued
      cases issued
      cases time
      left
      rw [if_pos rfl]
      rfl
    · have ne : other ≠ subject := by
        intro same
        exact still ((ends_issue_iff ready named).mpr same)
      rw [if_neg ne, Table.find?_keep]
      rcases kept.stored other challenge issuedAt standing with stored | ⟨e, mem, ended⟩
      · rw [stored]
        by_cases alive : svc.live now ⟨other, challenge, issuedAt⟩ = true
        · left
          simp [Option.filter, alive]
        · right
          refine ⟨_, List.mem_cons_self, ?_⟩
          rw [live_iff, Int.not_le] at alive
          exact alive
      · exact .inr ⟨e, List.mem_cons_of_mem _ mem, ended⟩

/-- Nothing is issued to a subject without a name. -/
theorem kept_unnamed {h : List Entry} {s : Registrations} (kept : Kept svc h s) {now : Int}
    {draw : Draw kChallengeBytes} :
    Kept svc ((s, .issue now "" draw) :: h) (next svc s (.issue now "" draw)) := by
  have nothing : svc.issueRegistrationChallenge now draw "" s.challenges =
      (none, s.challenges) := by
    unfold issueRegistrationChallenge
    split <;> rfl
  have table : (next svc s (.issue now "" draw)).challenges = s.challenges := by
    rw [next, nothing]
  have still : ∀ other, ¬ Ends svc other (s, .issue now "" draw) := by
    intro other ends
    rcases ends with ⟨_, _, _, same, issued⟩ | ⟨_, _, _, _, _, bad⟩
    · cases same
      rw [nothing] at issued
      cases issued
    · cases bad
  constructor
  · intro other entry found
    rw [table] at found
    exact .keep (still other) (kept.stands other entry found)
  · intro other challenge issuedAt standing
    rw [table]
    rcases standing with ⟨issued, _⟩ | ⟨_, standing⟩
    · exact absurd (.inl ⟨challenge, issued⟩) (still other)
    · rcases kept.stored other challenge issuedAt standing with stored | ⟨e, mem, ended⟩
      · exact .inl stored
      · exact .inr ⟨e, List.mem_cons_of_mem _ mem, ended⟩

theorem kept_finish (ready : svc.crypto = some crypto) (repo : svc.hasRepo = true)
    {h : List Entry} {s : Registrations} (kept : Kept svc h s) {now : Int} {userId : Int32}
    {subject presented : String} {input : RegistrationInput} {fault : Bool} :
    Kept svc ((s, .finish now userId subject presented input fault) :: h)
      (next svc s (.finish now userId subject presented input fault)) := by
  have found_iff : ∀ other,
      (next svc s (.finish now userId subject presented input fault)).challenges.find? other =
        if other = subject then none else s.challenges.find? other := by
    intro other
    rw [next, finish_challenges ready repo, find?_consume]
  have attempted : Ends svc subject (s, .finish now userId subject presented input fault) :=
    .inr ⟨now, userId, presented, input, fault, rfl⟩
  have others : ∀ other, other ≠ subject →
      ¬ Ends svc other (s, .finish now userId subject presented input fault) := by
    intro other ne ends
    rcases ends with ⟨_, _, _, bad, _⟩ | ⟨_, _, _, _, _, same⟩
    · cases bad
    · cases same
      exact ne rfl
  constructor
  · intro other entry found
    rw [found_iff] at found
    split at found
    · cases found
    · next ne => exact .keep (others other ne) (kept.stands other entry found)
  · intro other challenge issuedAt standing
    rw [found_iff]
    rcases standing with ⟨⟨_, _, bad, _⟩, _⟩ | ⟨still, standing⟩
    · cases bad
    · have ne : other ≠ subject := by
        intro same
        subst same
        exact still attempted
      rw [if_neg ne]
      rcases kept.stored other challenge issuedAt standing with stored | ⟨e, mem, ended⟩
      · exact .inl stored
      · exact .inr ⟨e, List.mem_cons_of_mem _ mem, ended⟩

variable (svc) in
/-- A run of the service, from no challenge and any credentials. -/
def run (credentials : Credentials) (requests : List Request) : List Entry × Registrations :=
  History.run (next svc) { credentials := credentials } requests

theorem run_kept (ready : svc.crypto = some crypto) (repo : svc.hasRepo = true)
    (credentials : Credentials) (requests : List Request) :
    Kept svc (run svc credentials requests).1 (run svc credentials requests).2 := by
  have start : Kept svc [] { credentials := credentials } := by
    constructor
    · intro subject entry found
      cases found
    · intro subject challenge issuedAt standing
      exact standing.elim
  have step : ∀ h s r, Kept svc h s → True → Kept svc ((s, r) :: h) (next svc s r) := by
    intro h s r kept _
    cases r with
    | issue now subject draw =>
        by_cases named : subject = ""
        · subst named
          exact kept_unnamed kept
        · exact kept_issue ready kept named
    | finish now userId subject presented input fault => exact kept_finish ready repo kept
  exact History.run_invariant start step requests (History.each_of_forall fun _ _ => trivial)

theorem gate_iff {now : Int} {subject presented : String} {challenges : Challenges} :
    svc.registrationGate now subject presented challenges = true ↔
      (svc.hasRepo = true ∧ svc.crypto.isSome = true) ∧ presented ≠ "" ∧
        ∃ entry, challenges.find? subject = some entry ∧ entry.challenge = presented ∧
          now - entry.issuedAt ≤ svc.challengeTtlSeconds := by
  unfold registrationGate consumeRegistrationChallenge
  cases found : challenges.find? subject with
  | none => simp
  | some entry =>
      simp only [Bool.and_eq_true, decide_eq_true_eq, live_iff, Option.some.injEq,
        exists_eq_left']
      constructor
      · intro passed
        obtain ⟨complete, ⟨nonempty, alive⟩, same⟩ := passed
        exact ⟨complete, same ▸ nonempty, same, alive⟩
      · intro passed
        obtain ⟨complete, nonempty, same, alive⟩ := passed
        exact ⟨complete, ⟨same ▸ nonempty, alive⟩, same⟩

/-- After every run, at a clock that has not gone back: the gate opens exactly for the
challenge last issued to the subject, within its lifetime and before any attempt to finish;
behind a closed gate nothing is stored; and an issue to one subject leaves the live challenge
of every other one where it is. -/
theorem registration_challenge_one_shot (svc : WebAuthnService) (credentials : Credentials)
    (requests : List Request) (now : Int) (clock : ∀ r ∈ requests, r.now ≤ now) :
    let h := (run svc credentials requests).1
    let s := (run svc credentials requests).2
    (∀ subject presented,
      svc.registrationGate now subject presented s.challenges = true ↔
        (svc.hasRepo = true ∧ svc.crypto.isSome = true) ∧ presented ≠ "" ∧
          Since (fun e => Issued svc subject presented e ∧ now - e.2.now ≤ svc.challengeTtlSeconds)
            (Ends svc subject) h) ∧
    (∀ subject presented, svc.registrationGate now subject presented s.challenges = false →
      ∀ fault userId input,
        (svc.finishRegistrationVerified now fault userId subject presented input s).1 ∈
            ["INTERNAL_ERROR", "WEBAUTHN_CHALLENGE_MISMATCH"] ∧
          (svc.finishRegistrationVerified now fault userId subject presented
            input s).2.credentials = s.credentials) ∧
    ∀ subject other draw entry, other ≠ subject → s.challenges.find? other = some entry →
      now - entry.issuedAt ≤ svc.challengeTtlSeconds →
      (svc.issueRegistrationChallenge now draw subject s.challenges).2.find? other =
        some entry := by
  intro h s
  refine ⟨fun subject presented => ?_, ?_, ?_⟩
  · rw [gate_iff]
    refine and_congr_right fun complete => and_congr_right fun _ => ?_
    obtain ⟨repo, some_⟩ := complete
    obtain ⟨crypto, ready⟩ := Option.isSome_iff_exists.mp some_
    have kept := run_kept ready repo credentials requests
    constructor
    · intro passed
      obtain ⟨entry, found, same, alive⟩ := passed
      subst same
      refine (kept.stands subject entry found).mono fun e issued => ⟨issued.1, ?_⟩
      rw [issued.2]
      exact alive
    · intro since
      have timed : Since (fun e => ∃ issuedAt, (Issued svc subject presented e ∧
          e.2.now = issuedAt) ∧ now - issuedAt ≤ svc.challengeTtlSeconds) (Ends svc subject) h :=
        since.mono fun e issued => ⟨e.2.now, ⟨issued.1, rfl⟩, issued.2⟩
      obtain ⟨issuedAt, standing⟩ := timed.exists_of
      have alive : now - issuedAt ≤ svc.challengeTtlSeconds := by
        obtain ⟨e, _, meets⟩ := standing.exists_mem
        exact meets.2
      have standing' : Standing svc subject presented issuedAt h := standing.mono fun _ => And.left
      rcases kept.stored subject presented issuedAt standing' with found | ⟨e, mem, ended⟩
      · exact ⟨_, found, rfl, alive⟩
      · have before := clock e.2 (History.mem_of_mem_run mem)
        omega
  · intro subject presented closed fault userId input
    exact finish_of_closed closed fault userId input
  · intro subject other draw entry ne stored alive
    exact find?_issue_of_ne ne stored (live_iff.mpr alive)

/-- A provider that decodes nothing. -/
def sampleCrypto : WebAuthnCrypto where
  sha256 := fun _ => []
  base64UrlEncode := fun bytes => String.ofList (bytes.map fun b => Char.ofNat (65 + b.toNat))
  base64UrlDecode := fun _ => none
  readJson := fun _ => .error ""
  parseAttestationObject := fun _ => none
  parseCoseKeyEs256 := fun _ => none
  verifyEs256Signature := fun _ _ _ _ => false

/-- Alice and then Bob ask for a challenge; five minutes later Alice comes back with hers. -/
theorem registration_challenge_one_shot_alice :
    let svc : WebAuthnService := { crypto := some sampleCrypto }
    let draw : Draw kChallengeBytes := Draw.filled (List.replicate 32 1)
    let requests : List Request := [.issue 0 "alice" draw, .issue 200 "bob" (Draw.failed 32)]
    let challenge := generateChallenge sampleCrypto draw
    svc.registrationGate 300 "alice" challenge (run svc .empty requests).2.challenges = true ∧
      Since (fun e => Issued svc "alice" challenge e ∧ 300 - e.2.now ≤ 300)
        (Ends svc "alice") (run svc .empty requests).1 := by
  intro svc draw requests challenge
  have clock : ∀ r ∈ requests, r.now ≤ 300 := by
    intro r mem
    rcases List.mem_pair.mp mem with rfl | rfl <;> decide
  have gate : svc.registrationGate 300 "alice" challenge
      (run svc .empty requests).2.challenges = true := by decide
  have said := registration_challenge_one_shot svc .empty requests 300 clock
  exact ⟨gate, ((said.1 "alice" challenge).mp gate).2.2⟩

end Registrations

end WebAuthnService

end Fulla
