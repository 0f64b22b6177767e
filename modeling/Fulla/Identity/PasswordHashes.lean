import Mathlib.Algebra.Group.Nat.Defs
import Fulla.Model.ConstantTime

/-!
# Stored password hashes

`hashPassword` and `verifyPassword` of the identity library's `AuthService.cc`, and `hash` and
`verify` of `PasswordHasher.cc`: two hands on one stored form,
`$pbkdf2-sha256$<iterations>$<hex salt>$<hex hash>`.  Both cut a stored text at the `$`s; they
read its hexadecimal fields, a count that is no number and a derivation that fails each in their
own way.

PBKDF2 derives a key from any positive count.  Texts are bytes, and a `char` is signed.
-/

namespace Fulla.PasswordHashes

open ConstantTime

/-- A C++ string. -/
abbrev Bytes := List UInt8

def ascii (text : String) : Bytes :=
  text.toList.map fun c => UInt8.ofNat c.toNat

/-- PBKDF2-HMAC-SHA-256 of a password, a salt and a count, and the digest of SHA-256. -/
structure PasswordCrypto where
  pbkdf2 : Bytes → Bytes → Nat → (keyLength : Nat) → Vector UInt8 keyLength
  sha256Hex : Bytes → Bytes

/-- `PKCS5_PBKDF2_HMAC`; `none` where it does not answer 1. -/
def PasswordCrypto.deriveKey (crypto : PasswordCrypto) (password salt : Bytes) (iterations : Int)
    (keyLength : Nat) : Option Bytes :=
  if iterations < 1 then none
  else some (crypto.pbkdf2 password salt iterations.toNat keyLength).toList

/-! ## What both do alike -/

/-- What a stored hash begins with. -/
def kFormat : Bytes :=
  ascii "$pbkdf2-sha256$"

/-- The digits that are written. -/
def hexChars : Bytes :=
  ascii "0123456789abcdef"

def bytesToHex : Bytes → Bytes
  | [] => []
  | b :: data =>
    hexChars.getD (b >>> 4).toNat 0 :: hexChars.getD (b &&& 0x0F).toNat 0 :: bytesToHex data

/-- The loop of `hexToBytes`: a byte of every two digits, and nothing of one that is left over. -/
def pairs (byte : UInt8 → UInt8 → UInt8) : Bytes → Bytes
  | hi :: lo :: hex => byte hi lo :: pairs byte hex
  | _ => []

/-- What `std::getline` finds between `$`s, less the pieces that are empty. -/
def fields (storedHash : Bytes) : List Bytes :=
  (storedHash.splitOn 36).filter (· ≠ [])

/-- `std::stoi`; `none` where it throws. -/
def stoi (field : Bytes) : Option Int :=
  stoInt (2 ^ 31) (String.ofList (field.map fun b => Char.ofNat b.toNat))

/-- The stored form: rounds, salt and hash. -/
def stored (iterations : Nat) (salt hash : Bytes) : Bytes :=
  kFormat ++ ascii (toString iterations) ++ ascii "$" ++ bytesToHex salt ++ ascii "$" ++
    bytesToHex hash

/-! ## `AuthService.cc` -/

namespace AuthService

variable (crypto : PasswordCrypto)

/-- The value of a digit, and 0 for anything else. -/
def nibble (c : UInt8) : UInt8 :=
  if 48 ≤ c ∧ c ≤ 57 then c - 48
  else if 97 ≤ c ∧ c ≤ 102 then c - 97 + 10
  else if 65 ≤ c ∧ c ≤ 70 then c - 65 + 10
  else 0

/-- Digits in pairs; one that is left over is dropped. -/
def hexToBytes : Bytes → Bytes :=
  pairs fun hi lo => nibble hi <<< 4 ||| nibble lo

/-- The hash has no format. -/
def isLegacyHash (storedHash : Bytes) : Bool :=
  !kFormat.isPrefixOf storedHash

/-- `OpenSslCryptoProvider::pbkdf2HmacSha256` is empty where the derivation fails. -/
def pbkdf2HmacSha256 (password salt : Bytes) (iterations : Int) (keyLength : Nat) : Bytes :=
  (crypto.deriveKey password salt iterations keyLength).getD []

/-- Whether the random source has filled the salt is not looked at. -/
def hashPassword (password : Bytes) (salt : Vector UInt8 16) : Except String Bytes :=
  let derived := pbkdf2HmacSha256 crypto password salt.toList 310000 32
  if derived.length ≠ 32 then .error "PBKDF2 hashing failed"
  else .ok (stored 310000 salt.toList derived)

/-- `verifyPassword`; a hash without a format is compared with a salted digest. -/
def verifyPassword (password storedHash legacySalt : Bytes) : Bool :=
  if !isLegacyHash storedHash then
    match fields storedHash with
    | [_, iterations, salt, hash] =>
      match stoi iterations with
      | none => false
      | some iterations =>
        let expectedHash := hexToBytes hash
        let derived := pbkdf2HmacSha256 crypto password (hexToBytes salt) iterations 32
        if derived.length ≠ expectedHash.length then false else diff derived expectedHash = 0
    | _ => false
  else
    let inputHash := crypto.sha256Hex (password ++ legacySalt)
    if inputHash.length ≠ storedHash.length then false
    else diff (inputHash.map lowerSigned) (storedHash.map lowerSigned) = 0

end AuthService

/-! ## `PasswordHasher.cc` -/

namespace PasswordHasher

variable (crypto : PasswordCrypto)

/-- The `int` that a `char` stands for, whatever the `char` is. -/
def digit (c : UInt8) : Int :=
  let c := c.toInt8.toInt
  if c ≥ 97 then c - 97 + 10 else if c ≥ 65 then c - 65 + 10 else c - 48

/-- The cast to a byte keeps the lowest eight bits of both `int`s. -/
def hexToBytes : Bytes → Bytes :=
  pairs fun hi lo => UInt8.ofInt (digit hi) <<< 4 ||| UInt8.ofInt (digit lo)

/-- `needsRehash`. -/
def needsRehash (storedHash : Bytes) : Bool :=
  !kFormat.isPrefixOf storedHash

/-- `PasswordHasher::hash`. -/
def hash (password : Bytes) (salt : Vector UInt8 16) : Except String Bytes :=
  match crypto.deriveKey password salt.toList 310000 32 with
  | none => .error "PBKDF2 hashing failed"
  | some derivedKey => .ok (stored 310000 salt.toList derivedKey)

/-- The salt parameter is not used.  Nothing catches what `std::stoi` throws. -/
def verify (password storedHash _salt : Bytes) : Except String Bool :=
  if needsRehash storedHash then .ok false
  else if !kFormat.isPrefixOf storedHash then .ok false
  else
    match fields storedHash with
    | [_, iterations, salt, hash] =>
      match stoi iterations with
      | none => .error "stoi"
      | some iterations =>
        let expectedHash := hexToBytes hash
        match crypto.deriveKey password (hexToBytes salt) iterations 32 with
        | none => .ok false
        | some derivedKey =>
          if expectedHash.length ≠ 32 then .ok false else .ok (diff derivedKey expectedHash = 0)
    | _ => .ok false

end PasswordHasher

/-! ## Reading them -/

section Bytes

/-- A byte for every two digits. -/
theorem length_pairs (byte : UInt8 → UInt8 → UInt8) (hex : Bytes) :
    (pairs byte hex).length = hex.length / 2 := by
  fun_induction pairs byte hex with
  | case1 hi lo hex ih =>
      rw [List.length_cons, ih, List.length_cons, List.length_cons]
      omega
  | case2 hex short =>
      rcases hex with _ | ⟨hi, _ | ⟨lo, hex⟩⟩
      · rfl
      · simp
      · exact (short hi lo hex rfl).elim

/-- Two readings that agree on the digits. -/
theorem pairs_congr {byte byte' : UInt8 → UInt8 → UInt8} {hex : Bytes}
    (same : ∀ hi ∈ hex, ∀ lo ∈ hex, byte hi lo = byte' hi lo) :
    pairs byte hex = pairs byte' hex := by
  fun_induction pairs byte hex with
  | case1 hi lo hex ih =>
      have rest : pairs byte hex = pairs byte' hex :=
        ih fun a a_mem b b_mem => same a (by simp [a_mem]) b (by simp [b_mem])
      rw [pairs, same hi (by simp) lo (by simp), rest]
  | case2 hex short =>
      rcases hex with _ | ⟨hi, _ | ⟨lo, hex⟩⟩
      · rfl
      · rfl
      · exact (short hi lo hex rfl).elim

/-- A hexadecimal digit. -/
def isHexDigit (c : UInt8) : Bool :=
  (48 ≤ c && c ≤ 57) || (97 ≤ c && c ≤ 102) || (65 ≤ c && c ≤ 70)

/-- A digit has one value in both copies. -/
theorem digit_eq_nibble {c : UInt8} (hex : isHexDigit c = true) :
    UInt8.ofInt (PasswordHasher.digit c) = AuthService.nibble c := by
  have all : ∀ k : Fin 256, isHexDigit (UInt8.ofNat k) = true →
      UInt8.ofInt (PasswordHasher.digit (UInt8.ofNat k)) =
        AuthService.nibble (UInt8.ofNat k) := by
    decide +kernel
  have here := all ⟨c.toNat, c.toNat_lt⟩
  rw [UInt8.ofNat_toNat] at here
  exact here hex

/-- Hexadecimal digits are read alike. -/
theorem hexToBytes_eq {hex : Bytes} (digits : ∀ c ∈ hex, isHexDigit c = true) :
    PasswordHasher.hexToBytes hex = AuthService.hexToBytes hex :=
  pairs_congr fun hi hi_mem lo lo_mem => by
    rw [digit_eq_nibble (digits hi hi_mem), digit_eq_nibble (digits lo lo_mem)]

end Bytes

/-! ## What a stored text is read as -/

section Reading

variable {crypto : PasswordCrypto} {count : Int}
  {password storedHash legacySalt name iterations salt hash : Bytes}

/-- Without a round there is no key. -/
theorem deriveKey_of_lt {keyLength : Nat} (few : count < 1) :
    crypto.deriveKey password salt count keyLength = none :=
  if_pos few

/-- With rounds there is one. -/
theorem deriveKey_of_pos {keyLength : Nat} (enough : ¬ count < 1) :
    crypto.deriveKey password salt count keyLength =
      some (crypto.pbkdf2 password salt count.toNat keyLength).toList :=
  if_neg enough

/-- A text of four fields whose count is a number. -/
structure Reads (storedHash name iterations salt hash : Bytes) (count : Int) : Prop where
  form : AuthService.isLegacyHash storedHash = false
  four : fields storedHash = [name, iterations, salt, hash]
  counted : stoi iterations = some count

/-- The first copy on a stored count below 1. -/
theorem AuthService.verifyPassword_of_lt
    (read : Reads storedHash name iterations salt hash count) (few : count < 1) :
    verifyPassword crypto password storedHash legacySalt = decide (hash.length < 2) := by
  simp only [verifyPassword, read.form, read.four, read.counted, pbkdf2HmacSha256,
    deriveKey_of_lt few, hexToBytes, length_pairs, Option.getD_none, List.length_nil,
    Bool.not_false, if_true]
  by_cases short : hash.length < 2
  · have none_ : hash.length / 2 = 0 := Nat.div_eq_of_lt short
    simp [none_, short, diff]
  · have some_ : 0 ≠ hash.length / 2 := by omega
    simp [some_, short]

/-- The first copy on a count that can be derived with. -/
theorem AuthService.verifyPassword_of_pos
    (read : Reads storedHash name iterations salt hash count) (enough : ¬ count < 1) :
    verifyPassword crypto password storedHash legacySalt =
      decide ((crypto.pbkdf2 password (hexToBytes salt) count.toNat 32).toList =
        hexToBytes hash) := by
  simp only [verifyPassword, read.form, read.four, read.counted, pbkdf2HmacSha256,
    deriveKey_of_pos enough, Option.getD_some, Bool.not_false, if_true]
  split
  · next other =>
      refine (decide_eq_false fun same => other ?_).symm
      rw [same]
  · next same => simp only [diff_eq_zero (not_not.mp same)]

/-- The second copy on a count below 1. -/
theorem PasswordHasher.verify_of_lt
    (read : Reads storedHash name iterations salt hash count) (few : count < 1) :
    verify crypto password storedHash legacySalt = .ok false := by
  have form : kFormat.isPrefixOf storedHash = true := by
    simpa [AuthService.isLegacyHash] using read.form
  simp [verify, needsRehash, form, read.four, read.counted, deriveKey_of_lt few]

/-- The second copy on a count that can be derived with. -/
theorem PasswordHasher.verify_of_pos
    (read : Reads storedHash name iterations salt hash count) (enough : ¬ count < 1) :
    verify crypto password storedHash legacySalt =
      .ok (decide ((crypto.pbkdf2 password (hexToBytes salt) count.toNat 32).toList =
        hexToBytes hash)) := by
  have form : kFormat.isPrefixOf storedHash = true := by
    simpa [AuthService.isLegacyHash] using read.form
  have derived : (crypto.pbkdf2 password (hexToBytes salt) count.toNat 32).toList.length = 32 :=
    Vector.length_toList
  simp only [verify, needsRehash, form, read.four, read.counted, deriveKey_of_pos enough,
    Bool.not_true, Bool.false_eq_true, if_false]
  split
  · next other =>
      refine congrArg Except.ok (decide_eq_false fun same => other ?_).symm
      rw [← same, derived]
  · next same => simp only [diff_eq_zero (derived.trans (not_not.mp same).symm)]

/-- Where the count is no number one of the two throws. -/
theorem verify_of_uncounted (crypto : PasswordCrypto) (password legacySalt : Bytes)
    (form : AuthService.isLegacyHash storedHash = false)
    (four : fields storedHash = [name, iterations, salt, hash])
    (uncounted : stoi iterations = none) :
    AuthService.verifyPassword crypto password storedHash legacySalt = false ∧
      PasswordHasher.verify crypto password storedHash legacySalt = .error "stoi" := by
  have begins : kFormat.isPrefixOf storedHash = true := by
    simpa [AuthService.isLegacyHash] using form
  constructor
  · simp [AuthService.verifyPassword, form, four, uncounted]
  · simp [PasswordHasher.verify, PasswordHasher.needsRehash, begins, four, uncounted]

/-- Both copies on a text without four fields. -/
theorem verify_of_not_four (crypto : PasswordCrypto) (password legacySalt : Bytes)
    (form : AuthService.isLegacyHash storedHash = false)
    (other : ∀ name iterations salt hash, fields storedHash ≠ [name, iterations, salt, hash]) :
    AuthService.verifyPassword crypto password storedHash legacySalt = false ∧
      PasswordHasher.verify crypto password storedHash legacySalt = .ok false := by
  have begins : kFormat.isPrefixOf storedHash = true := by
    simpa [AuthService.isLegacyHash] using form
  constructor
  · simp only [AuthService.verifyPassword, form, Bool.not_false, if_true]
  · simp only [PasswordHasher.verify, PasswordHasher.needsRehash, begins, Bool.not_true,
      Bool.false_eq_true, if_false]

end Reading

/-! ## Which texts both read alike -/

/-- Four fields are two that decode alike behind a count: of a derivation that succeeds if the
hash is of its length, and of one that fails if the hash is not empty. -/
def ReadAlike (storedHash : Bytes) : Prop :=
  ∀ name iterations salt hash, fields storedHash = [name, iterations, salt, hash] →
    ∃ count, stoi iterations = some count ∧
      if count < 1 then 2 ≤ hash.length
      else hash.length / 2 = 32 →
        PasswordHasher.hexToBytes salt = AuthService.hexToBytes salt ∧
          PasswordHasher.hexToBytes hash = AuthService.hexToBytes hash

section Agreement

variable {storedHash : Bytes}

/-- **Both copies agree on a text that they read alike**. -/
theorem verify_eq_of_readAlike (form : AuthService.isLegacyHash storedHash = false)
    (alike : ReadAlike storedHash) (crypto : PasswordCrypto) (password legacySalt : Bytes) :
    PasswordHasher.verify crypto password storedHash legacySalt =
      .ok (AuthService.verifyPassword crypto password storedHash legacySalt) := by
  by_cases four : ∃ name iterations salt hash, fields storedHash = [name, iterations, salt, hash]
  · obtain ⟨name, iterations, salt, hash, four⟩ := four
    obtain ⟨count, counted, same⟩ := alike name iterations salt hash four
    have read : Reads storedHash name iterations salt hash count := ⟨form, four, counted⟩
    split at same
    · next few =>
        rw [PasswordHasher.verify_of_lt read few, AuthService.verifyPassword_of_lt read few,
          decide_eq_false (Nat.not_lt.mpr same)]
    · next enough =>
        rw [PasswordHasher.verify_of_pos read enough, AuthService.verifyPassword_of_pos read enough]
        by_cases whole : hash.length / 2 = 32
        · rw [(same whole).1, (same whole).2]
        · have other (byte : UInt8 → UInt8 → UInt8) (key : Vector UInt8 32) :
              key.toList ≠ pairs byte hash := by
            intro eq
            rw [← length_pairs byte, ← eq, Vector.length_toList] at whole
            exact whole rfl
          exact congrArg Except.ok
            ((decide_eq_false (other _ _)).trans (decide_eq_false (other _ _)).symm)
  · have not_four := verify_of_not_four crypto password legacySalt form
      fun name iterations salt hash eq =>
      four ⟨name, iterations, salt, hash, eq⟩
    rw [not_four.1, not_four.2]

/-- A provider whose keys are a given function of the salt. -/
def keyedBy (key : Bytes → Bytes) : PasswordCrypto where
  pbkdf2 _ salt _ _ := Vector.ofFn fun i => (key salt).getD i 0
  sha256Hex := id

theorem toList_keyedBy {key : Bytes → Bytes} {salt : Bytes} (password : Bytes) (n : Nat)
    {keyLength : Nat} (whole : (key salt).length = keyLength) :
    ((keyedBy key).pbkdf2 password salt n keyLength).toList = key salt := by
  subst whole
  refine List.ext_getElem Vector.length_toList fun i _ i_lt => ?_
  simp [keyedBy]

/-- Of the texts in the format, these are the only ones. -/
theorem agree_iff_readAlike (form : AuthService.isLegacyHash storedHash = false) :
    (∀ crypto password legacySalt, PasswordHasher.verify crypto password storedHash legacySalt =
      .ok (AuthService.verifyPassword crypto password storedHash legacySalt)) ↔
      ReadAlike storedHash := by
  refine ⟨fun agree name iterations salt hash four => ?_, verify_eq_of_readAlike form⟩
  cases counted : stoi iterations with
  | none =>
      obtain ⟨rejects, throws⟩ := verify_of_uncounted (keyedBy id) [] [] form four counted
      have same := agree (keyedBy id) [] []
      rw [throws] at same
      cases same
  | some count =>
      have read : Reads storedHash name iterations salt hash count := ⟨form, four, counted⟩
      refine ⟨count, rfl, ?_⟩
      split
      · next few =>
          have same := agree (keyedBy id) [] []
          rw [PasswordHasher.verify_of_lt read few,
            AuthService.verifyPassword_of_lt read few] at same
          exact Nat.not_lt.mp (of_decide_eq_false (Except.ok.inj same).symm)
      · next enough =>
          intro whole
          by_contra differ
          -- The key of one reading of the salt is the hash as the same hand reads it.
          let other : Bytes :=
            if AuthService.hexToBytes hash = List.replicate 32 0 then List.replicate 32 1
            else List.replicate 32 0
          have other_ne : other ≠ AuthService.hexToBytes hash := by
            intro eq
            by_cases zero : AuthService.hexToBytes hash = List.replicate 32 0
            · rw [zero] at eq
              simp only [other, if_pos zero] at eq
              exact absurd eq (by decide)
            · simp only [other, if_neg zero] at eq
              exact zero eq.symm
          let key : Bytes → Bytes := fun read =>
            if read = PasswordHasher.hexToBytes salt then PasswordHasher.hexToBytes hash else other
          have key_length (read : Bytes) : (key read).length = 32 := by
            simp only [key, other]
            split
            · rw [PasswordHasher.hexToBytes, length_pairs, whole]
            · split
              · rfl
              · rfl
          have same := agree (keyedBy key) [] []
          rw [PasswordHasher.verify_of_pos read enough,
            AuthService.verifyPassword_of_pos read enough,
            toList_keyedBy _ _ (key_length _), toList_keyedBy _ _ (key_length _)] at same
          have hit : key (PasswordHasher.hexToBytes salt) = PasswordHasher.hexToBytes hash :=
            if_pos rfl
          rw [hit, decide_eq_true rfl] at same
          have accepted : key (AuthService.hexToBytes salt) = AuthService.hexToBytes hash :=
            of_decide_eq_true (Except.ok.inj same).symm
          simp only [key] at accepted
          split at accepted
          · next salts => exact differ ⟨salts.symm, accepted⟩
          · exact other_ne accepted

end Agreement

/-! ## What either produces -/

section Produced

/-- The digits of a byte are read back, and they are digits. -/
theorem hex_of_bytesToHex : ∀ b : UInt8,
    AuthService.nibble (hexChars.getD (b >>> 4).toNat 0) <<< 4 |||
        AuthService.nibble (hexChars.getD (b &&& 0x0F).toNat 0) = b ∧
      isHexDigit (hexChars.getD (b >>> 4).toNat 0) = true ∧
        isHexDigit (hexChars.getD (b &&& 0x0F).toNat 0) = true := by
  intro b
  have all : ∀ k : Fin 256, let b := UInt8.ofNat k
      AuthService.nibble (hexChars.getD (b >>> 4).toNat 0) <<< 4 |||
          AuthService.nibble (hexChars.getD (b &&& 0x0F).toNat 0) = b ∧
        isHexDigit (hexChars.getD (b >>> 4).toNat 0) = true ∧
          isHexDigit (hexChars.getD (b &&& 0x0F).toNat 0) = true := by
    decide +kernel
  have here := all ⟨b.toNat, b.toNat_lt⟩
  rwa [UInt8.ofNat_toNat] at here

/-- Written bytes are read back. -/
theorem hexToBytes_bytesToHex (data : Bytes) : AuthService.hexToBytes (bytesToHex data) = data := by
  induction data with
  | nil => rfl
  | cons b data ih =>
      rw [bytesToHex, AuthService.hexToBytes, pairs, (hex_of_bytesToHex b).1]
      exact congrArg (b :: ·) ih

theorem isHexDigit_of_mem {data : Bytes} {c : UInt8} (mem : c ∈ bytesToHex data) :
    isHexDigit c = true := by
  induction data with
  | nil => cases mem
  | cons b data ih =>
      rcases List.mem_cons.mp mem with rfl | mem
      · exact (hex_of_bytesToHex b).2.1
      · rcases List.mem_cons.mp mem with rfl | mem
        · exact (hex_of_bytesToHex b).2.2
        · exact ih mem

/-- Digits are no separators. -/
theorem dollar_notMem_bytesToHex (data : Bytes) : 36 ∉ bytesToHex data := fun mem =>
  absurd (isHexDigit_of_mem mem) (by decide)

theorem bytesToHex_ne_nil {data : Bytes} (some_ : data ≠ []) : bytesToHex data ≠ [] := by
  cases data with
  | nil => exact absurd rfl some_
  | cons b data => exact List.cons_ne_nil _ _

variable {salt hash : Bytes}

/-- What a stored text is read as. -/
theorem reads_stored (salted : salt ≠ []) (hashed : hash ≠ []) :
    Reads (stored 310000 salt hash) (ascii "pbkdf2-sha256") (ascii "310000") (bytesToHex salt)
      (bytesToHex hash) 310000 := by
  have text : stored 310000 salt hash =
      [] ++ 36 :: (ascii "pbkdf2-sha256" ++ 36 :: (ascii "310000" ++ 36 ::
        (bytesToHex salt ++ 36 :: bytesToHex hash))) := by
    have parts : kFormat ++ ascii (toString 310000) ++ ascii "$" =
        36 :: (ascii "pbkdf2-sha256" ++ 36 :: (ascii "310000" ++ [36])) := by
      decide
    rw [stored, parts]
    simp [show ascii "$" = [36] from rfl]
  refine ⟨?_, ?_, by decide⟩
  · rw [AuthService.isLegacyHash, Bool.not_eq_false', List.isPrefixOf_iff_prefix]
    simp only [stored, List.append_assoc]
    exact List.prefix_append ..
  · rw [fields, text, List.splitOn_append_cons_self_of_not_mem List.not_mem_nil,
      List.splitOn_append_cons_self_of_not_mem (by decide),
      List.splitOn_append_cons_self_of_not_mem (by decide),
      List.splitOn_append_cons_self_of_not_mem (dollar_notMem_bytesToHex salt),
      List.splitOn_eq_singleton (dollar_notMem_bytesToHex hash)]
    have salt_ne := bytesToHex_ne_nil salted
    have hash_ne := bytesToHex_ne_nil hashed
    have name_ne : ascii "pbkdf2-sha256" ≠ [] := by decide
    have count_ne : ascii "310000" ≠ [] := by decide
    simp [salt_ne, hash_ne, name_ne, count_ne]

/-- The key that both derive for a new hash. -/
def newKey (crypto : PasswordCrypto) (password : Bytes) (salt : Vector UInt8 16) : Bytes :=
  (crypto.pbkdf2 password salt.toList 310000 32).toList

/-- Both copies write the same text. -/
theorem hash_eq (crypto : PasswordCrypto) (password : Bytes) (salt : Vector UInt8 16) :
    AuthService.hashPassword crypto password salt =
        .ok (stored 310000 salt.toList (newKey crypto password salt)) ∧
      PasswordHasher.hash crypto password salt =
        .ok (stored 310000 salt.toList (newKey crypto password salt)) := by
  have derived : crypto.deriveKey password salt.toList 310000 32 =
      some (newKey crypto password salt) := if_neg (by decide)
  constructor
  · have whole : (newKey crypto password salt).length = 32 := Vector.length_toList
    simp only [AuthService.hashPassword, AuthService.pbkdf2HmacSha256, derived, Option.getD_some]
    exact if_neg (not_not.mpr whole)
  · simp only [PasswordHasher.hash, derived]

theorem ne_nil_of_length {bs : Bytes} {n : Nat} (length : bs.length = n + 1) : bs ≠ [] := by
  rintro rfl
  cases length

/-- **A stored text is accepted by both**. -/
theorem stored_accepted (crypto : PasswordCrypto) (password legacySalt : Bytes)
    (salt : Vector UInt8 16) :
    AuthService.verifyPassword crypto password
          (stored 310000 salt.toList (newKey crypto password salt)) legacySalt = true ∧
      PasswordHasher.verify crypto password
          (stored 310000 salt.toList (newKey crypto password salt)) legacySalt = .ok true := by
  have key_length : (newKey crypto password salt).length = 32 := Vector.length_toList
  have salt_length : salt.toList.length = 16 := Vector.length_toList
  have read := reads_stored (ne_nil_of_length salt_length) (ne_nil_of_length key_length)
  have enough : ¬ (310000 : Int) < 1 := by decide
  have alike (data : Bytes) : PasswordHasher.hexToBytes (bytesToHex data) = data :=
    (hexToBytes_eq fun c mem => isHexDigit_of_mem mem).trans (hexToBytes_bytesToHex data)
  constructor
  · rw [AuthService.verifyPassword_of_pos read enough, hexToBytes_bytesToHex,
      hexToBytes_bytesToHex]
    exact decide_eq_true rfl
  · rw [PasswordHasher.verify_of_pos read enough, alike, alike]
    exact congrArg Except.ok (decide_eq_true rfl)

end Produced

/-- A text in the format whose four fields are read alike gets one answer from both.  A text in
another format is never accepted by the hasher, and by the other exactly if it is the digest of
the password and the salt.  What either produces both accept. -/
theorem password_hashes_interchangeable (crypto : PasswordCrypto) :
    (∀ storedHash, AuthService.isLegacyHash storedHash = false → ReadAlike storedHash →
        ∀ password legacySalt, PasswordHasher.verify crypto password storedHash legacySalt =
          .ok (AuthService.verifyPassword crypto password storedHash legacySalt)) ∧
      (∀ storedHash, AuthService.isLegacyHash storedHash = true → ∀ password legacySalt,
        PasswordHasher.verify crypto password storedHash legacySalt = .ok false ∧
          (AuthService.verifyPassword crypto password storedHash legacySalt = true ↔
            (crypto.sha256Hex (password ++ legacySalt)).map lowerSigned =
              storedHash.map lowerSigned)) ∧
      ∀ password salt legacySalt, ∃ storedHash,
        AuthService.hashPassword crypto password salt = .ok storedHash ∧
          PasswordHasher.hash crypto password salt = .ok storedHash ∧
            AuthService.verifyPassword crypto password storedHash legacySalt = true ∧
              PasswordHasher.verify crypto password storedHash legacySalt = .ok true := by
  refine ⟨fun storedHash form alike => verify_eq_of_readAlike form alike crypto,
    fun storedHash legacy password legacySalt => ⟨?_, ?_⟩, fun password salt legacySalt => ?_⟩
  · have stale : PasswordHasher.needsRehash storedHash = true := legacy
    rw [PasswordHasher.verify, if_pos stale]
  · simp only [AuthService.verifyPassword, legacy, Bool.not_true, Bool.false_eq_true, if_false]
    split
    · next other =>
        refine iff_of_false Bool.false_ne_true fun same => other ?_
        simpa using congrArg List.length same
    · next same =>
        rw [decide_eq_true_eq]
        exact diff_eq_zero (by simpa using same)
  · obtain ⟨hashed, hashed'⟩ := hash_eq crypto password salt
    exact ⟨_, hashed, hashed', stored_accepted crypto password legacySalt salt⟩

/-! ### A digest of SHA-256 -/

/-- The digest of a legacy account. -/
def adminDigest : Bytes :=
  ascii "8c6976e5b5410415bde908bd4dee15dfb167a9c873fc4bb8a81f6f2ab448a918"

/-- SHA-256 of the password `admin`, and nothing else. -/
def sampleCrypto : PasswordCrypto where
  pbkdf2 _ _ _ keyLength := Vector.replicate keyLength 0
  sha256Hex text := if text = ascii "admin" then adminDigest else []

/-- One of the two accepts it. -/
theorem legacy_digest_divides :
    AuthService.verifyPassword sampleCrypto (ascii "admin") adminDigest [] = true ∧
      PasswordHasher.verify sampleCrypto (ascii "admin") adminDigest [] = .ok false := by
  decide

/-- One iteration, a salt of one byte and the key that `sampleCrypto` derives, as 64 digits. -/
def zeroKeyHash : Bytes :=
  ascii "$pbkdf2-sha256$1$ab$" ++ List.replicate 64 48

/-- The two decode the same salt and the same 32 bytes, and both find them to be the derived key;
of the digest they differ. -/
theorem two_texts_judged :
    PasswordHasher.verify sampleCrypto [] zeroKeyHash [] =
        .ok (AuthService.verifyPassword sampleCrypto [] zeroKeyHash []) ∧
      AuthService.verifyPassword sampleCrypto [] zeroKeyHash [] = true ∧
        PasswordHasher.verify sampleCrypto (ascii "admin") adminDigest [] = .ok false := by
  have four : fields zeroKeyHash =
      [ascii "pbkdf2-sha256", ascii "1", ascii "ab", List.replicate 64 48] := by
    decide
  refine ⟨(password_hashes_interchangeable sampleCrypto).1 _ (by decide) ?_ _ _, by decide,
    ((password_hashes_interchangeable sampleCrypto).2.1 _ (by decide) _ _).1⟩
  intro name iterations salt hash read
  cases four.symm.trans read
  exact ⟨1, by decide, by decide⟩

/-! ## Texts that are not of the form -/

/-- `$pbkdf2-sha256$`, a positive decimal, an even number of hexadecimal digits and 64 of them. -/
def WellFormed (storedHash : Bytes) : Prop :=
  ∃ count salt hash, storedHash = kFormat ++ (count ++ 36 :: (salt ++ 36 :: hash)) ∧
    (∀ c ∈ count, 48 ≤ c ∧ c ≤ 57) ∧ (∃ c ∈ count, c ≠ 48) ∧
      salt.length % 2 = 0 ∧ (∀ c ∈ salt, isHexDigit c = true) ∧
        hash.length = 64 ∧ ∀ c ∈ hash, isHexDigit c = true

/-- Both answer that no password is this one, and neither throws. -/
def NeverVerifies (storedHash : Bytes) : Prop :=
  ∀ crypto password legacySalt,
    AuthService.verifyPassword crypto password storedHash legacySalt = false ∧
      PasswordHasher.verify crypto password storedHash legacySalt = .ok false

/-- Four fields have a count that is a number, of a derivation that fails with a hash that is not
empty, or of one that succeeds with a hash of another length. -/
def Unmatchable (storedHash : Bytes) : Prop :=
  ∀ name iterations salt hash, fields storedHash = [name, iterations, salt, hash] →
    ∃ count, stoi iterations = some count ∧
      if count < 1 then 2 ≤ hash.length else hash.length / 2 ≠ 32

/-- When no password is accepted. -/
theorem neverVerifies_iff {storedHash : Bytes}
    (form : AuthService.isLegacyHash storedHash = false) :
    NeverVerifies storedHash ↔ Unmatchable storedHash := by
  constructor
  case mp =>
    intro never name iterations salt hash four
    cases counted : stoi iterations with
    | none =>
        have throws := (verify_of_uncounted sampleCrypto [] [] form four counted).2
        rw [(never sampleCrypto [] []).2] at throws
        cases throws
    | some count =>
        have read : Reads storedHash name iterations salt hash count := ⟨form, four, counted⟩
        refine ⟨count, rfl, ?_⟩
        split
        · next few =>
            have rejects := (never sampleCrypto [] []).1
            rw [AuthService.verifyPassword_of_lt read few] at rejects
            exact Nat.not_lt.mp (of_decide_eq_false rejects)
        · next enough =>
            intro whole
            have rejects := (never (keyedBy fun _ => AuthService.hexToBytes hash) [] []).1
            rw [AuthService.verifyPassword_of_pos read enough, toList_keyedBy] at rejects
            · exact of_decide_eq_false rejects rfl
            · exact (length_pairs _ _).trans whole
  case mpr =>
    intro unmatchable crypto password legacySalt
    have alike : ReadAlike storedHash := by
      intro name iterations salt hash four
      obtain ⟨count, counted, cond⟩ := unmatchable name iterations salt hash four
      refine ⟨count, counted, ?_⟩
      split at cond
      · next few => rwa [if_pos few]
      · next enough =>
          rw [if_neg enough]
          exact fun whole => absurd whole cond
    have same := verify_eq_of_readAlike form alike crypto password legacySalt
    suffices rejects : AuthService.verifyPassword crypto password storedHash legacySalt = false from
      ⟨rejects, by rw [same, rejects]⟩
    by_cases four :
        ∃ name iterations salt hash, fields storedHash = [name, iterations, salt, hash]
    · obtain ⟨name, iterations, salt, hash, four⟩ := four
      obtain ⟨count, counted, cond⟩ := unmatchable name iterations salt hash four
      have read : Reads storedHash name iterations salt hash count := ⟨form, four, counted⟩
      split at cond
      · next few =>
          rw [AuthService.verifyPassword_of_lt read few]
          exact decide_eq_false (Nat.not_lt.mpr cond)
      · next enough =>
          rw [AuthService.verifyPassword_of_pos read enough]
          refine decide_eq_false fun eq => cond ?_
          have length := congrArg List.length eq
          rw [Vector.length_toList, AuthService.hexToBytes, length_pairs] at length
          exact length.symm
    · exact (verify_of_not_four crypto password legacySalt form
        fun name iterations salt hash eq => four ⟨name, iterations, salt, hash, eq⟩).1

/-- A text of the format that is not of the form is refused by both exactly if it is one that no
derived key can match. -/
theorem malformed_refused_iff (storedHash : Bytes) :
    (AuthService.isLegacyHash storedHash = false → ¬ WellFormed storedHash →
        NeverVerifies storedHash) ↔
      AuthService.isLegacyHash storedHash = true ∨ WellFormed storedHash ∨
        Unmatchable storedHash := by
  by_cases form : AuthService.isLegacyHash storedHash = false
  · rw [neverVerifies_iff form]
    simp only [form, Bool.false_eq_true, false_or, true_imp_iff]
    exact or_iff_not_imp_left.symm
  · exact iff_of_true (fun legacy => absurd legacy form) (.inl (by simpa using form))

/-- With no iteration and one digit for the hash every password is accepted by the one, and a
count that is no number makes the other throw. -/
theorem empty_key_accepted :
    (AuthService.isLegacyHash (ascii "$pbkdf2-sha256$0$a$b") = false ∧
        ¬ WellFormed (ascii "$pbkdf2-sha256$0$a$b") ∧
          ∀ crypto password legacySalt, AuthService.verifyPassword crypto password
            (ascii "$pbkdf2-sha256$0$a$b") legacySalt = true) ∧
      AuthService.isLegacyHash (ascii "$pbkdf2-sha256$x$aa$bb") = false ∧
        ¬ WellFormed (ascii "$pbkdf2-sha256$x$aa$bb") ∧
          ∀ crypto password legacySalt, PasswordHasher.verify crypto password
            (ascii "$pbkdf2-sha256$x$aa$bb") legacySalt = .error "stoi" := by
  have long {storedHash : Bytes} (short : storedHash.length < 64) : ¬ WellFormed storedHash := by
    rintro ⟨count, salt, hash, rfl, -, -, -, -, length, -⟩
    simp only [List.length_append, List.length_cons, length] at short
    omega
  have four : fields (ascii "$pbkdf2-sha256$0$a$b") =
      [ascii "pbkdf2-sha256", ascii "0", ascii "a", ascii "b"] := by
    decide
  have four' : fields (ascii "$pbkdf2-sha256$x$aa$bb") =
      [ascii "pbkdf2-sha256", ascii "x", ascii "aa", ascii "bb"] := by
    decide
  have form : AuthService.isLegacyHash (ascii "$pbkdf2-sha256$0$a$b") = false := by
    decide
  have form' : AuthService.isLegacyHash (ascii "$pbkdf2-sha256$x$aa$bb") = false := by
    decide
  refine ⟨⟨form, long (by decide), fun crypto password legacySalt => ?_⟩, form',
    long (by decide), fun crypto password legacySalt => ?_⟩
  · have read : Reads (ascii "$pbkdf2-sha256$0$a$b") _ _ _ _ 0 := ⟨form, four, by decide⟩
    rw [AuthService.verifyPassword_of_lt read (by decide)]
    decide
  · exact (verify_of_uncounted crypto password legacySalt form' four' (by decide)).2

end Fulla.PasswordHashes
