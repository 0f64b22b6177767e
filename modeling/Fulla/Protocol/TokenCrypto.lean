import Fulla.Model.Text
import Fulla.Storage.Repository

/-!
# Token generation, token hashing and PKCE

`TokenCrypto.cc` and `Pkce.cc`.  The hash functions and the encoder are the
injected `ICryptoProvider`; its random source is an operation of the environment.
-/

namespace Fulla

open Conc

/-- The pure part of `ICryptoProvider`. -/
structure CryptoProvider where
  sha256 : String → List UInt8
  sha256Hex : String → String
  base64UrlEncode : List UInt8 → String

/-- Empty when the CSPRNG fails; callers treat an empty token as issuance failure. -/
def generateSecureToken (crypto : CryptoProvider) (bytes : Nat) : StoreProg String := do
  let buffer : Option (List UInt8) ← ask (.secureRandomBytes bytes)
  match buffer with
  | none => return ""
  | some b => return crypto.base64UrlEncode b

/-- The form in which tokens and codes are stored. -/
def hashToken (crypto : CryptoProvider) (rawToken : String) : String :=
  toUpperAscii (crypto.sha256Hex rawToken)

namespace Pkce

/-- Any method but `S256` is the identity. -/
def computeCodeChallenge (crypto : CryptoProvider) (codeVerifier method : String) : String :=
  if method = "S256" then crypto.base64UrlEncode (crypto.sha256 codeVerifier) else codeVerifier

/-- The challenge of the verifier is the one that was stored. -/
def verifyCodeVerifier (crypto : CryptoProvider) (codeVerifier challenge method : String) : Bool :=
  computeCodeChallenge crypto codeVerifier method = challenge

/-- `std::isalnum` in the C locale, or one of `-._~`. -/
def unreserved (c : Char) : Bool :=
  c.isAlphanum || c = '-' || c = '.' || c = '_' || c = '~'

/-- RFC 7636: 43 to 128 unreserved characters. -/
def isValidCodeChallengeFormat (codeChallenge : String) : Bool :=
  43 ≤ codeChallenge.length && codeChallenge.length ≤ 128 && codeChallenge.toList.all unreserved

end Pkce

end Fulla
