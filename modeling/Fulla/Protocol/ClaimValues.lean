import Mathlib.Algebra.Order.Floor.Ring
import Mathlib.Data.Rat.Floor
import Fulla.Jwk.JwkManager
import Fulla.Model.Text

/-!
# The value of a mapped claim

`resolveClaimSourceValueImpl` of `TokenService.cc`: it reads the attribute that a source path
addresses in a user's profile and writes a scalar as text.  An integral number is converted to
`int64_t`, which throws from `2^63` on.
-/

namespace Fulla

open Conc Jwk

/-! ## Numbers as text -/

/-- To the nearest integer, and to the even one of two. -/
def roundHalfEven (q : Rat) : Int :=
  let rest := q - q.floor
  if rest < 1 / 2 then q.floor
  else if 1 / 2 < rest then q.floor + 1
  else if q.floor % 2 = 0 then q.floor
  else q.floor + 1

/-- `std::to_string` of a `double`: `%f`, with six digits after the point. -/
def toFixed (q : Rat) : String :=
  let micros := (roundHalfEven ((if q < 0 then -q else q) * 1000000)).toNat
  (if q < 0 then "-" else "") ++ toString (micros / 1000000) ++ "." ++
    String.ofList ((Nat.toDigits 10 (micros % 1000000)).leftpad 6 '0')

namespace Jwk.JsonValue

/-- `isIntegral`: an integer, or a whole `double` in the range of the two 64-bit types. -/
def isIntegral : JsonValue → Bool
  | int _ => true
  | uint _ => true
  | real q => -2 ^ 63 ≤ q && q < 2 ^ 64 && q.isInt
  | _ => false

end Jwk.JsonValue

namespace TokenService

/-- The value to publish, if there is one; an exception leaves the function. -/
def resolveClaimSourceValueImpl (json : JsonCpp) (sourcePath : String) (userJson : List UInt8) :
    Except String (Option String) := do
  match ← json.parse userJson with
  | some (.obj root) =>
    let node : Option JsonValue :=
      if sourcePath = "user.display_name" then some ((root.lookup "display_name").getD .null)
      else
        match afterText "custom_attributes." sourcePath with
        | none => none
        | some key =>
          match root.lookup "custom_attributes" with
          | some (.obj attrs) => attrs.lookup key
          | _ => none
    match node with
    | none => return none
    | some (.str s) => return if s = "" then none else some s
    | some node =>
      if node.isIntegral then return some (toString (← node.asInt64 json))
      else
        match node with
        | .real q => return some (toFixed q)
        | .bool b => return some (if b then "true" else "false")
        | _ => return none
  | _ => return none

end TokenService

end Fulla
