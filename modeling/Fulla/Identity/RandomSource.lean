import Mathlib.Data.List.Basic

/-!
# The random source

`ICryptoProvider::secureRandomBytes(buffer, length)` fills a buffer of the caller and
answers whether it could.  A call that fails may have written some of the bytes, or none;
the rest of the buffer is what it was before.
-/

namespace Fulla

/-- One call of `secureRandomBytes` for `n` bytes. -/
structure Draw (n : Nat) where
  /-- What it answers. -/
  ok : Bool
  /-- The random bytes it has written, from the start of the buffer. -/
  random : List UInt8
  within : random.length ≤ n
  complete_of_ok : ok = true → random.length = n

namespace Draw

variable {n : Nat}

/-- What the buffer holds afterwards. -/
def buffer (d : Draw n) (before : List UInt8) : List UInt8 :=
  d.random ++ before.drop d.random.length

/-- Every byte that was asked for is random. -/
def Complete (d : Draw n) : Prop :=
  d.random.length = n

instance (d : Draw n) : Decidable d.Complete :=
  inferInstanceAs (Decidable (_ = _))

/-- A call that fails and leaves the buffer alone. -/
def failed (n : Nat) : Draw n where
  ok := false
  random := []
  within := Nat.zero_le n
  complete_of_ok := fun ok => by cases ok

/-- A call that succeeds with the given bytes. -/
def filled (bytes : List UInt8) : Draw bytes.length where
  ok := true
  random := bytes
  within := Nat.le_refl _
  complete_of_ok := fun _ => rfl

end Draw

end Fulla
