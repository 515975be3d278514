/-!
# JSON values

A JSON value as it was written. A number keeps its spelling as far as it matters to a reader:
whether it has a sign, a fraction or an exponent, and how many of its digits stand after the point.
An object keeps all its entries in their order; of entries with equal keys the last one counts.
-/

namespace StoreClient

/-- The number `digits · 10 ^ (exponent - places)` with a sign in front or none. -/
structure Json.Number where
  negative : Bool := false
  digits : Nat
  /-- How many of the digits stand after the point. -/
  places : Nat := 0
  exponent : Int := 0
  /-- Whether it was written without a fraction and an exponent. -/
  whole : Bool := true
  deriving DecidableEq, Repr

/-- A JSON value. -/
inductive Json where
  | null
  | bool (b : Bool)
  | number (n : Json.Number)
  | text (s : String)
  | array (items : List Json)
  | object (entries : List (String × Json))
  deriving Repr, Inhabited

namespace Json

/-- The value of an entry of an object. -/
def get? (key : String) : Json → Option Json
  | object entries => entries.findRev? (·.1 == key) |>.map (·.2)
  | _ => none

/-- A whole number. -/
def toInt? : Json → Option Int
  | number ⟨negative, n, _, _, true⟩ => some (if negative then -(n : Int) else n)
  | _ => none

end Json

end StoreClient
