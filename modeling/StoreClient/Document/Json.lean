import StoreClient.Document
import StoreClient.Json
import StoreClient.Pack.Value

/-!
# Documents from JSON

JSON has one kind of number. Here a number written without a fraction or an exponent is an integer
if it fits 64 bits, with a sign or without; every other number, minus zero included, is a
floating-point number. It is read in floating-point arithmetic, from the leading digits that fit
64 bits and a power of ten, and may differ in its last bit from the nearest one.

An object is a map whose entries are sorted by their keys. `Value.toJson` is the JSON form of a
value to be written.
-/

namespace StoreClient

namespace Document

/-! ## Numbers -/

/-- Continues a significand with the leading ones of `count` digits, as many as fit 64 bits; gives
how many did too. -/
def keepDigits (significand digits : Nat) : (count : Nat) → Nat × Nat
  | 0 => (significand, 0)
  | count + 1 =>
    let next := significand * 10 + digits / Nat.pow 10 count % 10
    if next < UInt64.size then
      let (significand, kept) := keepDigits next digits count
      (significand, kept + 1)
    else (significand, 0)

/-- The leading digits of a number that fit 64 bits, and the power of ten that goes with them. A
digit left out before the point counts in that power, one after it does not. -/
def significand (n : Json.Number) : Nat × Int :=
  let whole := n.digits / Nat.pow 10 n.places
  let count := (Nat.toDigits 10 whole).length
  let (significand, kept) := keepDigits 0 whole count
  let (significand, places) := keepDigits significand n.digits n.places
  (significand, n.exponent + (count - kept : Nat) - places)

/-- A floating-point number times a power of ten. A power too large to be a floating-point number
itself is taken in two steps, which lead to zero or beyond all numbers before a third could matter.
-/
def scale (x : Float) (power : Int) : Float :=
  let n := power.natAbs
  let steps := if n ≤ 308 then [n] else [308, min (n - 308) 308]
  steps.foldl (fun x step =>
    let ten := Float.ofScientific 1 false step
    if 0 ≤ power then x * ten else x / ten) x

/-- The floating-point number that a number is read as. -/
def ofDecimal (n : Json.Number) : Document :=
  let (significand, power) := significand n
  let x := scale significand.toUInt64.toFloat power
  .float (if n.negative then -x else x).toBits

/-- A number. -/
def ofNumber (n : Json.Number) : Document :=
  if n.whole ∧ !n.negative ∧ n.digits < UInt64.size then .unsigned n.digits
  else if n.whole ∧ n.negative ∧ 0 < n.digits ∧ n.digits ≤ UInt64.size / 2 then
    .signed (-(n.digits : Int))
  else ofDecimal n

/-! ## Objects -/

/-- Puts an entry in its place among entries sorted by key, instead of one with the same key. -/
def insertEntry (key : String) (d : Document) :
    List (String × Document) → List (String × Document)
  | [] => [(key, d)]
  | (k, v) :: rest =>
    if key < k then (key, d) :: (k, v) :: rest
    else if key = k then (key, d) :: rest
    else (k, v) :: insertEntry key d rest

/-- Entries sorted by key, the last one of each key. -/
def sortEntries (entries : List (String × Document)) : List (String × Document) :=
  entries.foldl (fun sorted (key, d) => insertEntry key d sorted) []

/-- The map of some entries. -/
def ofEntries (entries : List (String × Document)) : Document :=
  .map none ((sortEntries entries).flatMap fun (key, d) => [.text none (Utf8.encode key), d])

/-! ## Values -/

mutual

/-- The document of a JSON value. -/
def ofJson : Json → Document
  | .null => .null
  | .bool b => .bool b
  | .number n => ofNumber n
  | .text s => .text none (Utf8.encode s)
  | .array items => .array none (ofJsonItems items)
  | .object entries => ofEntries (ofJsonEntries entries)

/-- The documents of the items of an array. -/
def ofJsonItems : List Json → List Document
  | [] => []
  | v :: rest => ofJson v :: ofJsonItems rest

/-- The documents of the entries of an object. -/
def ofJsonEntries : List (String × Json) → List (String × Document)
  | [] => []
  | (key, v) :: rest => (key, ofJson v) :: ofJsonEntries rest

end

end Document

/-! ## Written values -/

namespace Value

mutual

/-- The JSON form of a value; a byte string is an array of numbers there. -/
def toJson : Value → Json
  | null => .null
  | bool b => .bool b
  | nat n => .number { digits := n }
  | text s => .text s
  | binary bs => .array (bs.map fun b => .number { digits := b.toNat })
  | array items => .array (toJsonItems items)
  | map entries => .object (toJsonEntries entries)

/-- The JSON forms of the items of an array. -/
def toJsonItems : List Value → List Json
  | [] => []
  | v :: rest => toJson v :: toJsonItems rest

/-- The JSON forms of the entries of a map. -/
def toJsonEntries : List (String × Value) → List (String × Json)
  | [] => []
  | (key, v) :: rest => (key, toJson v) :: toJsonEntries rest

end

end Value

end StoreClient
