import StoreClient.Bytes

/-!
# Byte strings as text

A byte string is shown as two hexadecimal digits for each octet, in lower case. Either case is read.
-/

namespace StoreClient.Bytes

/-- The digit of a number below sixteen. -/
def hexDigit (n : Nat) : Char := if n < 10 then Char.ofNat (0x30 + n) else Char.ofNat (0x57 + n)

/-- The number that a digit stands for. -/
def hexValue? (c : Char) : Option Nat :=
  let n := c.toNat
  if 0x30 ≤ n ∧ n ≤ 0x39 then some (n - 0x30)
  else if 0x61 ≤ n ∧ n ≤ 0x66 then some (n - 0x57)
  else if 0x41 ≤ n ∧ n ≤ 0x46 then some (n - 0x37)
  else none

/-- The two digits of an octet. -/
def hexPair (b : UInt8) : List Char := [hexDigit (b.toNat / 16), hexDigit (b.toNat % 16)]

/-- A byte string as text. -/
def toHex (bs : Bytes) : String := String.ofList (bs.flatMap hexPair)

/-- Puts the octets that pairs of digits stand for after those of `done`, which holds the latest
first. -/
def ofHexDigitsOnto? (done : Bytes) : List Char → Option Bytes
  | [] => some done.reverse
  | high :: low :: rest =>
    match hexValue? high, hexValue? low with
    | some h, some l => ofHexDigitsOnto? (UInt8.ofNat (h * 16 + l) :: done) rest
    | _, _ => none
  | [_] => none

/-- The byte string that a text shows. -/
def ofHex? (s : String) : Option Bytes := ofHexDigitsOnto? [] s.toList

end StoreClient.Bytes
