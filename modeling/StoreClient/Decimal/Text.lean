import StoreClient.Decimal.Shortest

/-!
# Texts of floating-point numbers

The text of a floating-point number is its shortest decimal, positional or with an exponent. What
differs between formats is a `Style`: which numbers are positional, and which way ties go.
-/

namespace StoreClient

namespace Decimal

/-! ## Styles -/

/-- How the numbers of a format are written. -/
structure Style where
  tie : Tie
  /-- The lowest and the highest power of ten of the first digit with which a number is positional;
  without them every number is. -/
  positional : Option (Int × Int)

/-- Whether a number whose first digit has that power of ten is positional. -/
def Style.isPositional (n : Style) (power : Int) : Bool :=
  match n.positional with
  | none => true
  | some (lowest, highest) => decide (lowest ≤ power ∧ power ≤ highest)

/-! ## Decimals as texts -/

/-- The digits of a decimal. -/
def digitChars (d : Decimal) : List Char := Nat.toDigits 10 d.digits

/-- The power of ten of the first digit. -/
def power (d : Decimal) : Int := d.exponent + d.digitChars.length - 1

/-- A decimal in positional notation, with a point and at least one digit on each side of it. -/
def positional (d : Decimal) : String :=
  let digits := d.digitChars
  if 0 ≤ d.exponent then String.ofList (digits ++ List.replicate d.exponent.toNat '0') ++ ".0"
  else
    let places := (-d.exponent).toNat
    let padded := List.replicate (places + 1 - digits.length) '0' ++ digits
    let whole := padded.length - places
    String.ofList (padded.take whole ++ '.' :: padded.drop whole)

/-- A decimal with one digit before the point and an exponent with a sign. -/
def scientific (d : Decimal) : String :=
  let significand := match d.digitChars with
    | first :: second :: rest => first :: '.' :: second :: rest
    | digits => digits
  let sign := if d.power < 0 then "-" else "+"
  String.ofList significand ++ "e" ++ sign ++ toString d.power.natAbs

/-- A decimal as a text. -/
def text (n : Style) (d : Decimal) : String :=
  if n.isPositional d.power then d.positional else d.scientific

end Decimal

/-! ## Numbers of 64 bits -/

/-- The text of a floating-point number given by its 64 bits, or a word for what is no number. -/
def floatText (style : Decimal.Style) (bits : UInt64) : String :=
  let n := bits.toNat
  let sign := if n / Nat.pow 2 63 = 1 then "-" else ""
  let exponent : Nat := n / Nat.pow 2 52 % 2048
  let fraction : Nat := n % Nat.pow 2 52
  if exponent = 2047 then if fraction = 0 then sign ++ "inf" else "NaN"
  else if exponent = 0 ∧ fraction = 0 then sign ++ "0.0"
  else
    let r : Decimal.Rounding :=
      if exponent = 0 then .ofBinary fraction (-1074) false
      else .ofBinary (Nat.pow 2 52 + fraction) ((exponent : Int) - 1075)
        (decide (fraction = 0) && decide (1 < exponent))
    sign ++ (r.shortest style.tie).text style

end StoreClient
