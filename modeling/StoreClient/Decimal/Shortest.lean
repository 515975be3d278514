/-!
# Shortest decimals

The shortest decimal that reads back as a given binary floating-point number, in exact arithmetic.

A finite number other than zero is `m · 2 ^ q`. The reals that round to it form an interval around
it, whose ends belong to it exactly when `m` is even. A decimal with `k` digits lies on a grid of
powers of ten, and if any point of a grid lies in the interval, one of the number's two neighbours
on that grid does. So the coarsest grid on which a neighbour lies in the interval gives the fewest
digits; of two such neighbours the nearer one is taken. Which one it is in a tie is a parameter.

Seventeen digits always suffice for a number of 53 bits.
-/

namespace StoreClient

/-- The decimal `digits · 10 ^ exponent`. -/
structure Decimal where
  digits : Nat
  exponent : Int
  deriving DecidableEq, Repr

namespace Decimal

/-! ## The interval of a binary number -/

/-- A positive quotient of natural numbers. -/
structure Ratio where
  num : Nat
  den : Nat
  deriving DecidableEq, Repr

/-- The value `n · 2 ^ q`. -/
def Ratio.ofBinary (n : Nat) (q : Int) : Ratio :=
  if 0 ≤ q then ⟨n * Nat.pow 2 q.toNat, 1⟩ else ⟨n, Nat.pow 2 (-q).toNat⟩

/-- Compares the decimal `c · 10 ^ e` with a quotient. -/
def compareWith (c : Nat) (e : Int) (r : Ratio) : Ordering :=
  if 0 ≤ e then compare (c * Nat.pow 10 e.toNat * r.den) r.num
  else compare (c * r.den) (r.num * Nat.pow 10 (-e).toNat)

/-- The quotient divided by `10 ^ e` and rounded down. -/
def Ratio.floorAt (r : Ratio) (e : Int) : Nat :=
  if 0 ≤ e then r.num / (r.den * Nat.pow 10 e.toNat)
  else r.num * Nat.pow 10 (-e).toNat / r.den

/-- A number together with the ends of the interval of reals that round to it. -/
structure Rounding where
  low : Ratio
  value : Ratio
  high : Ratio
  /-- Whether the ends round to the number too. -/
  closed : Bool

/-- The interval of `m · 2 ^ q`. The gap below a power of two is half the gap above it, except at
the bottom of the range. -/
def Rounding.ofBinary (m : Nat) (q : Int) (narrowBelow : Bool) : Rounding where
  low := .ofBinary (if narrowBelow then 4 * m - 1 else 4 * m - 2) (q - 2)
  value := .ofBinary m q
  high := .ofBinary (4 * m + 2) (q - 2)
  closed := m % 2 == 0

/-- Whether the decimal `c · 10 ^ e` rounds to the number. -/
def Rounding.admits (r : Rounding) (c : Nat) (e : Int) : Bool :=
  match compareWith c e r.low, compareWith c e r.high with
  | .gt, .lt => true
  | .eq, _ => r.closed
  | _, .eq => r.closed
  | _, _ => false

/-! ## The search -/

/-- Which of two neighbours on a grid is taken for a number in the middle between them. -/
inductive Tie where
  /-- The upper one. -/
  | up
  /-- The one with an even number of grid steps. -/
  | toEven
  deriving DecidableEq, Repr

/-- The neighbour that is taken for a number between `below` and `below + 1` steps of a grid.
`nearer` compares the number with the middle. -/
def Tie.choose (tie : Tie) (below : Nat) (nearer : Ordering) : Nat :=
  match nearer, tie with
  | .lt, _ => below
  | .gt, _ => below + 1
  | .eq, .up => below + 1
  | .eq, .toEven => if below % 2 = 0 then below else below + 1

/-- The least power of ten, from `k` on, that makes the quotient at least one. -/
def Ratio.leadingZeros (r : Ratio) : (fuel k : Nat) → Nat
  | 0, k => k
  | fuel + 1, k => if r.den ≤ r.num * Nat.pow 10 k then k else r.leadingZeros fuel (k + 1)

/-- The power of ten of the first digit. No number of 64 bits is below `10 ^ -324`. -/
def Ratio.magnitude (r : Ratio) : Int :=
  if r.den ≤ r.num then ((Nat.toDigits 10 (r.num / r.den)).length : Int) - 1
  else -(r.leadingZeros 400 0 : Int)

/-- Of the two neighbours on the grid of `10 ^ e`, the one that rounds to the number; of two, the
nearer. -/
def Rounding.onGrid? (r : Rounding) (tie : Tie) (e : Int) : Option Decimal :=
  let below := r.value.floorAt e
  match r.admits below e, r.admits (below + 1) e with
  | true, true =>
    let middle := compareWith (2 * below + 1) e ⟨2 * r.value.num, r.value.den⟩
    some ⟨tie.choose below middle.swap, e⟩
  | true, false => some ⟨below, e⟩
  | false, true => some ⟨below + 1, e⟩
  | false, false => none

/-- The first grid with a hit, among those of `digits` and more digits; `tries` grids are left. -/
def Rounding.search (r : Rounding) (tie : Tie) (magnitude : Int) : (tries digits : Nat) → Decimal
  | 0, digits => ⟨r.value.floorAt (magnitude + 1 - digits), magnitude + 1 - digits⟩
  | tries + 1, digits =>
    match r.onGrid? tie (magnitude + 1 - digits) with
    | some d => d
    | none => r.search tie magnitude tries (digits + 1)

/-- The shortest decimal that rounds to the number. The first grid is one too coarse for the leading
digit: a number just below a power of ten may have that power for its shortest decimal. -/
def Rounding.shortest (r : Rounding) (tie : Tie) : Decimal := r.search tie r.value.magnitude 18 0

end Decimal

end StoreClient
