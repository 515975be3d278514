import StoreClient.Bytes.Hex
import StoreClient.Json

/-!
# Reading JSON

`Json.parse?` reads one JSON value from a text that holds nothing else but blanks around it.

Each function takes what it reads off the front of a list of characters and gives the rest. Texts
and digits are read by recursion on the characters. Values nest, and are read with fuel: between two
calls that use up no character there is one that does, so twice as much fuel as there are characters
never runs out.
-/

namespace StoreClient.Json

/-! ## Characters -/

/-- Whether a character may stand between the parts of a value. -/
def isBlank (c : Char) : Bool := c == ' ' || c == '\t' || c == '\n' || c == '\r'

/-- What is left after the blanks at the front. -/
def skipBlanks (cs : List Char) : List Char := cs.dropWhile isBlank

/-- The number that some hexadecimal digits spell. -/
def hex? (cs : List Char) : Option Nat :=
  cs.foldlM (fun n c => (Bytes.hexValue? c).map (n * 16 + ·)) 0

/-! ## Texts -/

/-- What a backslash and a letter stand for. -/
def unescape? : Char → Option Char
  | '"' => some '"'
  | '\\' => some '\\'
  | '/' => some '/'
  | 'b' => some '\x08'
  | 'f' => some '\x0c'
  | 'n' => some '\n'
  | 'r' => some '\r'
  | 't' => some '\t'
  | _ => none

/-- What a unit of sixteen bits makes of what was read: a character, or the first half of one.
`high` is a first half that waits for its second. -/
def addUnit? (high : Option Nat) (done : List Char) (n : Nat) : Option (Option Nat × List Char) :=
  match high with
  | some h =>
    if 0xDC00 ≤ n ∧ n < 0xE000 then
      some (none, Char.ofNat (0x10000 + (h - 0xD800) * 0x400 + (n - 0xDC00)) :: done)
    else none
  | none =>
    if n < 0xD800 ∨ 0xE000 ≤ n then some (none, Char.ofNat n :: done)
    else if n < 0xDC00 then some (some n, done)
    else none

/-- Reads the rest of a text and the quote that ends it. `done` holds the characters before it, the
latest first. -/
def readText (high : Option Nat) (done : List Char) : List Char → Option (String × List Char)
  | [] => none
  | '\\' :: 'u' :: a :: b :: c :: d :: rest =>
    match (hex? [a, b, c, d]).bind (addUnit? high done) with
    | some (high, done) => readText high done rest
    | none => none
  | '\\' :: c :: rest =>
    match high, unescape? c with
    | none, some c => readText none (c :: done) rest
    | _, _ => none
  | c :: rest =>
    if high.isSome then none
    else if c = '"' then some (String.ofList done.reverse, rest)
    else if c < ' ' then none
    else readText none (c :: done) rest

/-! ## Numbers -/

/-- Reads digits: the number that they continue `n` to, how many they are, and the rest. -/
def readDigits (n count : Nat) : List Char → Nat × Nat × List Char
  | [] => (n, count, [])
  | c :: rest =>
    if c.isDigit then readDigits (n * 10 + (c.toNat - '0'.toNat)) (count + 1) rest
    else (n, count, c :: rest)

/-- Reads the exponent of a number, if there is one. -/
def readExponent (number : Number) : List Char → Option (Number × List Char)
  | [] => some (number, [])
  | c :: rest =>
    if c = 'e' ∨ c = 'E' then
      let (negative, rest) := match rest with
        | '-' :: rest => (true, rest)
        | '+' :: rest => (false, rest)
        | rest => (false, rest)
      let (x, count, rest) := readDigits 0 0 rest
      let exponent := if negative then -(x : Int) else x
      if count = 0 then none else some ({ number with exponent := exponent, whole := false }, rest)
    else some (number, c :: rest)

/-- Reads what follows the sign of a number. -/
def readUnsigned (negative : Bool) (cs : List Char) : Option (Number × List Char) :=
  match readDigits 0 0 cs with
  | (_, 0, _) => none
  | (n, _, '.' :: rest) =>
    let (n, places, rest) := readDigits n 0 rest
    if places = 0 then none else readExponent ⟨negative, n, places, 0, false⟩ rest
  | (n, _, rest) => readExponent ⟨negative, n, 0, 0, true⟩ rest

/-- Reads a number. -/
def readNumber : List Char → Option (Number × List Char)
  | '-' :: rest => readUnsigned true rest
  | cs => readUnsigned false cs

/-! ## Values -/

mutual

/-- Reads a value. -/
def readValue : (fuel : Nat) → List Char → Option (Json × List Char)
  | 0, _ => none
  | fuel + 1, cs => match skipBlanks cs with
    | 'n' :: 'u' :: 'l' :: 'l' :: rest => some (null, rest)
    | 't' :: 'r' :: 'u' :: 'e' :: rest => some (bool true, rest)
    | 'f' :: 'a' :: 'l' :: 's' :: 'e' :: rest => some (bool false, rest)
    | '"' :: rest => (readText none [] rest).map fun (s, rest) => (text s, rest)
    | '[' :: rest => match skipBlanks rest with
      | ']' :: rest => some (array [], rest)
      | rest => readItems fuel [] rest
    | '\x7b' :: rest => match skipBlanks rest with
      | '\x7d' :: rest => some (object [], rest)
      | rest => readEntries fuel [] rest
    | cs => (readNumber cs).map fun (n, rest) => (number n, rest)

/-- Reads the items of an array from one on, and the bracket that ends it. `done` holds the items
before it, the latest first. -/
def readItems : (fuel : Nat) → (done : List Json) → List Char → Option (Json × List Char)
  | 0, _, _ => none
  | fuel + 1, done, cs => match readValue fuel cs with
    | none => none
    | some (v, rest) => match skipBlanks rest with
      | ',' :: rest => readItems fuel (v :: done) rest
      | ']' :: rest => some (array (v :: done).reverse, rest)
      | _ => none

/-- Reads the entries of an object from one on, and the brace that ends it. `done` holds the entries
before it, the latest first. -/
def readEntries :
    (fuel : Nat) → (done : List (String × Json)) → List Char → Option (Json × List Char)
  | 0, _, _ => none
  | fuel + 1, done, cs => match readValue fuel cs with
    | some (text key, rest) => match skipBlanks rest with
      | ':' :: rest => match readValue fuel rest with
        | none => none
        | some (v, rest) => match skipBlanks rest with
          | ',' :: rest => readEntries fuel ((key, v) :: done) rest
          | '\x7d' :: rest => some (object ((key, v) :: done).reverse, rest)
          | _ => none
      | _ => none
    | _ => none

end

/-- The value that a text spells. -/
def parse? (s : String) : Option Json :=
  let cs := s.toList
  match readValue (2 * cs.length + 2) cs with
  | some (v, rest) => if (skipBlanks rest).isEmpty then some v else none
  | none => none

end StoreClient.Json
