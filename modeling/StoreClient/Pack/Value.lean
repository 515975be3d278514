import StoreClient.Text.Utf8

/-!
# Values to be written

A `Value` is what a request, a reply or a configuration looks like before it is put into a format.
Maps keep the order of their entries. `encode` writes a value as MessagePack, with the shortest
header for every number, text, byte string, array and map; byte strings are never written as texts.
-/

namespace StoreClient

/-- A value to be written. -/
inductive Value where
  | null
  | bool (b : Bool)
  | nat (n : Nat)
  | text (s : String)
  | binary (bs : Bytes)
  | array (items : List Value)
  | map (entries : List (String × Value))
  deriving Repr, Inhabited

namespace Value

/-- A value that may be missing. -/
def ofOption {α : Type} (f : α → Value) : Option α → Value
  | none => null
  | some a => f a

/-- An entry of a map that is left out where there is nothing to write. -/
def entry? {α : Type} (key : String) (f : α → Value) : Option α → List (String × Value)
  | none => []
  | some a => [(key, f a)]

end Value

namespace Pack

/-! ## Headers -/

/-- The shortest form of a number below `2 ^ 64`. -/
def natural (n : Nat) : Bytes :=
  if n < 0x80 then [UInt8.ofNat n]
  else if n < UInt8.size then 0xCC :: Bytes.ofNat 1 n
  else if n < UInt16.size then 0xCD :: Bytes.ofNat 2 n
  else if n < UInt32.size then 0xCE :: Bytes.ofNat 4 n
  else 0xCF :: Bytes.ofNat 8 n

/-- The shortest header of a text of `n` octets. -/
def textHeader (n : Nat) : Bytes :=
  if n < 32 then [UInt8.ofNat (0xA0 + n)]
  else if n < UInt8.size then 0xD9 :: Bytes.ofNat 1 n
  else if n < UInt16.size then 0xDA :: Bytes.ofNat 2 n
  else 0xDB :: Bytes.ofNat 4 n

/-- The shortest header of a byte string of `n` octets. -/
def binaryHeader (n : Nat) : Bytes :=
  if n < UInt8.size then 0xC4 :: Bytes.ofNat 1 n
  else if n < UInt16.size then 0xC5 :: Bytes.ofNat 2 n
  else 0xC6 :: Bytes.ofNat 4 n

/-- The shortest header of an array of `n` items. -/
def arrayHeader (n : Nat) : Bytes :=
  if n < 16 then [UInt8.ofNat (0x90 + n)]
  else if n < UInt16.size then 0xDC :: Bytes.ofNat 2 n
  else 0xDD :: Bytes.ofNat 4 n

/-- The shortest header of a map of `n` entries. -/
def mapHeader (n : Nat) : Bytes :=
  if n < 16 then [UInt8.ofNat (0x80 + n)]
  else if n < UInt16.size then 0xDE :: Bytes.ofNat 2 n
  else 0xDF :: Bytes.ofNat 4 n

/-- A text with its header. -/
def text (s : String) : Bytes :=
  let octets := Utf8.encode s
  textHeader octets.length ++ octets

/-- A byte string with its header. -/
def binary (bs : Bytes) : Bytes := binaryHeader bs.length ++ bs

end Pack

/-! ## Values -/

namespace Value

mutual

/-- The MessagePack form of a value. -/
def encode : Value → Bytes
  | null => [0xC0]
  | bool false => [0xC2]
  | bool true => [0xC3]
  | nat n => Pack.natural n
  | text s => Pack.text s
  | binary bs => Pack.binary bs
  | array items => Pack.arrayHeader items.length ++ encodeAll items
  | map entries => Pack.mapHeader entries.length ++ encodeEntries entries

/-- The forms of the items of an array, one after another. -/
def encodeAll : List Value → Bytes
  | [] => []
  | v :: rest => encode v ++ encodeAll rest

/-- The forms of the entries of a map, each key before its value. -/
def encodeEntries : List (String × Value) → Bytes
  | [] => []
  | (key, v) :: rest => Pack.text key ++ encode v ++ encodeEntries rest

end

end Value

end StoreClient
