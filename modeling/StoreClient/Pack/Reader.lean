import StoreClient.Document

/-!
# Reading MessagePack

`read` turns octets into a document and the octets after it; there are none after it where reading
stopped. All widths of numbers, texts, byte strings, arrays and maps are read, shortest or not.

At most `maxDepth` arrays, maps and extensions may be open at once. `readWith` reads one value and
is given the reader for values inside it, so `read` recurses on the number of containers that may
still be opened.
-/

namespace StoreClient.Pack

/-- How many containers may be open at once, the outermost included. -/
def maxDepth : Nat := 1023

/-- What a reader makes of some octets: a document, and the octets after it unless reading stopped.
-/
abbrev Reading := Document × Option Bytes

/-- Reads a number of `width` octets and gives the document that it makes. -/
def readNumber (width : Nat) (make : Bytes → Document) (bs : Bytes) : Reading :=
  let octets := bs.take width
  if octets.length < width then (.unreadable .noNumber, none)
  else (make octets, some (bs.drop width))

/-- Reads a length of `width` octets after the marker `m` and goes on with it. -/
def readLength (m : Marker) (width : Nat) (bs : Bytes) (k : Nat → Bytes → Reading) : Reading :=
  let octets := bs.take width
  if octets.length < width then (.cut m .noNumber, none)
  else k (Bytes.toNat octets) (bs.drop width)

/-- Reads the `n` octets of a text or a byte string after the marker `m`. -/
def readContent (m : Marker) (make : Bytes → Document) (n : Nat) (bs : Bytes) : Reading :=
  let octets := bs.take n
  if octets.length < n then (.cut m .noContent, none)
  else (make octets, some (bs.drop n))

/-- Reads `n` values one after another, up to the one at which reading stops. -/
def readItems (read : Bytes → Reading) : (n : Nat) → Bytes → List Document × Option Bytes
  | 0, bs => ([], some bs)
  | n + 1, bs => match read bs with
    | (d, none) => ([d], none)
    | (d, some rest) =>
      let (ds, after) := readItems read n rest
      (d :: ds, after)

/-- Reads the `n` values of a container, if one more may be opened. -/
def readContainer (inner : Option (Bytes → Reading)) (m : Marker) (make : List Document → Document)
    (n : Nat) (bs : Bytes) : Reading :=
  match inner with
  | none => (.cut m .tooDeep, none)
  | some read =>
    let (items, after) := readItems read n bs
    (make items, after)

/-- Reads the type and the `n` octets of an extension, if one more container may be opened. -/
def readExtension (inner : Option (Bytes → Reading)) (m : Marker) (n : Nat) (bs : Bytes) :
    Reading :=
  match inner with
  | none => (.cut m .tooDeep, none)
  | some _ => match bs with
    | [] => (.extension m (some .noNumber), none)
    | _ :: content =>
      if (content.take n).length < n then (.extension m (some .noContent), none)
      else (.extension m none, some (content.drop n))

/-- The bits of the number of 64 bits that a number of 32 bits equals. -/
def widen (octets : Bytes) : UInt64 :=
  (Float32.ofBits (UInt32.ofNat (Bytes.toNat octets))).toFloat.toBits

/-- Reads one value; `inner` reads the values inside it, if it may be a container. -/
def readWith (inner : Option (Bytes → Reading)) : Bytes → Reading
  | [] => (.unreadable .noMarker, none)
  | b :: bs =>
    let m := Marker.ofByte b
    let unsigned (octets : Bytes) : Document := .unsigned (Bytes.toNat octets)
    let signed (octets : Bytes) : Document := .signed (Bytes.toInt octets)
    let text (n : Nat) (bs : Bytes) : Reading := readContent m (.text (some m)) n bs
    let binary (n : Nat) (bs : Bytes) : Reading := readContent m (.binary m) n bs
    let array (n : Nat) (bs : Bytes) : Reading := readContainer inner m (.array (some m)) n bs
    let map (n : Nat) (bs : Bytes) : Reading := readContainer inner m (.map (some m)) (2 * n) bs
    let extension (n : Nat) (bs : Bytes) : Reading := readExtension inner m n bs
    match m with
    | .fixPos n => (.unsigned n, some bs)
    | .fixNeg n => (.signed ((n : Int) - 32), some bs)
    | .null => (.null, some bs)
    | .reserved => (.reserved, none)
    | .bool t => (.bool t, some bs)
    | .u8 => readNumber 1 unsigned bs
    | .u16 => readNumber 2 unsigned bs
    | .u32 => readNumber 4 unsigned bs
    | .u64 => readNumber 8 unsigned bs
    | .i8 => readNumber 1 signed bs
    | .i16 => readNumber 2 signed bs
    | .i32 => readNumber 4 signed bs
    | .i64 => readNumber 8 signed bs
    | .f32 => readNumber 4 (fun octets => .float (widen octets)) bs
    | .f64 => readNumber 8 (fun octets => .float (UInt64.ofNat (Bytes.toNat octets))) bs
    | .fixStr n => text n bs
    | .str8 => readLength m 1 bs text
    | .str16 => readLength m 2 bs text
    | .str32 => readLength m 4 bs text
    | .bin8 => readLength m 1 bs binary
    | .bin16 => readLength m 2 bs binary
    | .bin32 => readLength m 4 bs binary
    | .fixArray n => array n bs
    | .array16 => readLength m 2 bs array
    | .array32 => readLength m 4 bs array
    | .fixMap n => map n bs
    | .map16 => readLength m 2 bs map
    | .map32 => readLength m 4 bs map
    | .fixExt1 => extension 1 bs
    | .fixExt2 => extension 2 bs
    | .fixExt4 => extension 4 bs
    | .fixExt8 => extension 8 bs
    | .fixExt16 => extension 16 bs
    | .ext8 => readLength m 1 bs extension
    | .ext16 => readLength m 2 bs extension
    | .ext32 => readLength m 4 bs extension

/-- Reads one value, with `depth` containers that may still be opened. -/
def read : (depth : Nat) → Bytes → Reading
  | 0 => readWith none
  | depth + 1 => readWith (some (read depth))

/-- The document at the front of some octets. What follows it does not matter. -/
def document (bs : Bytes) : Document := (read maxDepth bs).1

end StoreClient.Pack
