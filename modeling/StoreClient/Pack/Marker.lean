import StoreClient.Bytes

/-!
# Markers of MessagePack

The first octet of every MessagePack value is its marker. It tells the kind of the value and, for
small values, the value or its size. `ofByte` gives each octet its one meaning.
-/

namespace StoreClient.Pack

/-- What the first octet of a value says. -/
inductive Marker where
  | fixPos (n : Nat)
  | fixMap (n : Nat)
  | fixArray (n : Nat)
  | fixStr (n : Nat)
  | null
  /-- The octet `c1`, to which no kind of value belongs. -/
  | reserved
  | bool (b : Bool)
  | bin8
  | bin16
  | bin32
  | ext8
  | ext16
  | ext32
  | f32
  | f64
  | u8
  | u16
  | u32
  | u64
  | i8
  | i16
  | i32
  | i64
  | fixExt1
  | fixExt2
  | fixExt4
  | fixExt8
  | fixExt16
  | str8
  | str16
  | str32
  | array16
  | array32
  | map16
  | map32
  /-- The negative number `n - 32`. -/
  | fixNeg (n : Nat)
  deriving DecidableEq, Repr, Inhabited

namespace Marker

/-- The markers from `c0` to `df`, by their distance from `c0`. -/
def named : List Marker :=
  [null, reserved, bool false, bool true, bin8, bin16, bin32, ext8, ext16, ext32, f32, f64,
    u8, u16, u32, u64, i8, i16, i32, i64, fixExt1, fixExt2, fixExt4, fixExt8, fixExt16,
    str8, str16, str32, array16, array32, map16, map32]

/-- The marker that an octet is. -/
def ofByte (b : UInt8) : Marker :=
  let n := b.toNat
  if n < 0x80 then fixPos n
  else if n < 0x90 then fixMap (n - 0x80)
  else if n < 0xA0 then fixArray (n - 0x90)
  else if n < 0xC0 then fixStr (n - 0xA0)
  else if n < 0xE0 then named[n - 0xC0]?.getD reserved
  else fixNeg (n - 0xE0)

/-- The name of a marker in an error text. -/
def name : Marker → String
  | fixPos n => s!"FixPos({n})"
  | fixMap n => s!"FixMap({n})"
  | fixArray n => s!"FixArray({n})"
  | fixStr n => s!"FixStr({n})"
  | null => "Null"
  | reserved => "Reserved"
  | bool true => "True"
  | bool false => "False"
  | bin8 => "Bin8"
  | bin16 => "Bin16"
  | bin32 => "Bin32"
  | ext8 => "Ext8"
  | ext16 => "Ext16"
  | ext32 => "Ext32"
  | f32 => "F32"
  | f64 => "F64"
  | u8 => "U8"
  | u16 => "U16"
  | u32 => "U32"
  | u64 => "U64"
  | i8 => "I8"
  | i16 => "I16"
  | i32 => "I32"
  | i64 => "I64"
  | fixExt1 => "FixExt1"
  | fixExt2 => "FixExt2"
  | fixExt4 => "FixExt4"
  | fixExt8 => "FixExt8"
  | fixExt16 => "FixExt16"
  | str8 => "Str8"
  | str16 => "Str16"
  | str32 => "Str32"
  | array16 => "Array16"
  | array32 => "Array32"
  | map16 => "Map16"
  | map32 => "Map32"
  | fixNeg n => s!"FixNeg(-{32 - n})"

end Marker

end StoreClient.Pack
