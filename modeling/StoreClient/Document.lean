import StoreClient.Pack.Marker
import StoreClient.Text.Utf8
import StoreClient.Text.Quoted
import StoreClient.Decimal.Text

/-!
# Documents

A `Document` is a value as it was read, before anything is expected of it. Reading a document never
fails: where the octets end early or nest too deep, the document holds a leaf that says so, and no
value follows that leaf. Whoever takes a document apart from left to right therefore meets its first
fault exactly where a reader of the octets would.

Documents come from two formats. One that comes from MessagePack keeps the markers of its texts,
byte strings, arrays, maps and extensions, since errors name them; one that comes from JSON has no
markers, no byte strings and no extensions.

`skip` passes over a value of which nothing is expected but that it can be read.
-/

namespace StoreClient

/-- The format that a document comes from. -/
inductive Format where
  | messagePack
  | json
  deriving DecidableEq, Repr

/-- How floating-point numbers are written in errors about a document. -/
def Format.floatStyle : Format → Decimal.Style
  | messagePack => { tie := .up, positional := none }
  | json => { tie := .toEven, positional := some (-5, 15) }

/-! ## What can be wrong with a document -/

/-- Why reading stopped. -/
inductive ReadFault where
  /-- The octets end where a value should start. -/
  | noMarker
  /-- The octets end within a number or a length. -/
  | noNumber
  /-- The octets end within the content of a text, a byte string or an extension. -/
  | noContent
  /-- One container too many would be open at once. -/
  | tooDeep
  deriving DecidableEq, Repr

/-- The text of a fault. -/
def ReadFault.message : ReadFault → String
  | noMarker => "IO error while reading marker: failed to fill whole buffer"
  | noNumber => "IO error while reading data: failed to fill whole buffer"
  | noContent => "IO error while reading data: unexpected end of file"
  | tooDeep => "depth limit exceeded"

/-- What was found where something else was expected. -/
inductive Found where
  | null
  | bool (b : Bool)
  | integer (i : Int)
  | float (bits : UInt64)
  | text (s : String)
  | binary
  | array
  | map
  | extension
  deriving DecidableEq, Repr

/-- The words for what was found. The formats have different words for the value of nothing. -/
def Found.words (f : Format) : Found → String
  | null => match f with
    | .messagePack => "unit value"
    | .json => "null"
  | bool b => s!"boolean `{b}`"
  | integer i => s!"integer `{i}`"
  | float bits => s!"floating point `{floatText f.floatStyle bits}`"
  | text s => "string " ++ Quoted.quote s
  | binary => "byte array"
  | array => "sequence"
  | map => "map"
  | extension => "newtype struct"

/-- Why a document is not what was expected. -/
inductive DocumentError where
  | fault (f : ReadFault)
  /-- A value of a kind that the expected number or truth value cannot be read from at all. -/
  | wrongMarker (m : Pack.Marker)
  /-- A text that is not UTF-8. -/
  | badText (e : Utf8.Error)
  | invalidType (found : Found) (expected : String)
  | invalidValue (found : Found) (expected : String)
  /-- Too few items for the fields of a record. -/
  | invalidLength (length : Nat) (expected : String)
  /-- More items than a record has fields. -/
  | surplus (length fields : Nat)
  | duplicateField (name : String)
  | missingField (name : String)
  deriving DecidableEq, Repr

/-- The text of an error. -/
def DocumentError.message (f : Format) : DocumentError → String
  | fault e => e.message
  | wrongMarker m => s!"wrong msgpack marker {m.name}"
  | badText e => s!"string found to be invalid utf8: {e.message}"
  | invalidType found expected => s!"invalid type: {found.words f}, expected {expected}"
  | invalidValue found expected => s!"invalid value: {found.words f}, expected {expected}"
  | invalidLength length expected => s!"invalid length {length}, expected {expected}"
  | surplus length fields => match f with
    | .messagePack => s!"array had incorrect length, expected {fields}"
    | .json => s!"invalid length {length}, expected fewer elements in array"
  | duplicateField name => s!"duplicate field `{name}`"
  | missingField name => s!"missing field `{name}`"

/-! ## Documents -/

/-- A value as it was read. -/
inductive Document where
  /-- Reading stopped before the kind of the value was settled, or within a number. -/
  | unreadable (f : ReadFault)
  /-- Reading stopped after the marker `m`. -/
  | cut (m : Pack.Marker) (f : ReadFault)
  /-- The marker that stands for no value. -/
  | reserved
  | null
  | bool (b : Bool)
  /-- A number written without a sign. -/
  | unsigned (n : Nat)
  /-- A number written with a sign, or in a form that has room for one. -/
  | signed (i : Int)
  | float (bits : UInt64)
  /-- An octet of a byte string that is taken for an array. It is always a number, never the value
  of an option. -/
  | octet (b : UInt8)
  /-- A text that need not be UTF-8. -/
  | text (m : Option Pack.Marker) (octets : Bytes)
  | binary (m : Pack.Marker) (octets : Bytes)
  | array (m : Option Pack.Marker) (items : List Document)
  /-- The keys and values of a map in turn. The last value is missing where reading stopped. -/
  | map (m : Option Pack.Marker) (items : List Document)
  /-- An extension, of which only the marker and a fault in its content are kept. -/
  | extension (m : Pack.Marker) (f : Option ReadFault)
  deriving Repr, Inhabited

namespace Document

/-- The marker that an error names if a number or a truth value is expected: that of any other kind
of value of MessagePack. -/
def marker? : Document → Option Pack.Marker
  | cut m _ => some m
  | reserved => some .reserved
  | text m _ => m
  | binary m _ => some m
  | array m _ => m
  | map m _ => m
  | extension m _ => some m
  | _ => none

/-- What an error says was found, or the fault that keeps anything from being found. -/
def found : Document → Except DocumentError Found
  | unreadable f => .error (.fault f)
  | cut _ f => .error (.fault f)
  | reserved => .error (.wrongMarker .reserved)
  | null => .ok .null
  | bool b => .ok (.bool b)
  | unsigned n => .ok (.integer n)
  | signed i => .ok (.integer i)
  | float bits => .ok (.float bits)
  | octet b => .ok (.integer b.toNat)
  | text _ octets => match Utf8.decode octets with
    | .ok s => .ok (.text s)
    | .error e => .error (.badText e)
  | binary _ _ => .ok .binary
  | array _ _ => .ok .array
  | map _ _ => .ok .map
  | extension _ _ => .ok .extension

/-- The error of a document that is not of the expected type. -/
def mismatch {α : Type} (d : Document) (expected : String) : Except DocumentError α :=
  match d.found with
  | .ok f => .error (.invalidType f expected)
  | .error e => .error e

/-- The error of a document that is not the expected number or truth value. -/
def scalarMismatch {α : Type} (d : Document) (expected : String) : Except DocumentError α :=
  match d.marker? with
  | some m => .error (.wrongMarker m)
  | none => d.mismatch expected

/-! ## Passing over a value -/

mutual

/-- Passes over a value that can be read. -/
def skip : Document → Except DocumentError Unit
  | unreadable f => .error (.fault f)
  | cut _ f => .error (.fault f)
  | reserved => .error (.wrongMarker .reserved)
  | extension _ (some f) => .error (.fault f)
  | array _ items => skipAll items
  | map _ items => skipAll items
  | _ => .ok ()

/-- Passes over the values of a list in order. -/
def skipAll : List Document → Except DocumentError Unit
  | [] => .ok ()
  | d :: rest => match skip d with
    | .ok _ => skipAll rest
    | .error e => .error e

end

/-! ## Values of simple types -/

/-- A kind of unsigned number: its name in error texts and its largest member. -/
structure Width where
  name : String
  max : Nat

/-- Numbers of eight bits. -/
def Width.u8 : Width := ⟨"u8", UInt8.size - 1⟩

/-- Numbers of 64 bits. -/
def Width.u64 : Width := ⟨"u64", UInt64.size - 1⟩

/-- Counts, which have 64 bits too. -/
def Width.count : Width := ⟨"usize", UInt64.size - 1⟩

/-- An unsigned number of the given width, from any form of it. -/
def toNat (w : Width) : Document → Except DocumentError Nat
  | unsigned n => if n ≤ w.max then .ok n else .error (.invalidValue (.integer n) w.name)
  | signed i =>
    if 0 ≤ i ∧ i ≤ w.max then .ok i.toNat else .error (.invalidValue (.integer i) w.name)
  | octet b =>
    if b.toNat ≤ w.max then .ok b.toNat else .error (.invalidValue (.integer b.toNat) w.name)
  | d => d.scalarMismatch w.name

/-- A truth value. -/
def toBool : Document → Except DocumentError Bool
  | bool b => .ok b
  | d => d.scalarMismatch "a boolean"

/-- A text; a byte string that is UTF-8 will do. -/
def toText : Document → Except DocumentError String
  | text _ octets => match Utf8.decode octets with
    | .ok s => .ok s
    | .error e => .error (.badText e)
  | binary _ octets => match Utf8.decode octets with
    | .ok s => .ok s
    | .error _ => .error (.invalidValue .binary "a string")
  | d => d.mismatch "a string"

/-- A byte string; the octets of a text or an array of octets will do. -/
def toBytes : Document → Except DocumentError Bytes
  | binary _ octets => .ok octets
  | text _ octets => .ok octets
  | array _ items => do
    let ns ← items.mapM (toNat .u8)
    .ok (ns.map UInt8.ofNat)
  | d => d.mismatch "byte array"

/-- A value that may be null. An octet cannot tell, so it is refused. -/
def toOption {α : Type} (read : Document → Except DocumentError α) :
    Document → Except DocumentError (Option α)
  | null => .ok none
  | octet b => .error (.invalidType (.integer b.toNat) "option")
  | d => match read d with
    | .ok a => .ok (some a)
    | .error e => .error e

/-- A list; a byte string is a list of its octets. -/
def toList {α : Type} (read : Document → Except DocumentError α) :
    Document → Except DocumentError (List α)
  | array _ items => items.mapM read
  | binary _ octets => (octets.map octet).mapM read
  | d => d.mismatch "a sequence"

end Document

end StoreClient
