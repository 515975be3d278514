import StoreClient.Document

/-!
# Records in documents

A record has named fields in a fixed order. In a document it is a map, in which entries of other
names are passed over, or an array, which holds the fields by position; a byte string does as an
array of its octets.

A field that is missing keeps its initial value, unless the record has to be complete. A field that
occurs twice is an error, and so are more items than fields, though not in a byte string.
-/

namespace StoreClient

/-- A field of records of type `α`, with the way it is read into one. -/
structure Field (α : Type) where
  name : String
  read : Document → α → Except DocumentError α

/-- A type of records. -/
structure Record (α : Type) where
  name : String
  fields : List (Field α)
  initial : α
  /-- Whether every field has to be there. -/
  complete : Bool

/-- A field that is read on its own and then put into the record. -/
def Field.of {α β : Type} (name : String) (read : Document → Except DocumentError β)
    (put : α → β → α) : Field α where
  name := name
  read d a := match read d with
    | .ok b => .ok (put a b)
    | .error e => .error e

namespace Record

variable {α : Type}

/-- The field that a key of a map names, by name or by position. A key that names none belongs to an
entry that is passed over; a key that could not be a name is an error. -/
def field? (r : Record α) : Document → Except DocumentError (Option (Field α))
  | .unsigned n => .ok r.fields[n]?
  | .octet b => .ok r.fields[b.toNat]?
  | .text _ octets => .ok (r.fields.find? fun f => Utf8.encode f.name == octets)
  | .binary _ octets => .ok (r.fields.find? fun f => Utf8.encode f.name == octets)
  | d => d.mismatch "field identifier"

/-- Reads the entries of a map into a record. `seen` holds the names of the fields read so far, and
the result comes with the names of all fields read. -/
def readEntries (r : Record α) :
    List Document → List String → α → Except DocumentError (List String × α)
  | [], seen, a => .ok (seen, a)
  | [key], seen, a => match r.field? key with
    | .ok _ => .ok (seen, a)
    | .error e => .error e
  | key :: value :: rest, seen, a => match r.field? key with
    | .error e => .error e
    | .ok none => match value.skip with
      | .ok _ => r.readEntries rest seen a
      | .error e => .error e
    | .ok (some f) =>
      if f.name ∈ seen then .error (.duplicateField f.name)
      else match f.read value a with
        | .ok a => r.readEntries rest (f.name :: seen) a
        | .error e => .error e

/-- Reads items into the fields in order, until either ends. The result comes with the fields and
the items that are left. -/
def readItems : List (Field α) → List Document → α →
    Except DocumentError (List (Field α) × List Document × α)
  | f :: fields, d :: items, a => match f.read d a with
    | .ok a => readItems fields items a
    | .error e => .error e
  | fields, items, a => .ok (fields, items, a)

/-- Reads a record by position. Items that are left over are an error unless they are `ignored`. -/
def readArray (r : Record α) (items : List Document) (ignored : Bool) : Except DocumentError α :=
  match readItems r.fields items r.initial with
  | .error e => .error e
  | .ok (_ :: _, _, a) =>
    if r.complete then
      .error (.invalidLength items.length s!"struct {r.name} with {r.fields.length} elements")
    else .ok a
  | .ok ([], _ :: _, a) =>
    if ignored then .ok a else .error (.surplus items.length r.fields.length)
  | .ok ([], [], a) => .ok a

/-- Reads a record by name. -/
def readMap (r : Record α) (items : List Document) : Except DocumentError α :=
  match r.readEntries items [] r.initial with
  | .error e => .error e
  | .ok (seen, a) =>
    if r.complete then
      match r.fields.find? fun f => f.name ∉ seen with
      | some f => .error (.missingField f.name)
      | none => .ok a
    else .ok a

/-- Reads a record. -/
def read (r : Record α) : Document → Except DocumentError α
  | .map _ items => r.readMap items
  | .array _ items => r.readArray items false
  | .binary _ octets => r.readArray (octets.map .octet) true
  | d => d.mismatch s!"struct {r.name}"

end Record

end StoreClient
