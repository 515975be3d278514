import StoreClient.Identity
import StoreClient.Pack.Value
import StoreClient.Document.Record

/-!
# Identities as records

The written form of namespaces and locations. Both are complete records: no part of an identity can
be left out.
-/

namespace StoreClient

namespace Namespace

/-- The written form of a namespace. -/
def toValue (ns : Namespace) : Value :=
  .map [("bucketType", .text ns.bucketType), ("bucket", .text ns.bucket)]

/-- Namespaces in documents. -/
def record : Record Namespace where
  name := "Namespace"
  fields := [
    .of "bucketType" Document.toText fun ns s => { ns with bucketType := s },
    .of "bucket" Document.toText fun ns s => { ns with bucket := s }]
  initial := ⟨"", ""⟩
  complete := true

end Namespace

namespace Location

/-- The written form of a location. -/
def toValue (l : Location) : Value :=
  .map [("namespace", l.within.toValue), ("key", .text l.key)]

/-- Locations in documents. -/
def record : Record Location where
  name := "Location"
  fields := [
    .of "namespace" Namespace.record.read fun l ns => { l with within := ns },
    .of "key" Document.toText fun l s => { l with key := s }]
  initial := ⟨⟨"", ""⟩, ""⟩
  complete := true

end Location

end StoreClient
