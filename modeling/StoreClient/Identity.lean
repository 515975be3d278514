/-!
# Identities in the store

A bucket lies in a bucket type and holds keys. A `Namespace` names a bucket, a `Location` names a
key in it. Both are compared by all their parts and shown as a path.
-/

namespace StoreClient

/-- A bucket within a bucket type. -/
structure Namespace where
  bucketType : String
  bucket : String
  deriving DecidableEq, Repr, Inhabited

namespace Namespace

/-- The bucket type of a bucket for which none is given. -/
def defaultType : String := "default"

/-- The bucket of that name in the default bucket type. -/
def ofBucket (bucket : String) : Namespace := ⟨defaultType, bucket⟩

/-- Whether the bucket lies in the default bucket type. -/
def hasDefaultType (ns : Namespace) : Bool := ns.bucketType == defaultType

/-- The path of the bucket. -/
def path (ns : Namespace) : String := ns.bucketType ++ "/" ++ ns.bucket

instance : ToString Namespace := ⟨path⟩

end Namespace

/-- A key within a namespace. -/
structure Location where
  within : Namespace
  key : String
  deriving DecidableEq, Repr, Inhabited

namespace Location

/-- The path of the key. -/
def path (l : Location) : String := l.within.path ++ "/" ++ l.key

instance : ToString Location := ⟨path⟩

end Location

end StoreClient
