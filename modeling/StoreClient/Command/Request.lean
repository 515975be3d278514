import StoreClient.Identity
import StoreClient.Payload

/-!
# Requests

What the requests of all commands have in common: a bucket and a key must not be empty, and the
request starts with the parts of the identity it is about.
-/

namespace StoreClient.Request

/-- Refuses a location with an empty part; of two, the bucket is named. -/
def checkLocation (l : Location) : Except Cause Unit :=
  if l.within.bucket.isEmpty then .error (.buildFailed s!"{l}: bucket must not be empty")
  else if l.key.isEmpty then .error (.buildFailed s!"{l}: key must not be empty")
  else .ok ()

/-- Refuses a namespace with an empty bucket. -/
def checkNamespace (ns : Namespace) : Except Cause Unit :=
  if ns.bucket.isEmpty then .error (.buildFailed s!"{ns}: bucket must not be empty") else .ok ()

/-- The entries of a request that name a bucket. -/
def namespaceEntries (ns : Namespace) : List (String × Value) :=
  [("bucketType", .text ns.bucketType), ("bucket", .text ns.bucket)]

/-- The entries of a request that name a key. -/
def locationEntries (l : Location) : List (String × Value) :=
  namespaceEntries l.within ++ [("key", .text l.key)]

/-- A number of 32 bits to be written. -/
def number (n : UInt32) : Value := .nat n.toNat

end StoreClient.Request
