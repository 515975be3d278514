import StoreClient.Command.Delete
import StoreClient.Command.Fetch
import StoreClient.Command.ListKeys
import StoreClient.Command.Store
import StoreClient.Command.Words

/-!
# Verbs

The kinds of commands by name, with the types that belong to each. A coordinator of this client
takes batches of any of them.
-/

namespace StoreClient

/-- A kind of command. -/
inductive Verb where
  | fetch
  | store
  | delete
  | listKeys
  | words
  deriving DecidableEq, Repr

namespace Verb

/-- The types that belong to a kind of command. -/
abbrev signature : Verb → Signature
  | fetch => Fetch.signature
  | store => Store.signature
  | delete => Delete.signature
  | listKeys => ListKeys.signature
  | words => Words.signature

/-- The name under which the store holds what a command is about: its key, or its bucket if it is
about all keys. -/
def subject : (v : Verb) → v.signature.Query → String
  | fetch, l => l.key
  | store, l => l.key
  | delete, l => l.key
  | listKeys, ns => ns.bucket
  | words, key => key

end Verb

end StoreClient
