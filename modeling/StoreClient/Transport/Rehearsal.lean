import StoreClient.Command.Verb
import StoreClient.Transport

/-!
# Rehearsed answers

A stand-in for a store and its connection, to rehearse with: what it answers depends on the name
that the request is about. A name that starts with `drop` loses the connection, one that starts with
`fail` is unavailable, and one that starts with `wrong` is answered with the request itself. For any
other name the store holds that name.
-/

namespace StoreClient.Rehearsal

/-- Whether a name is one that is not answered at once. -/
def isHeld (name : String) : Bool := name.startsWith "hold"

/-- The reply of a store that holds every name under itself. -/
def success (v : Verb) (name : String) : Message :=
  match v with
  | .fetch => ⟨Code.fetched, (FetchReply.found (Utf8.encode name)).toValue.encode⟩
  | .store => .empty Code.stored
  | .delete => .empty Code.deleted
  | .listKeys => ⟨Code.keysListed, (ListKeysReply.mk [Utf8.encode name] true).toValue.encode⟩
  | .words => ⟨Words.replyCode, Utf8.encode (name ++ ".")⟩

/-- The answer to a request. -/
def answer (v : Verb) (op : Operation v.signature) : Answer :=
  let name := v.subject op.kind.query
  if name.startsWith "drop" then .failure (.transport s!"{name} connection reset")
  else if name.startsWith "fail" then .reply (.errorResponse s!"{name} unavailable")
  else if name.startsWith "wrong" then .reply (.empty op.kind.request.code)
  else .reply (success v name)

/-- The answers that are given at once: one, unless the name is held. -/
def atOnce (v : Verb) (op : Operation v.signature) : List Answer :=
  if isHeld (v.subject op.kind.query) then [] else [answer v op]

end StoreClient.Rehearsal
