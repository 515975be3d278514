import StoreClient.ClientError
import StoreClient.Command

/-!
# Words

A kind of operation to rehearse with: the replies are plain texts, and the value is all of them with
spaces between. A reply that ends in a full stop is the last one, and texts with a hash sign do not
convert. As a stream, a reply yields its letters; a reply with an exclamation mark fails the
operation while they are made.
-/

namespace StoreClient

/-- The command to ask for words under a key. -/
structure Words where
  key : String
  deriving DecidableEq, Repr

namespace Words

/-- The types of a request for words. -/
abbrev signature : Signature := ⟨String, String, String⟩

/-- The code of the request. -/
def requestCode : UInt8 := 200

/-- The code of the replies. -/
def replyCode : UInt8 := 201

/-- Reads a reply, which has to be a text. -/
def decode (m : Message) : Outcome String :=
  match Utf8.decode m.payload with
  | .ok s => .ok s
  | .error e => .error (.decode m.code e.message)

/-- Joins the replies, unless there is a hash sign in one of them. -/
def convert (replies : List String) : Outcome String :=
  if replies.any (·.toList.contains '#') then
    .error (.decode replyCode s!"{replies.length} words do not convert")
  else .ok (" ".intercalate replies)

/-- The kind of operation that a request for words is. -/
def kind (c : Words) : StreamKind signature Char where
  query := c.key
  request := ⟨requestCode, Utf8.encode c.key⟩
  expects := replyCode
  decode := decode
  isFinal reply := reply.toList.getLast? == some '.'
  convert := convert
  items reply := reply.toList.filter Char.isAlpha
  interruptions reply :=
    if reply.toList.contains '!' then [.transport "failed from process_chunk"] else []
  itemOctets := 16

/-- The command as it is dispatched. -/
def command (c : Words) : Command signature := .ofKind c.key (.ok c.kind.toKind)

/-- The command as a stream. -/
def stream (c : Words) (config : StreamConfig) : Except ClientError (Stream signature Char) :=
  Stream.make (.ok c.kind) config

end Words

end StoreClient
