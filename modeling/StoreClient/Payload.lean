import StoreClient.Cause
import StoreClient.Message
import StoreClient.Pack.Value
import StoreClient.Pack.Reader

/-!
# Payloads

The payload of a message is one MessagePack value. `encode` makes a message of a value to be
written, `decode` reads something from the payload of a message; what goes wrong is a cause, which
names the code of the message.
-/

namespace StoreClient.Payload

/-- A body to be written: a value, or the reason why there is none. -/
abbrev Body := Except String Value

/-- The message that carries a body. -/
def encode (code : UInt8) : Body → Except Cause Message
  | .ok v => .ok ⟨code, v.encode⟩
  | .error reason => .error (.buildFailed s!"cannot encode message {code}: {reason}")

/-- What a message carries, as `read` takes it from a document. -/
def decode {α : Type} (read : Document → Except DocumentError α) (m : Message) : Except Cause α :=
  match read (Pack.document m.payload) with
  | .ok a => .ok a
  | .error e => .error (.decode m.code (e.message .messagePack))

end StoreClient.Payload
