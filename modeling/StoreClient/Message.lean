import StoreClient.Text.Utf8

/-!
# Messages

What is exchanged with the store: a code, which says what kind of message it is, and a payload,
whose layout the code decides. Code zero is the store's error response to any request; its payload
is a text.
-/

namespace StoreClient

/-- One message, its payload not yet read. -/
structure Message where
  code : UInt8
  payload : Bytes
  deriving DecidableEq, Repr, Inhabited

namespace Message

/-- The code of an error response. -/
def errorCode : UInt8 := 0

/-- A message that carries only its code. -/
def empty (code : UInt8) : Message := ⟨code, []⟩

/-- The error response with the given text. -/
def errorResponse (text : String) : Message := ⟨errorCode, Utf8.encode text⟩

/-- Whether the message is an error response. -/
def isErrorResponse (m : Message) : Bool := m.code == errorCode

/-- The payload as a text, with a replacement character for what is no UTF-8. -/
def errorText (m : Message) : String := Utf8.decodeLossy m.payload

end Message

end StoreClient
