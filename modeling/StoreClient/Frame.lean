import StoreClient.Message

/-!
# Frames

On the wire a message is preceded by the number of its octets, code included, as four octets with
the most significant first. `encode` appends a message to a buffer, `decode` takes one off its
front, `drain` takes off as many as there are, and `decodeAtEnd` is `decode` when nothing more will
arrive.

A frame is refused, in both directions, when it has more octets than a limit. A refusal and an
incomplete frame leave the buffer as it was: only a message changes it, so what is decoded does not
depend on the pieces in which the octets arrive.
-/

namespace StoreClient.Frame

/-- Why a frame was refused. -/
inductive Error where
  /-- The frame has `length` octets, and `max` are allowed. -/
  | tooLarge (length max : Nat)
  /-- The frame has not even a message code. -/
  | empty
  /-- The connection failed or ended early. -/
  | io (text : String)
  deriving DecidableEq, Repr

/-- The text of an error. -/
def Error.message : Error → String
  | tooLarge length max => s!"frame of {length} bytes exceeds the {max} byte limit"
  | empty => "frame carries no message code"
  | io text => s!"I/O error: {text}"

/-! ## Writing -/

/-- The largest number of octets that the length in front of a frame can tell. -/
def maxLength : Nat := UInt32.size - 1

/-- The octets of a message with their number in front. -/
def frame (m : Message) : Bytes := Bytes.ofNat 4 (m.payload.length + 1) ++ m.code :: m.payload

/-- Appends a message to a buffer, if its frame keeps the limit. -/
def encode (limit : Nat) (m : Message) (buffer : Bytes) : Except Error Bytes :=
  let length := m.payload.length + 1
  if limit < length ∨ maxLength < length then .error (.tooLarge length limit)
  else .ok (buffer ++ frame m)

/-! ## Reading -/

/-- What is at the front of a buffer. -/
inductive Decoded where
  /-- No whole frame yet. -/
  | incomplete
  /-- A message, and the buffer without it. -/
  | message (m : Message) (rest : Bytes)
  | refused (e : Error)
  deriving DecidableEq, Repr

/-- Reads the `length` octets of a frame, of which there is at least one. -/
def decodeBody (length : Nat) : Bytes → Decoded
  | [] => .incomplete
  | code :: rest =>
    if (rest.take (length - 1)).length < length - 1 then .incomplete
    else .message ⟨code, rest.take (length - 1)⟩ (rest.drop (length - 1))

/-- Judges the length of a frame and reads the frame. -/
def decodeSized (limit length : Nat) (body : Bytes) : Decoded :=
  if length = 0 then .refused .empty
  else if limit < length then .refused (.tooLarge length limit)
  else decodeBody length body

/-- Reads the frame at the front of a buffer. The length is judged as soon as it is there, before
the rest of the frame is. -/
def decode (limit : Nat) : Bytes → Decoded
  | a :: b :: c :: d :: body => decodeSized limit (Bytes.toNat [a, b, c, d]) body
  | _ => .incomplete

theorem length_of_decodeBody {length : Nat} {body rest : Bytes} {m : Message}
    (h : decodeBody length body = .message m rest) : rest.length < body.length := by
  cases body with
  | nil => simp [decodeBody] at h
  | cons code tail =>
    rw [decodeBody] at h
    split at h
    · simp at h
    · simp only [Decoded.message.injEq] at h
      rw [← h.2, List.length_drop, List.length_cons]
      omega

/-- A message takes its frame off the buffer, so less is left. -/
theorem length_of_decode {limit : Nat} {buffer rest : Bytes} {m : Message}
    (h : decode limit buffer = .message m rest) : rest.length < buffer.length := by
  unfold decode at h
  split at h
  · unfold decodeSized at h
    split at h
    · simp at h
    · split at h
      · simp at h
      · have := length_of_decodeBody h
        simp only [List.length_cons]
        omega
  · simp at h

/-- Why `drain` stopped: no whole frame was left, or the next one was refused. -/
structure Drained where
  messages : List Message
  refusal : Option Error
  rest : Bytes
  deriving DecidableEq, Repr

/-- Takes messages off a buffer until none is left or a frame is refused. -/
def drain (limit : Nat) (buffer : Bytes) : Drained :=
  match _h : decode limit buffer with
  | .incomplete => ⟨[], none, buffer⟩
  | .refused e => ⟨[], some e, buffer⟩
  | .message m rest =>
    let d := drain limit rest
    { d with messages := m :: d.messages }
termination_by buffer.length
decreasing_by exact length_of_decode _h

/-- Reads the frame at the front of a buffer to which nothing will be added. Octets that are no
whole frame are an error then, and stay in the buffer. -/
def decodeAtEnd (limit : Nat) (buffer : Bytes) : Decoded :=
  match decode limit buffer with
  | .incomplete =>
    if buffer.isEmpty then .incomplete else .refused (.io "bytes remaining on stream")
  | d => d

end StoreClient.Frame
