import StoreClient.Frame

/-!
# One decode

`front` says what a decode finds at the front of a buffer, and when. It follows that a message is
found exactly where its frame is (`decode_eq_message_iff`) and that neither a message nor a refusal
is undone by octets that arrive later (`decode_append_of_message`, `decode_append_of_refused`).
-/

namespace StoreClient.Frame

variable {limit : Nat} {buffer rest : Bytes} {m : Message} {e : Error}

/-- The number of octets that the frame at the front of a buffer says it has. -/
def announced (buffer : Bytes) : Nat := Bytes.toNat (buffer.take 4)

/-- The buffer after a decode: only a message changes it. -/
def Decoded.bufferAfter (buffer : Bytes) : Decoded → Bytes
  | .message _ rest => rest
  | .incomplete | .refused _ => buffer

/-! ## Frames -/

theorem frame_eq (m : Message) :
    frame m = Bytes.ofNat 4 (m.payload.length + 1) ++ m.code :: m.payload := rfl

theorem length_frame (m : Message) : (frame m).length = 4 + (m.payload.length + 1) := by
  rw [frame_eq, List.length_append, Bytes.length_ofNat, List.length_cons]

/-- A frame says how many octets it has, if that can be told at all. -/
theorem announced_frame (h : m.payload.length + 1 ≤ maxLength) (rest : Bytes) :
    announced (frame m ++ rest) = m.payload.length + 1 := by
  have hlt : m.payload.length + 1 < Bytes.size 4 := Nat.lt_of_le_of_lt h (by decide)
  rw [announced, frame_eq, List.append_assoc, List.take_left' (Bytes.length_ofNat 4 _),
    Bytes.toNat_ofNat hlt]

/-- What a buffer announces is written at its front. -/
theorem ofNat_announced (hlen : 4 ≤ buffer.length) :
    Bytes.ofNat 4 (announced buffer) = buffer.take 4 := by
  have h := Bytes.ofNat_toNat (buffer.take 4)
  rwa [List.length_take_of_le hlen] at h

/-- A frame can announce no more than its four octets can tell. -/
theorem announced_le (buffer : Bytes) : announced buffer ≤ maxLength := by
  have hlt := Bytes.toNat_lt (buffer.take 4)
  have hwidth : Bytes.size (buffer.take 4).length ≤ Bytes.size 4 :=
    Bytes.size_mono (List.length_take_le 4 buffer)
  have hmax : Bytes.size 4 = maxLength + 1 := by decide
  unfold announced
  omega

/-! ## The front of a buffer -/

/-- What is at the front of a buffer. -/
inductive Front (limit : Nat) (buffer : Bytes) : Decoded → Prop
  /-- The length is not there yet. -/
  | short (hlen : buffer.length < 4) : Front limit buffer .incomplete
  /-- The length is there and keeps the limit, the frame is not there yet. -/
  | begun (hlen : 4 ≤ buffer.length) (hpos : 0 < announced buffer)
      (hlimit : announced buffer ≤ limit) (hlt : buffer.length < 4 + announced buffer) :
      Front limit buffer .incomplete
  /-- The frame of a message is there. -/
  | whole (m : Message) (rest : Bytes) (hbuffer : buffer = frame m ++ rest)
      (hlimit : m.payload.length + 1 ≤ limit) (hmax : m.payload.length + 1 ≤ maxLength) :
      Front limit buffer (.message m rest)
  | empty (hlen : 4 ≤ buffer.length) (hzero : announced buffer = 0) :
      Front limit buffer (.refused .empty)
  | tooLarge (hlen : 4 ≤ buffer.length) (hlimit : limit < announced buffer) :
      Front limit buffer (.refused (.tooLarge (announced buffer) limit))

/-- Where the length is there, the frame is judged by it. -/
theorem decode_of_le_length (h : 4 ≤ buffer.length) :
    decode limit buffer = decodeSized limit (announced buffer) (buffer.drop 4) := by
  match buffer, h with
  | a :: b :: c :: d :: body, _ => rfl

theorem decode_of_length_lt (h : buffer.length < 4) : decode limit buffer = .incomplete := by
  match buffer, h with
  | [], _ | [_], _ | [_, _], _ | [_, _, _], _ => rfl

/-- A body with all octets is split after them. -/
theorem decodeBody_eq {length : Nat} (hpos : 0 < length) (body : Bytes) :
    (body.length < length ∧ decodeBody length body = .incomplete) ∨
    ∃ m rest, body = m.code :: m.payload ++ rest ∧ m.payload.length + 1 = length ∧
      decodeBody length body = .message m rest := by
  cases body with
  | nil => exact .inl ⟨hpos, rfl⟩
  | cons code tail =>
    rw [decodeBody]
    split
    · next hlt =>
      rw [List.length_take] at hlt
      refine .inl ⟨?_, rfl⟩
      rw [List.length_cons]
      omega
    · next hge =>
      rw [List.length_take] at hge
      refine .inr ⟨⟨code, tail.take (length - 1)⟩, tail.drop (length - 1), ?_, ?_, rfl⟩
      · rw [List.cons_append, List.take_append_drop]
      · dsimp only
        rw [List.length_take]
        omega

/-- **What a decode finds.** -/
theorem front (limit : Nat) (buffer : Bytes) : Front limit buffer (decode limit buffer) := by
  by_cases hlen : buffer.length < 4
  · rw [decode_of_length_lt hlen]
    exact .short hlen
  have hlen : 4 ≤ buffer.length := Nat.le_of_not_lt hlen
  rw [decode_of_le_length hlen, decodeSized]
  by_cases hzero : announced buffer = 0
  · rw [if_pos hzero]
    exact .empty hlen hzero
  rw [if_neg hzero]
  by_cases hlimit : limit < announced buffer
  · rw [if_pos hlimit]
    exact .tooLarge hlen hlimit
  rw [if_neg hlimit]
  have hlimit : announced buffer ≤ limit := Nat.le_of_not_lt hlimit
  rcases decodeBody_eq (Nat.pos_of_ne_zero hzero) (buffer.drop 4) with
    ⟨hlt, h⟩ | ⟨m, rest, hbody, hlength, h⟩
  · rw [h]
    rw [List.length_drop] at hlt
    exact .begun hlen (Nat.pos_of_ne_zero hzero) hlimit (by omega)
  · rw [h]
    -- The octets that announce the length are the ones that the frame is written with.
    refine .whole m rest ?_ (hlength ▸ hlimit) (hlength ▸ announced_le buffer)
    rw [frame_eq, List.append_assoc, hlength, ofNat_announced hlen, ← hbody,
      List.take_append_drop]

/-! ## Messages -/

/-- The frame of a message that keeps the limit is decoded. -/
theorem decode_frame (hlimit : m.payload.length + 1 ≤ limit)
    (hmax : m.payload.length + 1 ≤ maxLength) (rest : Bytes) :
    decode limit (frame m ++ rest) = .message m rest := by
  have hlen : 4 ≤ (frame m ++ rest).length := by
    rw [List.length_append, length_frame]
    omega
  have hbody : (frame m ++ rest).drop 4 = m.code :: (m.payload ++ rest) := by
    rw [frame_eq, List.append_assoc, List.drop_left' (Bytes.length_ofNat 4 _), List.cons_append]
  rw [decode_of_le_length hlen, announced_frame hmax, hbody, decodeSized, if_neg (by omega),
    if_neg (by omega), decodeBody, Nat.add_sub_cancel, List.take_left, List.drop_left,
    if_neg (by omega)]

/-- The frame of a message that exceeds the limit is refused. -/
theorem decode_frame_of_lt (hlimit : limit < m.payload.length + 1)
    (hmax : m.payload.length + 1 ≤ maxLength) (rest : Bytes) :
    decode limit (frame m ++ rest) = .refused (.tooLarge (m.payload.length + 1) limit) := by
  have hlen : 4 ≤ (frame m ++ rest).length := by
    rw [List.length_append, length_frame]
    omega
  rw [decode_of_le_length hlen, announced_frame hmax, decodeSized, if_neg (by omega),
    if_pos hlimit]

/-- **A message is decoded exactly where its frame is and keeps the limit.** -/
theorem decode_eq_message_iff :
    decode limit buffer = .message m rest ↔
      buffer = frame m ++ rest ∧ m.payload.length + 1 ≤ limit ∧
        m.payload.length + 1 ≤ maxLength := by
  constructor
  · intro h
    have hfront := front limit buffer
    rw [h] at hfront
    cases hfront with
    | whole _ _ hbuffer hlimit hmax => exact ⟨hbuffer, hlimit, hmax⟩
  · rintro ⟨rfl, hlimit, hmax⟩
    exact decode_frame hlimit hmax rest

/-- A message takes off the octets that are announced, and the four that announce them. -/
theorem rest_of_message (h : decode limit buffer = .message m rest) :
    4 + announced buffer ≤ buffer.length ∧ rest = buffer.drop (4 + announced buffer) := by
  obtain ⟨rfl, -, hmax⟩ := decode_eq_message_iff.1 h
  rw [announced_frame hmax, List.length_append, length_frame, List.drop_left' (length_frame m)]
  exact ⟨Nat.le_add_right _ _, rfl⟩

/-! ## Octets that arrive later -/

theorem announced_append (hlen : 4 ≤ buffer.length) (more : Bytes) :
    announced (buffer ++ more) = announced buffer := by
  rw [announced, List.take_append_of_le_length hlen, announced]

/-- A message stays, whatever arrives after it. -/
theorem decode_append_of_message (h : decode limit buffer = .message m rest) (more : Bytes) :
    decode limit (buffer ++ more) = .message m (rest ++ more) := by
  obtain ⟨rfl, hlimit, hmax⟩ := decode_eq_message_iff.1 h
  rw [List.append_assoc]
  exact decode_frame hlimit hmax (rest ++ more)

/-- A refusal stays, whatever arrives after it. -/
theorem decode_append_of_refused (h : decode limit buffer = .refused e) (more : Bytes) :
    decode limit (buffer ++ more) = .refused e := by
  have hfront := front limit buffer
  rw [h] at hfront
  have hlonger : buffer.length ≤ (buffer ++ more).length := by
    rw [List.length_append]
    exact Nat.le_add_right _ _
  cases hfront with
  | empty hlen hzero =>
    rw [decode_of_le_length (Nat.le_trans hlen hlonger), announced_append hlen, decodeSized,
      if_pos hzero]
  | tooLarge hlen hlimit =>
    rw [decode_of_le_length (Nat.le_trans hlen hlonger), announced_append hlen, decodeSized,
      if_neg (by omega), if_pos hlimit]

end StoreClient.Frame
