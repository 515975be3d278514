import StoreClient.Bytes

/-!
# UTF-8

Every byte string, well formed or not, falls into *segments*: a character, an ill-formed run of one
to three octets, or a character that the end of the string cuts off. A run ends where its first
octets can no longer be continued to a character, so it is as long as it can be (the maximal subpart
of the Unicode standard).

Both readings are views of the segments. `decode` accepts a string of characters only and otherwise
says where the first other segment starts; `decodeLossy` puts one replacement character in the place
of each of them.

## Termination

`segmentsOnto` takes one segment at a time, and `next_length` says that a segment leaves no more
octets than followed its first one.
-/

namespace StoreClient.Utf8

/-! ## Writing -/

/-- The octets of a text. -/
def encode (s : String) : Bytes := s.toList.flatMap String.utf8EncodeChar

/-! ## Segments -/

/-- One piece of a byte string that is read as UTF-8. -/
inductive Segment where
  | char (c : Char)
  /-- A run of `count` octets that starts like a character and does not go on like one. -/
  | illFormed (count : Nat)
  /-- The last `count` octets, which a character starts with. -/
  | cutOff (count : Nat)
  deriving DecidableEq, Repr

/-- What the first octet of a character of several octets settles: the bits it contributes, the
range of the second octet, and how many octets follow in all. -/
structure Lead where
  bits : Nat
  low : UInt8
  high : UInt8
  following : Nat

/-- Over-long forms, surrogates and values above U+10FFFF are excluded by the range of the second
octet or by having no first octet. -/
def Lead.of? (b : UInt8) : Option Lead :=
  if b < 0xC2 then none
  else if b ≤ 0xDF then some ⟨b.toNat - 0xC0, 0x80, 0xBF, 1⟩
  else if b = 0xE0 then some ⟨0, 0xA0, 0xBF, 2⟩
  else if b = 0xED then some ⟨0xD, 0x80, 0x9F, 2⟩
  else if b ≤ 0xEF then some ⟨b.toNat - 0xE0, 0x80, 0xBF, 2⟩
  else if b = 0xF0 then some ⟨0, 0x90, 0xBF, 3⟩
  else if b = 0xF4 then some ⟨4, 0x80, 0x8F, 3⟩
  else if b ≤ 0xF3 then some ⟨b.toNat - 0xF0, 0x80, 0xBF, 3⟩
  else none

/-- Reads the octets after the first one. `value` holds the bits so far, `seen` counts the octets
they came from, and the next octet has to lie between `low` and `high`. -/
def follow (value : Nat) (low high : UInt8) : (following seen : Nat) → Bytes → Segment × Bytes
  | 0, _, rest => (.char (Char.ofNat value), rest)
  | _ + 1, seen, [] => (.cutOff seen, [])
  | n + 1, seen, b :: rest =>
    if low ≤ b ∧ b ≤ high then follow (value * 64 + b.toNat % 64) 0x80 0xBF n (seen + 1) rest
    else (.illFormed seen, b :: rest)

/-- The segment that starts with the octet `b`, and what follows it. -/
def next (b : UInt8) (rest : Bytes) : Segment × Bytes :=
  if b < 0x80 then (.char (Char.ofNat b.toNat), rest)
  else match Lead.of? b with
    | none => (.illFormed 1, rest)
    | some lead => follow lead.bits lead.low lead.high lead.following 1 rest

theorem follow_length (value : Nat) (low high : UInt8) (following seen : Nat) (rest : Bytes) :
    (follow value low high following seen rest).2.length ≤ rest.length := by
  induction following generalizing value low high seen rest with
  | zero => simp [follow]
  | succ n ih =>
    cases rest with
    | nil => simp [follow]
    | cons b rest =>
      rw [follow]
      split
      · exact Nat.le_trans (ih _ _ _ _ _) (by simp)
      · simp

theorem next_length (b : UInt8) (rest : Bytes) : (next b rest).2.length ≤ rest.length := by
  unfold next
  split
  · simp
  · split
    · simp
    · exact follow_length _ _ _ _ _ _

/-- Puts the segments of a byte string after those of `done`, which holds the latest first. -/
def segmentsOnto (done : List Segment) : Bytes → List Segment
  | [] => done.reverse
  | b :: rest => segmentsOnto ((next b rest).1 :: done) (next b rest).2
termination_by bs => bs.length
decreasing_by
  have := next_length b rest
  simp
  omega

/-- The segments of a byte string, in order. -/
def segments (bs : Bytes) : List Segment := segmentsOnto [] bs

/-- What is read does not depend on what was read before it. -/
theorem segmentsOnto_eq (done : List Segment) (bs : Bytes) :
    segmentsOnto done bs = done.reverse ++ segments bs := by
  match bs with
  | [] => simp [segments, segmentsOnto]
  | b :: rest =>
    have hlt : (next b rest).2.length < rest.length + 1 := by
      have := next_length b rest
      omega
    rw [segments, segmentsOnto, segmentsOnto_eq _ (next b rest).2, segmentsOnto,
      segmentsOnto_eq _ (next b rest).2]
    simp
termination_by bs.length

@[simp] theorem segments_nil : segments [] = [] := by simp [segments, segmentsOnto]

theorem segments_cons (b : UInt8) (rest : Bytes) :
    segments (b :: rest) = (next b rest).1 :: segments (next b rest).2 := by
  rw [segments, segmentsOnto, segmentsOnto_eq]
  simp

/-- How many octets a segment takes. -/
def Segment.size : Segment → Nat
  | .char c => c.utf8Size
  | .illFormed n => n
  | .cutOff n => n

/-! ## Reading -/

/-- Where a byte string stops being UTF-8, and whether its end is the reason. -/
structure Error where
  /-- How many octets before it are UTF-8. -/
  validUpTo : Nat
  /-- The length of the ill-formed run, or nothing where the end cuts a character off. -/
  illFormed : Option Nat
  deriving DecidableEq, Repr

/-- The text of the error. -/
def Error.message (e : Error) : String :=
  match e.illFormed with
  | some n => s!"invalid utf-8 sequence of {n} bytes from index {e.validUpTo}"
  | none => s!"incomplete utf-8 byte sequence from index {e.validUpTo}"

/-- The characters of a list of segments that holds nothing else; `start` octets came before it and
`done` holds the characters before it, the latest first. -/
def charsFrom (start : Nat) (done : List Char) : List Segment → Except Error (List Char)
  | [] => .ok done.reverse
  | .char c :: rest => charsFrom (start + c.utf8Size) (c :: done) rest
  | .illFormed n :: _ => .error ⟨start, some n⟩
  | .cutOff _ :: _ => .error ⟨start, none⟩

/-- The text that a byte string spells, or where it stops spelling one. -/
def decode (bs : Bytes) : Except Error String := (charsFrom 0 [] (segments bs)).map String.ofList

/-- The character that stands for a segment in a lossy reading: U+FFFD for whatever is none. -/
def Segment.lossy : Segment → Char
  | .char c => c
  | _ => '\uFFFD'

/-- The text of a byte string with a replacement character for each segment that is no character. -/
def decodeLossy (bs : Bytes) : String := String.ofList ((segments bs).map Segment.lossy)

end StoreClient.Utf8
