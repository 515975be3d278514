import StoreClient.Proofs.Frame.Draining

/-!
# Octets that arrive in pieces

What is decoded does not depend on the pieces in which octets arrive (`drain_pieces`), well-formed
or not. A single decode is *steady*: without a message it leaves the buffer as it was, with one it
takes off the octets that were announced, and a refusal is the answer to every later decode.
-/

namespace StoreClient.Frame

variable {limit : Nat} {buffer : Bytes} {e : Error}

/-! ## Decodes while octets arrive -/

/-- What happens to a buffer: octets arrive, or a frame is asked for. -/
inductive Turn where
  | arrive (octets : Bytes)
  | ask
  deriving DecidableEq, Repr

/-- All octets that arrive. -/
def Turn.arrived (ts : List Turn) : Bytes :=
  ts.flatMap fun
    | .arrive octets => octets
    | .ask => []

/-- The answers to what is asked, and the buffer afterwards. -/
def turns (limit : Nat) (buffer : Bytes) : List Turn → List Decoded × Bytes
  | [] => ([], buffer)
  | .arrive octets :: ts => turns limit (buffer ++ octets) ts
  | .ask :: ts =>
    let d := decode limit buffer
    let (answers, after) := turns limit (d.bufferAfter buffer) ts
    (d :: answers, after)

/-- **After a refusal every decode is refused for the same reason, and all octets stay.** -/
theorem turns_of_refused (h : decode limit buffer = .refused e) (ts : List Turn) :
    turns limit buffer ts =
      (List.replicate (ts.count .ask) (.refused e), buffer ++ Turn.arrived ts) := by
  induction ts generalizing buffer with
  | nil => simp [turns, Turn.arrived]
  | cons t ts ih =>
    cases t with
    | arrive octets =>
      rw [turns, ih (decode_append_of_refused h octets)]
      simp [Turn.arrived]
    | ask =>
      have hbuffer : (decode limit buffer).bufferAfter buffer = buffer := by rw [h]; rfl
      rw [turns, hbuffer, ih h, h, List.count_cons_self, List.replicate_succ]
      rfl

/-- What a decode does to a buffer, and what it leaves to later ones. -/
structure Steady (limit : Nat) (buffer : Bytes) : Prop where
  /-- Only a message changes the buffer. -/
  keeps : (∀ m rest, decode limit buffer ≠ .message m rest) →
    (decode limit buffer).bufferAfter buffer = buffer
  /-- A message takes its octets off the front, and the four that announce them. -/
  takes : ∀ m rest, decode limit buffer = .message m rest →
    m.payload.length + 1 = announced buffer ∧ 4 + announced buffer ≤ buffer.length ∧
      (decode limit buffer).bufferAfter buffer = buffer.drop (4 + announced buffer)
  /-- A refusal is for good. -/
  refuses : ∀ e, decode limit buffer = .refused e → ∀ ts, turns limit buffer ts =
    (List.replicate (ts.count .ask) (.refused e), buffer ++ Turn.arrived ts)

theorem steady (limit : Nat) (buffer : Bytes) : Steady limit buffer where
  keeps h := by
    cases hd : decode limit buffer with
    | incomplete => rfl
    | refused e => rfl
    | message m rest => exact absurd hd (h m rest)
  takes m rest h := by
    obtain ⟨hle, hrest⟩ := rest_of_message h
    obtain ⟨hbuffer, -, hmax⟩ := decode_eq_message_iff.1 h
    rw [h]
    refine ⟨?_, hle, hrest⟩
    rw [hbuffer, announced_frame hmax]
  refuses _ h := turns_of_refused h

/-! ## Draining after each piece -/

/-- Adds pieces to a buffer one after another, and drains it after each. -/
def drainPieces (limit : Nat) (buffer : Bytes) : List Bytes → Drained
  | [] => ⟨[], none, buffer⟩
  | piece :: pieces =>
    let d := drain limit (buffer ++ piece)
    d.followedBy (drainPieces limit d.rest pieces)

/-- Pieces that arrive after a buffer was drained. -/
theorem drain_followedBy_drainPieces (limit : Nat) (buffer : Bytes) (pieces : List Bytes) :
    (drain limit buffer).followedBy (drainPieces limit (drain limit buffer).rest pieces) =
      drain limit (buffer ++ pieces.flatten) := by
  induction pieces generalizing buffer with
  | nil => simp [drainPieces, Drained.followedBy]
  | cons piece pieces ih =>
    rw [drainPieces, ih, List.append_assoc, ← drain_append, List.flatten_cons]

/-- **Octets are decoded alike in all pieces**, down to the first refusal and the octets that are
left, and each decode on the way is steady. -/
theorem drain_pieces (limit : Nat) :
    (∀ pieces : List Bytes, drainPieces limit [] pieces = drain limit pieces.flatten) ∧
      ∀ buffer, Steady limit buffer := by
  refine ⟨fun pieces => ?_, steady limit⟩
  have h := drain_followedBy_drainPieces limit [] pieces
  rw [drain_nil, List.nil_append] at h
  rw [← h]
  rfl

example : drainPieces 4 [] [[0, 0], [0, 2, 7], [], [8, 0, 0, 0, 9, 1]] =
    ⟨[⟨7, [8]⟩], some (.tooLarge 9 4), [0, 0, 0, 9, 1]⟩ := by
  cbv

/-- A frame that is too long is refused for good. -/
theorem drain_pieces_refusal :
    decode 4 [0, 0, 0, 9] = .refused (.tooLarge 9 4) ∧
      turns 4 [0, 0, 0, 9] [.arrive [1], .ask, .arrive [0, 0], .ask] =
        ([.refused (.tooLarge 9 4), .refused (.tooLarge 9 4)], [0, 0, 0, 9, 1, 0, 0]) :=
  ⟨by decide, ((drain_pieces 4).2 _).refuses _ (by decide) _⟩

end StoreClient.Frame
