import Mathlib.Algebra.Group.Nat.Defs
import StoreClient.Proofs.Frame.Draining

/-!
# Encoded messages are decoded again

Messages are encoded one after another into one buffer, with a limit that refuses some of them, and
the buffer is drained with a limit of its own. What was accepted is what is decoded, up to the first
message that exceeds the second limit; and a buffer that is drained to its end is what encoding its
messages gives (`frames_round_trip`).
-/

namespace StoreClient.Frame

variable {limit : Nat} {buffer : Bytes} {m : Message} {ms : List Message}

/-! ## Attempts to encode -/

/-- Tries to add a message to a buffer: the error if it is refused, and the buffer afterwards. -/
def attempt (limit : Nat) (buffer : Bytes) (m : Message) : Option Error × Bytes :=
  match encode limit m buffer with
  | .ok longer => (none, longer)
  | .error e => (some e, buffer)

/-- Tries to add messages to a buffer, one after another. -/
def attempts (limit : Nat) (buffer : Bytes) : List Message → List (Option Error) × Bytes
  | [] => ([], buffer)
  | m :: ms =>
    let first := attempt limit buffer m
    let later := attempts limit first.2 ms
    (first.1 :: later.1, later.2)

/-- Why a message is refused, if it is. -/
def refusal? (limit : Nat) (m : Message) : Option Error :=
  if Fits limit m then none else some (.tooLarge (m.payload.length + 1) limit)

/-- The messages that are not refused. -/
def accepted (limit : Nat) (ms : List Message) : List Message := ms.filter (Fits limit ·)

theorem attempt_of_fits (h : Fits limit m) (buffer : Bytes) :
    attempt limit buffer m = (none, buffer ++ frame m) := by
  obtain ⟨hlimit, hmax⟩ := Nat.le_min.1 h
  rw [attempt, encode, if_neg (by omega)]

theorem attempt_of_not_fits (h : ¬ Fits limit m) (buffer : Bytes) :
    attempt limit buffer m = (some (.tooLarge (m.payload.length + 1) limit), buffer) := by
  have hexceeds : limit < m.payload.length + 1 ∨ maxLength < m.payload.length + 1 := by
    unfold Fits at h
    omega
  rw [attempt, encode, if_pos hexceeds]

/-- **Attempts add the frames of the messages that fit, and nothing else.** -/
theorem attempts_eq (limit : Nat) (buffer : Bytes) (ms : List Message) :
    attempts limit buffer ms =
      (ms.map (refusal? limit), buffer ++ frames (accepted limit ms)) := by
  induction ms generalizing buffer with
  | nil => simp [attempts, accepted]
  | cons m ms ih =>
    by_cases h : Fits limit m
    · rw [attempts, attempt_of_fits h, ih]
      simp [refusal?, accepted, h]
    · rw [attempts, attempt_of_not_fits h, ih]
      simp [refusal?, accepted, h]

theorem fits_of_mem_accepted (h : m ∈ accepted limit ms) : Fits limit m := by
  simpa using (List.mem_filter.1 h).2

theorem attempts_of_forall_fits (h : ∀ m ∈ ms, Fits limit m) (buffer : Bytes) :
    attempts limit buffer ms = (List.replicate ms.length none, buffer ++ frames ms) := by
  have haccepted : accepted limit ms = ms := by
    apply List.filter_eq_self.2
    simpa using h
  have hrefusals : ms.map (refusal? limit) = List.replicate ms.length none := by
    rw [← List.map_const']
    apply List.map_congr_left
    intro m hm
    exact if_pos (h m hm)
  rw [attempts_eq, haccepted, hrefusals]

/-! ## Writing, then reading -/

/-- What becomes of messages that are written with one limit and read with another. -/
structure Delivered (written read : Nat) (ms : List Message) : Prop where
  /-- Each message is judged by itself. -/
  refusals : (attempts written [] ms).1 = ms.map (refusal? written)
  /-- If all that was accepted keeps the limit of the reader, it is all that is read. -/
  complete : (∀ m ∈ accepted written ms, m.payload.length + 1 ≤ read) →
    drain read (attempts written [] ms).2 = ⟨accepted written ms, none, []⟩
  /-- The first message that exceeds the limit of the reader is refused, and stays. -/
  interrupted : ∀ before m after, accepted written ms = before ++ m :: after →
    (∀ m' ∈ before, m'.payload.length + 1 ≤ read) → read < m.payload.length + 1 →
    drain read (attempts written [] ms).2 =
      ⟨before, some (.tooLarge (m.payload.length + 1) read), frames (m :: after)⟩

/-- What was accepted is refused by a reader only for the reader's own limit. -/
theorem fits_of_accepted {written read : Nat} (h : m ∈ accepted written ms)
    (hread : m.payload.length + 1 ≤ read) : Fits read m :=
  Nat.le_min.2 ⟨hread, (Nat.le_min.1 (fits_of_mem_accepted h)).2⟩

theorem delivered (written read : Nat) (ms : List Message) : Delivered written read ms where
  refusals := by rw [attempts_eq]
  complete h := by
    have hfits : ∀ m ∈ accepted written ms, Fits read m := fun m hm => fits_of_accepted hm (h m hm)
    rw [attempts_eq, List.nil_append, ← List.append_nil (frames _), drain_frames_append hfits,
      drain_nil]
    simp [Drained.followedBy]
  interrupted before m after heq hbefore hm := by
    have hmem : ∀ m' ∈ before ++ m :: after, m' ∈ accepted written ms := by
      rw [heq]
      exact fun _ => id
    have hfits : ∀ m' ∈ before, Fits read m' := by
      intro m' hm'
      exact fits_of_accepted (hmem m' (List.mem_append_left _ hm')) (hbefore m' hm')
    have hmax := (Nat.le_min.1 (fits_of_mem_accepted (hmem m (by simp)))).2
    rw [attempts_eq, List.nil_append, heq, frames_append, drain_frames_append hfits, frames_cons,
      drain_of_refused (decode_frame_of_lt hm hmax _)]
    simp [Drained.followedBy]

/-! ## Reading, then writing -/

/-- Octets that are drained to their end are what is written of their messages. -/
theorem attempts_of_drain (h : drain limit buffer = ⟨ms, none, []⟩) :
    attempts limit [] ms = (List.replicate ms.length none, buffer) := by
  obtain ⟨hbuffer, hfits⟩ := frames_of_drain limit buffer
  rw [h] at hbuffer hfits
  dsimp only at hbuffer hfits
  rw [attempts_of_forall_fits hfits, hbuffer, List.append_nil, List.nil_append]

/-- **Writing and reading frames undo each other**, up to what a limit refuses. -/
theorem frames_round_trip (written read : Nat) :
    (∀ buffer m, attempt written buffer m =
      if m.payload.length + 1 ≤ min written (2 ^ 32 - 1) then (none, buffer ++ frame m)
      else (some (.tooLarge (m.payload.length + 1) written), buffer)) ∧
    (∀ ms, Delivered written read ms) ∧
    ∀ buffer ms, drain read buffer = ⟨ms, none, []⟩ →
      attempts read [] ms = (List.replicate ms.length none, buffer) := by
  refine ⟨fun buffer m => ?_, delivered written read, fun _ _ => attempts_of_drain⟩
  by_cases h : m.payload.length + 1 ≤ min written (2 ^ 32 - 1)
  · rw [if_pos h]
    exact attempt_of_fits h buffer
  · rw [if_neg h]
    exact attempt_of_not_fits h buffer

/-- The second message is refused in writing, the third in reading. -/
theorem frames_round_trip_refusals :
    drain 2 (attempts 3 [] [⟨7, [8]⟩, ⟨1, [1, 2, 3]⟩, ⟨9, [5, 6]⟩]).2 =
      ⟨[⟨7, [8]⟩], some (.tooLarge 3 2), [0, 0, 0, 3, 9, 5, 6]⟩ :=
  ((frames_round_trip 3 2).2.1 _).interrupted [⟨7, [8]⟩] ⟨9, [5, 6]⟩ [] (by decide) (by decide)
    (by decide)

end StoreClient.Frame
