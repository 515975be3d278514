import StoreClient.Proofs.Frame.Pieces
import StoreClient.Proofs.Frame.RoundTrip

/-!
# A connection that is cut

Of the frames of messages only the first octets arrive, and then nothing more. The messages whose
frames are whole are decoded, and the end is noticed unless it falls between two frames
(`cut_is_noticed`). No part of a frame is taken for a message, and none is refused for its length:
octets that arrive later would undo neither (`decode_cut`).
-/

namespace StoreClient.Frame

variable {limit k : Nat} {buffer part : Bytes} {m : Message} {ms whole later : List Message}

/-! ## Where a cut falls -/

/-- A cut after `k` octets leaves the frames of some messages whole, and the octets `part` of the
next one. -/
structure Parts (ms : List Message) (k : Nat) (whole later : List Message) (part : Bytes) :
    Prop where
  messages : ms = whole ++ later
  octets : (frames ms).take k = frames whole ++ part
  /-- The frame of the next message is not whole. -/
  next : ∀ m rest, later = m :: rest → part <+: frame m ∧ part.length < (frame m).length
  /-- Without a next message there is nothing left. -/
  last : later = [] → part = []

/-- Every cut falls somewhere. -/
theorem exists_parts (ms : List Message) (k : Nat) :
    ∃ whole later part, Parts ms k whole later part := by
  induction ms generalizing k with
  | nil => exact ⟨[], [], [], rfl, by simp, by simp, fun _ => rfl⟩
  | cons m ms ih =>
    by_cases hk : k < (frame m).length
    · refine ⟨[], m :: ms, (frame m).take k, rfl, ?_, ?_, by simp⟩
      · rw [frames_cons, List.take_append_of_le_length (Nat.le_of_lt hk), frames_nil,
          List.nil_append]
      · intro m' rest heq
        obtain ⟨rfl, -⟩ := List.cons.inj heq
        refine ⟨List.take_prefix k _, ?_⟩
        rwa [List.length_take_of_le (Nat.le_of_lt hk)]
    · obtain ⟨whole, later, part, h⟩ := ih (k - (frame m).length)
      refine ⟨m :: whole, later, part, ?_, ?_, h.next, h.last⟩
      · rw [h.messages, List.cons_append]
      · rw [frames_cons, List.take_append, List.take_of_length_le (Nat.le_of_not_lt hk), h.octets,
          frames_cons, List.append_assoc]

/-- Whether the first `k` octets are the frames of the first messages. -/
def IsBoundary (ms : List Message) (k : Nat) : Prop :=
  ∃ first, first <+: ms ∧ (frames first).length = k

/-! ## A frame that is not whole -/

/-- **Octets that a frame goes on after are no message, and are not refused.** -/
theorem decode_cut (hm : Fits limit m) (hpart : part <+: frame m)
    (hlt : part.length < (frame m).length) : decode limit part = .incomplete := by
  obtain ⟨missing, hframe⟩ := hpart
  obtain ⟨hlimit, hmax⟩ := Nat.le_min.1 hm
  have hwhole : decode limit (part ++ missing) = .message m [] := by
    have h := decode_frame hlimit hmax []
    rwa [List.append_nil, ← hframe] at h
  cases hd : decode limit part with
  | incomplete => rfl
  | refused e =>
    rw [decode_append_of_refused hd missing] at hwhole
    cases hwhole
  | message m' rest =>
    rw [decode_append_of_message hd missing] at hwhole
    injection hwhole with _ hrest
    obtain rfl := (List.append_eq_nil_iff.1 hrest).2
    rw [List.append_nil] at hframe
    exact absurd (congrArg List.length hframe) (Nat.ne_of_lt hlt)

namespace Parts

variable (h : Parts ms k whole later part) (hfits : ∀ m ∈ ms, Fits limit m)

include h hfits

theorem fits_whole : ∀ m ∈ whole, Fits limit m := by
  intro m hm
  exact hfits m (h.messages ▸ List.mem_append_left _ hm)

theorem decode_part : decode limit part = .incomplete := by
  cases hlater : later with
  | nil =>
    rw [h.last hlater]
    rfl
  | cons m rest =>
    obtain ⟨hpart, hlt⟩ := h.next m rest hlater
    have hm : m ∈ ms := by
      rw [h.messages, hlater]
      exact List.mem_append_right _ List.mem_cons_self
    exact decode_cut (hfits m hm) hpart hlt

theorem drain_octets : drain limit ((frames ms).take k) = ⟨whole, none, part⟩ := by
  rw [h.octets, drain_frames_append (h.fits_whole hfits), drain_of_incomplete (h.decode_part hfits)]
  simp [Drained.followedBy]

/-- Nothing of a frame is left exactly at a boundary. -/
theorem part_eq_nil_iff (hk : k ≤ (frames ms).length) : part = [] ↔ IsBoundary ms k := by
  constructor
  · rintro rfl
    refine ⟨whole, ⟨later, h.messages.symm⟩, ?_⟩
    have hlength := congrArg List.length h.octets
    rw [List.append_nil, List.length_take_of_le hk] at hlength
    exact hlength.symm
  · rintro ⟨first, ⟨others, hms⟩, hlength⟩
    have hfirst : (frames ms).take k = frames first := by
      rw [← hms, frames_append, List.take_left' hlength]
    -- both ways of looking at the octets are drained alike
    have hdrain := h.drain_octets hfits
    have hfits' : ∀ m ∈ first, Fits limit m := by
      intro m hm
      exact hfits m (hms ▸ List.mem_append_left _ hm)
    rw [hfirst, ← List.append_nil (frames first), drain_frames_append hfits', drain_nil] at hdrain
    injection hdrain with _ _ hrest
    exact hrest.symm

end Parts

/-! ## The end of the octets -/

theorem decodeAtEnd_of_message {rest : Bytes} (h : decode limit buffer = .message m rest) :
    decodeAtEnd limit buffer = .message m rest := by
  rw [decodeAtEnd, h]

theorem decodeAtEnd_of_incomplete (h : decode limit buffer = .incomplete) :
    (buffer = [] → decodeAtEnd limit buffer = .incomplete) ∧
      (buffer ≠ [] → decodeAtEnd limit buffer = .refused (.io "bytes remaining on stream")) := by
  constructor
  · rintro rfl
    rfl
  · intro hne
    rw [decodeAtEnd, h]
    exact if_neg (by simpa using hne)

/-- Messages of which none is refused in writing fit. -/
theorem fits_of_attempts (h : ∀ e ∈ (attempts limit buffer ms).1, e = none) :
    ∀ m ∈ ms, Fits limit m := by
  intro m hm
  rw [attempts_eq, List.forall_mem_map] at h
  have hnone := h m hm
  unfold refusal? at hnone
  by_cases hfits : Fits limit m
  · exact hfits
  · rw [if_neg hfits] at hnone
    cases hnone

/-- What a reader makes of the frames of messages of which only the first `k` octets arrived, where
draining them came to `d`. -/
structure Noticed (limit : Nat) (ms : List Message) (k : Nat) (whole : List Message) (part : Bytes)
    (d : Drained) : Prop where
  /-- The messages whose frames are whole were decoded, none was refused, and the rest stays. -/
  drained : d = ⟨whole, none, part⟩
  boundary : IsBoundary ms k → decodeAtEnd limit d.rest = .incomplete
  noticed : ¬ IsBoundary ms k →
    d.rest ≠ [] ∧ decodeAtEnd limit d.rest = .refused (.io "bytes remaining on stream")
  stays : (decodeAtEnd limit d.rest).bufferAfter d.rest = part
  /-- Messages that were not decoded before the end are decoded then. -/
  late : ∀ before m after, whole = before ++ m :: after →
    decodeAtEnd limit (frames (m :: after) ++ part) = .message m (frames after ++ part)

/-- **A cut connection is noticed**, in whatever pieces the octets before the cut arrive. -/
theorem cut_is_noticed (limit : Nat) (ms : List Message)
    (hms : ∀ e ∈ (attempts limit [] ms).1, e = none) (k : Nat)
    (hk : k ≤ (attempts limit [] ms).2.length) (pieces : List Bytes)
    (hpieces : pieces.flatten = (attempts limit [] ms).2.take k) :
    ∃ whole later part, Parts ms k whole later part ∧
      Noticed limit ms k whole part (drainPieces limit [] pieces) := by
  have hfits := fits_of_attempts hms
  rw [attempts_of_forall_fits hfits, List.nil_append] at hk hpieces
  obtain ⟨whole, later, part, h⟩ := exists_parts ms k
  have hdrain : drainPieces limit [] pieces = ⟨whole, none, part⟩ := by
    rw [(drain_pieces limit).1, hpieces, h.drain_octets hfits]
  have hend := decodeAtEnd_of_incomplete (h.decode_part hfits)
  have hiff := h.part_eq_nil_iff hfits hk
  refine ⟨whole, later, part, h, hdrain, fun hb => ?_, fun hb => ?_, ?_, ?_⟩
  · rw [hdrain]
    exact hend.1 (hiff.2 hb)
  · rw [hdrain]
    have hne : part ≠ [] := fun hnil => hb (hiff.1 hnil)
    exact ⟨hne, hend.2 hne⟩
  · rw [hdrain]
    by_cases hnil : part = []
    · rw [hend.1 hnil]
      rfl
    · rw [hend.2 hnil]
      rfl
  · rintro before m after rfl
    obtain ⟨hlimit, hmax⟩ := Nat.le_min.1 (h.fits_whole hfits m (by simp))
    rw [frames_cons, List.append_assoc]
    exact decodeAtEnd_of_message (decode_frame hlimit hmax _)

/-- The second frame is cut within its length. -/
theorem cut_is_noticed_length :
    (∀ e ∈ (attempts 4 [] [⟨7, [8]⟩, ⟨9, [1, 2]⟩]).1, e = none) ∧
      8 ≤ (attempts 4 [] [⟨7, [8]⟩, ⟨9, [1, 2]⟩]).2.length ∧
      [[0, 0], [0, 2, 7], [], [8, 0, 0]].flatten =
        (attempts 4 [] [⟨7, [8]⟩, ⟨9, [1, 2]⟩]).2.take 8 ∧
      (∃ later, Parts [⟨7, [8]⟩, ⟨9, [1, 2]⟩] 8 [⟨7, [8]⟩] later [0, 0]) ∧
      Noticed 4 [⟨7, [8]⟩, ⟨9, [1, 2]⟩] 8 [⟨7, [8]⟩] [0, 0]
        (drainPieces 4 [] [[0, 0], [0, 2, 7], [], [8, 0, 0]]) := by
  have hdrain : drainPieces 4 [] [[0, 0], [0, 2, 7], [], [8, 0, 0]] =
      ⟨[⟨7, [8]⟩], none, [0, 0]⟩ := by cbv
  have hms : ∀ e ∈ (attempts 4 [] [⟨7, [8]⟩, ⟨9, [1, 2]⟩]).1, e = none := by decide
  obtain ⟨whole, later, part, hparts, h⟩ := cut_is_noticed 4 [⟨7, [8]⟩, ⟨9, [1, 2]⟩] hms 8
    (by decide) [[0, 0], [0, 2, 7], [], [8, 0, 0]] (by decide)
  obtain ⟨rfl, -, rfl⟩ := Drained.mk.inj (h.drained.symm.trans hdrain)
  exact ⟨hms, by decide, by decide, ⟨later, hparts⟩, h⟩

end StoreClient.Frame
