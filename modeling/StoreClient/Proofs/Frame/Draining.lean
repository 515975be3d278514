import StoreClient.Proofs.Frame.Decoding

/-!
# Taking all messages off a buffer

Draining a buffer and then draining it again with more octets is draining it once with them
(`drain_append`). Frames that keep the limit are drained one after another (`drain_frames_append`),
and the octets that were drained are the frames of the messages (`frames_of_drain`).
-/

namespace StoreClient.Frame

variable {limit : Nat} {buffer rest : Bytes} {m : Message} {e : Error}

/-! ## The next frame -/

theorem drain_of_incomplete (h : decode limit buffer = .incomplete) :
    drain limit buffer = ⟨[], none, buffer⟩ := by
  rw [drain]
  split <;> simp_all

theorem drain_of_refused (h : decode limit buffer = .refused e) :
    drain limit buffer = ⟨[], some e, buffer⟩ := by
  rw [drain]
  split <;> simp_all

theorem drain_of_message (h : decode limit buffer = .message m rest) :
    drain limit buffer =
      ⟨m :: (drain limit rest).messages, (drain limit rest).refusal, (drain limit rest).rest⟩ := by
  rw [drain]
  split <;> simp_all

@[simp] theorem drain_nil (limit : Nat) : drain limit [] = ⟨[], none, []⟩ :=
  drain_of_incomplete rfl

/-! ## Draining in two parts -/

/-- What is drained first and what is drained later, together. -/
def Drained.followedBy (first later : Drained) : Drained :=
  ⟨first.messages ++ later.messages, first.refusal.or later.refusal, later.rest⟩

/-- **Octets may arrive after a buffer was drained.** -/
theorem drain_append (limit : Nat) (buffer more : Bytes) :
    drain limit (buffer ++ more) =
      (drain limit buffer).followedBy (drain limit ((drain limit buffer).rest ++ more)) := by
  -- A message or a refusal at the front is not undone by `more`, so only a buffer without either
  -- is looked at again.
  fun_induction drain limit buffer with
  | case1 buffer h => rfl
  | case2 buffer e h => rw [drain_of_refused (decode_append_of_refused h more)]; rfl
  | case3 buffer m rest h d ih =>
    rw [drain_of_message (decode_append_of_message h more), ih]
    rfl

/-! ## Frames -/

/-- The frames of messages, one after another. -/
def frames (ms : List Message) : Bytes := ms.flatMap frame

@[simp] theorem frames_nil : frames [] = [] := rfl

@[simp] theorem frames_cons (m : Message) (ms : List Message) :
    frames (m :: ms) = frame m ++ frames ms := rfl

@[simp] theorem frames_append (ms ms' : List Message) :
    frames (ms ++ ms') = frames ms ++ frames ms' := List.flatMap_append

/-- Whether the frame of a message keeps a limit, and its length can be told. -/
def Fits (limit : Nat) (m : Message) : Prop := m.payload.length + 1 ≤ min limit maxLength

instance (limit : Nat) (m : Message) : Decidable (Fits limit m) :=
  inferInstanceAs (Decidable (_ ≤ _))

/-- Frames that keep the limit are drained, whatever follows. -/
theorem drain_frames_append {ms : List Message} (h : ∀ m ∈ ms, Fits limit m) (more : Bytes) :
    drain limit (frames ms ++ more) =
      (⟨ms, none, []⟩ : Drained).followedBy (drain limit more) := by
  induction ms with
  | nil => rfl
  | cons m ms ih =>
    obtain ⟨hm, hms⟩ := List.forall_mem_cons.1 h
    obtain ⟨hlimit, hmax⟩ := Nat.le_min.1 hm
    have hdecode := decode_frame hlimit hmax (frames ms ++ more)
    rw [← List.append_assoc, ← frames_cons] at hdecode
    rw [drain_of_message hdecode, ih hms]
    rfl

/-- **What was drained was the frames of the messages.** -/
theorem frames_of_drain (limit : Nat) (buffer : Bytes) :
    buffer = frames (drain limit buffer).messages ++ (drain limit buffer).rest ∧
      ∀ m ∈ (drain limit buffer).messages, Fits limit m := by
  fun_induction drain limit buffer with
  | case1 buffer h => exact ⟨rfl, by simp⟩
  | case2 buffer e h => exact ⟨rfl, by simp⟩
  | case3 buffer m rest h d ih =>
    obtain ⟨hbuffer, hlimit, hmax⟩ := decode_eq_message_iff.1 h
    obtain ⟨hrest, hfits⟩ := ih
    refine ⟨?_, List.forall_mem_cons.2 ⟨Nat.le_min.2 ⟨hlimit, hmax⟩, hfits⟩⟩
    rw [frames_cons, List.append_assoc, ← hrest, hbuffer]

end StoreClient.Frame
