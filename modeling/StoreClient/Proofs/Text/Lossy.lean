import StoreClient.Proofs.Text.Utf8

/-!
# What is read of octets that are no text

A lossy reading keeps the characters at the front of a byte string, whatever comes after them
(`decodeLossy_encode_append`), and so it keeps texts (`decodeLossy_encode`). Octets that are no text
have a segment that is no character, so a replacement character stands in what is read of them, and
they are not its octets (`decodeLossy_of_not_isText`).
-/

namespace StoreClient.Utf8

variable {bs : Bytes}

/-- A text at the front of a byte string is a segment for each of its characters. -/
theorem segments_encode_append (s : String) (rest : Bytes) :
    segments (encode s ++ rest) = s.toList.map .char ++ segments rest := by
  unfold encode
  induction s.toList with
  | nil => rfl
  | cons c cs ih =>
    rw [List.flatMap_cons, List.append_assoc, segments_utf8EncodeChar_append, ih, List.map_cons,
      List.cons_append]

/-- **A lossy reading keeps a text at the front.** -/
theorem decodeLossy_encode_append (s : String) (rest : Bytes) :
    decodeLossy (encode s ++ rest) = s ++ decodeLossy rest := by
  have hchars : (s.toList.map Segment.char).map Segment.lossy = s.toList := by
    rw [List.map_map]
    exact List.map_id _
  rw [decodeLossy, segments_encode_append, List.map_append, hchars, String.ofList_append,
    String.ofList_toList, decodeLossy]

@[simp] theorem decodeLossy_nil : decodeLossy [] = "" := by
  rw [decodeLossy, segments_nil]
  rfl

/-- A lossy reading of the octets of a text is the text. -/
@[simp] theorem decodeLossy_encode (s : String) : decodeLossy (encode s) = s := by
  have hfront := decodeLossy_encode_append s []
  rwa [List.append_nil, decodeLossy_nil, String.append_empty] at hfront

/-- What is read of a text has the octets that were read. -/
theorem encode_decodeLossy (h : IsText bs) : encode (decodeLossy bs) = bs := by
  obtain ⟨s, rfl⟩ := h
  rw [decodeLossy_encode]

/-- A segment in whose place no replacement character stands is a character. -/
theorem Segment.char_lossy {seg : Segment} (h : seg.lossy ≠ '\uFFFD') : .char seg.lossy = seg := by
  cases seg with
  | char c => rfl
  | illFormed n => exact absurd rfl h
  | cutOff n => exact absurd rfl h

/-- Without a replacement character in what is read of them, octets are a text. -/
theorem isText_of_not_mem (h : '\uFFFD' ∉ (decodeLossy bs).toList) : IsText bs := by
  rw [decodeLossy, String.toList_ofList] at h
  have hchars : segments bs = ((segments bs).map Segment.lossy).map .char := by
    rw [List.map_map]
    refine (List.map_id _).symm.trans (List.map_congr_left fun seg hseg => ?_)
    exact (Segment.char_lossy fun hlossy => h (hlossy ▸ List.mem_map_of_mem hseg)).symm
  refine ⟨decodeLossy bs, ?_⟩
  rw [encode, decodeLossy, String.toList_ofList]
  exact flatMap_of_segments hchars

/-- **What is read of octets that are no text shows it.** -/
theorem decodeLossy_of_not_isText (h : ¬ IsText bs) :
    '\uFFFD' ∈ (decodeLossy bs).toList ∧ encode (decodeLossy bs) ≠ bs := by
  constructor
  · exact Decidable.byContradiction fun hmem => h (isText_of_not_mem hmem)
  · intro hoctets
    exact h ⟨_, hoctets⟩

end StoreClient.Utf8
