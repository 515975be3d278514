import StoreClient.Command.ListKeys
import StoreClient.Proofs.Payload.RoundTrip
import StoreClient.Proofs.Text.Utf8

/-!
# The parts of a listing

The store answers a listing of keys with parts, each in a message of its own. A part is read from
its message with its own keys as texts, if all of them are texts (`ListKeys.decode_readable`), and
otherwise fails with the first of them that is none (`ListKeys.decode_unreadable`).

`ListKeys.Lists` says which locations the keys of parts are, without reading any of them.
-/

namespace StoreClient

namespace ListKeysReply

/-- All keys are texts. -/
def IsReadable (r : ListKeysReply) : Prop := ∀ key ∈ r.keys, Utf8.IsText key

/-- The reason names what is wrong with the first key that is no text. -/
def FailsFor (r : ListKeysReply) (reason : String) : Prop :=
  ∃ before key after e, r.keys = before ++ key :: after ∧ (∀ k ∈ before, Utf8.IsText k) ∧
    Utf8.decode key = .error e ∧ reason = s!"key is not UTF-8: {e.message}"

/-- Only the last part of a listing is marked. -/
def OnlyLastDone (parts : List ListKeysReply) : Prop :=
  ∃ first last, parts = first ++ [last] ∧ (∀ r ∈ first, r.done = false) ∧ last.done = true

/-- The message that carries a part. -/
def message (r : ListKeysReply) : Message := ⟨Code.keysListed, r.toValue.encode⟩

theorem mapM_toMessage (parts : List ListKeysReply) :
    parts.mapM toMessage = .ok (parts.map message) := by
  induction parts with
  | nil => rfl
  | cons r parts ih =>
    rw [List.mapM_cons, ih]
    rfl

/-- A part is read from its message. -/
theorem decode_message {r : ListKeysReply} (h : r.Short) :
    Payload.decode record.read r.message = .ok r := by
  obtain ⟨m, hm, -, hdecode⟩ :=
    Payload.readsBack_of_fits (r.fits h _) r.read_document Code.keysListed []
  cases hm
  rwa [List.append_nil] at hdecode

end ListKeysReply

namespace ListKeys

/-! ## Locations -/

/-- The locations of all keys of parts: in their order, in the bucket, and each with the octets that
came over the wire. -/
structure Lists (ns : Namespace) (parts : List ListKeysReply) (ls : List Location) : Prop where
  within : ∀ l ∈ ls, l.within = ns
  keys : (ls.map fun l => Utf8.encode l.key) = parts.flatMap ListKeysReply.keys

namespace Lists

variable {ns : Namespace} {parts parts' : List ListKeysReply} {ls ls' : List Location}

theorem nil (ns : Namespace) : Lists ns [] [] := ⟨List.forall_mem_nil _, rfl⟩

theorem append (h : Lists ns parts ls) (h' : Lists ns parts' ls') :
    Lists ns (parts ++ parts') (ls ++ ls') where
  within l hl := (List.mem_append.1 hl).elim (h.within l) (h'.within l)
  keys := by rw [List.map_append, h.keys, h'.keys, List.flatMap_append]

/-- The octets settle which locations they are. -/
theorem unique (h : Lists ns parts ls) (h' : Lists ns parts ls') : ls = ls' := by
  have hkeys := h.keys.trans h'.keys.symm
  have hwithin := h.within
  have hwithin' := h'.within
  clear h h'
  induction ls generalizing ls' with
  | nil => exact (List.map_eq_nil_iff.1 hkeys.symm).symm
  | cons l ls ih =>
    cases ls' with
    | nil => cases hkeys
    | cons l' ls' =>
      injection hkeys with hkey hkeys
      rw [List.forall_mem_cons] at hwithin hwithin'
      have hl : l = l' := by
        have hsame : l.within = l'.within := hwithin.1.trans hwithin'.1.symm
        have htext : l.key = l'.key := Utf8.encode_injective hkey
        cases l
        cases hsame
        cases htext
        rfl
      rw [hl, ih hkeys hwithin.2 hwithin'.2]

/-- A chunk with the octets of a part has the locations of its keys. -/
theorem of_chunk {r : ListKeysReply} {chunk : Chunk} (h : chunk.keys.map Utf8.encode = r.keys) :
    Lists ns [r] (locations ns chunk) where
  within l hl := by
    obtain ⟨key, -, rfl⟩ := List.mem_map.1 hl
    rfl
  keys := by
    rw [locations, List.map_map, List.flatMap_singleton, ← h]
    rfl

end Lists

/-! ## Reading a part -/

/-- Keys are read as texts, or the first that is none is told. -/
theorem mapM_decodeKey (code : UInt8) (keys : List Bytes) :
    (∃ texts, keys.mapM (decodeKey code) = .ok texts ∧ texts.map Utf8.encode = keys) ∨
      ∃ before key after e, keys = before ++ key :: after ∧ (∀ k ∈ before, Utf8.IsText k) ∧
        Utf8.decode key = .error e ∧ keys.mapM (decodeKey code) =
          .error (.decode code s!"key is not UTF-8: {e.message}") := by
  induction keys with
  | nil => exact .inl ⟨[], rfl, rfl⟩
  | cons key keys ih =>
    rw [List.mapM_cons]
    cases hd : Utf8.decode key with
    | error e =>
      right
      refine ⟨[], key, keys, e, rfl, List.forall_mem_nil _, hd, ?_⟩
      simp only [decodeKey, hd]
      rfl
    | ok text =>
      have hkey : decodeKey code key = .ok text := by simp only [decodeKey, hd]
      rw [hkey]
      rcases ih with ⟨texts, hm, rfl⟩ | ⟨before, bad, after, e, rfl, hbefore, he, hm⟩
      · left
        exact ⟨text :: texts, by rw [hm]; rfl, by rw [List.map_cons, Utf8.decode_eq_ok_iff.1 hd]⟩
      · right
        refine ⟨key :: before, bad, after, e, rfl, ?_, he, by rw [hm]; rfl⟩
        intro k hk
        rcases List.mem_cons.1 hk with rfl | hk
        · exact ⟨text, Utf8.decode_eq_ok_iff.1 hd⟩
        · exact hbefore k hk

variable {r : ListKeysReply}

theorem decode_eq (h : r.Short) : decode r.message =
    (r.keys.mapM (decodeKey Code.keysListed)).map (⟨·, r.done⟩) := by
  rw [decode, ListKeysReply.decode_message h]
  show (r.keys.mapM (decodeKey Code.keysListed) >>= fun keys => pure (⟨keys, r.done⟩ : Chunk)) = _
  cases r.keys.mapM (decodeKey Code.keysListed) <;> rfl

/-- **A part whose keys are texts is read as it is.** -/
theorem decode_readable (h : r.Short) (hr : r.IsReadable) : ∃ chunk,
    decode r.message = .ok chunk ∧ chunk.keys.map Utf8.encode = r.keys ∧ chunk.done = r.done := by
  rw [decode_eq h]
  rcases mapM_decodeKey Code.keysListed r.keys with ⟨texts, hm, hkeys⟩ |
    ⟨before, key, after, e, hkeys, -, he, -⟩
  · exact ⟨⟨texts, r.done⟩, by rw [hm]; rfl, hkeys, rfl⟩
  · obtain ⟨text, htext⟩ := hr key (by simp [hkeys])
    rw [Utf8.decode_eq_ok_iff.2 htext] at he
    cases he

/-- **A part with a key that is no text fails for the first such key.** -/
theorem decode_unreadable (h : r.Short) (hr : ¬ r.IsReadable) : ∃ reason, r.FailsFor reason ∧
    decode r.message = .error (.decode Code.keysListed reason) := by
  rw [decode_eq h]
  rcases mapM_decodeKey Code.keysListed r.keys with ⟨texts, hm, hkeys⟩ |
    ⟨before, key, after, e, hkeys, hbefore, he, hm⟩
  · refine absurd ?_ hr
    rw [ListKeysReply.IsReadable, ← hkeys]
    intro key hkey
    obtain ⟨text, -, rfl⟩ := List.mem_map.1 hkey
    exact ⟨text, rfl⟩
  · exact ⟨_, ⟨before, key, after, e, hkeys, hbefore, he, rfl⟩, by rw [hm]; rfl⟩

end ListKeys

end StoreClient
