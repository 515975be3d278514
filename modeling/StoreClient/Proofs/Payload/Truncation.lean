import StoreClient.Command.Fetch
import StoreClient.Proofs.Pack.Stopping
import StoreClient.Proofs.Payload.RoundTrip

/-!
# Payloads that are cut short are not read

No reply is read from a payload that ends early, wherever it ends (`Payload.decode_cut`): what is
missing is not taken for a field that may be missing.
-/

namespace StoreClient

namespace Payload

variable {α : Type} {read : Document → Except DocumentError α}

/-- Octets are the beginning of a payload, and not all of it. -/
structure IsCut (p payload : Bytes) : Prop where
  begins : p <+: payload
  shorter : p ≠ payload

/-- What a message carries cannot be read, and the cause names the code of the message. -/
def Refuses (read : Document → Except DocumentError α) (m : Message) : Prop :=
  ∃ reason, decode read m = .error (.decode m.code reason)

/-- **A value that is cut short is not read**, by a reader that refuses documents at which reading
stopped. -/
theorem decode_cut (hread : Document.Refuses read) {v : Value} (hfits : v.Fits Pack.maxDepth)
    {p : Bytes} (hcut : IsCut p v.encode) (code : UInt8) : Refuses read ⟨code, p⟩ := by
  obtain ⟨rest, hrest⟩ := hcut.begins
  have hne : rest ≠ [] := by
    rintro rfl
    exact hcut.shorter ((List.append_nil p).symm.trans hrest)
  have hstopped : (Pack.document p).Stopped := Pack.read_cut hfits hrest hne
  obtain ⟨e, he⟩ := hread hstopped
  exact ⟨e.message .messagePack, by rw [decode, he]⟩

end Payload

/-! ## Replies -/

theorem FetchReply.record_refuses : Document.Refuses FetchReply.record.read := by
  apply Record.read_refuses
  have hoption := Document.toOption_refuses Document.toBytes_refuses
  simp only [record, List.forall_mem_cons]
  exact ⟨Field.of_refuses hoption, Field.of_refuses hoption, List.forall_mem_nil _⟩

theorem ListKeysReply.record_refuses : Document.Refuses ListKeysReply.record.read := by
  apply Record.read_refuses
  simp only [record, List.forall_mem_cons]
  exact ⟨Field.of_refuses (Document.toList_refuses Document.toBytes_refuses),
    Field.of_refuses Document.toBool_refuses, List.forall_mem_nil _⟩

end StoreClient
