import StoreClient.Payload
import StoreClient.Proofs.Payload.Records

/-!
# What is written as a payload is read again

A record is read from its payload, if headers can tell its sizes. Which code the message has and
which octets follow the payload does not matter (`payloads_read_back`).
-/

namespace StoreClient

/-! ## Payloads -/

namespace Payload

variable {α : Type} {read : Document → Except DocumentError α} {v : Value} {a : α}

/-- Whatever its code, a message that carries `v` can be built, and `a` is read from its payload,
also with octets after it. -/
def ReadsBack (read : Document → Except DocumentError α) (v : Value) (a : α) : Prop :=
  ∀ (code : UInt8) (trailing : Bytes), ∃ m, encode code (.ok v) = .ok m ∧ m.code = code ∧
    decode read ⟨code, m.payload ++ trailing⟩ = .ok a

/-- What is read from the document of a value is read from its octets. -/
theorem readsBack_of_fits (hfits : v.Fits Pack.maxDepth) (hread : read v.document = .ok a) :
    ReadsBack read v a := by
  intro code trailing
  refine ⟨⟨code, v.encode⟩, rfl, rfl, ?_⟩
  have hdocument : Pack.document (v.encode ++ trailing) = v.document := by
    rw [Pack.document, Pack.read_encode Pack.maxDepth v hfits]
  rw [decode, hdocument, hread]

end Payload

/-! ## All payloads -/

open Payload (ReadsBack readsBack_of_fits)

/-- **Whatever goes over the wire is read from its payload**, if headers can tell its sizes. -/
theorem payloads_read_back :
    (∀ r : FetchReply, r.Short → ReadsBack FetchReply.record.read r.toValue r) ∧
    (∀ r : ListKeysReply, r.Short → ReadsBack ListKeysReply.record.read r.toValue r) ∧
    (∀ ns : Namespace, ns.Short → ReadsBack Namespace.record.read ns.toValue ns) ∧
    (∀ l : Location, l.Short → ReadsBack Location.record.read l.toValue l) ∧
    (∀ c : FrameConfig, ReadsBack FrameConfig.record.read c.toValue c) ∧
    (∀ c : FanOutConfig, ReadsBack FanOutConfig.record.read c.toValue c) ∧
    (∀ c : StreamConfig, c.pollTimeout.IsWhole → ReadsBack StreamConfig.record.read c.toValue c) ∧
    ∀ c : ClientConfig, c.stream.pollTimeout.IsWhole →
      ReadsBack ClientConfig.record.read c.toValue c := by
  refine ⟨?_, ?_, ?_, ?_, ?_, ?_, ?_, ?_⟩
  · intro r h
    exact readsBack_of_fits (r.fits h _) r.read_document
  · intro r h
    exact readsBack_of_fits (r.fits h _) r.read_document
  · intro ns h
    exact readsBack_of_fits (ns.fits h _) ns.read_document
  · intro l h
    exact readsBack_of_fits (l.fits h _) l.read_document
  · intro c
    exact readsBack_of_fits (c.fits _) c.read_document
  · intro c
    exact readsBack_of_fits (c.fits _) c.read_document
  · intro c h
    exact readsBack_of_fits (c.fits _) (c.read_document h)
  · intro c h
    exact readsBack_of_fits (c.fits _) (c.read_document h)

/-- A location with an empty key and a bucket outside ASCII. -/
theorem location_reads_back :
    (⟨⟨"maps", "caf\u00e9"⟩, ""⟩ : Location).Short ∧
      ReadsBack Location.record.read (Location.toValue ⟨⟨"maps", "caf\u00e9"⟩, ""⟩)
        ⟨⟨"maps", "caf\u00e9"⟩, ""⟩ := by
  have hshort : (⟨⟨"maps", "caf\u00e9"⟩, ""⟩ : Location).Short :=
    ⟨⟨by decide, by decide⟩, by decide⟩
  exact ⟨hshort, payloads_read_back.2.2.2.1 _ hshort⟩

end StoreClient
