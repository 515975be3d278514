import StoreClient.Config
import StoreClient.Identity.Record
import StoreClient.Proofs.Document.Records
import StoreClient.Reply

/-!
# Records that go over the wire

Each record is read from the document of its written form (`read_document`), whatever it holds, and
its written form fits where headers can tell its sizes (`fits`). Only times lose something: those
that are no whole milliseconds.
-/

namespace StoreClient

open Document

/-! ## Identities -/

namespace Namespace

/-- Whether headers can tell the lengths of the parts. -/
def Short (ns : Namespace) : Prop :=
  (Utf8.encode ns.bucketType).length < UInt32.size ∧ (Utf8.encode ns.bucket).length < UInt32.size

theorem read_document (ns : Namespace) : record.read ns.toValue.document = .ok ns := by
  apply Record.read_document (by simp [record, Field.of])
  exact .cons (Field.read_of (toText_document _) _)
    (.cons (Field.read_of (toText_document _) _) (.nil _))

theorem fits {ns : Namespace} (h : ns.Short) (depth : Nat) : ns.toValue.Fits (depth + 1) := by
  have hfixed : 2 < UInt32.size ∧ (Utf8.encode "bucketType").length < UInt32.size ∧
      (Utf8.encode "bucket").length < UInt32.size := by decide
  simpa [toValue, Value.Fits, Value.inTurn, hfixed, Short] using h

end Namespace

namespace Location

/-- Whether headers can tell the lengths of the parts. -/
def Short (l : Location) : Prop := l.within.Short ∧ (Utf8.encode l.key).length < UInt32.size

theorem read_document (l : Location) : record.read l.toValue.document = .ok l := by
  apply Record.read_document (by simp [record, Field.of])
  exact .cons (Field.read_of (Namespace.read_document _) _)
    (.cons (Field.read_of (toText_document _) _) (.nil _))

theorem fits {l : Location} (h : l.Short) (depth : Nat) : l.toValue.Fits (depth + 2) := by
  have hfixed : 2 < UInt32.size ∧ (Utf8.encode "namespace").length < UInt32.size ∧
      (Utf8.encode "key").length < UInt32.size := by decide
  have hwithin := Namespace.fits h.1 depth
  simpa [toValue, Value.Fits, Value.inTurn, hfixed, hwithin] using h.2

end Location

/-! ## Replies -/

namespace FetchReply

/-- Whether headers can tell the lengths of what is there. -/
def Short (r : FetchReply) : Prop :=
  (∀ bs ∈ r.value, bs.length < UInt32.size) ∧ ∀ bs ∈ r.vclock, bs.length < UInt32.size

theorem read_document (r : FetchReply) : record.read r.toValue.document = .ok r := by
  apply Record.read_document (by simp [record, Field.of])
  exact .cons (Field.read_of (toOption_document _) _)
    (.cons (Field.read_of (toOption_document _) _) (.nil _))

theorem fits {r : FetchReply} (h : r.Short) (depth : Nat) : r.toValue.Fits (depth + 1) := by
  have hfixed : 2 < UInt32.size ∧ (Utf8.encode "value").length < UInt32.size ∧
      (Utf8.encode "vclock").length < UInt32.size := by decide
  have hbinary (o : Option Bytes) (ho : ∀ bs ∈ o, bs.length < UInt32.size) :
      (Value.ofOption .binary o).Fits depth := by
    cases o with
    | none => simp [Value.ofOption, Value.Fits]
    | some bs => simpa [Value.ofOption, Value.Fits] using ho
  simp [toValue, Value.Fits, Value.inTurn, hfixed, hbinary r.value h.1, hbinary r.vclock h.2]

end FetchReply

namespace ListKeysReply

/-- Whether headers can tell the number of the keys and their lengths. -/
def Short (r : ListKeysReply) : Prop :=
  r.keys.length < UInt32.size ∧ ∀ key ∈ r.keys, key.length < UInt32.size

theorem read_document (r : ListKeysReply) : record.read r.toValue.document = .ok r := by
  apply Record.read_document (by simp [record, Field.of])
  exact .cons (Field.read_of (toList_document fun _ _ => toBytes_document _) _)
    (.cons (Field.read_of (toBool_document _) _) (.nil _))

theorem fits {r : ListKeysReply} (h : r.Short) (depth : Nat) : r.toValue.Fits (depth + 2) := by
  have hfixed : 2 < UInt32.size ∧ (Utf8.encode "keys").length < UInt32.size ∧
      (Utf8.encode "done").length < UInt32.size := by decide
  simpa [toValue, Value.Fits, Value.inTurn, hfixed, Short] using h

end ListKeysReply

/-! ## Configuration -/

theorem Document.toCount_document (n : UInt64) :
    toCount (Value.nat n.toNat).document = .ok n := by
  rw [toCount, toNat_document (Nat.le_pred_of_lt n.toNat_lt)]
  dsimp only
  rw [UInt64.ofNat_toNat]

namespace Duration

/-- Whether a time is a whole number of milliseconds that 64 bits hold. -/
def IsWhole (d : Duration) : Prop := ∃ n, n < UInt64.size ∧ d = ofMilliseconds n

theorem toNat_milliseconds {n : Nat} (h : n < UInt64.size) :
    (ofMilliseconds n).milliseconds.toNat = n := by
  have hquotient : n * 1000000 / 1000000 = n := Nat.mul_div_cancel n (by decide)
  rw [milliseconds_toNat, ofMilliseconds, hquotient, Nat.min_eq_left (Nat.le_sub_one_of_lt h)]

theorem toDuration_document {d : Duration} (h : d.IsWhole) :
    toDuration (Value.nat d.milliseconds.toNat).document = .ok d := by
  obtain ⟨n, hn, rfl⟩ := h
  rw [toNat_milliseconds hn, toDuration, toNat_document (Nat.le_pred_of_lt hn)]

end Duration

namespace FanOutConfig

theorem read_document (c : FanOutConfig) : record.read c.toValue.document = .ok c := by
  apply Record.read_document (by simp [record, Field.of])
  exact .cons (Field.read_of (toCount_document _) _) (.nil _)

theorem fits (c : FanOutConfig) (depth : Nat) : c.toValue.Fits (depth + 1) := by
  have hfixed : 1 < UInt32.size ∧ (Utf8.encode "maxInFlight").length < UInt32.size := by decide
  simp [toValue, Value.Fits, Value.inTurn, hfixed, UInt64.toNat_lt_size]

end FanOutConfig

namespace StreamConfig

theorem read_document {c : StreamConfig} (h : c.pollTimeout.IsWhole) :
    record.read c.toValue.document = .ok c := by
  apply Record.read_document (by simp [record, Field.of])
  exact .cons (Field.read_of (Duration.toDuration_document h) _)
    (.cons (Field.read_of (toCount_document _) _) (.nil _))

theorem fits (c : StreamConfig) (depth : Nat) : c.toValue.Fits (depth + 1) := by
  have hfixed : 2 < UInt32.size ∧ (Utf8.encode "pollTimeoutMs").length < UInt32.size ∧
      (Utf8.encode "queueCapacity").length < UInt32.size := by decide
  simp [toValue, Value.Fits, Value.inTurn, hfixed, UInt64.toNat_lt_size]

end StreamConfig

namespace FrameConfig

theorem read_document (c : FrameConfig) : record.read c.toValue.document = .ok c := by
  apply Record.read_document (by simp [record, Field.of])
  exact .cons (Field.read_of (toCount_document _) _) (.nil _)

theorem fits (c : FrameConfig) (depth : Nat) : c.toValue.Fits (depth + 1) := by
  have hfixed : 1 < UInt32.size ∧ (Utf8.encode "maxFrameLen").length < UInt32.size := by decide
  simp [toValue, Value.Fits, Value.inTurn, hfixed, UInt64.toNat_lt_size]

end FrameConfig

namespace ClientConfig

theorem read_document {c : ClientConfig} (h : c.stream.pollTimeout.IsWhole) :
    record.read c.toValue.document = .ok c := by
  apply Record.read_document (by simp [record, Field.of])
  exact .cons (Field.read_of (FanOutConfig.read_document _) _)
    (.cons (Field.read_of (StreamConfig.read_document h) _)
      (.cons (Field.read_of (FrameConfig.read_document _) _) (.nil _)))

theorem fits (c : ClientConfig) (depth : Nat) : c.toValue.Fits (depth + 2) := by
  have hfixed : 3 < UInt32.size ∧ (Utf8.encode "fanOut").length < UInt32.size ∧
      (Utf8.encode "stream").length < UInt32.size ∧
      (Utf8.encode "frame").length < UInt32.size := by decide
  simp [toValue, Value.Fits, Value.inTurn, hfixed, FanOutConfig.fits, StreamConfig.fits,
    FrameConfig.fits]

end ClientConfig

end StoreClient
