import StoreClient.Config
import StoreClient.Payload
import StoreClient.Proofs.Document.Fields
import StoreClient.Reply

/-!
# What is decoded depends on the fields alone

A reply and a configuration are decoded from any well-formed map that says something sensible of
their fields: a field has what stands under its name, or its default where nothing does. Neither the
order of the entries nor entries of other names, neither the widths of numbers and sizes nor octets
after the map make a difference (`decoding_depends_on_fields`).
-/

namespace StoreClient

/-! ## Counts and times -/

namespace Datum

/-- A count. -/
def count? (d : Datum) : Option UInt64 := (d.natural? Document.Width.count.max).map UInt64.ofNat

/-- A time in milliseconds. -/
def duration? (d : Datum) : Option Duration :=
  (d.natural? Document.Width.u64.max).map Duration.ofMilliseconds

end Datum

theorem takes_count : Takes Document.toCount Datum.count? := by
  intro doc d b h hb
  obtain ⟨n, hn, rfl⟩ := Option.map_eq_some_iff.1 hb
  rw [Document.toCount, takes_natural .count h hn]

theorem takes_duration : Takes Document.toDuration Datum.duration? := by
  intro doc d b h hb
  obtain ⟨n, hn, rfl⟩ := Option.map_eq_some_iff.1 hb
  rw [Document.toDuration, takes_natural .u64 h hn]

/-! ## Decoding -/

namespace Payload

variable {α : Type} {r : Record α} {slots : List (Slot α)}

/-- What a map means is decoded from all octets that say the map, whatever follows them. -/
theorem decode_of_has (h : r.Has slots) {d : Datum} {a : α}
    (ha : meaning? slots r.initial d = some a) {octets : Bytes}
    (hoctets : d.Spells Pack.maxDepth octets) (code : UInt8) (trailing : Bytes) :
    decode r.read ⟨code, octets ++ trailing⟩ = .ok a := by
  obtain ⟨doc, hdoc, hshows⟩ := Pack.read_of_spells Pack.maxDepth d octets hoctets trailing
  have hdocument : Pack.document (octets ++ trailing) = doc := by rw [Pack.document, hdoc]
  rw [decode, hdocument, h.takes hshows ha]

/-- Nothing but what a map says of the fields decides what is decoded. `Said` tells what the entries
of a map say of a record as a whole. -/
structure DependsOnFields (r : Record α) (slots : List (Slot α))
    (Said : List (Bytes × Datum) → α → Prop) : Prop where
  /-- The meaning of a map is what its entries say. -/
  meaning (d : Datum) (a : α) : meaning? slots r.initial d = some a ↔
    ∃ es, d.entries? = some es ∧ Said es a
  /-- What is said is decoded, however it is told. -/
  reads {d : Datum} {es : List (Bytes × Datum)} {a : α} {octets : Bytes}
    (hes : d.entries? = some es) (ha : Said es a) (hoctets : d.Spells Pack.maxDepth octets)
    (code : UInt8) (trailing : Bytes) : decode r.read ⟨code, octets ++ trailing⟩ = .ok a
  /-- From maps that say the same of every field, the same is decoded. -/
  agrees {d d' : Datum} {a : α} {octets octets' : Bytes} (hsame : SameFields slots d d')
    (ha : meaning? slots r.initial d = some a)
    (hoctets : d.Spells Pack.maxDepth octets) (hoctets' : d'.Spells Pack.maxDepth octets')
    (code code' : UInt8) (trailing trailing' : Bytes) :
    decode r.read ⟨code, octets ++ trailing⟩ = .ok a ∧
      decode r.read ⟨code', octets' ++ trailing'⟩ = .ok a

theorem dependsOnFields (h : r.Has slots) {Said : List (Bytes × Datum) → α → Prop}
    (hsaid : ∀ es a, fill slots es r.initial = some a ↔ Said es a) :
    DependsOnFields r slots Said where
  meaning d a := by
    rw [meaning?, Option.bind_eq_some_iff]
    exact exists_congr fun es => and_congr_right fun _ => hsaid es a
  reads hes ha := by
    refine decode_of_has h ?_
    rw [meaning?, hes, Option.bind_some]
    exact (hsaid _ _).2 ha
  agrees hsame ha hoctets hoctets' code code' trailing trailing' :=
    have ha' := meaning?_congr hsame r.initial ▸ ha
    ⟨decode_of_has h ha hoctets code trailing, decode_of_has h ha' hoctets' code' trailing'⟩

end Payload

/-! ## Replies -/

namespace FetchReply

/-- The fields of a reply. -/
def slots : List (Slot FetchReply) := [
  .of "value" (Datum.optional Datum.bytes?) fun r v => { r with value := v },
  .of "vclock" (Datum.optional Datum.bytes?) fun r v => { r with vclock := v }]

/-- What entries say of a reply. Both fields are byte strings or null, which is their default. -/
def Said (es : List (Bytes × Datum)) (r : FetchReply) : Prop :=
  Says (Datum.optional Datum.bytes?) none (valuesAt "value" es) r.value ∧
    Says (Datum.optional Datum.bytes?) none (valuesAt "vclock" es) r.vclock

theorem has_slots : record.Has slots where
  fields := .cons (Field.takes_of takes_bytes.optional _ _)
    (.cons (Field.takes_of takes_bytes.optional _ _) .nil)
  distinct := by decide
  apart := List.pairwise_pair.2 (Slot.apart_of fun _ _ _ => rfl)
  incomplete := rfl

theorem fill_slots_iff (es : List (Bytes × Datum)) (r : FetchReply) :
    fill slots es record.initial = some r ↔ Said es r := by
  rw [slots, fill_of_eq_some_iff none rfl]
  constructor
  · rintro ⟨value, hvalue, hrest⟩
    obtain ⟨vclock, hvclock, ⟨⟩⟩ := (fill_of_eq_some_iff none rfl).1 hrest
    exact ⟨hvalue, hvclock⟩
  · rintro ⟨hvalue, hvclock⟩
    exact ⟨r.value, hvalue, (fill_of_eq_some_iff none rfl).2 ⟨r.vclock, hvclock, rfl⟩⟩

end FetchReply

namespace ListKeysReply

/-- The fields of a reply. -/
def slots : List (Slot ListKeysReply) := [
  .of "keys" (Datum.list? Datum.bytes?) fun r ks => { r with keys := ks },
  .of "done" Datum.bool? fun r b => { r with done := b }]

/-- What entries say of a reply. The keys are an array of byte strings. -/
def Said (es : List (Bytes × Datum)) (r : ListKeysReply) : Prop :=
  Says (Datum.list? Datum.bytes?) [] (valuesAt "keys" es) r.keys ∧
    Says Datum.bool? false (valuesAt "done" es) r.done

theorem has_slots : record.Has slots where
  fields := .cons (Field.takes_of takes_bytes.list _ _)
    (.cons (Field.takes_of takes_bool _ _) .nil)
  distinct := by decide
  apart := List.pairwise_pair.2 (Slot.apart_of fun _ _ _ => rfl)
  incomplete := rfl

theorem fill_slots_iff (es : List (Bytes × Datum)) (r : ListKeysReply) :
    fill slots es record.initial = some r ↔ Said es r := by
  rw [slots, fill_of_eq_some_iff [] rfl]
  constructor
  · rintro ⟨keys, hkeys, hrest⟩
    obtain ⟨done, hdone, ⟨⟩⟩ := (fill_of_eq_some_iff false rfl).1 hrest
    exact ⟨hkeys, hdone⟩
  · rintro ⟨hkeys, hdone⟩
    exact ⟨r.keys, hkeys, (fill_of_eq_some_iff false rfl).2 ⟨r.done, hdone, rfl⟩⟩

end ListKeysReply

/-! ## Configuration -/

namespace StreamConfig

/-- The settings of the section. -/
def slots : List (Slot StreamConfig) := [
  .of "pollTimeoutMs" Datum.duration? fun c d => { c with pollTimeout := d },
  .of "queueCapacity" Datum.count? fun c n => { c with queueCapacity := n }]

/-- What entries say of the section. -/
def Said (es : List (Bytes × Datum)) (c : StreamConfig) : Prop :=
  Says Datum.duration? (.ofSeconds 30) (valuesAt "pollTimeoutMs" es) c.pollTimeout ∧
    Says Datum.count? 1024 (valuesAt "queueCapacity" es) c.queueCapacity

theorem has_slots : record.Has slots where
  fields := .cons (Field.takes_of takes_duration _ _) (.cons (Field.takes_of takes_count _ _) .nil)
  distinct := by decide
  apart := List.pairwise_pair.2 (Slot.apart_of fun _ _ _ => rfl)
  incomplete := rfl

theorem fill_slots_iff (es : List (Bytes × Datum)) (c : StreamConfig) :
    fill slots es record.initial = some c ↔ Said es c := by
  rw [slots, fill_of_eq_some_iff (.ofSeconds 30) rfl]
  constructor
  · rintro ⟨timeout, htimeout, hrest⟩
    obtain ⟨capacity, hcapacity, ⟨⟩⟩ := (fill_of_eq_some_iff 1024 rfl).1 hrest
    exact ⟨htimeout, hcapacity⟩
  · rintro ⟨htimeout, hcapacity⟩
    exact ⟨c.pollTimeout, htimeout,
      (fill_of_eq_some_iff 1024 rfl).2 ⟨c.queueCapacity, hcapacity, rfl⟩⟩

end StreamConfig

namespace FrameConfig

/-- The setting of the section. -/
def slots : List (Slot FrameConfig) := [
  .of "maxFrameLen" Datum.count? fun c n => { c with maxFrameLength := n }]

/-- What entries say of the section. -/
def Said (es : List (Bytes × Datum)) (c : FrameConfig) : Prop :=
  Says Datum.count? (64 * 1024 * 1024) (valuesAt "maxFrameLen" es) c.maxFrameLength

theorem has_slots : record.Has slots where
  fields := .cons (Field.takes_of takes_count _ _) .nil
  distinct := by decide
  apart := List.pairwise_singleton _ _
  incomplete := rfl

theorem fill_slots_iff (es : List (Bytes × Datum)) (c : FrameConfig) :
    fill slots es record.initial = some c ↔ Said es c := by
  rw [slots, fill_of_eq_some_iff (64 * 1024 * 1024) rfl]
  constructor
  · rintro ⟨length, hlength, ⟨⟩⟩
    exact hlength
  · intro hlength
    exact ⟨c.maxFrameLength, hlength, rfl⟩

end FrameConfig

namespace FanOutConfig

/-- The setting of the section. -/
def slots : List (Slot FanOutConfig) := [
  .of "maxInFlight" Datum.count? fun c n => { c with maxInFlight := n }]

/-- What entries say of the section. -/
def Said (es : List (Bytes × Datum)) (c : FanOutConfig) : Prop :=
  Says Datum.count? 10 (valuesAt "maxInFlight" es) c.maxInFlight

theorem has_slots : record.Has slots where
  fields := .cons (Field.takes_of takes_count _ _) .nil
  distinct := by decide
  apart := List.pairwise_singleton _ _
  incomplete := rfl

theorem fill_slots_iff (es : List (Bytes × Datum)) (c : FanOutConfig) :
    fill slots es record.initial = some c ↔ Said es c := by
  rw [slots, fill_of_eq_some_iff 10 rfl]
  constructor
  · rintro ⟨limit, hlimit, ⟨⟩⟩
    exact hlimit
  · intro hlimit
    exact ⟨c.maxInFlight, hlimit, rfl⟩

end FanOutConfig

namespace ClientConfig

/-- The sections of a configuration. -/
def slots : List (Slot ClientConfig) := [
  .of "fanOut" (meaning? FanOutConfig.slots {}) fun c s => { c with fanOut := s },
  .of "stream" (meaning? StreamConfig.slots {}) fun c s => { c with stream := s },
  .of "frame" (meaning? FrameConfig.slots {}) fun c s => { c with frame := s }]

/-- What entries say of a configuration. Each section is a map of its own. -/
def Said (es : List (Bytes × Datum)) (c : ClientConfig) : Prop :=
  Says (meaning? FanOutConfig.slots {}) {} (valuesAt "fanOut" es) c.fanOut ∧
    Says (meaning? StreamConfig.slots {}) {} (valuesAt "stream" es) c.stream ∧
    Says (meaning? FrameConfig.slots {}) {} (valuesAt "frame" es) c.frame

theorem has_slots : record.Has slots where
  fields := .cons (Field.takes_of FanOutConfig.has_slots.takes _ _)
    (.cons (Field.takes_of StreamConfig.has_slots.takes _ _)
      (.cons (Field.takes_of FrameConfig.has_slots.takes _ _) .nil))
  distinct := by decide
  apart := by
    refine List.pairwise_cons.2 ⟨?_, List.pairwise_pair.2 (Slot.apart_of fun _ _ _ => rfl)⟩
    exact List.forall_mem_cons.2 ⟨Slot.apart_of fun _ _ _ => rfl,
      List.forall_mem_singleton.2 (Slot.apart_of fun _ _ _ => rfl)⟩
  incomplete := rfl

theorem fill_slots_iff (es : List (Bytes × Datum)) (c : ClientConfig) :
    fill slots es record.initial = some c ↔ Said es c := by
  rw [slots, fill_of_eq_some_iff {} rfl]
  constructor
  · rintro ⟨fanOut, hfanOut, hrest⟩
    obtain ⟨stream, hstream, hrest⟩ := (fill_of_eq_some_iff {} rfl).1 hrest
    obtain ⟨frame, hframe, ⟨⟩⟩ := (fill_of_eq_some_iff {} rfl).1 hrest
    exact ⟨hfanOut, hstream, hframe⟩
  · rintro ⟨hfanOut, hstream, hframe⟩
    refine ⟨c.fanOut, hfanOut, (fill_of_eq_some_iff {} rfl).2 ⟨c.stream, hstream, ?_⟩⟩
    exact (fill_of_eq_some_iff {} rfl).2 ⟨c.frame, hframe, rfl⟩

end ClientConfig

/-! ## All that is decoded -/

open Payload (DependsOnFields dependsOnFields)

/-- **What is decoded depends on the fields alone**, whatever else a map holds and however it is
told. -/
theorem decoding_depends_on_fields :
    DependsOnFields FetchReply.record FetchReply.slots FetchReply.Said ∧
    DependsOnFields ListKeysReply.record ListKeysReply.slots ListKeysReply.Said ∧
    DependsOnFields StreamConfig.record StreamConfig.slots StreamConfig.Said ∧
    DependsOnFields FrameConfig.record FrameConfig.slots FrameConfig.Said ∧
    DependsOnFields FanOutConfig.record FanOutConfig.slots FanOutConfig.Said ∧
    DependsOnFields ClientConfig.record ClientConfig.slots ClientConfig.Said ∧
    ∀ octets, Datum.bytes? (.binary octets) = some octets ∧
      Datum.bytes? (.text octets) = some octets ∧
      Datum.bytes? (.array (octets.map fun b => .integer b.toNat)) = some octets :=
  ⟨dependsOnFields FetchReply.has_slots FetchReply.fill_slots_iff,
    dependsOnFields ListKeysReply.has_slots ListKeysReply.fill_slots_iff,
    dependsOnFields StreamConfig.has_slots StreamConfig.fill_slots_iff,
    dependsOnFields FrameConfig.has_slots FrameConfig.fill_slots_iff,
    dependsOnFields FanOutConfig.has_slots FanOutConfig.fill_slots_iff,
    dependsOnFields ClientConfig.has_slots ClientConfig.fill_slots_iff, Datum.bytes?_forms⟩

/-- An entry that is no field of a reply, and after it a value that is an array of octets. -/
def extendedEntries : List (Bytes × Datum) :=
  [(Utf8.encode "next", .array [.map [(.null, .extension 5 [1, 2, 3])]]),
    (Utf8.encode "value", .array [.integer 1, .integer 255])]

/-- A reply with those entries. -/
def extendedReply : Datum := .map (extendedEntries.map fun (key, value) => (.text key, value))

/-- The octets of such a reply, of which most headers are not the shortest. -/
def extendedReplyOctets : Bytes :=
  [0xDE, 0, 2,
    0xA4, 0x6E, 0x65, 0x78, 0x74, 0xDC, 0, 1, 0x81, 0xC0, 0xC7, 3, 5, 1, 2, 3,
    0xD9, 5, 0x76, 0x61, 0x6C, 0x75, 0x65, 0xDD, 0, 0, 0, 2, 0xCD, 0, 1, 0xD1, 0, 255]

theorem extendedReply_spells : extendedReply.Spells Pack.maxDepth extendedReplyOctets := by
  have hextension : (Datum.extension 5 [1, 2, 3]).Spells 1020 [0xC7, 3, 5, 1, 2, 3] := by
    have hwide : (0xC7, 1) ∈ Pack.Layout.extension.wide := by decide
    exact ⟨[0xC7, 3], .after hwide (by decide), rfl⟩
  have hinner : (Datum.map [(.null, .extension 5 [1, 2, 3])]).Spells 1021
      [0x81, 0xC0, 0xC7, 3, 5, 1, 2, 3] :=
    ⟨[0x81], _, .within (by decide), .cons rfl (.cons hextension .nil), rfl⟩
  have hnext : (Datum.array [.map [(.null, .extension 5 [1, 2, 3])]]).Spells 1022
      [0xDC, 0, 1, 0x81, 0xC0, 0xC7, 3, 5, 1, 2, 3] := by
    have hwide : (0xDC, 2) ∈ Pack.Layout.array.wide := by decide
    exact ⟨[0xDC, 0, 1], _, .after hwide (by decide), .cons hinner .nil, rfl⟩
  have hone : (Datum.integer 1).Spells 1021 [0xCD, 0, 1] := by
    have hwide : (0xCD, 2) ∈ Pack.Layout.natural.wide := by decide
    exact .inl ⟨1, rfl, .after hwide (by decide)⟩
  have hlast : (Datum.integer 255).Spells 1021 [0xD1, 0, 255] := by
    have hsigned : Pack.TellsSigned (Bytes.toInt [0, 255]) [0xD1, 0, 255] := .after (by decide)
    have hoctets : Bytes.toInt [0, 255] = 255 := by decide
    exact .inr (hoctets ▸ hsigned)
  have hvalue : (Datum.array [.integer 1, .integer 255]).Spells 1022
      [0xDD, 0, 0, 0, 2, 0xCD, 0, 1, 0xD1, 0, 255] := by
    have hwide : (0xDD, 4) ∈ Pack.Layout.array.wide := by decide
    exact ⟨[0xDD, 0, 0, 0, 2], _, .after hwide (by decide), .cons hone (.cons hlast .nil), rfl⟩
  have hkey : (Datum.text (Utf8.encode "next")).Spells 1022 [0xA4, 0x6E, 0x65, 0x78, 0x74] :=
    ⟨[0xA4], .within (by decide), by decide⟩
  have hname : (Datum.text (Utf8.encode "value")).Spells 1022
      [0xD9, 5, 0x76, 0x61, 0x6C, 0x75, 0x65] := by
    have hwide : (0xD9, 1) ∈ Pack.Layout.text.wide := by decide
    exact ⟨[0xD9, 5], .after hwide (by decide), by decide⟩
  have hwide : (0xDE, 2) ∈ Pack.Layout.map.wide := by decide
  exact ⟨[0xDE, 0, 2], _, .after hwide (by decide),
    .cons hkey (.cons hnext (.cons hname (.cons hvalue .nil))), rfl⟩

/-- The value is found, and the octet after the map does no harm. -/
theorem extended_reply_decoded : extendedReply.Spells Pack.maxDepth extendedReplyOctets ∧
    Payload.decode FetchReply.record.read ⟨Code.fetched, extendedReplyOctets ++ [0xC1]⟩ =
      .ok (.found [1, 255]) := by
  have hentries : extendedReply.entries? = some extendedEntries := rfl
  have hvalue : valuesAt "value" extendedEntries = [.array [.integer 1, .integer 255]] := by
    rw [extendedEntries, valuesAt_cons_of_ne (by decide), valuesAt_cons_self]
    rfl
  have hvclock : valuesAt "vclock" extendedEntries = [] := by
    rw [extendedEntries, valuesAt_cons_of_ne (by decide), valuesAt_cons_of_ne (by decide)]
    rfl
  have hsaid : FetchReply.Said extendedEntries (.found [1, 255]) := by
    rw [FetchReply.Said, hvalue, hvclock]
    exact ⟨.present rfl, .absent⟩
  exact ⟨extendedReply_spells,
    decoding_depends_on_fields.1.reads hentries hsaid extendedReply_spells _ _⟩

end StoreClient
