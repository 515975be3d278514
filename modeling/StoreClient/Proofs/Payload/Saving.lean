import StoreClient.Document.Json
import StoreClient.Proofs.Payload.Fields
import StoreClient.Proofs.Payload.RoundTrip

/-!
# Configurations are saved and loaded again

A configuration is written with its timeout in whole milliseconds, as many as 64 bits hold. What is
loaded again has what is left of the timeout (`saved`), and is otherwise the same. It is accepted if
it was before, unless its timeout is shorter than a millisecond, of which nothing is left
(`configurations_survive_saving`, `short_timeout_is_lost`).
-/

namespace StoreClient

variable {α : Type}

/-! ## Times -/

namespace Duration

/-- What is left of a time that is written in milliseconds. -/
def saved (d : Duration) : Duration := .ofMilliseconds d.milliseconds.toNat

theorem saved_nanoseconds (d : Duration) :
    d.saved.nanoseconds = min (d.nanoseconds / 1000000) (UInt64.size - 1) * 1000000 := by
  rw [saved, milliseconds_toNat, ofMilliseconds]

theorem isWhole_saved (d : Duration) : d.saved.IsWhole := ⟨_, d.milliseconds.toNat_lt, rfl⟩

theorem milliseconds_saved (d : Duration) : d.saved.milliseconds = d.milliseconds :=
  UInt64.toNat_inj.1 (toNat_milliseconds d.milliseconds.toNat_lt)

theorem saved_le (d : Duration) : d.saved.nanoseconds ≤ d.nanoseconds := by
  rw [saved_nanoseconds]
  omega

/-- No whole millisecond is lost of a time that 64 bits hold. -/
theorem lt_saved_add {d : Duration} (h : d.nanoseconds ≤ (UInt64.size - 1) * 1000000) :
    d.nanoseconds < d.saved.nanoseconds + 1000000 := by
  have hquotient : d.nanoseconds / 1000000 ≤ UInt64.size - 1 := by omega
  rw [saved_nanoseconds, Nat.min_eq_left hquotient]
  omega

/-- Nothing is left of less than a millisecond. -/
theorem saved_eq_zero_iff (d : Duration) : d.saved.nanoseconds = 0 ↔ d.nanoseconds < 1000000 := by
  have hsize : 0 < UInt64.size - 1 := by decide
  rw [saved_nanoseconds]
  omega

end Duration

/-! ## What is checked -/

theorem requireNonzero_eq_ok_iff {field : String} {isZero : Bool} :
    requireNonzero field isZero = .ok () ↔ isZero = false := by
  cases isZero with
  | false => exact ⟨fun _ => rfl, fun _ => rfl⟩
  | true => exact ⟨nofun, nofun⟩

/-- Two checks are passed one after the other. -/
theorem bind_eq_ok_iff {first second : Except ConfigError Unit} :
    (first >>= fun _ => second) = .ok () ↔ first = .ok () ∧ second = .ok () := by
  cases first with
  | ok => exact ⟨fun h => ⟨rfl, h⟩, fun h => h.2⟩
  | error e => exact ⟨nofun, nofun⟩

/-! ## Saving -/

/-- A type of configurations: how they are read, written and checked, with their timeout and their
counts. -/
structure Settings (α : Type) where
  record : Record α
  toValue : α → Value
  validate : α → Except ConfigError Unit
  timeout : α → Duration
  counts : α → List UInt64

/-- What becomes of a configuration that is saved and loaded again. -/
structure Settings.Survives (t : Settings α) (c c' : α) : Prop where
  json : t.record.read (Document.ofJson (t.toValue c).toJson) = .ok c'
  messagePack : Payload.ReadsBack t.record.read (t.toValue c) c'
  counts : t.counts c' = t.counts c
  le : (t.timeout c').nanoseconds ≤ (t.timeout c).nanoseconds
  near : (t.timeout c).nanoseconds ≤ (UInt64.size - 1) * 1000000 →
    (t.timeout c).nanoseconds < (t.timeout c').nanoseconds + 1000000
  /-- It is accepted if it was before and something was left of its timeout. -/
  accepted : t.validate c' = .ok () ↔
    t.validate c = .ok () ∧ 1000000 ≤ (t.timeout c).nanoseconds
  /-- What is left of a shorter timeout is what it is refused for, if nothing else is. -/
  refused : t.validate c = .ok () → (t.timeout c).nanoseconds < 1000000 →
    t.validate c' = .error (.zero "stream.poll_timeout")
  /-- It is saved as before. -/
  same : t.toValue c' = t.toValue c

/-! ## Documents from JSON -/

namespace Document

/-- Sorted entries show an object with the same names. -/
theorem shows_ofEntries {es sorted : List (String × Document)} (ds : List (String × Datum))
    (hsorted : sortEntries es = sorted)
    (h : List.Forall₂ (fun e e' => e.1 = e'.1 ∧ e.2.Shows e'.2) sorted ds) :
    (ofEntries es).Shows (.object ds) := by
  rw [ofEntries, hsorted]
  clear hsorted
  refine .map none ?_
  induction h with
  | nil => exact .nil
  | cons he _ ih => exact .cons (he.1 ▸ .text none _) (.cons he.2 ih)

theorem shows_count (n : UInt64) :
    (ofJson (Value.nat n.toNat).toJson).Shows (.integer n.toNat) := by
  have hnumber : ofJson (Value.nat n.toNat).toJson = .unsigned n.toNat :=
    if_pos ⟨rfl, rfl, n.toNat_lt⟩
  rw [hnumber]
  exact .unsigned n.toNat

end Document

namespace Datum

theorem count?_count (n : UInt64) : count? (.integer n.toNat) = some n := by
  have hmax : n.toNat ≤ Document.Width.count.max := Nat.le_sub_one_of_lt n.toNat_lt
  rw [count?, natural?_natCast hmax, Option.map_some, UInt64.ofNat_toNat]

end Datum

theorem Duration.duration?_milliseconds (d : Duration) :
    Datum.duration? (.integer d.milliseconds.toNat) = some d.saved := by
  have hmax : d.milliseconds.toNat ≤ Document.Width.u64.max :=
    Nat.le_sub_one_of_lt d.milliseconds.toNat_lt
  rw [Datum.duration?, Datum.natural?_natCast hmax, Option.map_some, saved]

/-! ## Sections -/

/-- A JSON document tells a record. -/
def Json.Tells (v : Json) (slots : List (Slot α)) (initial a : α) : Prop :=
  ∃ d, (Document.ofJson v).Shows d ∧ meaning? slots initial d = some a

/-- An object tells a record, if its sorted entries show what fills the record. -/
theorem Json.tells_object {entries : List (String × Json)} {sorted : List (String × Document)}
    {slots : List (Slot α)} {initial a : α} (ds : List (String × Datum))
    (hsorted : Document.sortEntries (Document.ofJsonEntries entries) = sorted)
    (hshows : List.Forall₂ (fun e e' => e.1 = e'.1 ∧ e.2.Shows e'.2) sorted ds)
    (hfill : fill slots (ds.map fun (name, d) => (Utf8.encode name, d)) initial = some a) :
    (Json.object entries).Tells slots initial a := by
  refine ⟨.object ds, Document.shows_ofEntries ds hsorted hshows, ?_⟩
  rw [meaning?, Datum.entries?_object, Option.bind_some, hfill]

theorem FanOutConfig.json_tells (c : FanOutConfig) : c.toValue.toJson.Tells slots {} c := by
  refine Json.tells_object [("maxInFlight", .integer c.maxInFlight.toNat)] rfl
    (.cons ⟨rfl, Document.shows_count _⟩ .nil) ((fill_slots_iff _ c).2 ?_)
  rw [Said, valuesAt_object]
  exact .present (Datum.count?_count _)

theorem FrameConfig.json_tells (c : FrameConfig) : c.toValue.toJson.Tells slots {} c := by
  refine Json.tells_object [("maxFrameLen", .integer c.maxFrameLength.toNat)] rfl
    (.cons ⟨rfl, Document.shows_count _⟩ .nil) ((fill_slots_iff _ c).2 ?_)
  rw [Said, valuesAt_object]
  exact .present (Datum.count?_count _)

namespace StreamConfig

/-- The section after it was saved. -/
def saved (c : StreamConfig) : StreamConfig := { c with pollTimeout := c.pollTimeout.saved }

theorem toValue_saved (c : StreamConfig) : c.saved.toValue = c.toValue := by
  rw [toValue, toValue, saved, Duration.milliseconds_saved]

theorem json_tells (c : StreamConfig) : c.toValue.toJson.Tells slots {} c.saved := by
  refine Json.tells_object [("pollTimeoutMs", .integer c.pollTimeout.milliseconds.toNat),
      ("queueCapacity", .integer c.queueCapacity.toNat)] rfl
    (.cons ⟨rfl, Document.shows_count _⟩ (.cons ⟨rfl, Document.shows_count _⟩ .nil))
    ((fill_slots_iff _ c.saved).2 ?_)
  rw [Said, valuesAt_object, valuesAt_object]
  exact ⟨.present c.pollTimeout.duration?_milliseconds, .present (Datum.count?_count _)⟩

theorem readsBack_saved (c : StreamConfig) : Payload.ReadsBack record.read c.toValue c.saved := by
  rw [← toValue_saved]
  exact Payload.readsBack_of_fits (c.saved.fits _)
    (c.saved.read_document c.pollTimeout.isWhole_saved)

theorem validate_eq_ok_iff (c : StreamConfig) :
    c.validate = .ok () ↔ c.pollTimeout.nanoseconds ≠ 0 ∧ c.queueCapacity ≠ 0 := by
  rw [validate, bind_eq_ok_iff, requireNonzero_eq_ok_iff, requireNonzero_eq_ok_iff,
    beq_eq_false_iff_ne, beq_eq_false_iff_ne]

theorem validate_saved (c : StreamConfig) : c.saved.validate = .ok () ↔
    c.validate = .ok () ∧ 1000000 ≤ c.pollTimeout.nanoseconds := by
  have hleft := c.pollTimeout.saved_eq_zero_iff
  rw [validate_eq_ok_iff, validate_eq_ok_iff, saved]
  dsimp only
  constructor
  · rintro ⟨hsaved, hcapacity⟩
    exact ⟨⟨by omega, hcapacity⟩, by omega⟩
  · rintro ⟨⟨-, hcapacity⟩, htimeout⟩
    exact ⟨by omega, hcapacity⟩

/-- A timeout of which nothing is left is refused before anything else. -/
theorem validate_saved_of_lt {c : StreamConfig} (h : c.pollTimeout.nanoseconds < 1000000) :
    c.saved.validate = .error (.zero "stream.poll_timeout") := by
  have hleft : (c.pollTimeout.saved.nanoseconds == 0) = true :=
    beq_iff_eq.2 (c.pollTimeout.saved_eq_zero_iff.2 h)
  rw [validate, saved]
  dsimp only
  rw [hleft]
  rfl

end StreamConfig

namespace ClientConfig

/-- The configuration after it was saved. -/
def saved (c : ClientConfig) : ClientConfig := { c with stream := c.stream.saved }

theorem toValue_saved (c : ClientConfig) : c.saved.toValue = c.toValue := by
  rw [toValue, toValue, saved, StreamConfig.toValue_saved]

theorem json_tells (c : ClientConfig) : c.toValue.toJson.Tells slots {} c.saved := by
  obtain ⟨fanOut, hfanOut, hlimit⟩ := c.fanOut.json_tells
  obtain ⟨stream, hstream, hqueue⟩ := c.stream.json_tells
  obtain ⟨frame, hframe, hlength⟩ := c.frame.json_tells
  -- The sections stand in the order of their names.
  refine Json.tells_object [("fanOut", fanOut), ("frame", frame), ("stream", stream)] rfl
    (.cons ⟨rfl, hfanOut⟩ (.cons ⟨rfl, hframe⟩ (.cons ⟨rfl, hstream⟩ .nil)))
    ((fill_slots_iff _ c.saved).2 ?_)
  rw [Said, valuesAt_object, valuesAt_object, valuesAt_object]
  exact ⟨.present hlimit, .present hqueue, .present hlength⟩

theorem readsBack_saved (c : ClientConfig) : Payload.ReadsBack record.read c.toValue c.saved := by
  rw [← toValue_saved]
  exact Payload.readsBack_of_fits (c.saved.fits _)
    (c.saved.read_document c.stream.pollTimeout.isWhole_saved)

theorem validate_eq_ok_iff (c : ClientConfig) : c.validate = .ok () ↔
    c.fanOut.validate = .ok () ∧ c.stream.validate = .ok () ∧ c.frame.validate = .ok () := by
  rw [validate, bind_eq_ok_iff, bind_eq_ok_iff]

theorem validate_saved (c : ClientConfig) : c.saved.validate = .ok () ↔
    c.validate = .ok () ∧ 1000000 ≤ c.stream.pollTimeout.nanoseconds := by
  have hstream := c.stream.validate_saved
  rw [validate_eq_ok_iff, validate_eq_ok_iff, saved]
  dsimp only
  rw [hstream]
  constructor
  · rintro ⟨hfanOut, ⟨hstream, htimeout⟩, hframe⟩
    exact ⟨⟨hfanOut, hstream, hframe⟩, htimeout⟩
  · rintro ⟨⟨hfanOut, hstream, hframe⟩, htimeout⟩
    exact ⟨hfanOut, ⟨hstream, htimeout⟩, hframe⟩

theorem validate_saved_of_lt {c : ClientConfig} (hc : c.validate = .ok ())
    (h : c.stream.pollTimeout.nanoseconds < 1000000) :
    c.saved.validate = .error (.zero "stream.poll_timeout") := by
  have hstream := StreamConfig.validate_saved_of_lt h
  rw [validate, saved]
  dsimp only
  rw [(c.validate_eq_ok_iff.1 hc).1, hstream]
  rfl

end ClientConfig

/-! ## Both types -/

/-- The settings of streams. -/
def streamSettings : Settings StreamConfig where
  record := StreamConfig.record
  toValue := StreamConfig.toValue
  validate := StreamConfig.validate
  timeout := StreamConfig.pollTimeout
  counts c := [c.queueCapacity]

/-- The settings of a client. -/
def clientSettings : Settings ClientConfig where
  record := ClientConfig.record
  toValue := ClientConfig.toValue
  validate := ClientConfig.validate
  timeout c := c.stream.pollTimeout
  counts c := [c.fanOut.maxInFlight, c.stream.queueCapacity, c.frame.maxFrameLength]

/-- **A configuration survives being saved and loaded again**, as far as its timeout is a matter of
milliseconds. -/
theorem configurations_survive_saving :
    (∀ c : StreamConfig, streamSettings.Survives c c.saved) ∧
      ∀ c : ClientConfig, clientSettings.Survives c c.saved := by
  constructor
  · intro c
    obtain ⟨d, hshows, ha⟩ := c.json_tells
    exact {
      json := StreamConfig.has_slots.takes hshows ha
      messagePack := c.readsBack_saved
      counts := rfl
      le := c.pollTimeout.saved_le
      near := Duration.lt_saved_add
      accepted := c.validate_saved
      refused := fun _ => StreamConfig.validate_saved_of_lt
      same := c.toValue_saved }
  · intro c
    obtain ⟨d, hshows, ha⟩ := c.json_tells
    exact {
      json := ClientConfig.has_slots.takes hshows ha
      messagePack := c.readsBack_saved
      counts := rfl
      le := c.stream.pollTimeout.saved_le
      near := Duration.lt_saved_add
      accepted := c.validate_saved
      refused := ClientConfig.validate_saved_of_lt
      same := c.toValue_saved }

/-- Of a second and a half of a millisecond, a second is left. -/
theorem long_timeout_is_kept :
    (clientSettings.validate { stream := { pollTimeout := ⟨1000500000⟩ } }) = .ok () ∧
      clientSettings.record.read (Document.ofJson
        (clientSettings.toValue { stream := { pollTimeout := ⟨1000500000⟩ } }).toJson) =
          .ok { stream := { pollTimeout := .ofSeconds 1 } } ∧
      (clientSettings.validate { stream := { pollTimeout := .ofSeconds 1 } }) = .ok () := by
  have h := configurations_survive_saving.2 { stream := { pollTimeout := ⟨1000500000⟩ } }
  exact ⟨rfl, h.json, h.accepted.2 ⟨rfl, by decide⟩⟩

/-- Half a millisecond is accepted, but saved as no time at all, which is refused. -/
theorem short_timeout_is_lost :
    let short : StreamConfig := { pollTimeout := ⟨500000⟩ }
    let loaded : StreamConfig := { pollTimeout := ⟨0⟩ }
    short.validate = .ok () ∧
      short.toValue = .map [("pollTimeoutMs", .nat 0), ("queueCapacity", .nat 1024)] ∧
      StreamConfig.record.read (Document.ofJson short.toValue.toJson) = .ok loaded ∧
      Payload.ReadsBack StreamConfig.record.read short.toValue loaded ∧
      loaded.validate = .error (.zero "stream.poll_timeout") := by
  intro short loaded
  have hloaded : short.saved = loaded := by decide
  have hmilliseconds : short.pollTimeout.milliseconds.toNat = 0 := by decide
  obtain ⟨d, hshows, ha⟩ := short.json_tells
  rw [hloaded] at ha
  refine ⟨rfl, ?_, StreamConfig.has_slots.takes hshows ha, hloaded ▸ short.readsBack_saved, rfl⟩
  rw [StreamConfig.toValue, hmilliseconds]
  rfl

end StoreClient
