import StoreClient.Proofs.Payload.Listing
import StoreClient.Proofs.Stream.Reading

/-!
# Listings as lists and as streams

The parts of a listing come in one after another, and the last of them is marked. They are put
together in two ways: a plain operation makes one list of all of them when the last is there, and a
stream hands out the keys of each as it arrives. Both give the same locations in the same order,
however the keys are parted, and both fail with the first part that has a key which is no text
(`list_and_stream_agree`).

What has to be shown of listings is what each part means to the operation (`ruling_readable`,
`ruling_unreadable`); how an operation and a stream come to their ends is known for any kind of
them.
-/

namespace StoreClient

/-- A stream is made with a configuration that is valid, if there is room for the queue. -/
theorem Stream.make_eq_ok_iff {σ : Signature} {ι : Type} {k : StreamKind σ ι}
    {config : StreamConfig} {s : Stream σ ι} : Stream.make (.ok k) config = .ok s ↔
      config.validate = .ok () ∧
        reservePlaces config.queueCapacity.toNat k.itemOctets = .ok () ∧ s = .ofKind k config := by
  have hmake : Stream.make (.ok k) config = (do
      config.validate.mapError ClientError.config
      (reservePlaces config.queueCapacity.toNat k.itemOctets).mapError ClientError.queue
      return .ofKind k config) := rfl
  rw [hmake]
  constructor
  · intro h
    cases hv : config.validate with
    | error e =>
      rw [hv] at h
      cases h
    | ok =>
      cases hr : reservePlaces config.queueCapacity.toNat k.itemOctets with
      | error e =>
        rw [hv, hr] at h
        cases h
      | ok =>
        rw [hv, hr] at h
        cases h
        exact ⟨rfl, rfl, rfl⟩
  · rintro ⟨hv, hr, rfl⟩
    rw [hv, hr]
    rfl

namespace ListKeys

variable {c : ListKeys} {ns : Namespace} {request : Message} {r : ListKeysReply}
  {parts : List ListKeysReply}

/-! ## What a part means -/

theorem ruling_message (ns : Namespace) (request : Message) (r : ListKeysReply) :
    (kind ns request).ruling (.reply r.message) = match decode r.message with
      | .error c => .failed c
      | .ok chunk => if chunk.done then .last chunk else .more chunk := by
  have hcode : r.message.code = Code.keysListed := rfl
  have hexpects : (kind ns request).expects = Code.keysListed := rfl
  have hdecode : (kind ns request).decode r.message = decode r.message := rfl
  rw [Kind.ruling, hcode, hexpects, hdecode, if_neg (by decide), if_neg (not_not_intro rfl)]
  cases decode r.message <;> rfl

/-- A part whose keys are texts is a reply with the locations of them. -/
theorem ruling_readable (ns : Namespace) (request : Message) (h : r.Short) (hr : r.IsReadable) :
    ∃ chunk, Lists ns [r] (locations ns chunk) ∧ (kind ns request).ruling (.reply r.message) =
      if r.done then .last chunk else .more chunk := by
  obtain ⟨chunk, hdecode, hkeys, hdone⟩ := decode_readable h hr
  refine ⟨chunk, .of_chunk hkeys, ?_⟩
  rw [ruling_message, hdecode, ← hdone]

/-- A part with another key is a failure, whether it is marked or not. -/
theorem ruling_unreadable (ns : Namespace) (request : Message) (h : r.Short)
    (hr : ¬ r.IsReadable) : ∃ reason, r.FailsFor reason ∧
      (kind ns request).ruling (.reply r.message) =
        .failed (.decode Code.keysListed reason) := by
  obtain ⟨reason, hreason, hdecode⟩ := decode_unreadable h hr
  exact ⟨reason, hreason, by rw [ruling_message, hdecode]⟩

/-- The replies that messages bring to a listing. -/
def repliesIn (ns : Namespace) (request : Message) (messages : List Message) : List Chunk :=
  messages.filterMap fun m => ((kind ns request).ruling (.reply m)).reply?

theorem repliesIn_append (ns : Namespace) (request : Message) (messages : List Message)
    (m : Message) : repliesIn ns request (messages ++ [m]) =
      repliesIn ns request messages ++ ((kind ns request).ruling (.reply m)).reply?.toList := by
  rw [repliesIn, List.filterMap_append]
  cases hr : ((kind ns request).ruling (.reply m)).reply? <;> simp [repliesIn, hr]

/-- Parts whose keys are texts, none of which is marked, leave the outcome open, and bring the
locations of all their keys. -/
theorem readable_parts (ns : Namespace) (request : Message) (hshort : ∀ r ∈ parts, r.Short)
    (hread : ∀ r ∈ parts, r.IsReadable) (hopen : ∀ r ∈ parts, r.done = false) :
    (∀ m ∈ parts.map ListKeysReply.message,
      (kind ns request).toKind.decides (.reply m) = false) ∧
    Lists ns parts ((repliesIn ns request (parts.map ListKeysReply.message)).flatMap
      (locations ns)) := by
  induction parts with
  | nil => exact ⟨List.forall_mem_nil _, .nil ns⟩
  | cons r parts ih =>
    rw [List.forall_mem_cons] at hshort hread hopen
    obtain ⟨hdecides, hlists⟩ := ih hshort.2 hread.2 hopen.2
    obtain ⟨chunk, hchunk, hruling⟩ := ruling_readable ns request hshort.1 hread.1
    rw [hopen.1, if_neg Bool.false_ne_true] at hruling
    constructor
    · rw [List.map_cons, List.forall_mem_cons]
      refine ⟨?_, hdecides⟩
      simp only [Kind.decides, Kind.settled?, hruling, Option.isSome_none]
    · have hreply : ((kind ns request).ruling (.reply r.message)).reply? = some chunk := by
        rw [hruling]
        rfl
      rw [repliesIn, List.map_cons, List.filterMap_cons, hreply]
      exact hchunk.append hlists

/-! ## How a listing ends -/

/-- A listing to which messages are fed ends with the `n`-th of them, as an operation and as a
stream: both have the outcome, and the reader of the stream gets the locations and then learns how
they ended. -/
structure EndsAlike (c : ListKeys) (messages : List Message) (n : Nat) (ls : List Location)
    (o : Outcome (List Location)) : Prop where
  plain : ∃ op, c.command.operation = .ok op ∧ op.EndsAt messages n o
  stream : ∀ op config s calls consumer, c.command.operation = .ok op →
    c.stream config = .ok s → Call.Feed calls messages →
    (∀ t, ∀ m ∈ consumer t, m.isConsuming = true) →
    Stream.ReadsOut op s calls consumer ls o.failure?

section Ends

variable (hbuild : c.build = .ok (kind c.within request))

include hbuild

/-- A listing ends with the first message that decides. -/
theorem endsAlike {before : List Message} {m : Message} (after : List Message)
    (hopen : ∀ g ∈ before, (kind c.within request).toKind.decides (.reply g) = false)
    {o : Outcome (List Location)} (hm : (kind c.within request).toKind.settled?
      (repliesIn c.within request before) (.reply m) = some o) :
    c.EndsAlike (before ++ m :: after) (before.length + 1)
      ((repliesIn c.within request (before ++ [m])).flatMap (locations c.within)) o := by
  have hop : c.command.operation = .ok (.ofKind (kind c.within request).toKind) := by
    rw [command, hbuild]
    rfl
  have hdecides : (kind c.within request).toKind.decides (.reply m) = true := by
    rw [← Kind.isSome_settled? _ _ (.reply m), hm]
    rfl
  constructor
  · exact ⟨_, hop, Operation.endsAt hopen hm⟩
  · intro op config s calls consumer hop' hs hf hc
    obtain rfl := Except.ok.inj (hop.symm.trans hop')
    rw [ListKeys.stream, hbuild] at hs
    obtain ⟨-, -, rfl⟩ := Stream.make_eq_ok_iff.1 hs
    have hdecision := (Kind.decision_of_feed hopen hdecides hf).trans hm
    rw [repliesIn, ← Kind.replies_of_feed hopen hdecides hf]
    exact Stream.readsOut (fun _ => rfl) config hdecision hc

/-- All keys are texts: the listing ends with the part that is marked. -/
theorem ends_complete {first : List ListKeysReply} {last : ListKeysReply}
    (hshort : ∀ r ∈ first ++ [last], r.Short) (hread : ∀ r ∈ first ++ [last], r.IsReadable)
    (hfirst : ∀ r ∈ first, r.done = false) (hdone : last.done = true) :
    ∃ ls, Lists c.within (first ++ [last]) ls ∧
      c.EndsAlike ((first ++ [last]).map ListKeysReply.message) (first ++ [last]).length ls
        (.ok ls) := by
  rw [List.forall_mem_append, List.forall_mem_singleton] at hshort hread
  obtain ⟨hopen, hlists⟩ := readable_parts c.within request hshort.1 hread.1 hfirst
  obtain ⟨chunk, hchunk, hruling⟩ := ruling_readable c.within request hshort.2 hread.2
  rw [hdone, if_pos rfl] at hruling
  refine ⟨_, hlists.append hchunk, ?_⟩
  have hsettled (before : List Chunk) : (kind c.within request).toKind.settled? before
      (.reply last.message) = some (.ok ((before ++ [chunk]).flatMap (locations c.within))) := by
    rw [Kind.settled?, hruling]
    rfl
  have hends := endsAlike hbuild [] hopen (hsettled _)
  rw [repliesIn_append, hruling, List.flatMap_append] at hends
  simpa [Ruling.reply?] using hends

/-- A part has a key that is no text: the listing ends with it. -/
theorem ends_broken {before : List ListKeysReply} {bad : ListKeysReply}
    (after : List ListKeysReply) (hshort : ∀ r ∈ before, r.Short)
    (hread : ∀ r ∈ before, r.IsReadable) (hopen : ∀ r ∈ before, r.done = false)
    (hbad : bad.Short) (hbroken : ¬ bad.IsReadable) :
    ∃ ls reason, Lists c.within before ls ∧ bad.FailsFor reason ∧
      c.EndsAlike ((before ++ bad :: after).map ListKeysReply.message) (before.length + 1) ls
        (.error (.decode 18 reason)) := by
  obtain ⟨hopen, hlists⟩ := readable_parts c.within request hshort hread hopen
  obtain ⟨reason, hreason, hruling⟩ := ruling_unreadable c.within request hbad hbroken
  refine ⟨_, reason, hlists, hreason, ?_⟩
  have hsettled (before : List Chunk) : (kind c.within request).toKind.settled? before
      (.reply bad.message) = some (.error (.decode 18 reason)) := by
    rw [Kind.settled?, hruling]
    rfl
  have hends := endsAlike hbuild (after.map ListKeysReply.message) hopen (hsettled _)
  rw [repliesIn_append, hruling] at hends
  simpa [Ruling.reply?] using hends

end Ends

/-- **The list and the stream of a listing agree.** -/
theorem list_and_stream_agree (c : ListKeys) (hbucket : c.within.bucket ≠ "")
    (parts : List ListKeysReply) (hshort : ∀ r ∈ parts, r.Short)
    (hlast : ListKeysReply.OnlyLastDone parts) :
    -- every configuration makes a stream, if it is valid and there is room for the locations
    (∀ config : StreamConfig, config.validate = .ok () →
      reservePlaces config.queueCapacity.toNat 80 = .ok () → ∃ s, c.stream config = .ok s) ∧
    ∃ messages, parts.mapM ListKeysReply.toMessage = .ok messages ∧
      -- all keys are texts
      ((∀ r ∈ parts, r.IsReadable) → ∃ ls, Lists c.within parts ls ∧
        c.EndsAlike messages parts.length ls (.ok ls)) ∧
      -- the first key that is none is in the part `bad`
      ∀ before bad after, parts = before ++ bad :: after → (∀ r ∈ before, r.IsReadable) →
        ¬ bad.IsReadable → ∃ ls reason, Lists c.within before ls ∧ bad.FailsFor reason ∧
          c.EndsAlike messages (before.length + 1) ls (.error (.decode 18 reason)) := by
  obtain ⟨request, hbuild⟩ : ∃ request, c.build = .ok (kind c.within request) := by
    refine ⟨⟨Code.listKeys, c.body.encode⟩, ?_⟩
    have hcheck : Request.checkNamespace c.within = .ok () := by
      rw [Request.checkNamespace, if_neg (by simpa [String.isEmpty_iff] using hbucket)]
    rw [build, ListKeys.request, hcheck]
    rfl
  obtain ⟨first, last, hparts, hfirst, hdone⟩ := hlast
  refine ⟨?_, _, ListKeysReply.mapM_toMessage parts, ?_, ?_⟩
  · intro config hvalid hroom
    rw [ListKeys.stream, hbuild]
    exact ⟨_, Stream.make_eq_ok_iff.2 ⟨hvalid, hroom, rfl⟩⟩
  · intro hread
    subst hparts
    exact ends_complete hbuild hshort hread hfirst hdone
  · rintro before bad after rfl hread hbad
    rw [List.forall_mem_append, List.forall_mem_cons] at hshort
    -- the part that is marked is `bad` or after it
    have hopen : ∀ r ∈ before, r.done = false := by
      have hsame := congrArg List.dropLast hparts
      rw [List.dropLast_append_of_ne_nil (List.cons_ne_nil bad after),
        List.dropLast_concat] at hsame
      intro r hr
      exact hfirst r (hsame ▸ List.mem_append_left _ hr)
    exact ends_broken hbuild after hshort.1 hread hopen hshort.2.1 hbad

/-- The outcome of a listing to which all messages were fed. -/
theorem EndsAlike.outcome {messages : List Message} {n : Nat} {ls : List Location}
    {o : Outcome (List Location)} (h : c.EndsAlike messages n ls o) (hn : n ≤ messages.length) :
    ∃ op, c.command.operation = .ok op ∧
      (op.run (messages.map .reply)).1.handle.outcome = some o := by
  obtain ⟨op, hop, hends⟩ := h.plain
  obtain ⟨houtcome, -⟩ := hends _ _ (.of_replies messages) (List.prefix_refl messages)
  exact ⟨op, hop, by rw [houtcome, if_neg (Nat.not_lt.2 hn)]⟩

/-! ## The keys of a bucket -/

def paris : ListKeys := { within := ⟨"maps", "paris"⟩ }

/-- A key twice, one outside ASCII, and a part without keys. -/
def wholeParts : List ListKeysReply :=
  [⟨[[0x61], [0xC3, 0xA9]], false⟩, ⟨[], false⟩, ⟨[[0x61]], true⟩]

/-- A character that is cut off in the second part. -/
def brokenParts : List ListKeysReply := [⟨[[0x61]], false⟩, ⟨[[0x62], [0xC3]], false⟩, ⟨[], true⟩]

/-- A reader is claimed, and then asked again and again. -/
def readsAlong (t : Nat) : List Stream.Move :=
  if t = 0 then [.takeResults, .claim 0] else [.read .next]

theorem isConsuming_readsAlong (t : Nat) : ∀ m ∈ readsAlong t, m.isConsuming = true := by
  unfold readsAlong
  split <;> decide

theorem list_and_stream_agree_paris : ∃ op s, paris.command.operation = .ok op ∧
    paris.stream {} = .ok s ∧
    (∃ messages ls, wholeParts.mapM ListKeysReply.toMessage = .ok messages ∧
      ls = ["a", "\u00e9", "a"].map (⟨⟨"maps", "paris"⟩, ·⟩) ∧
      (op.run (messages.map .reply)).1.handle.outcome = some (.ok ls) ∧
      Stream.ReadsOut op s (messages.map .reply) readsAlong ls none) ∧
    ∃ messages ls reason, brokenParts.mapM ListKeysReply.toMessage = .ok messages ∧
      ls = ["a"].map (⟨⟨"maps", "paris"⟩, ·⟩) ∧
      (op.run (messages.map .reply)).1.handle.outcome = some (.error (.decode 18 reason)) ∧
      Stream.ReadsOut op s (messages.map .reply) readsAlong ls (some (.decode 18 reason)) := by
  have hop : paris.command.operation = .ok (.ofKind (kind paris.within
    ⟨Code.listKeys, paris.body.encode⟩).toKind) := rfl
  have hs : paris.stream {} = .ok (.ofKind (kind paris.within
    ⟨Code.listKeys, paris.body.encode⟩) {}) := rfl
  have ha : Utf8.IsText [0x61] := ⟨"a", by decide⟩
  have he : Utf8.IsText [0xC3, 0xA9] := ⟨"\u00e9", by decide⟩
  have hlists (keys : List String) {parts : List ListKeysReply}
      (h : keys.map Utf8.encode = parts.flatMap ListKeysReply.keys) :
      Lists paris.within parts (keys.map (⟨⟨"maps", "paris"⟩, ·⟩)) := by
    refine ⟨fun l hl => ?_, by rw [List.map_map]; exact h⟩
    obtain ⟨key, -, rfl⟩ := List.mem_map.1 hl
    rfl
  refine ⟨_, _, hop, hs, ?_, ?_⟩
  · have hshort : ∀ r ∈ wholeParts, r.Short := by
      simp [wholeParts, ListKeysReply.Short, UInt32.size]
    have hlast : ListKeysReply.OnlyLastDone wholeParts :=
      ⟨wholeParts.take 2, ⟨[[0x61]], true⟩, rfl, by simp [wholeParts], rfl⟩
    have hread : ∀ r ∈ wholeParts, r.IsReadable := by
      simp [wholeParts, ListKeysReply.IsReadable, ha, he]
    obtain ⟨-, messages, hm, hwhole, -⟩ :=
      list_and_stream_agree paris (by decide) wholeParts hshort hlast
    obtain ⟨ls, hls, hends⟩ := hwhole hread
    obtain rfl := hls.unique (hlists ["a", "\u00e9", "a"] (by decide))
    cases hm.symm.trans (ListKeysReply.mapM_toMessage wholeParts)
    obtain ⟨op, hop', houtcome⟩ := hends.outcome (by simp)
    obtain rfl := Except.ok.inj (hop'.symm.trans hop)
    exact ⟨_, _, hm, rfl, houtcome,
      hends.stream _ _ _ _ _ hop hs (.of_replies _) isConsuming_readsAlong⟩
  · have hshort : ∀ r ∈ brokenParts, r.Short := by
      simp [brokenParts, ListKeysReply.Short, UInt32.size]
    have hlast : ListKeysReply.OnlyLastDone brokenParts :=
      ⟨brokenParts.take 2, ⟨[], true⟩, rfl, by simp [brokenParts], rfl⟩
    have hread : ∀ r ∈ brokenParts.take 1, r.IsReadable := by
      simp [brokenParts, ListKeysReply.IsReadable, ha]
    have hbroken : ¬ (⟨[[0x62], [0xC3]], false⟩ : ListKeysReply).IsReadable := by
      intro h
      obtain ⟨text, htext⟩ := h [0xC3] (by simp)
      have hdecode := Utf8.decode_eq_ok_iff.2 htext
      rw [Utf8.decode, Utf8.segments_cons] at hdecode
      cases hdecode
    obtain ⟨-, messages, hm, -, hbad⟩ :=
      list_and_stream_agree paris (by decide) brokenParts hshort hlast
    obtain ⟨ls, reason, hls, -, hends⟩ := hbad _ _ _ rfl hread hbroken
    obtain rfl := hls.unique (hlists ["a"] (by decide))
    cases hm.symm.trans (ListKeysReply.mapM_toMessage brokenParts)
    obtain ⟨op, hop', houtcome⟩ := hends.outcome (by decide)
    obtain rfl := Except.ok.inj (hop'.symm.trans hop)
    exact ⟨_, _, reason, hm, rfl, houtcome,
      hends.stream _ _ _ _ _ hop hs (.of_replies _) isConsuming_readsAlong⟩

end ListKeys

end StoreClient
