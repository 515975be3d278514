import StoreClient.Proofs.Stream.Agreement

/-!
# Operations that are fed messages

Calls feed messages to an operation if they report no failure; they may hand it to a transport and
register listeners in the meantime (`Call.Feed`). Once the first of the messages that decides is
known, so is how the operation ends: with which of the messages, what its outcome is, and what is
answered to each message (`Operation.endsAt`).

`Kind.replies` are the replies that calls bring up to the call that decides, its own included.
-/

namespace StoreClient

/-! ## Calls -/

namespace Call

/-- The message that a call brings. -/
def message? : Call → Option Message
  | reply m => some m
  | _ => none

/-- The messages that calls bring, in their order. -/
def messages (calls : List Call) : List Message := calls.filterMap message?

@[simp] theorem messages_append (calls later : List Call) :
    messages (calls ++ later) = messages calls ++ messages later := List.filterMap_append

theorem mem_messages {calls : List Call} {m : Message} (h : Call.reply m ∈ calls) :
    m ∈ messages calls := List.mem_filterMap.2 ⟨_, h, rfl⟩

/-- The calls bring the messages, and report no failure. -/
structure Feed (calls : List Call) (fed : List Message) : Prop where
  messages : Call.messages calls = fed
  noFailure : ∀ c, Call.fail c ∉ calls

namespace Feed

variable {calls first : List Call} {fed before after : List Message} {m : Message}

/-- Messages are fed by calls that do nothing else. -/
theorem of_replies (messages : List Message) : Feed (messages.map .reply) messages where
  messages := by
    rw [Call.messages, List.filterMap_map]
    exact List.filterMap_some
  noFailure c hc := by
    obtain ⟨m, -, hm⟩ := List.mem_map.1 hc
    cases hm

/-- The first of the calls feed the first of the messages. -/
theorem of_prefix (h : Feed calls fed) (hp : first <+: calls) :
    Feed first (Call.messages first) ∧ Call.messages first <+: fed := by
  obtain ⟨later, rfl⟩ := hp
  refine ⟨⟨rfl, fun c hc => h.noFailure c (List.mem_append_left _ hc)⟩, ?_⟩
  rw [← h.messages, messages_append]
  exact List.prefix_append _ _

/-- The call that brings a message, and those before and after it. -/
theorem split (h : Feed calls (before ++ m :: after)) :
    ∃ cs ds, calls = cs ++ .reply m :: ds ∧ Feed cs before ∧ Feed ds after := by
  obtain ⟨cs, ds, rfl, hbefore, hafter⟩ := List.filterMap_eq_append_iff.1 h.messages
  obtain ⟨silent, c, rest, rfl, hsilent, hc, hrest⟩ := List.filterMap_eq_cons_iff.1 hafter
  obtain rfl : c = .reply m := by
    cases c <;> cases hc
    rfl
  refine ⟨cs ++ silent, rest, by simp, ⟨?_, fun c hc => h.noFailure c ?_⟩,
    ⟨hrest, fun c hc => h.noFailure c ?_⟩⟩
  · rw [messages_append, Call.messages, hbefore, Call.messages,
      List.filterMap_eq_nil_iff.2 hsilent, List.append_nil]
  · rw [← List.append_assoc]
    exact List.mem_append_left _ hc
  · exact List.mem_append_right _ (List.mem_append_right _ (List.mem_cons_of_mem _ hc))

end Feed

end Call

/-! ## Replies -/

namespace Kind

variable {σ : Signature} {k : Kind σ} {calls : List Call} {c : Call} {o : Outcome σ.Output}

/-- The replies that calls bring up to the call that decides, its own included. -/
def replies (k : Kind σ) : List Call → List σ.Reply
  | [] => []
  | c :: calls => (k.ruling c).reply?.toList ++ if k.decides c then [] else k.replies calls

theorem replies_append_of_open (h : ∀ c ∈ calls, k.decides c = false) (later : List Call) :
    k.replies (calls ++ later) =
      (calls.filterMap fun c => (k.ruling c).reply?) ++ k.replies later := by
  induction calls with
  | nil => rfl
  | cons c calls ih =>
    rw [List.cons_append, replies, ih fun c hc => h c (List.mem_cons_of_mem _ hc),
      h c List.mem_cons_self, if_neg Bool.false_ne_true]
    cases hr : (k.ruling c).reply? <;> simp [hr]

theorem replies_of_open (h : ∀ c ∈ calls, k.decides c = false) :
    k.replies calls = calls.filterMap fun c => (k.ruling c).reply? := by
  simpa [replies] using replies_append_of_open h []

/-- A reply that comes before any call decided is taken. -/
theorem replies_append_singleton (h : k.decision calls = none) (c : Call) :
    k.replies (calls ++ [c]) = k.replies calls ++ (k.ruling c).reply?.toList := by
  have hopen := decision_eq_none_iff.1 h
  rw [replies_append_of_open hopen, replies_of_open hopen]
  simp [replies]

/-- One that comes later is not. -/
theorem replies_append_of_decided (h : k.decision calls = some o) (later : List Call) :
    k.replies (calls ++ later) = k.replies calls := by
  obtain ⟨before, c, rest, rfl, hbefore, hc⟩ := exists_first h
  rw [List.append_assoc, List.cons_append, replies_append_of_open hbefore,
    replies_append_of_open hbefore, replies, replies, if_pos hc, if_pos hc]

/-- A call without a reply adds none. -/
theorem replies_append_of_none (hc : (k.ruling c).reply? = none) :
    k.replies (calls ++ [c]) = k.replies calls := by
  cases hd : k.decision calls with
  | some o => exact replies_append_of_decided hd [c]
  | none => rw [replies_append_singleton hd, hc, Option.toList_none, List.append_nil]

/-- The first of the calls bring the first of the replies. -/
theorem replies_prefix {first : List Call} (h : first <+: calls) :
    k.replies first <+: k.replies calls := by
  obtain ⟨later, rfl⟩ := h
  cases hd : k.decision first with
  | some o => exact ⟨[], by rw [List.append_nil, replies_append_of_decided hd]⟩
  | none =>
    have hopen := decision_eq_none_iff.1 hd
    rw [replies_append_of_open hopen, replies_of_open hopen]
    exact List.prefix_append _ _

/-- The replies that calls bring are those in their messages. -/
theorem filterMap_messages (k : Kind σ) (calls : List Call) :
    (calls.filterMap fun c => (k.ruling c).reply?) =
      (Call.messages calls).filterMap fun m => (k.ruling (.reply m)).reply? := by
  rw [Call.messages, List.filterMap_filterMap]
  congr 1
  funext c
  cases c <;> rfl

/-! ## The message that decides -/

section First

variable {fed before : List Message} {m : Message}

/-- Calls that feed messages which do not decide leave the outcome open. -/
theorem open_of_feed (hf : Call.Feed calls fed) (hopen : ∀ g ∈ fed, k.decides (.reply g) = false) :
    ∀ c ∈ calls, k.decides c = false := by
  intro c hc
  cases c with
  | submit => rfl
  | listen l => rfl
  | fail cause => exact absurd hc (hf.noFailure cause)
  | reply g => exact hopen g (hf.messages ▸ Call.mem_messages hc)

variable (hopen : ∀ g ∈ before, k.decides (.reply g) = false)
  (hm : k.decides (.reply m) = true)

include hopen hm

/-- The first message that decides settles the outcome. -/
theorem decision_of_feed {after : List Message} (hf : Call.Feed calls (before ++ m :: after)) :
    k.decision calls =
      k.settled? (before.filterMap fun g => (k.ruling (.reply g)).reply?) (.reply m) := by
  obtain ⟨cs, ds, rfl, hcs, -⟩ := hf.split
  rw [decision_of_first (open_of_feed hcs hopen) hm, filterMap_messages, hcs.messages]

/-- No reply is taken after it. -/
theorem replies_of_feed {after : List Message} (hf : Call.Feed calls (before ++ m :: after)) :
    k.replies calls = (before ++ [m]).filterMap fun g => (k.ruling (.reply g)).reply? := by
  obtain ⟨cs, ds, rfl, hcs, -⟩ := hf.split
  rw [replies_append_of_open (open_of_feed hcs hopen), filterMap_messages, hcs.messages, replies,
    if_pos hm, List.filterMap_append]
  cases hr : (k.ruling (.reply m)).reply? <;> simp [hr]

end First

end Kind

/-! ## Plain operations -/

namespace Operation

variable {σ : Signature} {k : Kind σ} {calls : List Call} {fed before after : List Message}
  {m : Message} {o : Outcome σ.Output}

theorem outcome_run (k : Kind σ) (calls : List Call) :
    ((ofKind k).run calls).1.handle.outcome = k.decision calls := by
  rcases decided_or_undecided k calls with ⟨o, ho⟩ | hu
  · rw [ho.outcome, ho.decision]
  · rw [hu.outcome, hu.decision]

theorem isDone_run (k : Kind σ) (calls : List Call) :
    ((ofKind k).run calls).1.isDone = (k.decision calls).isSome := by
  rcases decided_or_undecided k calls with ⟨o, ho⟩ | hu
  · rw [isDone, ho.phase, ho.decision]
    rfl
  · rw [hu.isDone_eq_false, hu.decision]
    rfl

/-- An operation to which messages are fed ends with the `n`-th of them, whatever else is called on
it but failures: from that message on its handle has the outcome, and messages are answered with
that. -/
def EndsAt (op : Operation σ) (messages : List Message) (n : Nat) (o : Outcome σ.Output) : Prop :=
  ∀ calls fed, Call.Feed calls fed → fed <+: messages →
    (op.run calls).1.handle.outcome = (if fed.length < n then none else some o) ∧
      op.answers calls = (List.range fed.length).map fun i => decide (n ≤ i + 1)

/-- The messages that were fed do not decide, or the first that does is among them. -/
theorem prefix_cases (h : fed <+: before ++ m :: after) :
    fed.length < before.length + 1 ∧ fed <+: before ∨
      ¬ fed.length < before.length + 1 ∧ ∃ rest, fed = before ++ m :: rest := by
  rcases Nat.lt_or_ge fed.length (before.length + 1) with hlt | hge
  · exact .inl ⟨hlt, List.prefix_of_prefix_length_le h (List.prefix_append _ _)
      (Nat.le_of_lt_succ hlt)⟩
  · refine .inr ⟨Nat.not_lt.2 hge, ?_⟩
    have hfirst : before ++ [m] <+: before ++ m :: after :=
      (List.prefix_append_right_inj before).2 ⟨after, rfl⟩
    obtain ⟨rest, hrest⟩ := List.prefix_of_prefix_length_le hfirst h (by simpa using hge)
    exact ⟨rest, by rw [← hrest, List.append_assoc]; rfl⟩

/-- **An operation ends with the first message that decides.** -/
theorem endsAt (hopen : ∀ g ∈ before, k.decides (.reply g) = false)
    (hm : k.settled? (before.filterMap fun g => (k.ruling (.reply g)).reply?) (.reply m) = some o) :
    (ofKind k).EndsAt (before ++ m :: after) (before.length + 1) o := by
  have hdecides : k.decides (.reply m) = true := by
    rw [← Kind.isSome_settled? k _ (.reply m), hm]
    rfl
  have hdecision {calls : List Call} {fed : List Message} (hf : Call.Feed calls fed)
      (hp : fed <+: before ++ m :: after) :
      k.decision calls = if fed.length < before.length + 1 then none else some o := by
    rcases prefix_cases hp with ⟨hlt, hfirst⟩ | ⟨hge, rest, rfl⟩
    · rw [if_pos hlt, Kind.decision_eq_none_iff]
      exact Kind.open_of_feed hf fun g hg => hopen g (hfirst.subset hg)
    · rw [if_neg hge, Kind.decision_of_feed hopen hdecides hf, hm]
  intro calls fed hf hp
  refine ⟨by rw [outcome_run, hdecision hf hp], ?_⟩
  induction calls using List.reverseRecOn generalizing fed with
  | nil =>
    obtain rfl : fed = [] := hf.messages.symm
    rfl
  | append_singleton calls c ih =>
    obtain ⟨hcalls, hfirst⟩ := hf.of_prefix (List.prefix_append calls [c])
    have hans := ih _ hcalls (hfirst.trans hp)
    rw [answers_append_singleton, hans]
    have hfed := hf.messages
    rw [Call.messages_append] at hfed
    cases c with
    | reply g =>
      obtain rfl : Call.messages calls ++ [g] = fed := hfed
      have hrun : (((ofKind k).run calls).1.perform (.reply g)).1.isDone =
          (k.decision (calls ++ [.reply g])).isSome := by
        rw [← isDone_run, run_append_singleton]
      rw [perform_reply, hrun, hdecision hf hp, List.length_append, List.length_singleton,
        List.range_succ, List.map_append]
      split <;> simp <;> omega
    | fail cause => exact absurd (List.mem_append_right _ List.mem_cons_self) (hf.noFailure cause)
    | submit =>
      obtain rfl : Call.messages calls = fed := (List.append_nil _).symm.trans hfed
      exact List.append_nil _
    | listen l =>
      obtain rfl : Call.messages calls = fed := (List.append_nil _).symm.trans hfed
      exact List.append_nil _

end Operation

end StoreClient
