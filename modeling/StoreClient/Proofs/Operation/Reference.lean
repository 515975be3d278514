import Mathlib.Data.List.TakeWhile
import StoreClient.Operation

/-!
# What calls on an operation come to

An operation is handed to a transport, fed replies, failed, and listened to. Here is said what comes
of such calls without an operation, by looking at the calls alone.

A call *decides* if it reports a failure, or is a reply that cannot be taken or is the last one.
The first call that decides settles the outcome (`Kind.decision`): a failure becomes the outcome as
it is, and a last reply is converted together with the replies taken before it. Calls after it are
not looked at.
-/

namespace StoreClient

/-! ## Calls -/

/-- What is done to an operation. -/
inductive Call where
  /-- It is handed to a transport. -/
  | submit
  | reply (m : Message)
  | fail (c : Cause)
  | listen (l : Listener)
  deriving DecidableEq, Repr

/-- The listeners that are registered, in the order of their registration. -/
def Call.listeners (calls : List Call) : List Listener :=
  calls.filterMap fun
    | .listen l => some l
    | _ => none

@[simp] theorem Call.listeners_append (calls later : List Call) :
    listeners (calls ++ later) = listeners calls ++ listeners later := List.filterMap_append

/-- What a call means to an operation whose outcome is open. -/
inductive Ruling (σ : Signature) where
  /-- Nothing, as far as the outcome goes. -/
  | silent
  /-- A reply that others follow. -/
  | more (r : σ.Reply)
  /-- The last reply. -/
  | last (r : σ.Reply)
  | failed (c : Cause)

/-- The reply that is taken. -/
def Ruling.reply? {σ : Signature} : Ruling σ → Option σ.Reply
  | more r => some r
  | last r => some r
  | _ => none

namespace Kind

variable {σ : Signature}

/-! ## The reference -/

/-- What a call means to an operation of the kind. -/
def ruling (k : Kind σ) : Call → Ruling σ
  | .submit => .silent
  | .listen _ => .silent
  | .fail c => .failed c
  | .reply m =>
    if m.code = 0 then .failed (.server (Utf8.decodeLossy m.payload))
    else if m.code ≠ k.expects then .failed (.protocolMismatch k.expects m.code)
    else match k.decode m with
      | .error c => .failed c
      | .ok r => if k.isFinal r then .last r else .more r

/-- The outcome that a call settles, if it is the first that decides, and the replies before it are
given. -/
def settled? (k : Kind σ) (before : List σ.Reply) (c : Call) : Option (Outcome σ.Output) :=
  match k.ruling c with
  | .last r => some (k.convert (before ++ [r]))
  | .failed cause => some (.error cause)
  | _ => none

/-- Whether a call decides. -/
def decides (k : Kind σ) (c : Call) : Bool := (k.settled? [] c).isSome

/-- The replies that are taken before the first call that decides, in the order of their arrival. -/
def taken (k : Kind σ) (calls : List Call) : List σ.Reply :=
  (calls.takeWhile fun c => !k.decides c).filterMap fun c => (k.ruling c).reply?

/-- **The outcome that the first call that decides settles.** -/
def decision (k : Kind σ) (calls : List Call) : Option (Outcome σ.Output) :=
  (calls.find? k.decides).bind (k.settled? (k.taken calls))

/-- The phase that calls lead to. -/
def phaseAfter (k : Kind σ) (calls : List Call) : Phase :=
  match k.decision calls with
  | some o => .done o.isOk
  | none =>
    if k.taken calls ≠ [] then .awaitingMore
    else if .submit ∈ calls then .submitted
    else .pending

/-! ## The first call that decides -/

variable {k : Kind σ} {calls before : List Call} {c : Call} {o : Outcome σ.Output}

/-- Whether a call decides does not hang on the replies before it. -/
theorem isSome_settled? (k : Kind σ) (replies : List σ.Reply) (c : Call) :
    (k.settled? replies c).isSome = k.decides c := by
  unfold decides settled?
  cases k.ruling c <;> rfl

theorem taken_of_open (h : ∀ c ∈ calls, k.decides c = false) :
    k.taken calls = calls.filterMap fun c => (k.ruling c).reply? := by
  unfold taken
  rw [List.takeWhile_eq_self_iff.2]
  intro c hc
  simp [h c hc]

/-- The outcome is open as long as no call decides. -/
theorem decision_eq_none_iff : k.decision calls = none ↔ ∀ c ∈ calls, k.decides c = false := by
  unfold decision
  constructor
  · intro h
    cases hf : calls.find? k.decides with
    | none =>
      intro c hc
      exact Bool.eq_false_iff.2 (List.find?_eq_none.1 hf c hc)
    | some c =>
      rw [hf, Option.bind_some, ← Option.not_isSome_iff_eq_none, isSome_settled?] at h
      exact absurd (List.find?_some hf) h
  · intro h
    rw [List.find?_eq_none.2 fun c hc => by simp [h c hc]]
    rfl

/-- The first call that decides settles the outcome, whatever is called after it. -/
theorem decision_of_first (hb : ∀ c ∈ before, k.decides c = false) (hc : k.decides c = true)
    (later : List Call) :
    k.decision (before ++ c :: later) =
      k.settled? (before.filterMap fun c => (k.ruling c).reply?) c := by
  have hfind : (before ++ c :: later).find? k.decides = some c := by
    rw [List.find?_append, List.find?_eq_none.2 fun c hc => by simp [hb c hc], Option.none_or,
      List.find?_cons_of_pos hc]
  have htaken : k.taken (before ++ c :: later) = before.filterMap fun c => (k.ruling c).reply? := by
    unfold taken
    rw [List.takeWhile_append_of_pos fun c hc => by simp [hb c hc],
      List.takeWhile_cons_of_neg (by simp [hc]), List.append_nil]
  rw [decision, hfind, htaken, Option.bind_some]

/-- Where the outcome is settled, some call is the first that decides. -/
theorem exists_first (h : k.decision calls = some o) :
    ∃ before c later, calls = before ++ c :: later ∧ (∀ c ∈ before, k.decides c = false) ∧
      k.decides c = true := by
  cases hf : calls.find? k.decides with
  | none =>
    rw [decision, hf] at h
    cases h
  | some c =>
    obtain ⟨hc, before, later, rfl, hb⟩ := List.find?_eq_some_iff_append.1 hf
    exact ⟨before, c, later, rfl, fun c hc => by simpa using hb c hc, hc⟩

/-- What was decided stays. -/
theorem decision_append (h : k.decision calls = some o) (later : List Call) :
    k.decision (calls ++ later) = some o := by
  obtain ⟨before, c, rest, rfl, hb, hc⟩ := exists_first h
  rw [decision_of_first hb hc] at h
  rw [List.append_assoc, List.cons_append, decision_of_first hb hc, h]

/-! ## One call more -/

/-- As long as the outcome is open, it is up to the next call. -/
theorem decision_append_singleton (h : k.decision calls = none) (c : Call) :
    k.decision (calls ++ [c]) = k.settled? (k.taken calls) c := by
  have hopen := decision_eq_none_iff.1 h
  cases hc : k.decides c with
  | true => rw [decision_of_first hopen hc, taken_of_open hopen]
  | false =>
    have hnone : k.settled? (k.taken calls) c = none := by
      rw [← Option.not_isSome_iff_eq_none, isSome_settled?, hc]
      exact Bool.false_ne_true
    rw [hnone, decision_eq_none_iff]
    intro c' hc'
    rcases List.mem_append.1 hc' with hm | hm
    · exact hopen c' hm
    · rw [List.mem_singleton.1 hm, hc]

/-- A call that leaves the outcome open adds the reply that is taken. -/
theorem taken_append_singleton (h : k.decision (calls ++ [c]) = none) :
    k.taken (calls ++ [c]) = k.taken calls ++ (k.ruling c).reply?.toList := by
  have hopen := decision_eq_none_iff.1 h
  rw [taken_of_open hopen, taken_of_open fun c hc => hopen c (List.mem_append_left _ hc),
    List.filterMap_append]
  cases hr : (k.ruling c).reply? <;> simp [hr]

theorem phaseAfter_of_open (h : k.decision calls = none) :
    k.phaseAfter calls = if k.taken calls ≠ [] then .awaitingMore
      else if .submit ∈ calls then .submitted else .pending := by
  rw [phaseAfter, h]

theorem phaseAfter_append_singleton (h : k.decision calls = none)
    (hc : k.settled? (k.taken calls) c = none) :
    k.phaseAfter (calls ++ [c]) =
      if k.taken calls ++ (k.ruling c).reply?.toList ≠ [] then .awaitingMore
      else if .submit ∈ calls ++ [c] then .submitted else .pending := by
  have hd : k.decision (calls ++ [c]) = none := by rw [decision_append_singleton h, hc]
  rw [phaseAfter_of_open hd, taken_append_singleton hd]

end Kind

end StoreClient
