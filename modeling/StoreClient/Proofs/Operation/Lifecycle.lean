import Mathlib.Data.List.Induction
import StoreClient.Proofs.Operation.Answers
import StoreClient.Proofs.Operation.Reference

/-!
# The life of an operation

Whatever is called on a new operation, in any order and any number of times, it is as the reference
says (`follows_reference`): its handle has the outcome that the first call that decides settles, its
phase tells the same, and whoever listens hears of it once. After every call the operation is
*undecided* or *decided*. An undecided operation has kept all that the reference looks at, and each
call that decides makes it decided; a decided operation is changed by nothing.
-/

namespace StoreClient

/-- The report of a listener that a notice is. -/
def Notice.report? : Notice → Option String
  | .heard r => some r
  | _ => none

/-- The reports of listeners among notices, in their order. -/
def Notice.reports (ns : List Notice) : List String := ns.filterMap Notice.report?

namespace Notice

@[simp] theorem reports_nil : reports [] = [] := rfl

@[simp] theorem reports_append (ns ns' : List Notice) :
    reports (ns ++ ns') = reports ns ++ reports ns' := List.filterMap_append

@[simp] theorem reports_logged (e : Log.Event) (ns : List Notice) :
    reports (.logged e :: ns) = reports ns := rfl

@[simp] theorem reports_ofListeners (due : List Listener) (success : Bool) :
    reports (ofListeners due success) = due.flatMap (·.run success) := by
  simp only [reports, ofListeners, List.filterMap_map]
  exact List.filterMap_some

end Notice

namespace Operation

variable {σ : Signature}

/-! ## Making calls -/

/-- Makes a call. A reply is answered with whether the operation is done. -/
def perform (op : Operation σ) : Call → Operation σ × Option Bool × List Notice
  | .submit => (op.submit, none, [])
  | .reply m =>
    let (op, accepted, notices) := op.receive m
    (op, some accepted.isFinished, notices)
  | .fail c =>
    let (op, _, notices) := op.fail c
    (op, none, notices)
  | .listen l =>
    let (op, notices) := op.listen l
    (op, none, notices)

/-- Makes calls one after another. -/
def run (op : Operation σ) : List Call → Operation σ × List Notice
  | [] => (op, [])
  | c :: calls =>
    let (op, _, notices) := op.perform c
    let (op, later) := op.run calls
    (op, notices ++ later)

theorem run_append (op : Operation σ) (calls later : List Call) :
    op.run (calls ++ later) =
      (((op.run calls).1.run later).1, (op.run calls).2 ++ ((op.run calls).1.run later).2) := by
  induction calls generalizing op with
  | nil => rfl
  | cons c calls ih => simp [run, ih]

/-- A reply is answered with whether the operation is done after it. -/
theorem perform_reply (op : Operation σ) (m : Message) :
    (op.perform (.reply m)).2.1 = some (op.perform (.reply m)).1.isDone := by
  simp only [perform, receive]
  split
  · next hd => simp [Accepted.isFinished, hd]
  · next hd =>
    have hd : op.isDone = false := Bool.eq_false_iff.2 hd
    unfold settle
    rcases op.judge_cases m.code (op.examine m) with h | ⟨-, c, ns, -, hj⟩ | ⟨-, r, -, hj⟩ |
      ⟨-, r, o, ns, -, -, hj⟩
    · rw [hd] at h
      cases h.1
    · simp [hj, Accepted.isFinished, isDone, Phase.isDone]
    · simp [hj, Accepted.isFinished, isDone, Phase.isDone]
    · simp [hj, Accepted.isFinished, isDone, Phase.isDone]

/-! ## Decided and undecided operations -/

variable {k : Kind σ} {calls : List Call} {op : Operation σ} {ns : List Notice} {c : Call}
  {o : Outcome σ.Output}

/-- An operation that goes on after calls on it, which have brought the notices. -/
structure Undecided (k : Kind σ) (calls : List Call) (op : Operation σ) (ns : List Notice) :
    Prop where
  kind : op.kind = k
  decision : k.decision calls = none
  outcome : op.handle.outcome = none
  listeners : op.handle.listeners = Call.listeners calls
  replies : op.replies = k.taken calls
  phase : op.phase = k.phaseAfter calls
  reports : Notice.reports ns = []

/-- An operation that ended with an outcome. -/
structure Decided (k : Kind σ) (calls : List Call) (op : Operation σ) (ns : List Notice)
    (o : Outcome σ.Output) : Prop where
  decision : k.decision calls = some o
  outcome : op.handle.outcome = some o
  phase : op.phase = .done o.isOk
  reports : Notice.reports ns = (Call.listeners calls).flatMap (·.run o.isOk)

theorem undecided_ofKind (k : Kind σ) : Undecided k [] (ofKind k) [] where
  kind := rfl
  decision := rfl
  outcome := rfl
  listeners := rfl
  replies := rfl
  phase := rfl
  reports := rfl

theorem Undecided.isDone_eq_false (h : Undecided k calls op ns) : op.isDone = false := by
  rw [isDone, h.phase, Kind.phaseAfter, h.decision]
  dsimp only
  split
  · rfl
  · split <;> rfl

/-! ## One call -/

/-- How a reply is read is what the reference makes of it. -/
theorem ruling_reply (op : Operation σ) (m : Message) :
    op.kind.ruling (.reply m) = match op.examine m with
      | .error c => .failed c
      | .ok r => if op.kind.isFinal r then .last r else .more r := by
  simp only [Kind.ruling, examine]
  by_cases h0 : m.code = 0
  · have herror : m.isErrorResponse = true := by
      simp [Message.isErrorResponse, h0, Message.errorCode]
    rw [if_pos h0, if_pos herror, Message.errorText]
  · have herror : ¬ m.isErrorResponse = true := by
      simpa [Message.isErrorResponse, Message.errorCode] using h0
    rw [if_neg h0, if_neg herror]
    split <;> rfl

theorem publish_of_pending (h : op.handle.outcome = none) (o : Outcome σ.Output) :
    op.publish o =
      ({ op with handle := ⟨some o, []⟩ }, Notice.ofListeners op.handle.listeners o.isOk) := by
  unfold publish
  rw [Handle.complete?_of_pending h]

/-- A reply that cannot be taken fails an operation that goes on, and all that listen hear of it. -/
theorem settle_error (hp : op.isDone = false) (h : op.handle.outcome = none) (code : UInt8)
    (c : Cause) : op.settle code (.error c) =
      ({ op with phase := .done false, handle := ⟨some (.error c), []⟩ }, .completed,
        .logged (.operationFailed code c) :: Notice.ofListeners op.handle.listeners false) := by
  let done : Operation σ := { op with phase := .done false }
  have hpublish := publish_of_pending (show done.handle.outcome = none from h) (.error c)
  rw [settle, judge_error hp]
  dsimp only
  rw [hpublish]
  rfl

/-- The call that decides completes the handle, and all that listen hear of it. -/
theorem Undecided.decide (h : Undecided k calls op ns) (hc : k.settled? (k.taken calls) c = some o)
    (hl : Call.listeners [c] = []) (op' : Operation σ) (hp : op'.phase = .done o.isOk)
    (hh : op'.handle = op.handle) {logs : List Notice} (hlogs : Notice.reports logs = []) :
    Decided k (calls ++ [c]) (op'.publish o).1 (ns ++ (logs ++ (op'.publish o).2)) o := by
  rw [publish_of_pending (hh ▸ h.outcome)]
  exact {
    decision := by rw [Kind.decision_append_singleton h.decision, hc]
    outcome := rfl
    phase := hp
    reports := by
      simp [h.reports, hlogs, hh, h.listeners, Call.listeners_append, hl] }

/-- A call that leaves the outcome open takes the reply it brings and comes to the phase that the
reference says. -/
theorem Undecided.goOn (h : Undecided k calls op ns) (hc : k.settled? (k.taken calls) c = none)
    {op' : Operation σ} (hk : op'.kind = op.kind) (ho : op'.handle.outcome = none)
    (hl : op'.handle.listeners = op.handle.listeners ++ Call.listeners [c])
    (hr : op'.replies = op.replies ++ (k.ruling c).reply?.toList)
    (hp : op'.phase = k.phaseAfter (calls ++ [c])) :
    Undecided k (calls ++ [c]) op' ns := by
  have hd : k.decision (calls ++ [c]) = none := by
    rw [Kind.decision_append_singleton h.decision, hc]
  exact {
    kind := hk.trans h.kind
    decision := hd
    outcome := ho
    listeners := by rw [hl, h.listeners, Call.listeners_append]
    replies := by rw [hr, h.replies, Kind.taken_append_singleton hd]
    phase := hp
    reports := h.reports }

theorem Undecided.submit (h : Undecided k calls op ns) :
    Undecided k (calls ++ [.submit]) op.submit ns := by
  have hc : k.settled? (k.taken calls) .submit = none := rfl
  have hsame : op.submit.handle = op.handle ∧ op.submit.replies = op.replies := by
    unfold Operation.submit
    split <;> exact ⟨rfl, rfl⟩
  refine h.goOn hc (kind_submit op) (hsame.1 ▸ h.outcome) ?_ ?_ ?_
  · rw [hsame.1]
    exact (List.append_nil _).symm
  · rw [hsame.2]
    exact (List.append_nil _).symm
  · have hp := h.phase
    rw [Kind.phaseAfter_of_open h.decision] at hp
    rw [Kind.phaseAfter_append_singleton h.decision hc]
    by_cases ht : k.taken calls = []
    · by_cases hs : Call.submit ∈ calls
      · simp [Operation.submit, hp, ht, hs, Kind.ruling, Ruling.reply?]
      · simp [Operation.submit, hp, ht, hs, Kind.ruling, Ruling.reply?]
    · simp [Operation.submit, hp, ht, Kind.ruling, Ruling.reply?]

theorem Undecided.listen (h : Undecided k calls op ns) (l : Listener) :
    Undecided k (calls ++ [.listen l]) (op.listen l).1 (ns ++ (op.listen l).2) := by
  have hc : k.settled? (k.taken calls) (.listen l) = none := rfl
  have hop : op.listen l =
      ({ op with handle := ⟨none, op.handle.listeners ++ [l]⟩ }, []) := by
    simp [Operation.listen, Handle.listen, h.outcome, Notice.ofListeners]
  rw [hop, List.append_nil]
  refine h.goOn hc rfl rfl rfl (List.append_nil _).symm ?_
  have hp := h.phase
  rw [Kind.phaseAfter_of_open h.decision] at hp
  rw [Kind.phaseAfter_append_singleton h.decision hc]
  simpa [Kind.ruling, Ruling.reply?] using hp

/-- A reply that cannot be taken and the last reply decide; any other is taken. -/
theorem Undecided.receive (h : Undecided k calls op ns) (m : Message) :
    (∃ o, Decided k (calls ++ [.reply m]) (op.receive m).1 (ns ++ (op.receive m).2.2) o) ∨
      Undecided k (calls ++ [.reply m]) (op.receive m).1 (ns ++ (op.receive m).2.2) := by
  obtain rfl := h.kind
  have hopen := h.isDone_eq_false
  have hruling := op.ruling_reply m
  have hreceive : op.receive m = op.settle m.code (op.examine m) := by
    simp [Operation.receive, hopen]
  rw [hreceive, settle]
  cases he : op.examine m with
  | error c =>
    have hc : op.kind.settled? (op.kind.taken calls) (.reply m) = some (.error c) := by
      simp [Kind.settled?, hruling, he]
    rw [judge_error hopen]
    exact .inl ⟨_, h.decide hc rfl { op with phase := .done false } rfl rfl rfl⟩
  | ok r =>
    cases hf : op.kind.isFinal r with
    | true =>
      have hc : op.kind.settled? (op.kind.taken calls) (.reply m) =
          some (op.kind.convert (op.replies ++ [r])) := by
        simp [Kind.settled?, hruling, he, hf, h.replies]
      rw [judge_last hopen hf]
      refine .inl ⟨_, h.decide hc rfl { op with
        replies := op.replies ++ [r]
        phase := .done (op.kind.convert (op.replies ++ [r])).isOk } rfl rfl ?_⟩
      cases op.kind.convert (op.replies ++ [r]) <;> rfl
    | false =>
      have hc : op.kind.settled? (op.kind.taken calls) (.reply m) = none := by
        simp [Kind.settled?, hruling, he, hf]
      have hr : (op.kind.ruling (.reply m)).reply? = some r := by
        simp [hruling, he, hf, Ruling.reply?]
      rw [judge_more hopen hf]
      rw [← List.append_nil ns] at h
      refine .inr (h.goOn hc rfl h.outcome (List.append_nil _).symm (by rw [hr]; rfl) ?_)
      rw [Kind.phaseAfter_append_singleton h.decision hc, hr]
      simp

theorem Undecided.fail (h : Undecided k calls op ns) (c : Cause) :
    Decided k (calls ++ [.fail c]) (op.fail c).1 (ns ++ (op.fail c).2.2) (.error c) := by
  have hcond : op.condemn c = ({ op with phase := .done false }, true, []) := by
    simp [condemn, h.isDone_eq_false]
  rw [Operation.fail, hcond]
  exact h.decide rfl rfl { op with phase := .done false } rfl rfl rfl

/-- Nothing changes an operation that is decided. Who listens now hears at once. -/
theorem Decided.perform (h : Decided k calls op ns o) (c : Call) :
    (op.perform c).1 = op ∧ Decided k (calls ++ [c]) op (ns ++ (op.perform c).2.2) o := by
  have hd : op.isDone = true := by rw [isDone, h.phase]; rfl
  have hstays {ns' : List Notice}
      (hr : Notice.reports ns' = (Call.listeners [c]).flatMap (·.run o.isOk)) :
      Decided k (calls ++ [c]) op (ns ++ ns') o := {
    h with
    decision := Kind.decision_append h.decision [c]
    reports := by simp [h.reports, hr] }
  cases c with
  | submit =>
    have hs : op.submit = op := by simp [Operation.submit, h.phase]
    exact ⟨hs, hstays rfl⟩
  | reply m =>
    have hr : op.receive m = (op, .ignored, [.logged (.lateReply m.code op.phase)]) := by
      simp [Operation.receive, hd]
    simp only [Operation.perform, hr]
    exact ⟨trivial, hstays rfl⟩
  | fail c =>
    have hf : op.fail c = (op, false, [.logged (.lateFailure c)]) := by
      simp [Operation.fail, condemn, hd]
    simp only [Operation.perform, hf]
    exact ⟨trivial, hstays rfl⟩
  | listen l =>
    have hl : op.listen l = (op, Notice.ofListeners [l] o.isOk) := by
      cases o <;>
        simp [Operation.listen, Handle.listen, h.outcome, Handle.isSuccess, Except.isOk,
          Except.toBool]
    simp only [Operation.perform, hl]
    exact ⟨trivial, hstays (by simp [Call.listeners])⟩

/-! ## Any number of calls -/

theorem Undecided.perform (h : Undecided k calls op ns) (c : Call) :
    (∃ o, Decided k (calls ++ [c]) (op.perform c).1 (ns ++ (op.perform c).2.2) o) ∨
      Undecided k (calls ++ [c]) (op.perform c).1 (ns ++ (op.perform c).2.2) := by
  cases c with
  | submit =>
    rw [← List.append_nil ns] at h
    exact .inr h.submit
  | reply m => exact h.receive m
  | fail c => exact .inl ⟨_, h.fail c⟩
  | listen l => exact .inr (h.listen l)

/-- After any calls, an operation is decided or undecided. -/
theorem decided_or_undecided (k : Kind σ) (calls : List Call) :
    (∃ o, Decided k calls ((ofKind k).run calls).1 ((ofKind k).run calls).2 o) ∨
      Undecided k calls ((ofKind k).run calls).1 ((ofKind k).run calls).2 := by
  induction calls using List.reverseRecOn with
  | nil => exact .inr (undecided_ofKind k)
  | append_singleton calls c ih =>
    have hrun : (ofKind k).run (calls ++ [c]) = ((((ofKind k).run calls).1.perform c).1,
        ((ofKind k).run calls).2 ++ (((ofKind k).run calls).1.perform c).2.2) := by
      rw [run_append]
      simp [run]
    rw [hrun]
    rcases ih with ⟨o, ho⟩ | hu
    · obtain ⟨hsame, hdec⟩ := ho.perform c
      exact .inl ⟨o, by rwa [hsame]⟩
    · exact hu.perform c

/-- Nothing changes an operation that is decided, however much is called. -/
theorem Decided.run (h : Decided k calls op ns o) (later : List Call) : (op.run later).1 = op := by
  induction later generalizing calls ns with
  | nil => rfl
  | cons c later ih =>
    obtain ⟨hsame, hdec⟩ := h.perform c
    simp only [Operation.run, hsame]
    exact ih hdec

/-! ## The reference is met -/

/-- An operation of a kind and what it brought, measured against the calls on it. -/
structure FollowsReference (k : Kind σ) (calls : List Call) (op : Operation σ) (ns : List Notice) :
    Prop where
  outcome : op.handle.outcome = k.decision calls
  phase : op.phase = k.phaseAfter calls
  done : op.handle.isDone = true ↔ op.isDone = true
  success : op.phase = .done true ↔ ∃ v, op.handle.outcome = some (.ok v)
  failure : op.phase = .done false ↔ ∃ c, op.handle.outcome = some (.error c)
  /-- A reply is answered with whether the operation is done after it. -/
  answer : ∀ m, (op.perform (.reply m)).2.1 = some (op.perform (.reply m)).1.isDone
  /-- Calls after the one that decided change nothing. -/
  final : op.isDone = true → ∀ later, (op.run later).1 = op
  /-- Each listener runs once, in the order of registration, when the outcome is settled or, if it
  comes later, at once. -/
  heard : Notice.reports ns = match k.decision calls with
    | some o => (Call.listeners calls).flatMap (·.run o.isOk)
    | none => []

theorem Undecided.followsReference (h : Undecided k calls op ns) :
    FollowsReference k calls op ns := by
  have hopen := h.isDone_eq_false
  have hphase {success : Bool} : op.phase ≠ .done success := by
    intro hp
    rw [isDone, hp] at hopen
    cases hopen
  exact {
    outcome := h.outcome.trans h.decision.symm
    phase := h.phase
    done := by simp [Handle.isDone, h.outcome, hopen]
    success := by simp [h.outcome, hphase]
    failure := by simp [h.outcome, hphase]
    answer := op.perform_reply
    final := fun hd => absurd (hopen.symm.trans hd) Bool.false_ne_true
    heard := by rw [h.reports, h.decision] }

theorem Decided.followsReference (h : Decided k calls op ns o) :
    FollowsReference k calls op ns where
  outcome := h.outcome.trans h.decision.symm
  phase := by rw [h.phase, Kind.phaseAfter, h.decision]
  done := by simp [Handle.isDone, h.outcome, isDone, h.phase, Phase.isDone]
  success := by cases o <;> simp [h.phase, h.outcome, Except.isOk, Except.toBool]
  failure := by cases o <;> simp [h.phase, h.outcome, Except.isOk, Except.toBool]
  answer := op.perform_reply
  final := fun _ later => h.run later
  heard := by rw [h.reports, h.decision]

/-- **Whatever is called on an operation, it is as the reference says.** -/
theorem follows_reference (k : Kind σ) (calls : List Call) :
    FollowsReference k calls ((ofKind k).run calls).1 ((ofKind k).run calls).2 := by
  rcases decided_or_undecided k calls with ⟨o, ho⟩ | hu
  · exact ho.followsReference
  · exact hu.followsReference

end Operation

end StoreClient
