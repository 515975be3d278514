import StoreClient.Transport

/-!
# Operations under answers

Whatever a transport answers, an operation stays of its kind, and once its handle has an outcome the
outcome stays (`outcome_answer_of_some`). Both hold of any number of answers.
-/

namespace StoreClient.Operation

variable {σ : Signature}

/-! ## One answer -/

@[simp] theorem kind_submit (op : Operation σ) : op.submit.kind = op.kind := by
  unfold submit
  split <;> rfl

@[simp] theorem kind_publish (op : Operation σ) (o : Outcome σ.Output) :
    (op.publish o).1.kind = op.kind := by
  unfold publish
  split <;> rfl

/-- To complete the handle again leaves its outcome. -/
theorem outcome_publish_of_some {op : Operation σ} {x : Outcome σ.Output}
    (h : op.handle.outcome = some x) (o : Outcome σ.Output) :
    (op.publish o).1.handle.outcome = some x := by
  have hnone : op.handle.complete? o = none := by
    rw [Handle.complete?_eq_none_iff]
    simp [Handle.isDone, h]
  unfold publish
  simp only [hnone]
  exact h

theorem outcome_publish_of_none {op : Operation σ} (h : op.handle.outcome = none)
    (o : Outcome σ.Output) : (op.publish o).1.handle.outcome = some o := by
  unfold publish
  simp only [Handle.complete?_of_pending h]

@[simp] theorem phase_publish (op : Operation σ) (o : Outcome σ.Output) :
    (op.publish o).1.phase = op.phase := by
  unfold publish
  split <;> rfl

@[simp] theorem replies_publish (op : Operation σ) (o : Outcome σ.Output) :
    (op.publish o).1.replies = op.replies := by
  unfold publish
  split <;> rfl

@[simp] theorem kind_judge (op : Operation σ) (code : UInt8) (step : Outcome σ.Reply) :
    (op.judge code step).1.kind = op.kind := by
  unfold judge
  split
  · rfl
  · split
    · rfl
    · dsimp only
      split <;> rfl

/-- The phase changes before the handle does. -/
@[simp] theorem handle_judge (op : Operation σ) (code : UInt8) (step : Outcome σ.Reply) :
    (op.judge code step).1.handle = op.handle := by
  unfold judge
  split
  · rfl
  · split
    · rfl
    · dsimp only
      split <;> rfl

section Judge

variable {op : Operation σ} {reply : σ.Reply}

/-- A reply that cannot be taken fails an operation that goes on. -/
theorem judge_error (hopen : op.isDone = false) (code : UInt8) (c : Cause) :
    op.judge code (.error c) = ({ op with phase := .done false }, .completed, some (.error c),
      [.logged (.operationFailed code c)]) := by
  simp [judge, hopen]

/-- A reply that others follow is kept. -/
theorem judge_more (hopen : op.isDone = false) (hf : op.kind.isFinal reply = false) (code : UInt8) :
    op.judge code (.ok reply) =
      ({ op with replies := op.replies ++ [reply], phase := .awaitingMore }, .pending, none,
        []) := by
  simp [judge, hopen, hf]

/-- The last reply ends an operation with what all of them convert to. -/
theorem judge_last (hopen : op.isDone = false) (hf : op.kind.isFinal reply = true) (code : UInt8) :
    op.judge code (.ok reply) =
      ({ op with
          replies := op.replies ++ [reply]
          phase := .done (op.kind.convert (op.replies ++ [reply])).isOk },
        .completed, some (op.kind.convert (op.replies ++ [reply])),
        match op.kind.convert (op.replies ++ [reply]) with
        | .ok _ => []
        | .error c => [.logged (.operationFailed code c)]) := by
  rw [judge, if_neg (Bool.not_eq_true _ ▸ hopen)]
  exact if_pos hf

end Judge

/-- What becomes of a reply: it comes too late, or the operation fails with it, goes on, or ends. -/
theorem judge_cases (op : Operation σ) (code : UInt8) (step : Outcome σ.Reply) :
    (op.isDone = true ∧ ∃ ns, op.judge code step = (op, .ignored, none, ns)) ∨
    (op.isDone = false ∧ ∃ c ns, step = .error c ∧ op.judge code step =
      ({ op with phase := .done false }, .completed, some (.error c), ns)) ∨
    (op.isDone = false ∧ ∃ reply, step = .ok reply ∧ op.judge code step =
      ({ op with replies := op.replies ++ [reply], phase := .awaitingMore }, .pending, none, [])) ∨
    (op.isDone = false ∧ ∃ reply o ns, step = .ok reply ∧
      op.kind.convert (op.replies ++ [reply]) = o ∧ op.judge code step =
        ({ op with replies := op.replies ++ [reply], phase := .done o.isOk }, .completed, some o,
          ns)) := by
  unfold judge
  split
  · next hp => exact .inl ⟨hp, _, rfl⟩
  · next hp =>
    have hp : op.isDone = false := Bool.eq_false_iff.2 hp
    split
    · exact .inr (.inl ⟨hp, _, _, rfl, rfl⟩)
    · dsimp only
      split
      · exact .inr (.inr (.inr ⟨hp, _, _, _, rfl, rfl, rfl⟩))
      · exact .inr (.inr (.inl ⟨hp, _, rfl, rfl⟩))

/-- An operation that went on is done after a reply if there is an outcome to complete its handle
with. -/
theorem isDone_of_judge {op op' : Operation σ} {code : UInt8} {step : Outcome σ.Reply} {a : Accepted}
    {o : Option (Outcome σ.Output)} {ns : List Notice} (hp : op.isDone = false)
    (hj : op.judge code step = (op', a, o, ns)) : op'.isDone = o.isSome := by
  rcases op.judge_cases code step with ⟨hdone, -⟩ | ⟨-, c, ns', -, h⟩ | ⟨-, r, -, h⟩ |
    ⟨-, r, o', ns', -, -, h⟩
  · exact absurd (hp.symm.trans hdone) Bool.false_ne_true
  · cases hj.symm.trans h
    rfl
  · cases hj.symm.trans h
    rfl
  · cases hj.symm.trans h
    rfl

/-- A failure comes too late, or makes the operation done. -/
theorem condemn_cases (op : Operation σ) (c : Cause) :
    (op.isDone = true ∧ ∃ ns, op.condemn c = (op, false, ns)) ∨
    (op.isDone = false ∧ op.condemn c = ({ op with phase := .done false }, true, [])) := by
  unfold condemn
  split
  · next hp => exact .inl ⟨hp, _, rfl⟩
  · next hp => exact .inr ⟨Bool.eq_false_iff.2 hp, rfl⟩

@[simp] theorem kind_condemn (op : Operation σ) (c : Cause) : (op.condemn c).1.kind = op.kind := by
  unfold condemn
  split <;> rfl

@[simp] theorem handle_condemn (op : Operation σ) (c : Cause) :
    (op.condemn c).1.handle = op.handle := by
  unfold condemn
  split <;> rfl

theorem settle_eq (op : Operation σ) (code : UInt8) (step : Outcome σ.Reply) :
    (op.settle code step).1 = match (op.judge code step).2.2.1 with
      | some o => ((op.judge code step).1.publish o).1
      | none => (op.judge code step).1 := by
  unfold settle
  split <;> next h => simp [h]

theorem fail_eq (op : Operation σ) (c : Cause) :
    (op.fail c).1 = if (op.condemn c).2.1 then ((op.condemn c).1.publish (.error c)).1
      else (op.condemn c).1 := by
  unfold fail
  split <;> next h => simp [h]

@[simp] theorem kind_settle (op : Operation σ) (code : UInt8) (step : Outcome σ.Reply) :
    (op.settle code step).1.kind = op.kind := by
  rw [settle_eq]
  split <;> simp

@[simp] theorem kind_fail (op : Operation σ) (c : Cause) : (op.fail c).1.kind = op.kind := by
  rw [fail_eq]
  split <;> simp

theorem outcome_settle_of_some {op : Operation σ} {x : Outcome σ.Output}
    (h : op.handle.outcome = some x) (code : UInt8) (step : Outcome σ.Reply) :
    (op.settle code step).1.handle.outcome = some x := by
  have hj : (op.judge code step).1.handle.outcome = some x := by rwa [handle_judge]
  rw [settle_eq]
  split
  · exact outcome_publish_of_some hj _
  · exact hj

theorem outcome_fail_of_some {op : Operation σ} {x : Outcome σ.Output}
    (h : op.handle.outcome = some x) (c : Cause) :
    (op.fail c).1.handle.outcome = some x := by
  have hj : (op.condemn c).1.handle.outcome = some x := by rwa [handle_condemn]
  rw [fail_eq]
  split
  · exact outcome_publish_of_some hj _
  · exact hj

@[simp] theorem kind_answer (op : Operation σ) (a : Answer) : (op.answer a).1.kind = op.kind := by
  cases a with
  | reply m =>
    simp only [answer, receive]
    split
    · rfl
    · exact kind_settle op _ _
  | failure c => exact kind_fail op c

/-- An outcome stays, whatever is answered after it. -/
theorem outcome_answer_of_some {op : Operation σ} {x : Outcome σ.Output}
    (h : op.handle.outcome = some x) (a : Answer) : (op.answer a).1.handle.outcome = some x := by
  cases a with
  | reply m =>
    simp only [answer, receive]
    split
    · exact h
    · exact outcome_settle_of_some h _ _
  | failure c => exact outcome_fail_of_some h c

/-! ## Many answers -/

theorem answerAll_append (op : Operation σ) (as bs : List Answer) :
    (op.answerAll (as ++ bs)).1 = ((op.answerAll as).1.answerAll bs).1 := by
  induction as generalizing op with
  | nil => rfl
  | cons a as ih => exact ih (op.answer a).1

/-- The operation after answers and one more. -/
theorem execute_append_singleton (op : Operation σ) (as : List Answer) (a : Answer) :
    (op.execute (as ++ [a])).1 = ((op.execute as).1.answer a).1 :=
  answerAll_append op.submit as [a]

@[simp] theorem kind_answerAll (op : Operation σ) (as : List Answer) :
    (op.answerAll as).1.kind = op.kind := by
  induction as generalizing op with
  | nil => rfl
  | cons a as ih => exact (ih (op.answer a).1).trans (kind_answer op a)

theorem outcome_answerAll_of_some {op : Operation σ} {x : Outcome σ.Output}
    (h : op.handle.outcome = some x) (as : List Answer) :
    (op.answerAll as).1.handle.outcome = some x := by
  induction as generalizing op with
  | nil => exact h
  | cons a as ih => exact ih (outcome_answer_of_some h a)

end StoreClient.Operation
