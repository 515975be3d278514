import StoreClient.Batch
import StoreClient.Proofs.Operation.Answers

/-!
# Entries and their commands

An entry is at any time the entry of its command after some answers (`Entry.IsOf`). So there is an
operation only if the command makes one, the item is identified as the command is, and an outcome
stays once it is there (`Entry.outcome?_answer_of_some`).

`Entry.Fits` says that the listener is as far as the item allows: it waits only for an item that is
not done, and runs only for one that is.
-/

namespace StoreClient.Batch

variable {σ : Signature}

namespace Entry

/-! ## Answers -/

@[simp] theorem query_answer (e : Entry σ) (a : Answer) : (e.answer a).1.query = e.query := by
  unfold answer
  split
  · rfl
  · dsimp only
    split <;> rfl

theorem operation_answer (e : Entry σ) (a : Answer) :
    (e.answer a).1.operation = e.operation.map fun op => (op.answer a).1 := by
  unfold answer
  split
  · next hop => simp [hop, Except.map]
  · next hop =>
    dsimp only
    split <;> simp [hop, Except.map]

/-- An answer changes the stage only where it makes a listener due that waits. -/
theorem stage_answer (e : Entry σ) (a : Answer) :
    (e.answer a).1.stage = e.stage ∨ e.stage = .awaited ∧ (e.answer a).1.stage = .due := by
  unfold answer
  split
  · exact .inl rfl
  · dsimp only
    split
    · next h => exact .inr ⟨h.1, rfl⟩
    · exact .inl rfl

@[simp] theorem subject_answer (e : Entry σ) (a : Answer) :
    (e.answer a).1.subject = e.subject := by
  unfold subject
  rw [operation_answer, query_answer]
  cases e.operation with
  | error c => rfl
  | ok op => exact congrArg Kind.query (op.kind_answer a)

/-- An outcome stays, whatever is answered after it. -/
theorem outcome?_answer_of_some {e : Entry σ} {x : Outcome σ.Output} (h : e.outcome? = some x)
    (a : Answer) : (e.answer a).1.outcome? = some x := by
  unfold outcome? at h ⊢
  rw [operation_answer]
  cases hop : e.operation with
  | error c =>
    rw [hop] at h
    exact h
  | ok op =>
    rw [hop] at h
    exact Operation.outcome_answer_of_some h a

/-- So the item stays. -/
theorem item?_answer_of_isSome {e : Entry σ} (h : e.outcome?.isSome) (a : Answer) (index : Nat) :
    (e.answer a).1.item? index = e.item? index := by
  obtain ⟨x, hx⟩ := Option.isSome_iff_exists.1 h
  simp only [item?, hx, outcome?_answer_of_some hx a, subject_answer]

theorem index_of_item? {e : Entry σ} {index : Nat} {item : Item σ}
    (h : e.item? index = some item) : item.index = index := by
  unfold item? at h
  obtain ⟨x, -, rfl⟩ := Option.map_eq_some_iff.1 h
  rfl

theorem isSome_item? {e : Entry σ} (h : e.outcome?.isSome) (index : Nat) :
    ∃ item, e.item? index = some item := by
  obtain ⟨x, hx⟩ := Option.isSome_iff_exists.1 h
  exact ⟨⟨index, e.subject, x⟩, by simp [item?, hx]⟩

/-! ## The command of an entry -/

/-- The entry is that of the command, after some answers to its operation. -/
def IsOf (e : Entry σ) (c : Command σ) : Prop :=
  e.query = c.query ∧
    ∃ given : List Answer, e.operation = c.operation.map fun op => (op.execute given).1

theorem isOf_ofCommand (c : Command σ) : (ofCommand c).IsOf c := ⟨rfl, [], rfl⟩

/-- An answer to an operation is one more answer; a command without an operation takes none. -/
theorem IsOf.answer {e : Entry σ} {c : Command σ} (h : e.IsOf c) (a : Answer) :
    (e.answer a).1.IsOf c := by
  obtain ⟨hq, given, hop⟩ := h
  refine ⟨(query_answer e a).trans hq, given ++ [a], ?_⟩
  rw [operation_answer, hop]
  cases c.operation with
  | error x => rfl
  | ok op => exact congrArg Except.ok (op.execute_append_singleton given a).symm

theorem IsOf.isSubmitted {e : Entry σ} {c : Command σ} (h : e.IsOf c) :
    e.isSubmitted = c.operation.isOk := by
  obtain ⟨-, given, hop⟩ := h
  unfold Entry.isSubmitted
  rw [hop]
  cases c.operation <;> rfl

/-- The item of a command without an operation failed for the reason why there is none. -/
theorem IsOf.outcome?_of_error {e : Entry σ} {c : Command σ} {x : Cause} (h : e.IsOf c)
    (hc : c.operation = .error x) : e.outcome? = some (.error x) := by
  obtain ⟨-, given, hop⟩ := h
  unfold Entry.outcome?
  rw [hop, hc]
  rfl

/-! ## Stages and outcomes -/

/-- The listener waits only for an item that is not done, and runs only for one that is. -/
def Fits (e : Entry σ) : Prop :=
  match e.stage with
  | .unwatched => True
  | .awaited => e.outcome? = none
  | _ => e.outcome?.isSome = true

theorem fits_of_isSome {e : Entry σ} (h : e.outcome?.isSome = true) (hs : e.stage ≠ .awaited) :
    e.Fits := by
  unfold Fits
  split
  · trivial
  · next ha => exact absurd ha hs
  · exact h

theorem Fits.isSome {e : Entry σ} (h : e.Fits) (hu : e.stage ≠ .unwatched)
    (ha : e.stage ≠ .awaited) : e.outcome?.isSome = true := by
  unfold Fits at h
  split at h
  · next hs => exact absurd hs hu
  · next hs => exact absurd hs ha
  · exact h

theorem Fits.outcome?_eq_none {e : Entry σ} (h : e.Fits) (ha : e.stage = .awaited) :
    e.outcome? = none := by
  simpa [Fits, ha] using h

/-- An answer that makes an item done whose listener waits makes the listener due. -/
theorem Fits.answer {e : Entry σ} (h : e.Fits) (a : Answer) : (e.answer a).1.Fits := by
  by_cases hw : e.stage = .awaited
  · have hnone := h.outcome?_eq_none hw
    unfold outcome? at hnone
    unfold Entry.answer
    cases hop : e.operation with
    | error c => simp [hop] at hnone
    | ok op =>
      dsimp only
      split
      · next hd => exact fits_of_isSome hd.2 (by simp)
      · next hd =>
        have : ¬ (outcome? { e with operation := .ok (op.answer a).1 }).isSome :=
          fun hs => hd ⟨hw, hs⟩
        simpa [Fits, hw] using this
  · by_cases hu : e.stage = .unwatched
    · rcases stage_answer e a with hs | hs
      · simp [Fits, hs, hu]
      · exact absurd hs.1 hw
    · obtain ⟨x, hx⟩ := Option.isSome_iff_exists.1 (h.isSome hu hw)
      refine fits_of_isSome (by simp [outcome?_answer_of_some hx a]) ?_
      rcases stage_answer e a with hs | hs
      · rwa [hs]
      · exact absurd hs.1 hw

end Entry

end StoreClient.Batch
