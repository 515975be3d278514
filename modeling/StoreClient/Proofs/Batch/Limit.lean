import StoreClient.Proofs.Batch.Events

/-!
# The limit of a batch

Every permit is held by an item or by nobody, so at most `limit` items hold one (`Valid.held_le`),
and an item that is not done holds one (`Entry.Fits.holdsPermit`). What is reported when a command
is dispatched is the number of items in flight, with the new one (`Valid.inFlight_of_dispatched`).
-/

namespace StoreClient.Batch

variable {σ : Signature} {commands : List (Command σ)} {b : Batch σ}

/-- How many items hold a permit. -/
def holders (b : Batch σ) : Nat := b.entries.countP (·.stage.holdsPermit)

/-- How many items that were submitted are not done. -/
def outstanding (b : Batch σ) : Nat :=
  b.entries.countP fun e => e.isSubmitted && e.outcome?.isNone

/-- How many items that were submitted hold their permit: they are not done, or their listeners have
not come to give it back. -/
def inFlight (b : Batch σ) : Nat :=
  b.entries.countP fun e => e.isSubmitted && e.stage.holdsPermit

/-- No listener of an item runs. -/
def IsQuiet (b : Batch σ) : Prop := ∀ e ∈ b.entries, e.stage.isRunning = false

/-- An item that is not done holds its permit. -/
theorem Entry.Fits.holdsPermit {e : Entry σ} (h : e.Fits) (hn : e.outcome? = none) :
    e.stage.holdsPermit = true := by
  unfold Entry.Fits at h
  split at h
  · next hs =>
    rw [hs]
    rfl
  · next hs =>
    rw [hs]
    rfl
  · simp [hn] at h

namespace Valid

theorem fits_of_mem (h : Valid commands b) {e : Entry σ} (he : e ∈ b.entries) : e.Fits := by
  obtain ⟨k, hk, rfl⟩ := List.getElem_of_mem he
  exact h.fits (List.getElem?_eq_getElem hk)

/-- At most as many items hold a permit as the limit allows. -/
theorem held_le (h : Valid commands b) : b.holders ≤ b.limit := by
  have := h.held
  unfold holders
  omega

/-- Items in flight hold a permit. -/
theorem inFlight_le_holders (b : Batch σ) : b.inFlight ≤ b.holders :=
  List.countP_mono_left fun _ _ he => (Bool.and_eq_true _ _ ▸ he).2

/-- Items that were submitted and are not done are in flight. -/
theorem outstanding_le_inFlight (h : Valid commands b) : b.outstanding ≤ b.inFlight := by
  refine List.countP_mono_left fun e he hp => ?_
  rw [Bool.and_eq_true, Option.isNone_iff_eq_none] at hp
  rw [Bool.and_eq_true]
  exact ⟨hp.1, (h.fits_of_mem he).holdsPermit hp.2⟩

/-- Never are more permits free than there are. -/
theorem available_le (h : Valid commands b) : b.permits.available ≤ b.limit := by
  have := h.held
  have := b.permits.available_le_unheld
  omega

/-- Before the next command, an item holds a permit only if it was submitted. -/
theorem inFlight_eq_holders (h : Valid commands b) (hc : b.control = .ready) :
    b.inFlight = b.holders := by
  refine List.countP_congr fun e he => ?_
  obtain ⟨k, hk, rfl⟩ := List.getElem_of_mem he
  have hset := h.settled (List.getElem?_eq_getElem hk) (by simp [hc, Control.busy?])
  rw [Bool.and_eq_true]
  refine ⟨fun hp => hp.2, fun hp => ⟨?_, hp⟩⟩
  cases hs : b.entries[k].isSubmitted with
  | true => rfl
  | false =>
    rw [hset.2 hs] at hp
    cases hp

/-- If no listener runs either, the items in flight are those that are not done. -/
theorem outstanding_eq_inFlight (h : Valid commands b) (hc : b.control = .ready)
    (hq : b.IsQuiet) : b.outstanding = b.inFlight := by
  refine List.countP_congr fun e he => ?_
  obtain ⟨k, hk, rfl⟩ := List.getElem_of_mem he
  have hget := List.getElem?_eq_getElem hk
  have hset := h.settled hget (by simp [hc, Control.busy?])
  rw [Bool.and_eq_true, Bool.and_eq_true, Option.isNone_iff_eq_none]
  constructor
  · exact fun hp => ⟨hp.1, (h.fits hget).holdsPermit hp.2⟩
  · rintro ⟨hs, hp⟩
    have haw : b.entries[k].stage = .awaited := by
      have hrun := hq _ he
      have hun := hset.1
      cases hs : b.entries[k].stage <;> simp_all [Stage.isRunning, Stage.holdsPermit]
    exact ⟨hs, (h.fits hget).outcome?_eq_none haw⟩

/-! ## What is reported as in flight -/

/-- The number that is reported when a command is dispatched counts the command and the items in
flight before it. -/
theorem inFlight_of_dispatched (h : Valid commands b) {m : Move} {r : Batch σ × List Notice}
    (hs : Step b m r) {id index n : Nat} (he : Event.dispatched id index n ∈ Notice.events r.2) :
    b.control = .ready ∧ index = b.entries.length ∧ n = 1 + b.inFlight ∧ n ≤ b.limit := by
  cases hs with
  | stop hc hs =>
    rw [events_interrupt] at he
    split at he <;> simp at he
  | @handle ordinal permits c rest hc hl hr ht =>
    rw [events_handle] at he
    split at he
    · simp only [List.mem_singleton, Event.dispatched.injEq] at he
      obtain ⟨-, rfl, rfl⟩ := he
      obtain ⟨hu, ha⟩ := Permits.unheld_of_take ht
      have hheld := h.held
      refine ⟨hc, rfl, ?_, Nat.sub_le _ _⟩
      rw [h.inFlight_eq_holders hc]
      unfold holders
      omega
    · simp at he
  | count hx hs =>
    rw [events_count] at he
    split at he <;> simp at he
  | _ => simp at he

end Valid

/-! ## The whole limit -/

/-- The command makes an operation that has no outcome yet. -/
def MakesOpen (c : Command σ) : Prop :=
  ∃ op, c.operation = .ok op ∧ op.handle.outcome = none

/-- Dispatching has submitted the first `n` commands, none of which is done. -/
structure HasOut (commands : List (Command σ)) (n : Nat) (b : Batch σ) : Prop where
  ready : n < commands.length → b.control = .ready
  permits : b.permits = .free (b.limit - n)
  rest : b.rest = commands.drop n
  length : b.entries.length = n
  isOut : ∀ e ∈ b.entries, e.isSubmitted = true ∧ e.outcome? = none

namespace HasOut

variable {n : Nat}

theorem ofCommands (id limit : Nat) (commands : List (Command σ)) :
    HasOut commands 0 (ofCommands id limit commands) where
  ready _ := rfl
  permits := rfl
  rest := rfl
  length := rfl
  isOut e he := by cases he

/-- All that was submitted is outstanding. -/
theorem outstanding_eq (h : HasOut commands n b) : b.outstanding = n := by
  rw [outstanding, ← h.length]
  refine List.countP_eq_length.2 fun e he => ?_
  obtain ⟨hs, ho⟩ := h.isOut e he
  rw [hs, ho]
  rfl

theorem outcome?_ofCommand {c : Command σ} (hopen : MakesOpen c) :
    (Entry.ofCommand c).isSubmitted = true ∧ (Entry.ofCommand c).outcome? = none := by
  obtain ⟨op, hop, ho⟩ := hopen
  have hhandle : op.submit.handle = op.handle := by
    unfold Operation.submit
    split <;> rfl
  constructor
  · rw [isSubmitted_ofCommand, hop]
    rfl
  · unfold Entry.outcome? Entry.ofCommand
    rw [hop]
    exact (congrArg Handle.outcome hhandle).trans ho

/-- With two steps, dispatching submits one command more, as long as the limit allows. -/
theorem advance (h : HasOut commands n b) (hl : b.limit ≤ maxPermits) (hn : n < b.limit)
    {c : Command σ} (hc : commands[n]? = some c) (hopen : MakesOpen c) (o o' : Nat) :
    HasOut commands (n + 1)
      ((b.perform (.advance false o)).1.perform (.advance false o')).1 := by
  have hlt := (List.getElem?_eq_some_iff.1 hc).1
  have hrest : b.rest = c :: commands.drop (n + 1) := by
    rw [h.rest, List.drop_eq_getElem_cons hlt, (List.getElem?_eq_some_iff.1 hc).2]
  have htake : b.permits.take = (.free (b.limit - (n + 1)), true) := by
    rw [h.permits, show b.limit - n = (b.limit - (n + 1)) + 1 by omega]
    rfl
  -- the first step makes the operation, the second one registers the listener
  have hfirst : (b.perform (.advance false o)).1 = { b with
      permits := .free (b.limit - (n + 1))
      rest := commands.drop (n + 1)
      entries := b.entries ++ [.ofCommand c]
      control := .submitting b.entries.length } := by
    simp only [perform, Batch.advance, h.ready hlt, next, Nat.not_lt.2 hl, hrest, htake,
      handle_fields, if_false, Bool.false_eq_true]
  have hout := outcome?_ofCommand hopen
  rw [hfirst]
  simp only [perform, Batch.advance, watch, List.getElem?_concat_length, hout.2, Option.isSome_none,
    Bool.false_eq_true, if_false]
  constructor
  · intro hmore
    have hne : commands.drop (n + 1) ≠ [] := by
      intro hnil
      exact absurd (List.drop_eq_nil_iff.1 hnil) (Nat.not_le.2 hmore)
    simp [onward, hne]
  · rfl
  · rfl
  · simp [setEntry, h.length]
  · intro e he
    simp only [setEntry, List.set_append_right _ _ (Nat.le_refl _), Nat.sub_self,
      List.set_cons_zero, List.mem_append, List.mem_singleton] at he
    rcases he with he | rfl
    · exact h.isOut e he
    · exact hout

end HasOut

end StoreClient.Batch
