import StoreClient.Coordinator

/-!
# Dispatching goes on until no turn is to come

No move of a batch adds to the work that is left of it (`Batch.load_perform_le`), and when
dispatching goes on with the next command, it takes something off: it handles the command, or it
ends (`Batch.load_advance_lt`). A turn after which its batch has another turn to come was made of
such steps, so every turn takes something off the work and the turns that are left together
(`Coordinator.effort_turn_le`). So the rounds that `pump` allows are enough, and afterwards every
batch has ended or waits (`Coordinator.size_schedule_pump`).
-/

namespace StoreClient

/-! ## Batches -/

namespace Batch

variable {σ : Signature}

/-- How many commands a batch can still come to, and its end. -/
def load (b : Batch σ) : Nat := if b.control = .ended then 0 else b.rest.length + 1

theorem load_le (b : Batch σ) : b.load ≤ b.rest.length + 1 := by
  unfold load
  split <;> omega

theorem load_eq_zero {b : Batch σ} (h : b.control = .ended) : b.load = 0 := by
  simp [load, h]

/-- A change that keeps the commands, and that starts nothing which has ended, adds nothing to the
load. -/
theorem load_le_of_rest {b b' : Batch σ} (hr : b'.rest = b.rest)
    (hc : b.control = .ended → b'.control = .ended) : b'.load ≤ b.load := by
  unfold load
  rw [hr]
  by_cases h : b.control = .ended
  · simp [h, hc h]
  · rw [if_neg h]
    split <;> omega

@[simp] theorem rest_complete (b : Batch σ) : b.complete.1.rest = b.rest := by
  unfold complete
  dsimp only
  split <;> rfl

@[simp] theorem control_complete (b : Batch σ) : b.complete.1.control = b.control := by
  unfold complete
  dsimp only
  split <;> rfl

@[simp] theorem control_interrupt (b : Batch σ) : b.interrupt.1.control = b.control := by
  unfold interrupt
  dsimp only
  split <;> rfl

/-- Dispatching that is given up before a command has ended. -/
theorem control_abandon {b : Batch σ} (h : b.control = .ready) :
    b.abandon.1.control = .ended := by
  simp [abandon, h]

theorem load_abandon_le (b : Batch σ) : b.abandon.1.load ≤ b.load := by
  unfold abandon
  split
  · rw [load_eq_zero (by simp)]
    omega
  · exact Nat.le_refl _

theorem load_count_le (b : Batch σ) (index : Nat) : (b.count index).1.load ≤ b.load := by
  unfold count
  dsimp only
  split
  all_goals
    refine load_le_of_rest (by simp) fun h => ?_
    simp [h]

theorem load_proceed_le (b : Batch σ) (index : Nat) : (b.proceed index).1.load ≤ b.load := by
  unfold proceed
  split
  · exact Nat.le_refl _
  · split
    · exact Nat.le_refl _
    · exact Nat.le_refl _
    · exact Nat.le_refl _
    · exact load_count_le _ _
    · exact Nat.le_refl _

theorem load_answer_le (b : Batch σ) (index : Nat) (a : Answer) :
    (b.answer index a).1.load ≤ b.load := by
  unfold answer
  split <;> exact Nat.le_refl _

/-- To go on with the next command takes something off the load, unless it only waits. -/
theorem load_advance_lt {b : Batch σ} {halted : Bool} (hc : b.control = .ready)
    (hb : b.isBlocked halted = false) (ordinal : Nat) :
    (b.advance halted ordinal).1.load < b.load := by
  have hload : b.load = b.rest.length + 1 := by simp [load, hc]
  rw [hload]
  simp only [advance, hc, next]
  split
  · rw [load_eq_zero (control_abandon hc)]
    omega
  · next hl =>
    split
    · simp [load]
    · next c rest hr =>
      split
      · rw [load_eq_zero (control_abandon hc)]
        omega
      · next hh =>
        split
        · next permits ht =>
          simp only [Bool.not_eq_true] at hh
          simp [isBlocked, hc, hh, hr, ht, Nat.not_lt.1 hl] at hb
        · refine Nat.lt_of_le_of_lt (load_le _) ?_
          unfold handle
          split <;> simp [hr]

/-- A batch that would only wait for a permit keeps its load. -/
theorem load_advance_le (b : Batch σ) (halted : Bool) (ordinal : Nat) :
    (b.advance halted ordinal).1.load ≤ b.load := by
  by_cases hb : b.control = .ready ∧ b.isBlocked halted = false
  · exact Nat.le_of_lt (load_advance_lt hb.1 hb.2 ordinal)
  · unfold advance
    split
    · next hc =>
      have hb : b.isBlocked halted = true := by simpa [hc] using hb
      simp only [isBlocked, Bool.and_eq_true, decide_eq_true_eq, Bool.not_eq_true'] at hb
      obtain ⟨⟨⟨⟨-, hh⟩, hl⟩, hr⟩, ht⟩ := hb
      unfold next
      rw [if_neg (Nat.not_lt.2 hl)]
      split
      · next hnil => simp [hnil] at hr
      · rw [hh, if_neg Bool.false_ne_true]
        split
        · exact load_le_of_rest rfl fun h => h
        · next ht' => simp [ht'] at ht
    · next index hc =>
      unfold watch
      split
      · exact Nat.le_refl _
      · split <;> exact load_le_of_rest rfl (by simp [hc])
    · exact Nat.le_refl _

/-- No move adds to the load. -/
theorem load_perform_le (b : Batch σ) (m : Move) : (b.perform m).1.load ≤ b.load := by
  cases m with
  | advance halted ordinal => exact load_advance_le b halted ordinal
  | answer index a => exact load_answer_le b index a
  | proceed index => exact load_proceed_le b index
  | abandon => exact load_abandon_le b
  | listen l => exact Nat.le_refl _

end Batch

/-! ## Coordinators -/

namespace Coordinator

variable {Index : Type} {kinds : Index → Signature}

/-- How many commands the batches can still come to, and their ends. -/
def load (c : Coordinator kinds) : Nat := sumOf (·.2.load) c.batches

/-- What the batches can still come to, and how many turns are to come. -/
def effort (c : Coordinator kinds) : Nat := c.load + c.schedule.size

theorem effort_lt_maxRounds (c : Coordinator kinds) : c.effort < c.maxRounds := by
  refine Nat.lt_succ_of_le (Nat.add_le_add_right ?_ _)
  unfold load
  induction c.batches with
  | nil => simp
  | cons e rest ih =>
    have := e.2.load_le
    rw [sumOf_cons, sumOf_cons]
    omega

@[simp] theorem schedule_move (c : Coordinator kinds) (position : Nat) (m : Batch.Move) :
    (c.move position m).1.schedule = c.schedule := by
  unfold move
  split <;> rfl

/-- A move of a batch changes the load as it changes that of the batch. -/
theorem load_move {c : Coordinator kinds} {position : Nat} {i : Index} {b : Batch (kinds i)}
    (h : c.batches[position]? = some ⟨i, b⟩) (m : Batch.Move) :
    (c.move position m).1.load + b.load = c.load + (b.perform m).1.load := by
  have := sumOf_set (f := fun e : (i : Index) × Batch (kinds i) => e.2.load)
    ⟨i, (b.perform m).1⟩ h
  simpa [move, h, load] using this

theorem load_move_le (c : Coordinator kinds) (position : Nat) (m : Batch.Move) :
    (c.move position m).1.load ≤ c.load := by
  cases h : c.batches[position]? with
  | none => simp [move, h]
  | some e =>
    have := load_move h m
    have := e.2.load_perform_le m
    omega

/-- The acts of handling one command neither change the schedule nor add to the load. -/
theorem run_submissionActs (answers : Answers kinds) (ordinal position : Nat)
    (e : (i : Index) × Batch (kinds i)) (c : Coordinator kinds) :
    (c.run (submissionActs answers ordinal position e)).1.schedule = c.schedule ∧
      (c.run (submissionActs answers ordinal position e)).1.load ≤ c.load := by
  have hact : ∀ a ∈ submissionActs answers ordinal position e, ∀ c : Coordinator kinds,
      (c.perform a).1.schedule = c.schedule ∧ (c.perform a).1.load ≤ c.load := by
    intro a ha c
    obtain ⟨i, b⟩ := e
    dsimp only [submissionActs] at ha
    split at ha
    · simp only [listenerActs, List.mem_append, List.mem_map, List.mem_cons,
        List.mem_replicate] at ha
      obtain ⟨x, -, rfl⟩ | rfl | ⟨-, rfl⟩ := ha
      · unfold perform
        dsimp only
        split
        · exact ⟨rfl, Nat.le_refl _⟩
        · exact ⟨schedule_move c _ _, load_move_le c _ _⟩
      · exact ⟨schedule_move c _ _, load_move_le c _ _⟩
      · exact ⟨schedule_move c _ _, load_move_le c _ _⟩
    · simp at ha
  generalize submissionActs answers ordinal position e = acts at hact
  induction acts generalizing c with
  | nil => exact ⟨rfl, Nat.le_refl _⟩
  | cons a rest ih =>
    have ha := hact a List.mem_cons_self c
    have hr := ih (c.perform a).1 fun x hx => hact x (List.mem_cons_of_mem a hx)
    exact ⟨hr.1.trans ha.1, Nat.le_trans hr.2 ha.2⟩

@[simp] theorem schedule_step (c : Coordinator kinds) (answers : Answers kinds) (position : Nat) :
    (c.step answers position).1.schedule = c.schedule := by
  unfold step
  dsimp only
  split
  · exact schedule_move c _ _
  · exact (run_submissionActs answers _ position _ _).1.trans (schedule_move c _ _)

/-- A step of a batch that can go on takes something off the load. -/
theorem load_step_lt {c : Coordinator kinds} {position : Nat} (hr : c.isReady position = true)
    (hb : c.isBlocked position = false) (answers : Answers kinds) :
    (c.step answers position).1.load < c.load := by
  have hlt : (c.perform (.advance position)).1.load < c.load := by
    unfold isReady at hr
    unfold isBlocked at hb
    split at hr
    · simp at hr
    · next i b hp =>
      simp only [hp] at hb
      have hs := Batch.load_advance_lt (by simpa using hr) hb c.submissions.length
      have hm := load_move hp (.advance c.halted c.submissions.length)
      simp only [Batch.perform] at hm
      simp only [perform]
      omega
  unfold step
  dsimp only
  split
  · exact hlt
  · exact Nat.lt_of_le_of_lt (run_submissionActs answers _ position _ _).2 hlt

/-- A turn of some steps after which its batch has another turn to come has taken all its steps off
the load. -/
theorem effort_turn_le (answers : Answers kinds) (position steps : Nat) (c : Coordinator kinds) :
    (turn answers position steps c).1.effort ≤ c.effort ∨
      (turn answers position steps c).1.effort + steps ≤ c.effort + 1 := by
  induction steps generalizing c with
  | zero =>
    unfold turn
    split
    · refine .inr ?_
      simp only [effort, Schedule.size_setAside]
      exact Nat.le_refl _
    · exact .inl (Nat.le_refl _)
  | succ steps ih =>
    unfold turn
    split
    · exact .inl (Nat.le_refl _)
    · next hr =>
      split
      · refine .inl (Nat.add_le_add ?_ ?_)
        · exact load_move_le c _ _
        · exact Nat.le_of_eq (congrArg Schedule.size (schedule_move c _ _))
      · next hb =>
        have hlt := load_step_lt (by simpa using hr) (Bool.eq_false_iff.2 hb) answers
        have heff : (c.step answers position).1.effort < c.effort := by
          simp only [effort, schedule_step]
          omega
        dsimp only
        refine (ih (c.step answers position).1).imp (fun h => ?_) fun h => ?_ <;> omega

/-- A whole turn adds nothing to the effort. -/
theorem effort_turn_turnLength_le (answers : Answers kinds) (position : Nat)
    (c : Coordinator kinds) : (turn answers position turnLength c).1.effort ≤ c.effort := by
  rcases effort_turn_le answers position turnLength c with h | h
  · exact h
  · have : 1 ≤ turnLength := by decide
    omega

/-- A round adds nothing to the effort. -/
theorem effort_round_le (answers : Answers kinds) (turns : Nat) (c : Coordinator kinds) :
    (round answers turns c).1.effort ≤ c.effort := by
  induction turns generalizing c with
  | zero => exact Nat.le_refl _
  | succ turns ih =>
    unfold round
    split
    · next hn =>
      have := Schedule.size_next_of_none hn
      simp only [effort, load, Schedule.size] at this ⊢
      omega
    · next schedule position hn =>
      have := Schedule.size_next_of_some hn
      have hle := effort_turn_turnLength_le answers position { c with schedule := schedule }
      refine Nat.le_trans (ih _) (Nat.le_trans hle ?_)
      simp only [effort, load]
      omega

/-- A round of one turn or more takes something off the effort, or leaves no turn but those of
batches that were set aside before. -/
theorem effort_round_lt (answers : Answers kinds) {turns : Nat} (ht : 0 < turns)
    (c : Coordinator kinds) : (round answers turns c).1.effort < c.effort ∨
      (round answers turns c).1.schedule.size = c.schedule.aside.length := by
  obtain ⟨turns, rfl⟩ := Nat.exists_eq_add_one.2 ht
  unfold round
  split
  · next hn => exact .inr (Schedule.size_next_of_none hn)
  · next schedule position hn =>
    have := Schedule.size_next_of_some hn
    have hle := effort_turn_turnLength_le answers position { c with schedule := schedule }
    refine .inl (Nat.lt_of_le_of_lt (effort_round_le answers turns _) (Nat.lt_of_le_of_lt hle ?_))
    simp only [effort, load]
    omega

/-- The effort stays the same when batches that were set aside come back. -/
theorem effort_resume (c : Coordinator kinds) :
    effort { c with schedule := c.schedule.resume } = c.effort := by
  simp only [effort, load, Schedule.size_resume]

/-- With more rounds than the effort tells, no turn is left to come. -/
theorem size_schedule_rounds {answers : Answers kinds} {count : Nat} {c : Coordinator kinds}
    (h : c.effort < count) : (rounds answers count c).1.schedule.size = 0 := by
  induction count generalizing c with
  | zero => omega
  | succ count ih =>
    unfold rounds
    dsimp only
    split
    · assumption
    · next hs =>
      apply ih
      have ht : 0 < roundLength := by decide
      rcases effort_round_lt answers ht { c with schedule := c.schedule.resume } with hr | hr
      · rw [effort_resume] at hr
        omega
      · exact absurd hr hs

/-- While there is a runtime, `pump` leaves no turn to come. -/
theorem size_schedule_pump {c : Coordinator kinds} (h : c.runtime = .live)
    (answers : Answers kinds) : (c.pump answers).1.schedule.size = 0 := by
  unfold pump
  rw [if_pos h]
  exact size_schedule_rounds c.effort_lt_maxRounds

end Coordinator

end StoreClient
