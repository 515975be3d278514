import StoreClient.Coordinator
import StoreClient.Proofs.Batch.Progress

/-!
# Acts and moves

What acts do to one batch is a run of moves of that batch, whatever happens to the others
(`batch_run`). So what is proved of any run of a batch holds of each batch of a coordinator, in
every interleaving. The requests for a batch are made by its own moves (`submitted_move_self`).
-/

namespace StoreClient.Coordinator

variable {Index : Type} {kinds : Index → Signature}

/-! ## Acts and moves -/

/-- The move that an act makes of the batch at a position. -/
def Act.move? (c : Coordinator kinds) (position : Nat) : Act kinds → Option Batch.Move
  | .advance p =>
    if p = position then some (.advance c.halted c.submissions.length) else none
  | .answer ordinal a => match c.submissions[ordinal]? with
    | some (p, index) => if p = position then some (.answer index a) else none
    | none => none
  | .proceed p index => if p = position then some (.proceed index) else none
  | .abandon p => if p = position then some .abandon else none
  | .listen p l => if p = position then some (.listen l) else none
  | _ => none

theorem move?_cases {c : Coordinator kinds} {p : Nat} {a : Act kinds} {m : Batch.Move}
    (h : a.move? c p = some m) :
    (a = .advance p ∧ m = .advance c.halted c.submissions.length) ∨
    (∃ ordinal x k, a = .answer ordinal x ∧ c.submissions[ordinal]? = some (p, k) ∧
      m = .answer k x) ∨
    (∃ k, a = .proceed p k ∧ m = .proceed k) ∨
    (a = .abandon p ∧ m = .abandon) ∨
    (∃ l, a = .listen p l ∧ m = .listen l) := by
  cases a with
  | advance q =>
    obtain ⟨rfl, hm⟩ := Option.ite_none_right_eq_some.1 h
    cases hm
    exact .inl ⟨rfl, rfl⟩
  | answer ordinal x =>
    simp only [Act.move?] at h
    split at h
    · next q k hs =>
      obtain ⟨rfl, hm⟩ := Option.ite_none_right_eq_some.1 h
      cases hm
      exact .inr (.inl ⟨ordinal, x, k, rfl, hs, rfl⟩)
    · cases h
  | proceed q k =>
    obtain ⟨rfl, hm⟩ := Option.ite_none_right_eq_some.1 h
    cases hm
    exact .inr (.inr (.inl ⟨k, rfl, rfl⟩))
  | abandon q =>
    obtain ⟨rfl, hm⟩ := Option.ite_none_right_eq_some.1 h
    cases hm
    exact .inr (.inr (.inr (.inl ⟨rfl, rfl⟩)))
  | listen q l =>
    obtain ⟨rfl, hm⟩ := Option.ite_none_right_eq_some.1 h
    cases hm
    exact .inr (.inr (.inr (.inr ⟨l, rfl, rfl⟩)))
  | execute | executeWithLimit | halt | close => cases h

/-- An act that makes a move of a batch does nothing else. -/
theorem perform_eq_move {c : Coordinator kinds} {p : Nat} {a : Act kinds} {m : Batch.Move}
    (h : a.move? c p = some m) : c.perform a = c.move p m := by
  rcases move?_cases h with ⟨rfl, rfl⟩ | ⟨ordinal, x, k, rfl, hs, rfl⟩ | ⟨k, rfl, rfl⟩ |
    ⟨rfl, rfl⟩ | ⟨l, rfl, rfl⟩
  · rfl
  · simp only [perform, hs]
  · rfl
  · rfl
  · rfl

/-- Within the limits of a batch, dispatching stops if it finds the coordinator halted, or is given
up. -/
theorem stops_iff {c : Coordinator kinds} {p : Nat} {i : Index} {b : Batch (kinds i)}
    (hl : b.limit ≤ Batch.maxPermits) {a : Act kinds} {m : Batch.Move}
    (hm : a.move? c p = some m) : b.stops m = true ↔
      b.control = .ready ∧ (a = .advance p ∧ c.halted = true ∨ a = .abandon p) := by
  have hl : ¬ Batch.maxPermits < b.limit := Nat.not_lt.2 hl
  rcases move?_cases hm with ⟨rfl, rfl⟩ | ⟨ordinal, x, k, rfl, -, rfl⟩ | ⟨k, rfl, rfl⟩ |
    ⟨rfl, rfl⟩ | ⟨l, rfl, rfl⟩ <;> simp [Batch.stops, hl]

/-- The moves that acts make of the batch at a position. -/
def moves (c : Coordinator kinds) (position : Nat) : List (Act kinds) → List Batch.Move
  | [] => []
  | a :: acts => (a.move? c position).toList ++ (c.perform a).1.moves position acts

theorem batches_dispatch (c : Coordinator kinds) (i : Index) (commands : List (Command (kinds i)))
    (limit : Nat) : ∃ b, (c.dispatch i commands limit).1.batches = c.batches ++ [⟨i, b⟩] := by
  unfold dispatch
  dsimp only
  split
  · exact ⟨_, rfl⟩
  · split <;> exact ⟨_, rfl⟩

/-- A batch that is given leaves those there are. -/
theorem getElem?_dispatch {c : Coordinator kinds} {position : Nat}
    {e : (i : Index) × Batch (kinds i)} (he : c.batches[position]? = some e) (i : Index)
    (commands : List (Command (kinds i))) (limit : Nat) :
    (c.dispatch i commands limit).1.batches[position]? = some e := by
  obtain ⟨b, hb⟩ := c.batches_dispatch i commands limit
  rw [hb, List.getElem?_append_left (List.getElem?_eq_some_iff.1 he).1]
  exact he

/-- A move of one batch leaves the others. -/
theorem getElem?_move {c : Coordinator kinds} {position : Nat} {i : Index} {b : Batch (kinds i)}
    (hb : c.batches[position]? = some ⟨i, b⟩) (p : Nat) (m : Batch.Move) :
    (c.move p m).1.batches[position]? =
      some ⟨i, if p = position then (b.perform m).1 else b⟩ := by
  unfold move
  split
  · next hp =>
    have : p ≠ position := by
      rintro rfl
      rw [hb] at hp
      cases hp
    rw [if_neg this, hb]
  · next j x hp =>
    dsimp only
    by_cases hpos : p = position
    · subst hpos
      rw [hb] at hp
      cases hp
      rw [if_pos rfl, List.getElem?_set_self (List.getElem?_eq_some_iff.1 hb).1]
    · rw [if_neg hpos, List.getElem?_set_ne hpos, hb]

/-- What can come of an act: a batch is given, one batch makes its move, or no batch changes. -/
inductive Does (c : Coordinator kinds) : Act kinds → Coordinator kinds × List Notice → Prop where
  | dispatch {a : Act kinds} (i : Index) (commands : List (Command (kinds i))) (limit : Nat)
      (hm : ∀ p, a.move? c p = none) : Does c a (c.dispatch i commands limit)
  | move {a : Act kinds} (p : Nat) (m : Batch.Move)
      (hm : ∀ q, a.move? c q = if p = q then some m else none) : Does c a (c.move p m)
  | other {a : Act kinds} {c' : Coordinator kinds} (hb : c'.batches = c.batches)
      (hs : c'.submissions = c.submissions) (hm : ∀ p, a.move? c p = none) : Does c a (c', [])

/-- Nothing else can come of an act. -/
theorem does_perform (c : Coordinator kinds) (a : Act kinds) : Does c a (c.perform a) := by
  cases a with
  | execute i commands => exact .dispatch i commands c.limit fun _ => rfl
  | executeWithLimit i commands limit =>
    simp only [perform, executeWithLimit]
    cases FanOutConfig.validate ⟨limit⟩ with
    | error e => exact .other rfl rfl fun _ => rfl
    | ok _ => exact .dispatch i commands limit.toNat fun _ => rfl
  | advance p =>
    simp only [perform]
    exact .move p _ fun _ => rfl
  | answer ordinal a =>
    simp only [perform]
    cases hs : c.submissions[ordinal]? with
    | none => exact .other rfl rfl fun _ => by simp [Act.move?, hs]
    | some s => exact .move s.1 _ fun _ => by simp [Act.move?, hs]
  | proceed p index =>
    simp only [perform]
    exact .move p _ fun _ => rfl
  | abandon p =>
    simp only [perform]
    exact .move p _ fun _ => rfl
  | listen p l =>
    simp only [perform]
    exact .move p _ fun _ => rfl
  | halt => exact .other rfl rfl fun _ => rfl
  | close =>
    simp only [perform]
    split <;> exact .other rfl rfl fun _ => rfl

/-- An act makes its move of a batch, or leaves it. -/
theorem batch_perform {c : Coordinator kinds} {position : Nat} {i : Index} {b : Batch (kinds i)}
    (hb : c.batches[position]? = some ⟨i, b⟩) (a : Act kinds) :
    (c.perform a).1.batches[position]? =
      some ⟨i, (b.run (a.move? c position).toList).1⟩ := by
  have hd := does_perform c a
  generalize c.perform a = r at hd
  cases hd with
  | dispatch j commands limit hm =>
    rw [hm]
    exact getElem?_dispatch hb j commands limit
  | move p m hm =>
    rw [getElem?_move hb, hm]
    by_cases hp : p = position
    · rw [if_pos hp, if_pos hp]
      rfl
    · rw [if_neg hp, if_neg hp]
      rfl
  | other hbs hs hm =>
    rw [hm, hbs]
    exact hb

/-- So any acts make their moves of a batch. -/
theorem batch_run {c : Coordinator kinds} {position : Nat} {i : Index} {b : Batch (kinds i)}
    (hb : c.batches[position]? = some ⟨i, b⟩) (acts : List (Act kinds)) :
    (c.run acts).1.batches[position]? = some ⟨i, (b.run (c.moves position acts)).1⟩ := by
  induction acts generalizing c b with
  | nil => exact hb
  | cons a acts ih =>
    rw [moves, Batch.run_append]
    exact ih (batch_perform hb a)

theorem run_append (c : Coordinator kinds) (acts acts' : List (Act kinds)) :
    (c.run (acts ++ acts')).1 = ((c.run acts).1.run acts').1 := by
  induction acts generalizing c with
  | nil => rfl
  | cons a acts ih => exact ih (c.perform a).1

theorem notices_run_append (c : Coordinator kinds) (acts acts' : List (Act kinds)) :
    (c.run (acts ++ acts')).2 = (c.run acts).2 ++ ((c.run acts).1.run acts').2 := by
  induction acts generalizing c with
  | nil => rfl
  | cons a acts ih => simp [run, ih]

theorem moves_append (c : Coordinator kinds) (position : Nat) (acts acts' : List (Act kinds)) :
    c.moves position (acts ++ acts') =
      c.moves position acts ++ (c.run acts).1.moves position acts' := by
  induction acts generalizing c with
  | nil => rfl
  | cons a acts ih =>
    simp only [List.cons_append, moves, ih, List.append_assoc]
    rfl

/-! ## Requests -/

/-- The positions of the commands of a batch whose requests the transport took, in the order in
which it took them. -/
def submitted (c : Coordinator kinds) (position : Nat) : List Nat :=
  c.submissions.filterMap fun s => if s.1 = position then some s.2 else none

/-- The positions of those of the first `n` commands that make an operation. -/
def buildable {σ : Signature} (commands : List (Command σ)) (n : Nat) : List Nat :=
  (List.range n).filter fun k => commands[k]?.any (·.operation.isOk)

theorem buildable_succ {σ : Signature} (commands : List (Command σ)) (n : Nat) :
    buildable commands (n + 1) = buildable commands n ++
      if commands[n]?.any (·.operation.isOk) then [n] else [] := by
  unfold buildable
  rw [List.range_succ, List.filter_append]
  simp only [List.filter_cons, List.filter_nil]

/-- A move makes a request where it handles a command that makes an operation. -/
theorem submissions_move {c : Coordinator kinds} {p : Nat} {i : Index} {b : Batch (kinds i)}
    (hb : c.batches[p]? = some ⟨i, b⟩) (m : Batch.Move) :
    (c.move p m).1.submissions = c.submissions ++
      if b.handles m && b.nextIsOk then [(p, b.entries.length)] else [] := by
  have hadded := (Batch.step_perform b m).isSubmitted_added
  unfold move
  simp only [hb]
  congr 1
  rw [← hadded]
  cases (b.perform m).1.entries[b.entries.length]? <;> rfl

theorem submitted_move_self {c : Coordinator kinds} {p : Nat} {i : Index} {b : Batch (kinds i)}
    (hb : c.batches[p]? = some ⟨i, b⟩) (m : Batch.Move) :
    (c.move p m).1.submitted p = c.submitted p ++
      if b.handles m && b.nextIsOk then [b.entries.length] else [] := by
  unfold submitted
  rw [submissions_move hb, List.filterMap_append]
  split <;> simp

/-- A move of one batch makes no request for another. -/
theorem submitted_move_of_ne (c : Coordinator kinds) {p q : Nat} (m : Batch.Move) (hp : p ≠ q) :
    (c.move p m).1.submitted q = c.submitted q := by
  unfold submitted
  cases hb : c.batches[p]? with
  | none => simp only [move, hb]
  | some e =>
    rw [submissions_move hb, List.filterMap_append]
    split <;> simp [hp]

theorem submissions_dispatch (c : Coordinator kinds) (i : Index)
    (commands : List (Command (kinds i))) (limit : Nat) :
    (c.dispatch i commands limit).1.submissions = c.submissions := by
  unfold dispatch
  dsimp only
  split
  · rfl
  · split <;> rfl

/-- An act that makes no move of a batch makes no request for it. -/
theorem submitted_perform_of_none {c : Coordinator kinds} {p : Nat} {a : Act kinds}
    (h : a.move? c p = none) : (c.perform a).1.submitted p = c.submitted p := by
  have hd := does_perform c a
  generalize c.perform a = r at hd
  cases hd with
  | dispatch i commands limit _ => rw [submitted, submissions_dispatch, submitted]
  | other _ hs _ => rw [submitted, hs, submitted]
  | move q m hq =>
    refine submitted_move_of_ne c m ?_
    rintro rfl
    rw [hq, if_pos rfl] at h
    cases h

theorem position_of_mem_submissions_move {c : Coordinator kinds} {p : Nat} {m : Batch.Move}
    {s : Nat × Nat} (hs : s ∈ (c.move p m).1.submissions) :
    s ∈ c.submissions ∨ s.1 = p ∧ p < c.batches.length := by
  cases hb : c.batches[p]? with
  | none =>
    simp only [move, hb] at hs
    exact .inl hs
  | some e =>
    rw [submissions_move hb, List.mem_append] at hs
    rcases hs with hs | hs
    · exact .inl hs
    · split at hs
      · rw [List.mem_singleton] at hs
        rw [hs]
        exact .inr ⟨rfl, (List.getElem?_eq_some_iff.1 hb).1⟩
      · cases hs

end StoreClient.Coordinator
