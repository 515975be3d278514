import StoreClient.Proofs.Batch.Numbering
import StoreClient.Proofs.Coordinator.Interruption
import StoreClient.Proofs.Coordinator.Numbering

/-!
# A batch alone

A batch of a coordinator does what it would do alone. `alone` takes from the acts of a coordinator
those that concern one batch, with the number that the batch and its requests have when no other
batch is there; `Mirrors` relates the coordinator to one that has this batch only. Each act keeps
the two in step (`Mirrors.perform`), and so do runs (`Mirrors.run`).

A batch may be given while a listener of another batch runs, that is, in the midst of an act. It
makes no difference whether it is given before the act or after it (`perform_dispatch`).
-/

namespace StoreClient.Coordinator

variable {Index : Type} {kinds : Index → Signature} {c a : Coordinator kinds} {p : Nat} {i : Index}
  {commands : List (Command (kinds i))} {b : Batch (kinds i)}

/-! ## Moves and batches in full -/

theorem move_eq (hb : c.batches[p]? = some ⟨i, b⟩) (m : Batch.Move) : c.move p m =
    ({ c with
        batches := c.batches.set p ⟨i, (b.perform m).1⟩
        submissions := c.submissions ++
          if b.handles m && b.nextIsOk then [(p, b.entries.length)] else [] },
      (b.perform m).2) := by
  rw [← submissions_move hb m]
  simp only [move, hb]

/-- What becomes at once of a batch that is given. -/
def received {σ : Signature} (runtime : Runtime) (id limit : Nat) (commands : List (Command σ)) :
    Batch σ × List Notice :=
  let b := Batch.ofCommands id limit commands
  if commands.isEmpty then { b with control := .ended }.complete
  else match runtime with
    | .live => (b, [])
    | .shutDown => b.abandon
    | .absent => (b.abandon.1, .logged (.noRuntime id commands.length) :: b.abandon.2)

theorem dispatch_eq (c : Coordinator kinds) (i : Index) (commands : List (Command (kinds i)))
    (limit : Nat) : c.dispatch i commands limit =
      ({ c with
          batches := c.batches ++
            [⟨i, (received c.runtime (c.batches.length + 1) limit commands).1⟩]
          schedule := if commands.isEmpty = false ∧ c.runtime = .live then
            c.schedule.add [c.batches.length] else c.schedule },
        .observed (.started (c.batches.length + 1) commands.length limit) ::
          (received c.runtime (c.batches.length + 1) limit commands).2) := by
  have htotal : (Batch.ofCommands (c.batches.length + 1) limit commands).total =
      commands.length := by
    simp [Batch.total, Batch.ofCommands]
  have hid : (Batch.ofCommands (c.batches.length + 1) limit commands).id =
      c.batches.length + 1 := rfl
  unfold dispatch received
  dsimp only
  rw [htotal, hid]
  by_cases hnil : commands.isEmpty = true
  · simp [hnil, add]
  · have habandon : (Batch.ofCommands (c.batches.length + 1) limit commands).abandon.1.id =
        c.batches.length + 1 := rfl
    have habandon' : (Batch.ofCommands (c.batches.length + 1) limit commands).abandon.1.total =
        commands.length := htotal
    cases hr : c.runtime <;> simp [hnil, hr, add, habandon, habandon']

/-- A batch that is given leaves what acts do to those there are. -/
theorem move_dispatch (hb : c.batches[p]? = some ⟨i, b⟩) (m : Batch.Move) (j : Index)
    (others : List (Command (kinds j))) (limit : Nat) :
    (c.dispatch j others limit).1.move p m =
        (((c.move p m).1.dispatch j others limit).1, (c.move p m).2) ∧
      ((c.move p m).1.dispatch j others limit).2 = (c.dispatch j others limit).2 := by
  have hlt := (List.getElem?_eq_some_iff.1 hb).1
  rw [move_eq (getElem?_dispatch hb j others limit), move_eq hb, dispatch_eq, dispatch_eq]
  simp only [List.length_set, List.set_append_left _ _ hlt, and_self]

theorem move?_dispatch (x : Act kinds) (j : Index) (others : List (Command (kinds j)))
    (limit : Nat) : x.move? (c.dispatch j others limit).1 p = x.move? c p := by
  obtain ⟨-, -, hs, -⟩ := c.dispatch_cases j others limit
  cases x <;> simp only [Act.move?, hs, halted_dispatch]

/-- **It makes no difference whether a batch is given before or after an act of another.** -/
theorem perform_dispatch (hb : c.batches[p]? = some ⟨i, b⟩) {x : Act kinds} {m : Batch.Move}
    (hm : x.move? c p = some m) (j : Index) (others : List (Command (kinds j))) (limit : Nat) :
    (c.dispatch j others limit).1.perform x =
        (((c.perform x).1.dispatch j others limit).1, (c.perform x).2) ∧
      ((c.perform x).1.dispatch j others limit).2 = (c.dispatch j others limit).2 := by
  rw [perform_eq_move ((move?_dispatch x j others limit).trans hm), perform_eq_move hm]
  exact move_dispatch hb m j others limit

/-! ## Acts that concern one batch -/

/-- The number that a request has among those of the batch at a position. -/
def localOrdinal (submissions : List (Nat × Nat)) (p ordinal : Nat) : Nat :=
  (submissions.take ordinal).countP (·.1 = p)

/-- The act as it is where the batch at a position is the only one. -/
def Act.alone? (c : Coordinator kinds) (p : Nat) : Act kinds → Option (Act kinds)
  | .advance q => if q = p then some (.advance 0) else none
  | .answer ordinal x => match c.submissions[ordinal]? with
    | some (q, _) =>
      if q = p then some (.answer (localOrdinal c.submissions p ordinal) x) else none
    | none => none
  | .proceed q k => if q = p then some (.proceed 0 k) else none
  | .abandon q => if q = p then some (.abandon 0) else none
  | .listen q l => if q = p then some (.listen 0 l) else none
  | .halt => some .halt
  | .close => some .close
  | .execute .. | .executeWithLimit .. => none

/-- The acts that concern the batch at a position, as they are where it is the only one. -/
def alone (c : Coordinator kinds) (p : Nat) : List (Act kinds) → List (Act kinds)
  | [] => []
  | x :: acts => (x.alone? c p).toList ++ (c.perform x).1.alone p acts

/-- The coordinator as it would be if no batch had been given. -/
def vacant (c : Coordinator kinds) : Coordinator kinds where
  limit := c.limit
  runtime := c.runtime
  keepsRuntime := c.keepsRuntime
  halted := c.halted

theorem length_submitted (c : Coordinator kinds) (p : Nat) :
    (c.submitted p).length = localOrdinal c.submissions p c.submissions.length := by
  unfold submitted localOrdinal
  rw [List.take_length]
  induction c.submissions with
  | nil => rfl
  | cons s rest ih => by_cases hs : s.1 = p <;> simp [hs, ih]

/-- A request of a batch is found under its number among those of the batch. -/
theorem getElem?_submitted {submissions : List (Nat × Nat)} {p ordinal k : Nat}
    (h : submissions[ordinal]? = some (p, k)) :
    (submissions.filterMap fun s => if s.1 = p then some s.2 else none)[localOrdinal submissions p
      ordinal]? = some k := by
  unfold localOrdinal
  induction submissions generalizing ordinal with
  | nil => simp at h
  | cons s rest ih =>
    cases ordinal with
    | zero =>
      obtain rfl : s = (p, k) := by simpa using h
      simp
    | succ n =>
      have hnext := ih (by simpa using h)
      by_cases hs : s.1 = p <;> simp [hs, hnext]

theorem localOrdinal_stays {s s' : List (Nat × Nat)} (h : s <+: s') (p : Nat) :
    localOrdinal s' p s.length = localOrdinal s p s.length := by
  obtain ⟨t, rfl⟩ := h
  rw [localOrdinal, localOrdinal, List.take_left, List.take_length]

/-! ## What acts leave -/

theorem runtime_dispatch (c : Coordinator kinds) (i : Index) (commands : List (Command (kinds i)))
    (limit : Nat) : (c.dispatch i commands limit).1.runtime = c.runtime ∧
      (c.dispatch i commands limit).1.keepsRuntime = c.keepsRuntime := by
  unfold dispatch
  dsimp only
  split
  · exact ⟨rfl, rfl⟩
  · split <;> exact ⟨rfl, rfl⟩

theorem runtime_move (c : Coordinator kinds) (p : Nat) (m : Batch.Move) :
    (c.move p m).1.runtime = c.runtime ∧ (c.move p m).1.keepsRuntime = c.keepsRuntime := by
  unfold move
  split <;> exact ⟨rfl, rfl⟩

/-- The runtime stays until it goes away. -/
theorem runtime_perform (c : Coordinator kinds) {x : Act kinds} (hx : x ≠ .close) :
    (c.perform x).1.runtime = c.runtime ∧ (c.perform x).1.keepsRuntime = c.keepsRuntime := by
  cases x with
  | execute i commands => exact runtime_dispatch c i commands c.limit
  | executeWithLimit i commands limit =>
    simp only [perform, executeWithLimit]
    cases FanOutConfig.validate ⟨limit⟩ with
    | error e => exact ⟨rfl, rfl⟩
    | ok _ => exact runtime_dispatch c i commands limit.toNat
  | answer ordinal y =>
    simp only [perform]
    split
    · exact ⟨rfl, rfl⟩
    · exact runtime_move c _ _
  | advance q => exact runtime_move c q _
  | proceed q k => exact runtime_move c q _
  | abandon q => exact runtime_move c q _
  | listen q l => exact runtime_move c q _
  | halt => exact ⟨rfl, rfl⟩
  | close => exact absurd rfl hx

/-! ## A coordinator with one of the batches -/

/-- The second coordinator has the batch that the first one has at a position, and no other. -/
structure Mirrors (c : Coordinator kinds) (p : Nat) (a : Coordinator kinds) {i : Index}
    (b : Batch (kinds i)) : Prop where
  batch : c.batches[p]? = some ⟨i, b⟩
  batches : a.batches = [⟨i, b.numbered 1⟩]
  submissions : a.submissions = (c.submitted p).map (0, ·)
  halted : a.halted = c.halted
  runtime : a.runtime = c.runtime
  keepsRuntime : a.keepsRuntime = c.keepsRuntime

namespace Mirrors

/-- Both make the same move. -/
theorem move (h : Mirrors c p a b) (m : Batch.Move) (ordinal : Nat → Nat) :
    Mirrors (c.move p m).1 p (a.move 0 (m.renumber ordinal)).1 (b.perform m).1 ∧
      (a.move 0 (m.renumber ordinal)).2 = (b.perform m).2.map (Notice.renumber 1 ordinal) := by
  have ha : a.batches[0]? = some ⟨i, b.numbered 1⟩ := by
    rw [h.batches]
    rfl
  have hlt := (List.getElem?_eq_some_iff.1 h.batch).1
  have hsubmitted := submitted_move_self h.batch m
  rw [move_eq ha, Batch.perform_numbered, Batch.handles_numbered]
  refine ⟨⟨?_, ?_, ?_, ?_, ?_, ?_⟩, rfl⟩
  · rw [getElem?_move h.batch, if_pos rfl]
  · rw [h.batches]
    rfl
  · rw [hsubmitted, List.map_append, ← h.submissions]
    show a.submissions ++ (if b.handles m && b.nextIsOk then [(0, b.entries.length)] else []) = _
    split <;> rfl
  · exact h.halted.trans (halted_move c p m).symm
  · exact h.runtime.trans (runtime_move c p m).1.symm
  · exact h.keepsRuntime.trans (runtime_move c p m).2.symm

/-- An act that makes a move of the batch makes the same move where the batch is alone. -/
theorem perform_alone (h : Mirrors c p a b) {x : Act kinds} {m : Batch.Move}
    (hm : x.move? c p = some m) {ordinal : Nat → Nat}
    (ho : ordinal c.submissions.length = (c.submitted p).length) :
    ∃ y, x.alone? c p = some y ∧ a.perform y = a.move 0 (m.renumber ordinal) := by
  rcases move?_cases hm with ⟨rfl, rfl⟩ | ⟨n, z, k, rfl, hs, rfl⟩ | ⟨k, rfl, rfl⟩ | ⟨rfl, rfl⟩ |
    ⟨l, rfl, rfl⟩
  · refine ⟨_, if_pos rfl, ?_⟩
    have hlen : a.submissions.length = ordinal c.submissions.length := by
      rw [h.submissions, List.length_map, ho]
    simp only [perform, Batch.Move.renumber, hlen, h.halted]
  · refine ⟨.answer (localOrdinal c.submissions p n) z, by simp [Act.alone?, hs], ?_⟩
    have hfound : a.submissions[localOrdinal c.submissions p n]? = some (0, k) := by
      rw [h.submissions, List.getElem?_map, submitted, getElem?_submitted hs]
      rfl
    simp only [perform, hfound, Batch.Move.renumber]
  · exact ⟨_, if_pos rfl, rfl⟩
  · exact ⟨_, if_pos rfl, rfl⟩
  · exact ⟨_, if_pos rfl, rfl⟩

/-- Other acts leave the batch. -/
theorem other (h : Mirrors c p a b) {x : Act kinds} (hm : x.move? c p = none) (hh : x ≠ .halt)
    (hc : x ≠ .close) : Mirrors (c.perform x).1 p a b := by
  obtain ⟨hr, hk⟩ := runtime_perform c hc
  have hbatch := batch_perform h.batch x
  rw [hm] at hbatch
  exact {
    batch := hbatch
    batches := h.batches
    submissions := by rw [submitted_perform_of_none hm, h.submissions]
    halted := h.halted.trans (halted_perform c hh).symm
    runtime := h.runtime.trans hr.symm
    keepsRuntime := h.keepsRuntime.trans hk.symm }

theorem halt (h : Mirrors c p a b) : Mirrors (c.perform .halt).1 p (a.perform .halt).1 b :=
  ⟨h.batch, h.batches, h.submissions, rfl, h.runtime, h.keepsRuntime⟩

theorem close (h : Mirrors c p a b) : Mirrors (c.perform .close).1 p (a.perform .close).1 b ∧
    (a.perform .close).2 = [] := by
  simp only [Coordinator.perform, h.runtime]
  cases hr : c.runtime with
  | live =>
    refine ⟨⟨h.batch, h.batches, h.submissions, h.halted, ?_, h.keepsRuntime⟩, rfl⟩
    show (if a.keepsRuntime then _ else _) = if c.keepsRuntime then _ else _
    rw [h.keepsRuntime]
  | absent => exact ⟨h, rfl⟩
  | shutDown => exact ⟨h, rfl⟩

theorem alone?_eq_none {x : Act kinds} (hm : x.move? c p = none) (hh : x ≠ .halt)
    (hc : x ≠ .close) : x.alone? c p = none := by
  cases x with
  | halt => exact absurd rfl hh
  | close => exact absurd rfl hc
  | answer n z =>
    cases hs : c.submissions[n]? with
    | none => simp [Act.alone?, hs]
    | some s =>
      have hp : s.1 ≠ p := by
        intro hp
        simp [Act.move?, hs, hp] at hm
      simp [Act.alone?, hs, hp]
  | execute => rfl
  | executeWithLimit => rfl
  | _ =>
    refine if_neg fun hp => ?_
    simp [Act.move?, hp] at hm

/-- An act does to the batch what it does where the batch is alone. -/
theorem perform (h : Mirrors c p a b) (x : Act kinds) {ordinal : Nat → Nat}
    (ho : ordinal c.submissions.length = (c.submitted p).length) :
    Mirrors (c.perform x).1 p (a.run (x.alone? c p).toList).1 (b.run (x.move? c p).toList).1 ∧
      (a.run (x.alone? c p).toList).2 =
        (b.run (x.move? c p).toList).2.map (Notice.renumber 1 ordinal) := by
  cases hm : x.move? c p with
  | some m =>
    obtain ⟨y, hy, hperform⟩ := h.perform_alone hm ho
    obtain ⟨hnext, hnotices⟩ := h.move m ordinal
    rw [hy, perform_eq_move hm]
    simp only [Option.toList_some, Coordinator.run, Batch.run, hperform, List.append_nil]
    exact ⟨hnext, hnotices⟩
  | none =>
    by_cases hh : x = .halt
    · subst hh
      exact ⟨h.halt, rfl⟩
    by_cases hc : x = .close
    · subst hc
      obtain ⟨hnext, hnotices⟩ := h.close
      refine ⟨hnext, ?_⟩
      simp only [Act.alone?, Option.toList_some, Coordinator.run, hnotices]
      rfl
    · rw [alone?_eq_none hm hh hc]
      exact ⟨h.other hm hh hc, rfl⟩

/-- **A run does to a batch what it does where the batch is alone.** -/
theorem run (h : Mirrors c p a b) (hc : Reachable c) (acts : List (Act kinds))
    {final : List (Nat × Nat)} (hf : (c.run acts).1.submissions <+: final) :
    Mirrors (c.run acts).1 p (a.run (c.alone p acts)).1 (b.run (c.moves p acts)).1 ∧
      (a.run (c.alone p acts)).2 =
        (b.run (c.moves p acts)).2.map (Notice.renumber 1 (localOrdinal final p)) := by
  induction acts generalizing c a b with
  | nil => exact ⟨h, rfl⟩
  | cons x acts ih =>
    have ho : localOrdinal final p c.submissions.length = (c.submitted p).length := by
      rw [localOrdinal_stays ((submissions_prefix_run hc (x :: acts)).trans hf),
        length_submitted]
    obtain ⟨hnext, hnotices⟩ := h.perform x ho
    obtain ⟨hrun, hlater⟩ := ih hnext (hc.perform x) hf
    rw [alone, moves, run_append, notices_run_append, Batch.run_append, Batch.notices_run_append,
      List.map_append, hnotices, hlater]
    exact ⟨hrun, rfl⟩

end Mirrors

/-- A batch that is given under another number is the same but for that number. -/
theorem received_numbered {σ : Signature} (runtime : Runtime) (id id' limit : Nat)
    (commands : List (Command σ)) (ordinal : Nat → Nat) : received runtime id' limit commands =
      Batch.renumbered id' ordinal (received runtime id limit commands) := by
  have hfresh : Batch.ofCommands id' limit commands =
      (Batch.ofCommands id limit commands).numbered id' := rfl
  have habandon := Batch.abandon_numbered (Batch.ofCommands id limit commands) id' ordinal
  unfold received
  by_cases hnil : commands.isEmpty = true
  · rw [if_pos hnil, if_pos hnil]
    exact Batch.complete_numbered { Batch.ofCommands id limit commands with control := .ended } id'
      ordinal
  · rw [if_neg hnil, if_neg hnil]
    cases runtime with
    | live => rfl
    | shutDown => exact habandon
    | absent =>
      dsimp only
      rw [hfresh, habandon]
      rfl

/-- A batch that is given is the one that is given where no other is. -/
theorem mirrors_dispatch (hc : Reachable c) (i : Index) (commands : List (Command (kinds i)))
    (limit : Nat) (ordinal : Nat → Nat) :
    ∃ b, c.IsGiven commands limit b ∧
      (c.dispatch i commands limit).1.Has c.batches.length commands b ∧
      Mirrors (c.dispatch i commands limit).1 c.batches.length
        (c.vacant.dispatch i commands limit).1 b ∧
      (c.vacant.dispatch i commands limit).2 =
        (c.dispatch i commands limit).2.map (Notice.renumber 1 ordinal) := by
  obtain ⟨b, hg, hhas⟩ := hc.exists_has i commands limit
  have hsubmitted := hhas.submitted
  have hbatch := hhas.batch
  have hnumbered := received_numbered c.runtime (c.batches.length + 1) 1 limit commands ordinal
  rw [hg.entries] at hsubmitted
  have hb : (received c.runtime (c.batches.length + 1) limit commands).1 = b := by
    rw [dispatch_eq, List.getElem?_concat_length] at hbatch
    cases hbatch
    rfl
  refine ⟨b, hg, hhas, ?_, ?_⟩
  · constructor
    · exact hbatch
    · rw [dispatch_eq]
      show [(⟨i, (received c.runtime 1 limit commands).1⟩ : (i : Index) × Batch (kinds i))] = _
      rw [hnumbered, ← hb]
      rfl
    · rw [hsubmitted, dispatch_eq]
      rfl
    · rw [halted_dispatch, halted_dispatch]
      rfl
    · rw [(runtime_dispatch _ _ _ _).1, (runtime_dispatch _ _ _ _).1]
      rfl
    · rw [(runtime_dispatch _ _ _ _).2, (runtime_dispatch _ _ _ _).2]
      rfl
  · rw [dispatch_eq, dispatch_eq]
    show _ :: (received c.runtime 1 limit commands).2 = _
    rw [hnumbered]
    rfl

end StoreClient.Coordinator
