import StoreClient.Proofs.Batch.Determinacy
import StoreClient.Proofs.Coordinator.Alone

/-!
# Batches of one coordinator are independent

Whatever other batches are given to a coordinator, and whatever they do in between, a batch does
what it would do alone. It has its own items and its own number, and a limit of its own: two batches
can each have as many operations out as their limits allow (`outstanding_both`).
-/

namespace StoreClient.Coordinator

variable {Index : Type} {kinds : Index → Signature} {c : Coordinator kinds} {p : Nat} {i : Index}
  {commands : List (Command (kinds i))} {b : Batch (kinds i)}

/-! ## Two limits at once -/

/-- Acts of one batch are no moves of another. -/
theorem moves_replicate_advance {q : Nat} (hq : q ≠ p) (n : Nat) :
    c.moves p (List.replicate n (.advance q)) = [] := by
  induction n generalizing c with
  | zero => rfl
  | succ n ih =>
    rw [List.replicate_succ, moves, ih]
    simp [Act.move?, hq]

theorem halted_replicate_advance (hh : c.halted = false) (q n : Nat) :
    (c.run (List.replicate n (.advance q))).1.halted = false := by
  induction n generalizing c with
  | zero => exact hh
  | succ n ih =>
    have hnext : (c.perform (.advance q)).1.halted = false := (halted_move c q _).trans hh
    exact ih hnext

/-- As long as its limit allows, dispatching submits one command after another. -/
theorem hasOut_advances (hb : c.batches[p]? = some ⟨i, b⟩) (hh : c.halted = false)
    (hl : b.limit ≤ Batch.maxPermits) (hopen : ∀ x ∈ commands, Batch.MakesOpen x) {k n : Nat}
    (hout : Batch.HasOut commands k b) (hn : k + n ≤ b.limit) (hlen : k + n ≤ commands.length) :
    ∃ b', (c.run (List.replicate (2 * n) (.advance p))).1.batches[p]? = some ⟨i, b'⟩ ∧
      Batch.HasOut commands (k + n) b' := by
  induction n generalizing c b k with
  | zero => exact ⟨b, hb, hout⟩
  | succ n ih =>
    have hstep {c : Coordinator kinds} {b : Batch (kinds i)} (hb : c.batches[p]? = some ⟨i, b⟩)
        (hh : c.halted = false) : (c.perform (.advance p)).1.batches[p]? =
          some ⟨i, (b.perform (.advance false c.submissions.length)).1⟩ := by
      have hnext := batch_perform hb (.advance p)
      simpa [Act.move?, hh, Batch.run] using hnext
    have hfirst := hstep hb hh
    have hh₁ : (c.perform (.advance p)).1.halted = false := (halted_move c p _).trans hh
    have hsecond := hstep hfirst hh₁
    have hh₂ : ((c.perform (.advance p)).1.perform (.advance p)).1.halted = false :=
      (halted_move _ p _).trans hh₁
    have hlt : k < commands.length := by omega
    have hnext := hout.advance hl (by omega) (List.getElem?_eq_getElem hlt)
      (hopen _ (List.getElem_mem hlt)) c.submissions.length
      (c.perform (.advance p)).1.submissions.length
    obtain ⟨b', hb', hout'⟩ := ih hsecond hh₂ (by simpa using hl) hnext (by simp; omega) (by omega)
    refine ⟨b', ?_, ?_⟩
    · rw [show 2 * (n + 1) = 2 * n + 1 + 1 by omega, List.replicate_succ, List.replicate_succ]
      exact hb'
    · rwa [show k + (n + 1) = k + 1 + n by omega]

/-- **Two batches with the same limit can both use all of it.** -/
theorem outstanding_both (hlive : c.runtime = .live) (hh : c.halted = false) {limit : Nat}
    (hpos : 0 < limit) (hmax : limit ≤ Batch.maxPermits) {j : Index}
    {others : List (Command (kinds j))} (hlen : limit ≤ commands.length)
    (hlen' : limit ≤ others.length) (hopen : ∀ x ∈ commands, Batch.MakesOpen x)
    (hopen' : ∀ x ∈ others, Batch.MakesOpen x) :
    ∃ acts b b', let d := (((c.dispatch i commands limit).1.dispatch j others limit).1.run acts).1
      d.batches[c.batches.length]? = some ⟨i, b⟩ ∧
      d.batches[c.batches.length + 1]? = some ⟨j, b'⟩ ∧
      b.outstanding = limit ∧ b'.outstanding = limit := by
  have hreceived {σ : Signature} {commands : List (Command σ)} (hlen : limit ≤ commands.length)
      (id : Nat) : (received .live id limit commands).1 = Batch.ofCommands id limit commands := by
    have hnil : ¬ commands.isEmpty = true := by
      rw [List.isEmpty_iff]
      rintro rfl
      exact absurd hlen (Nat.not_le.2 hpos)
    rw [received, if_neg hnil]
  generalize hp : c.batches.length = p
  generalize htwo : ((c.dispatch i commands limit).1.dispatch j others limit).1 = two
  have hbatches : two.batches = c.batches ++ [⟨i, Batch.ofCommands (p + 1) limit commands⟩,
      ⟨j, Batch.ofCommands (p + 2) limit others⟩] := by
    rw [← htwo, dispatch_eq, (runtime_dispatch c i commands limit).1, dispatch_eq]
    simp [hlive, hreceived hlen, hreceived hlen', hp]
  have hhalted : two.halted = false := by
    rw [← htwo, halted_dispatch, halted_dispatch, hh]
  have hfirst : two.batches[p]? = some ⟨i, Batch.ofCommands (p + 1) limit commands⟩ := by
    simp [hbatches, ← hp]
  have hsecond : two.batches[p + 1]? = some ⟨j, Batch.ofCommands (p + 2) limit others⟩ := by
    simp [hbatches, ← hp]
  -- first all of the one, which leaves the other, then all of the other, which leaves the one
  obtain ⟨b, hb, hout⟩ := hasOut_advances (n := limit) hfirst hhalted hmax hopen
    (.ofCommands _ _ _) (Nat.le_of_eq (Nat.zero_add limit)) (by omega)
  have hkept := batch_run hsecond (List.replicate (2 * limit) (.advance p))
  rw [moves_replicate_advance (Nat.ne_of_lt (Nat.lt_succ_self p))] at hkept
  obtain ⟨b', hb', hout'⟩ := hasOut_advances (n := limit) hkept
    (halted_replicate_advance hhalted p _) hmax hopen' (.ofCommands _ _ _)
    (Nat.le_of_eq (Nat.zero_add limit)) (by omega)
  have hkept' := batch_run hb (List.replicate (2 * limit) (.advance (p + 1)))
  rw [moves_replicate_advance (Nat.succ_ne_self p)] at hkept'
  refine ⟨List.replicate (2 * limit) (.advance p) ++ List.replicate (2 * limit) (.advance (p + 1)),
    b, b', ?_, ?_, ?_, ?_⟩
  · rw [run_append]
    exact hkept'
  · rw [run_append]
    exact hb'
  · rw [hout.outstanding_eq, Nat.zero_add]
  · rw [hout'.outstanding_eq, Nat.zero_add]

/-! ## Independence -/

/-- An act makes a move of one batch at most. -/
theorem move?_eq_none_of_ne {x : Act kinds} (h : x.move? c p ≠ none) {q : Nat} (hq : q ≠ p) :
    x.move? c q = none := by
  obtain ⟨m, hm⟩ := Option.ne_none_iff_exists'.1 h
  rcases move?_cases hm with ⟨rfl, rfl⟩ | ⟨ordinal, z, k, rfl, hs, rfl⟩ | ⟨k, rfl, rfl⟩ |
    ⟨rfl, rfl⟩ | ⟨l, rfl, rfl⟩ <;> simp [Act.move?, hq.symm, *]

/-- The items of a batch are those of its own commands, whatever other batches do. -/
theorem item_of_value (h : c.Has p commands b) {given : Nat → List Answer}
    (ha : Answered commands b given) {items : List (Batch.Item (kinds i))}
    (ho : b.aggregate.outcome = some (.ok items)) {item : Batch.Item (kinds i)}
    (hitem : item ∈ items) : ∃ x, commands[item.index]? = some x ∧
      x.item? item.index (given item.index) = some item := by
  have hi : b.interrupted = false := by
    refine Bool.eq_false_iff.2 fun hi => ?_
    rw [(h.valid.interrupted hi).2.2] at ho
    cases ho
  have hg : b.gathered = items := by
    rw [Batch.gathered, ho]
  obtain ⟨e, he, -, heq⟩ := ((h.valid.gathered hi).mem_iff item).1 (hg ▸ hitem)
  obtain ⟨x, hx, hsame⟩ := h.valid.item?_eq (fun k e he => ha.some he) he
  exact ⟨x, hx, hsame ▸ heq⟩

/-- A batch is accepted with any limit but zero. -/
theorem perform_executeWithLimit (c : Coordinator kinds) (j : Index)
    (others : List (Command (kinds j))) (n : UInt64) : c.perform (.executeWithLimit j others n) =
      if n = 0 then (c, []) else c.dispatch j others n.toNat := by
  simp only [perform, executeWithLimit, FanOutConfig.validate]
  by_cases hn : n = 0
  · rw [hn]
    rfl
  · have hnonzero : (n == 0) = false := by simpa using hn
    rw [if_neg hn, hnonzero]
    rfl

/-- **Batches of one coordinator are independent.** -/
theorem batches_are_independent (hc : Reachable c) (i : Index)
    (commands : List (Command (kinds i))) (limit : Nat) (acts : List (Act kinds)) :
    let given := c.dispatch i commands limit
    let p := c.batches.length
    let d := (given.1.run acts).1
    let single := c.vacant.dispatch i commands limit
    let s := single.1.run (given.1.alone p acts)
    ∃ b, d.batches[p]? = some ⟨i, b⟩ ∧
      -- where the batch is alone, it is the same, and so are its requests and notices
      s.1.batches = [⟨i, b.numbered 1⟩] ∧ s.1.submissions = (d.submitted p).map (0, ·) ∧
      single.2 ++ s.2 = (given.2 ++ given.1.noticesOf p acts).map
        (Notice.renumber 1 (localOrdinal d.submissions p)) ∧
      -- an act is one of at most one batch, and leaves all others
      (∀ x : Act kinds, x.move? d p = none → (d.perform x).1.batches[p]? = some ⟨i, b⟩) ∧
      (∀ (x : Act kinds) q, x.move? d p ≠ none → q ≠ p → x.move? d q = none) ∧
      -- a batch that is given in the midst of an act could be given before it or after it
      (∀ (x : Act kinds) m j (others : List (Command (kinds j))) n, x.move? d p = some m →
        (d.dispatch j others n).1.perform x =
            (((d.perform x).1.dispatch j others n).1, (d.perform x).2) ∧
          ((d.perform x).1.dispatch j others n).2 = (d.dispatch j others n).2) ∧
      -- its limit and its permits are its own
      b.limit = limit ∧ b.permits.unheld + b.holders = limit ∧
      (∀ K j (others : List (Command (kinds j))), 0 < K → K ≤ Batch.maxPermits →
        c.runtime = .live → c.halted = false → K ≤ commands.length → K ≤ others.length →
        (∀ x ∈ commands, Batch.MakesOpen x) → (∀ x ∈ others, Batch.MakesOpen x) →
        ∃ acts b₁ b₂, let e := (((c.dispatch i commands K).1.dispatch j others K).1.run acts).1
          e.batches[p]? = some ⟨i, b₁⟩ ∧ e.batches[p + 1]? = some ⟨j, b₂⟩ ∧
            b₁.outstanding = K ∧ b₂.outstanding = K) ∧
      -- its items are those of its commands, after the answers to their own requests
      (∀ items, b.aggregate.outcome = some (.ok items) → ∀ item ∈ items, ∃ x,
        commands[item.index]? = some x ∧
          x.item? item.index (given.1.answersTo p item.index acts) = some item) ∧
      d.submissions.Nodup ∧
      -- batches are numbered from one in the order in which they are accepted
      (∀ q j (x : Batch (kinds j)), d.batches[q]? = some ⟨j, x⟩ → x.id = q + 1) ∧
      started (given.2 ++ (given.1.run acts).2) =
        List.range' (p + 1) (d.batches.length - p) ∧
      ∀ j (others : List (Command (kinds j))) n, d.perform (.executeWithLimit j others n) =
        if n = 0 then (d, []) else d.dispatch j others n.toNat := by
  intro given p d single s
  obtain ⟨b₀, hg, hhas₀, hmirrors₀, hnotices₀⟩ :=
    mirrors_dispatch hc i commands limit (localOrdinal d.submissions p)
  have hgiven : Reachable given.1 := hc.dispatch i commands limit
  have hhas := hhas₀.run acts
  obtain ⟨hmirrors, hnotices⟩ := hmirrors₀.run hgiven acts (List.prefix_refl _)
  have hnoticesOf := noticesOf_eq hhas₀.batch acts
  have hanswered := hg.answered hhas₀ acts
  have hlimit : (b₀.run (given.1.moves p acts)).1.limit = limit := by
    rw [Batch.limit_run, hg.limit]
  generalize hb : (b₀.run (given.1.moves p acts)) = r at *
  refine ⟨r.1, hhas.batch, hmirrors.batches, hmirrors.submissions, ?_, ?_, ?_, ?_, hlimit, ?_, ?_,
    ?_, (hgiven.run acts).nodup_submissions, ?_, ?_, ?_⟩
  · rw [hnotices₀, hnotices, hnoticesOf, List.map_append]
  · intro x hx
    have hnext := batch_perform hhas.batch x
    rwa [hx] at hnext
  · intro x q hx hq
    exact move?_eq_none_of_ne hx hq
  · intro x m j others n hm
    exact perform_dispatch hhas.batch hm j others n
  · rw [← hlimit]
    exact hhas.valid.held
  · intro K j others hpos hmax hlive hh hlen hlen' hopen hopen'
    exact outstanding_both hlive hh hpos hmax hlen hlen' hopen hopen'
  · intro items ho item hitem
    exact item_of_value hhas hanswered ho hitem
  · intro q j x hx
    exact (hgiven.run acts).numbered.id_eq hx
  · obtain ⟨n, hlen, hstarted⟩ := started_run given.1 acts
    have hone : given.1.batches.length = p + 1 := by
      obtain ⟨x, hx⟩ := c.batches_dispatch i commands limit
      rw [hx, List.length_append, List.length_singleton]
    have hcount : d.batches.length - p = n + 1 := by
      rw [hlen, hone]
      omega
    rw [started_append, started_dispatch, hstarted, hone, hcount, List.range'_succ]
    rfl
  · intro j others n
    exact perform_executeWithLimit d j others n

/-! ## Two batches of echoes -/

/-- Two commands that make operations. -/
def openEchoes : List (Command ⟨Unit, Nat, Nat⟩) :=
  [.ofKind 7 (.ok (echo 7)), .ofKind 8 (.ok (echo 8))]

/-- The acts of two batches, the second of which is given while the first has an operation out. The
second request that the transport takes is one of the second batch. -/
def entangled : List (Act fun _ : Unit => ⟨Unit, Nat, Nat⟩) :=
  [.advance 0, .executeWithLimit () openEchoes 1, .advance 1, .advance 0, .advance 1,
    .answer 1 (.reply (.empty 2)), .advance 0, .answer 0 (.failure (.transport "")), .proceed 1 0]

/-- The first of the two batches is as it would be alone, and both can use their whole limit. -/
theorem batches_are_independent_echoes :
    ∃ b, ((idle.dispatch () openEchoes 2).1.run entangled).1.batches[0]? = some ⟨(), b⟩ ∧
      ((idle.dispatch () openEchoes 2).1.alone 0 entangled =
        [.advance 0, .advance 0, .advance 0, .answer 0 (.failure (.transport ""))]) ∧
      ((idle.vacant.dispatch () openEchoes 2).1.run
        ((idle.dispatch () openEchoes 2).1.alone 0 entangled)).1.batches =
          [⟨(), b.numbered 1⟩] ∧
      (((idle.dispatch () openEchoes 2).1.run entangled).1.perform
        (.proceed 1 0)).1.batches[0]? = some ⟨(), b⟩ ∧
      ∃ acts b₁ b₂,
        let e := (((idle.dispatch () openEchoes 2).1.dispatch () openEchoes 2).1.run acts).1
        e.batches[0]? = some ⟨(), b₁⟩ ∧ e.batches[1]? = some ⟨(), b₂⟩ ∧
          b₁.outstanding = 2 ∧ b₂.outstanding = 2 := by
  obtain ⟨b, hb, halone, -, -, hframe, -, -, -, -, hboth, -⟩ :=
    batches_are_independent reachable_idle () openEchoes 2 entangled
  have hopen : ∀ x ∈ openEchoes, Batch.MakesOpen x := by
    intro x hx
    simp only [openEchoes, List.mem_cons, List.not_mem_nil, or_false] at hx
    rcases hx with rfl | rfl <;> exact ⟨_, rfl, rfl⟩
  exact ⟨b, hb, rfl, halone, hframe (.proceed 1 0) rfl,
    hboth 2 () openEchoes (by decide) (by decide) rfl rfl (Nat.le_refl 2) (Nat.le_refl 2) hopen
      hopen⟩

end StoreClient.Coordinator
