import StoreClient.Proofs.Batch.Determinacy
import StoreClient.Proofs.Coordinator.Completeness
import StoreClient.Proofs.Coordinator.Interruption

/-!
# The limit and the order of completion do not matter

`batch_is_determined` is about two runs of one list of commands, on two coordinators, with two
limits and in two orders of whatever happens, where each request gets the same answers. If nobody
disturbs the batch in either run until it is done (`Completes`), then the requests are the same, in
the same order, and so are the items, up to their order. With a limit of one the items are in the
order of the commands, and each is done before the next command is submitted.
-/

namespace StoreClient.Coordinator

variable {Index : Type} {kinds : Index → Signature} {c : Coordinator kinds} {p : Nat} {i : Index}
  {commands : List (Command (kinds i))} {b : Batch (kinds i)} {limit : Nat}
  {given : Nat → List Answer} {acts : List (Act kinds)}

/-! ## Runs to completion -/

/-- The batch of the commands is given to a coordinator with a runtime, which the acts do not
disturb until the batch is done. To the request of command `k` they give answers from the beginning
of `given k`. -/
structure Completes (c : Coordinator kinds) (i : Index) (commands : List (Command (kinds i)))
    (limit : Nat) (given : Nat → List Answer) (acts : List (Act kinds)) : Prop where
  reachable : Reachable c
  live : c.runtime = .live
  halted : c.halted = false
  limit_le : limit ≤ Batch.maxPermits
  lets : ∀ a ∈ acts, a.Lets c.batches.length
  answers : ∀ k, (c.dispatch i commands limit).1.answersTo c.batches.length k acts <+: given k
  done : ∃ b, ((c.dispatch i commands limit).1.run acts).1.batches[c.batches.length]? =
    some ⟨i, b⟩ ∧ b.aggregate.outcome.isSome = true

/-- What comes of a batch is told from the commands and the answers alone. -/
theorem Completes.computes (h : Completes c i commands limit given acts) :
    let start := (c.dispatch i commands limit).1
    ∃ b items, (start.run acts).1.batches[c.batches.length]? = some ⟨i, b⟩ ∧
      b.aggregate.outcome = some (.ok items) ∧ b.queries = commands.map (·.query) ∧
      items.Perm (Batch.results commands given) ∧
      (items.map (·.index)).Perm (List.range commands.length) ∧
      Notice.requests (start.noticesOf c.batches.length acts) =
        commands.filterMap Command.request? ∧
      (limit = 1 → items = Batch.results commands given) := by
  intro start
  obtain ⟨b₀, hg, hhas₀⟩ := h.reachable.exists_has i commands limit
  have hhas := hhas₀.run acts
  have hund := (undisturbed_dispatch h.live h.halted h.limit_le hg).run hhas₀ h.lets
  have hanswered := hg.answered hhas₀ acts
  have hrequests := hg.valid.requests_run (start.moves c.batches.length acts)
  have hsorted : limit = 1 → (((b₀.run (start.moves c.batches.length acts)).1.gathered).map
      (·.index)).Pairwise (· < ·) := by
    intro hone
    have hnil : b₀.gathered = [] :=
      hg.valid.gathered_eq_nil (Bool.eq_false_iff.2 fun hi => (hg.interrupted.1 hi).2 h.live)
        hg.entries
    refine hg.valid.pairwise_gathered_run (hg.limit.trans hone) ?_ ?_ _ hund.interrupted
    · rintro k ⟨e, he, -⟩
      simp [hg.entries] at he
    · rw [hnil]
      exact .nil
  have hnotices := noticesOf_eq hhas₀.batch acts
  generalize (b₀.run (start.moves c.batches.length acts)) = r at *
  obtain ⟨x, hx, hdone⟩ := h.done
  rw [hhas.batch] at hx
  cases hx
  have hr : r.1.remaining = 0 := by
    refine Nat.eq_zero_of_not_pos fun hpos => ?_
    rw [hhas.valid.pending hund.interrupted hpos] at hdone
    cases hdone
  have hperm : r.1.gathered.Perm (Batch.results commands given) :=
    hhas.valid.gathered_perm_results hr (fun k e he => hanswered.some he) h.answers
  refine ⟨r.1, r.1.gathered, hhas.batch, hhas.valid.completed hund.interrupted hr,
    hhas.valid.queries, hperm, hhas.valid.perm_range hr, ?_, ?_⟩
  · rw [hg.entries, List.length_nil, List.take_zero, List.filterMap_nil, List.nil_append,
      hhas.valid.length_eq_of_remaining hr, List.take_length] at hrequests
    rw [hnotices, hrequests]
  · intro hone
    exact Batch.Valid.gathered_eq_results hperm (hsorted hone)

/-- With a limit of one, all items before a command are done and collected where the command is
submitted. -/
theorem done_of_submitted (hc : Reachable c) (i : Index) (commands : List (Command (kinds i)))
    (before : List (Act kinds)) (a : Act kinds) :
    let d := ((c.dispatch i commands 1).1.run before).1
    let p := c.batches.length
    ∀ k, k ∈ (d.perform a).1.submitted p → k ∉ d.submitted p → ∀ j < k, ∃ b e,
      d.batches[p]? = some ⟨i, b⟩ ∧ b.entries[j]? = some e ∧ e.outcome?.isSome = true ∧
        e.stage.hasCollected = true := by
  intro d p k hk hnot j hj
  obtain ⟨b₀, hg, hhas₀⟩ := hc.exists_has i commands 1
  have hhas := hhas₀.run before
  have hl : (b₀.run ((c.dispatch i commands 1).1.moves p before)).1.limit = 1 := by
    rw [Batch.limit_run, hg.limit]
  generalize (b₀.run ((c.dispatch i commands 1).1.moves p before)).1 = b at *
  obtain ⟨m, -, hh, rfl⟩ := hhas.exists_handles hk hnot
  obtain ⟨e, he, hdone⟩ := hhas.valid.collected_of_handles hl hh hj
  exact ⟨b, e, hhas.batch, he, hdone⟩

/-- **The limit and the order of completion do not matter.** -/
theorem batch_is_determined {c₁ c₂ : Coordinator kinds} {limit₁ limit₂ : Nat}
    {acts₁ acts₂ : List (Act kinds)} (h₁ : Completes c₁ i commands limit₁ given acts₁)
    (h₂ : Completes c₂ i commands limit₂ given acts₂) :
    let start₁ := (c₁.dispatch i commands limit₁).1
    let start₂ := (c₂.dispatch i commands limit₂).1
    let p₁ := c₁.batches.length
    let p₂ := c₂.batches.length
    ∃ b₁ b₂ items₁ items₂,
      (start₁.run acts₁).1.batches[p₁]? = some ⟨i, b₁⟩ ∧
      (start₂.run acts₂).1.batches[p₂]? = some ⟨i, b₂⟩ ∧
      b₁.aggregate.outcome = some (.ok items₁) ∧ b₂.aggregate.outcome = some (.ok items₂) ∧
      -- the same items, one for each command
      items₁.Perm items₂ ∧ (items₁.map (·.index)).Perm (List.range commands.length) ∧
      items₁.Perm (Batch.results commands given) ∧ b₁.queries = b₂.queries ∧
      -- the same requests
      Notice.requests (start₁.noticesOf p₁ acts₁) = Notice.requests (start₂.noticesOf p₂ acts₂) ∧
      Notice.requests (start₁.noticesOf p₁ acts₁) = commands.filterMap Command.request? ∧
      -- one command after another
      (limit₁ = 1 → items₁.map (·.index) = List.range commands.length ∧
        ∀ before a after, acts₁ = before ++ a :: after →
          ∀ k, k ∈ ((start₁.run before).1.perform a).1.submitted p₁ →
            k ∉ (start₁.run before).1.submitted p₁ → ∀ j < k, ∃ b e,
              (start₁.run before).1.batches[p₁]? = some ⟨i, b⟩ ∧ b.entries[j]? = some e ∧
                e.outcome?.isSome = true ∧ e.stage.hasCollected = true) := by
  intro start₁ start₂ p₁ p₂
  obtain ⟨b₁, items₁, hb₁, hout₁, hquery₁, hperm₁, hindex₁, hreq₁, hone₁⟩ := h₁.computes
  obtain ⟨b₂, items₂, hb₂, hout₂, hquery₂, hperm₂, -, hreq₂, -⟩ := h₂.computes
  refine ⟨b₁, b₂, items₁, items₂, hb₁, hb₂, hout₁, hout₂, hperm₁.trans hperm₂.symm, hindex₁, hperm₁,
    hquery₁.trans hquery₂.symm, hreq₁.trans hreq₂.symm, hreq₁, fun hone => ⟨?_, ?_⟩⟩
  · have hsorted : (items₁.map (·.index)).Pairwise (· < ·) := by
      rw [hone₁ hone]
      exact List.pairwise_map.2 (Batch.pairwise_results commands given)
    refine hindex₁.eq_of_pairwise ?_ hsorted List.pairwise_lt_range
    intro x y _ _ hlt hgt
    exact absurd hlt (Nat.lt_asymm hgt)
  · intro before a after _
    subst hone
    exact done_of_submitted h₁.reachable i commands before a

/-! ## A batch of echoes -/

/-- The answers of `echoScript`: a reply to the first command, and a failure of the last. -/
def echoAnswers : Nat → List Answer
  | 0 => [.reply (.empty 2)]
  | 2 => [.failure (.transport "")]
  | _ => []

/-- The acts that make the batch of echoes complete with a limit of two. Both operations are out
before they are answered, the last one first. -/
def echoesTogether : List (Act fun _ : Unit => ⟨Unit, Nat, Nat⟩) :=
  [.advance 0, .advance 0, .advance 0, .advance 0] ++ listenerActs 0 1 ++
    [.advance 0, .advance 0, .answer 1 (.failure (.transport ""))] ++ listenerActs 0 2 ++
    [.answer 0 (.reply (.empty 2))] ++ listenerActs 0 0

theorem completes_echoScript : Completes idle () echoes 1 echoAnswers echoScript where
  reachable := reachable_idle
  live := rfl
  halted := rfl
  limit_le := by decide
  lets := by simp [echoScript, listenerActs, Act.Lets, Batch.listenerSteps]
  answers k := by
    rcases k with _ | _ | _ | k
    · exact ⟨[], rfl⟩
    · exact ⟨[], rfl⟩
    · exact ⟨[], rfl⟩
    · exact List.nil_prefix
  done := ⟨_, rfl, rfl⟩

theorem completes_echoesTogether : Completes idle () echoes 2 echoAnswers echoesTogether where
  reachable := reachable_idle
  live := rfl
  halted := rfl
  limit_le := by decide
  lets := by simp [echoesTogether, listenerActs, Act.Lets, Batch.listenerSteps]
  answers k := by
    rcases k with _ | _ | _ | k
    · exact ⟨[], rfl⟩
    · exact ⟨[], rfl⟩
    · exact ⟨[], rfl⟩
    · exact List.nil_prefix
  done := ⟨_, rfl, rfl⟩

theorem batch_is_determined_echoes : ∃ b₁ b₂ items₁ items₂,
    ((idle.dispatch () echoes 1).1.run echoScript).1.batches[0]? = some ⟨(), b₁⟩ ∧
    ((idle.dispatch () echoes 2).1.run echoesTogether).1.batches[0]? = some ⟨(), b₂⟩ ∧
    b₁.aggregate.outcome = some (.ok items₁) ∧ b₂.aggregate.outcome = some (.ok items₂) ∧
    items₁.Perm items₂ ∧ items₁.map (·.index) = [0, 1, 2] := by
  obtain ⟨b₁, b₂, items₁, items₂, hb₁, hb₂, hout₁, hout₂, hperm, -, -, -, -, -, hone⟩ :=
    batch_is_determined completes_echoScript completes_echoesTogether
  exact ⟨b₁, b₂, items₁, items₂, hb₁, hb₂, hout₁, hout₂, hperm, (hone rfl).1⟩

end StoreClient.Coordinator
