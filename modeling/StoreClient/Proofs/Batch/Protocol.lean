import Mathlib.Data.List.Induction
import StoreClient.Proofs.Batch.Completion

/-!
# The protocol of events

What observers are told of a batch follows a protocol, whatever the order of its moves. Which event
may follow those before it is said by `Event.MayFollow`, without the batch. `Protocol` ties what was
told so far to the batch as it is: which commands were dispatched, which items are done and why they
failed, and how the batch ended.

A step tells at most one event, and what is known then is listed by `Tells`. So each of the parts of
the protocol is kept by every step (`Protocol.step`), and by every run (`Protocol.run`).
-/

namespace StoreClient.Batch

variable {σ : Signature} {commands : List (Command σ)} {b : Batch σ} {m : Move}
  {r : Batch σ × List Notice} {limit : Nat} {told : List Event}

/-! ## Which event may follow -/

/-- Whether the command at a position makes an operation. -/
def makes (commands : List (Command σ)) (k : Nat) : Bool := commands[k]?.any (·.operation.isOk)

/-- Whether the event ends the batch, and then whether it succeeds. -/
def Event.ending? : Event → Option Bool
  | .completed .. => some true
  | .interrupted .. => some false
  | _ => none

/-- Whether observers of a batch of the commands, with the limit, may be told of an event after
those before it. -/
def Event.MayFollow (commands : List (Command σ)) (limit : Nat) (before : List Event) :
    Event → Prop
  -- nothing comes before it, and it comes before everything else
  | .started _ total n => before = [] ∧ total = commands.length ∧ n = limit
  | .dispatched _ k _ => before ≠ [] ∧ before.filterMap ending? = [] ∧
      makes commands k = true ∧ ∀ j ∈ before.filterMap dispatched?, j < k
  -- also an event of an item that was in flight when the batch was interrupted
  | .itemDone _ k _ => before ≠ [] ∧ k < commands.length ∧ k ∉ before.filterMap itemDone? ∧
      (makes commands k = true → k ∈ before.filterMap dispatched?)
  | .completed _ n => before ≠ [] ∧ before.filterMap ending? = [] ∧ n = commands.length ∧
      ∀ k < commands.length, k ∈ before.filterMap itemDone?
  | .interrupted _ d n => before ≠ [] ∧ before.filterMap ending? = [] ∧ n = commands.length ∧
      d = (before.filterMap dispatched?).length +
        ((before.filterMap itemDone?).filter fun k => !makes commands k).length

/-- Every event may follow those before it. -/
def Lawful (commands : List (Command σ)) (limit : Nat) (told : List Event) : Prop :=
  ∀ before e after, told = before ++ e :: after → e.MayFollow commands limit before

theorem lawful_singleton {e : Event} (he : e.MayFollow commands limit []) :
    Lawful commands limit [e] := by
  rintro before e' after heq
  obtain ⟨rfl, rfl, -⟩ : before = [] ∧ e' = e ∧ after = [] := by
    rcases List.append_eq_singleton_iff.1 heq.symm with ⟨hb, ha⟩ | ⟨-, ha⟩
    · obtain ⟨rfl, rfl⟩ := List.cons.inj ha
      exact ⟨hb, rfl, rfl⟩
    · cases ha
  exact he

theorem Lawful.append_singleton (h : Lawful commands limit told) {e : Event}
    (he : e.MayFollow commands limit told) : Lawful commands limit (told ++ [e]) := by
  rintro before e' after heq
  rcases List.eq_nil_or_concat after with rfl | ⟨after, z, rfl⟩
  · obtain ⟨rfl, hlast⟩ := List.append_inj' heq rfl
    obtain rfl : e = e' := List.singleton_inj.1 hlast
    exact he
  · rw [List.concat_eq_append, ← List.cons_append, ← List.append_assoc] at heq
    exact h before e' after (List.append_inj' heq rfl).1

/-! ## What a step tells -/

/-- What observers can be told by a step from one batch to another. -/
inductive Tells (commands : List (Command σ)) (b b' : Batch σ) : List Event → Prop where
  | nothing : Tells commands b b' []
  | dispatched {inFlight : Nat} (hc : b.control = .ready)
      (hm : makes commands b.entries.length = true) :
      Tells commands b b' [.dispatched b.id b.entries.length inFlight]
  | itemDone {k : Nat} {e : Entry σ} (he : b.entries[k]? = some e) (hs : e.stage = .due) :
      Tells commands b b' [.itemDone b.id k e.cause?]
  | completed (hp : b.aggregate.outcome = none) (hz : b'.remaining = 0) :
      Tells commands b b' [.completed b.id commands.length]
  | interrupted (hc : b.control = .ready) :
      Tells commands b b' [.interrupted b.id b.entries.length commands.length]

namespace Valid

/-- While dispatching has the next command before it, the batch is pending. -/
theorem outcome_eq_none_of_ready (h : Valid commands b) (hc : b.control = .ready) :
    b.aggregate.outcome = none :=
  h.pending (h.interrupted_eq_false (by simp [hc])) (h.remaining_pos_of_lt (h.ready hc))

theorem tells_count (h : Valid commands b) {index : Nat} {e : Entry σ}
    (he : b.entries[index]? = some e) (hs : e.stage = .released) :
    Tells commands b ((b.setEntry index { e with stage := .counted }).count index).1
      (Notice.events ((b.setEntry index { e with stage := .counted }).count index).2) := by
  have hcompleted := h.completed_events (.count he hs)
  rw [events_count] at hcompleted ⊢
  split
  · next hlast =>
    rw [if_pos hlast] at hcompleted
    -- what was announced tells that nothing remains
    split at hcompleted
    · next hz =>
      obtain ⟨hlen, -⟩ := List.cons.inj hcompleted
      rw [hlen]
      exact .completed hlast.2 hz.2
    · cases hcompleted
  · exact .nothing

theorem tells_step (h : Valid commands b) (hs : Step b m r) :
    Tells commands b r.1 (Notice.events r.2) := by
  cases hs with
  | stop hc hs =>
    have hp := h.outcome_eq_none_of_ready hc
    have hd : b.dispatched = b.entries.length := by simpa [hc, Control.through] using h.dispatched
    rw [events_interrupt, if_neg (by simp [hp])]
    show Tells commands b _ [.interrupted b.id b.dispatched b.total]
    rw [hd, h.total_eq]
    exact .interrupted hc
  | @handle ordinal permits c rest hc hl hr ht =>
    rw [events_handle]
    split
    · next hok =>
      refine .dispatched hc ?_
      have hhead : commands[b.entries.length]? = some c := by
        rw [← List.head?_drop, ← h.rest, hr]
        rfl
      rw [makes, hhead]
      exact hok
    · exact .nothing
  | report he hs => exact .itemDone he hs
  | count he hs => exact h.tells_count he hs
  | answer he =>
    rw [Entry.events_answer]
    exact .nothing
  | listen =>
    rw [events_listen]
    exact .nothing
  | _ => exact .nothing

end Valid

/-! ## How a step ends a batch -/

theorem aggregate_watch (b : Batch σ) (index : Nat) :
    (b.watch index).aggregate = b.aggregate := by
  unfold watch
  split
  · rfl
  · dsimp only
    split <;> rfl

/-- Whether the batch is done, and then whether it succeeded. -/
def ending? (b : Batch σ) : Option Bool := b.aggregate.outcome.map (·.isOk)

theorem ending?_interrupt (h : b.aggregate.outcome = none) :
    b.interrupt.1.ending?.toList = (Notice.events b.interrupt.2).filterMap Event.ending? := by
  rw [interrupt_of_pending h, events_interrupt, h]
  rfl

/-- A batch ends where observers are told that it does. -/
theorem Valid.ending?_step (h : Valid commands b) (hs : Step b m r) : r.1.ending?.toList =
    b.ending?.toList ++ (Notice.events r.2).filterMap Event.ending? := by
  have hsame {o : Batch σ × List Notice} (ho : o.1.aggregate.outcome = b.aggregate.outcome)
      (he : (Notice.events o.2).filterMap Event.ending? = []) : o.1.ending?.toList =
        b.ending?.toList ++ (Notice.events o.2).filterMap Event.ending? := by
    rw [he, List.append_nil, ending?, ho]
    rfl
  cases hs with
  | stop hc hs =>
    have hp := h.outcome_eq_none_of_ready hc
    rw [ending?_interrupt (by exact hp), ending?, hp]
    rfl
  | handle hc hl hr ht =>
    refine hsame (by rw [handle_fields]) ?_
    rw [events_handle]
    split <;> rfl
  | watch hc => exact hsame (congrArg Handle.outcome (aggregate_watch b _)) rfl
  | @count index e he hs =>
    by_cases hlast : b.remaining = 1
    · have hpos := h.remaining_pos he (by simp [hs])
      have hp : b.aggregate.outcome = none := by
        have hlen := h.length_lt_of_stage he (by simp [hs])
        refine h.pending (Bool.eq_false_iff.2 fun hi => ?_) hpos
        have := (h.interrupted hi).2.1
        omega
      rw [events_count, if_pos ⟨hlast, hp⟩]
      unfold Batch.count
      dsimp only
      rw [if_pos (by exact hlast), complete_of_pending (by exact hp), ending?, ending?, hp]
      rfl
    · have hcount : ((b.setEntry index { e with stage := .counted }).count index).1.aggregate =
          b.aggregate := by
        unfold Batch.count
        dsimp only
        rw [if_neg (by exact hlast)]
        rfl
      refine hsame (congrArg Handle.outcome hcount) ?_
      rw [events_count, if_neg fun hl => hlast hl.1]
      rfl
  | listen => exact hsame (Handle.outcome_listen _ _) (by simp)
  | answer he => exact hsame rfl (by simp)
  | _ => exact hsame rfl rfl

/-! ## Items that observers were told of -/

/-- Whether the listener has told the observer. -/
def Stage.hasTold : Stage → Bool
  | reported | collected | released | counted => true
  | unwatched | awaited | due => false

/-- Observers were told of the item. -/
def HasTold (b : Batch σ) (k : Nat) : Prop := b.HasStage (·.hasTold = true) k

theorem hasTold_report {index : Nat} {e : Entry σ} (he : b.entries[index]? = some e) (k : Nat) :
    (b.setEntry index { e with stage := .reported }).HasTold k ↔ b.HasTold k ∨ k = index := by
  constructor
  · rintro ⟨x, hx, htold⟩
    rcases getElem?_set_cases hx with ⟨rfl, -⟩ | ⟨-, hx⟩
    · exact .inr rfl
    · exact .inl ⟨x, hx, htold⟩
  · rintro (⟨x, hx, htold⟩ | rfl)
    · obtain ⟨z, hz, ⟨-, -, rfl⟩ | ⟨-, rfl⟩⟩ :=
        exists_getElem?_set { e with stage := .reported } he hx
      · exact ⟨_, hz, rfl⟩
      · exact ⟨_, hz, htold⟩
    · exact ⟨_, List.getElem?_set_self (List.getElem?_eq_some_iff.1 he).1, rfl⟩

/-- Observers are told of an item where its listener reports. -/
theorem Valid.hasTold_step (h : Valid commands b) (hs : Step b m r) (k : Nat) :
    r.1.HasTold k ↔ b.HasTold k ∨ k ∈ b.reports m := by
  have hsame {b' : Batch σ} (hr : b.reports m = []) (hk : b'.HasTold k ↔ b.HasTold k) :
      b'.HasTold k ↔ b.HasTold k ∨ k ∈ b.reports m := by
    rw [hr, hk]
    simp
  cases hs with
  | stop hc hs =>
    refine hsame ?_ ?_
    · cases m with
      | proceed index => simp [stops] at hs
      | _ => rfl
    · unfold HasTold HasStage
      rw [(interrupt_fields _).2.2]
  | handle hc hl hr ht => exact hsame rfl (hasStage_append (by decide) (by rw [handle_fields]) k)
  | watch hc => exact hsame rfl (hasStage_watch (by decide) (by decide) (by decide) h hc k)
  | @answer index a e he =>
    refine hsame rfl (hasStage_set he rfl ?_ k)
    rcases e.stage_answer a with hs | ⟨hs, hs'⟩
    · rw [hs]
    · rw [hs, hs']
      decide
  | @report index e he hs =>
    rw [hasTold_report he, show b.reports (.proceed index) = [index] by simp [reports, he, hs],
      List.mem_singleton]
  | @collect index e he hs =>
    refine hsame (by simp [reports, he, hs]) (hasStage_set he rfl ?_ k)
    simp [hs, Stage.hasTold]
  | @release index e he hs =>
    refine hsame (by simp [reports, he, hs]) (hasStage_set he rfl ?_ k)
    simp [hs, Stage.hasTold]
  | @count index e he hs =>
    refine hsame (by simp [reports, he, hs]) (hasStage_set he (count_fields _ _).2.2 ?_ k)
    simp [hs, Stage.hasTold]
  | @still index hs =>
    refine hsame (reports_eq_nil fun e he hd => ?_) Iff.rfl
    simpa [hd, Stage.isRunning] using hs e he
  | _ => exact hsame rfl Iff.rfl

/-- While dispatching has the next command before it, observers were told of every item that could
not be made. -/
theorem Valid.hasTold_of_ready (h : Valid commands b) (hc : b.control = .ready) {k : Nat}
    (hk : k < b.entries.length) (hm : makes commands k = false) : b.HasTold k := by
  have he := List.getElem?_eq_getElem hk
  obtain ⟨c, hcmd, hof⟩ := h.isOf he
  have hsub : b.entries[k].isSubmitted = false := by
    rw [hof.isSubmitted]
    simpa [makes, hcmd] using hm
  have hs := (h.settled he (by simp [hc, Control.busy?])).2 hsub
  refine ⟨_, he, ?_⟩
  rw [hs]
  rfl

/-! ## The protocol -/

/-- What observers were told of a batch of the commands, with the limit, that has come to `b`. -/
structure Protocol (commands : List (Command σ)) (limit : Nat) (b : Batch σ)
    (told : List Event) : Prop where
  /-- Every event may follow those before it. -/
  lawful : Lawful commands limit told
  /-- The first event is the start. -/
  started : told.head? = some (.started b.id commands.length limit)
  /-- The commands that were handled were dispatched, in their order, if they make operations. -/
  dispatched : told.filterMap Event.dispatched? =
    (List.range b.entries.length).filter (makes commands)
  /-- An item is announced when its listener does so. -/
  itemDone : ∀ k, k ∈ told.filterMap Event.itemDone? ↔ b.HasTold k
  /-- It is announced with the outcome that it has. -/
  outcome : ∀ {n k : Nat} {x : Option Cause}, .itemDone n k x ∈ told →
    ∃ e o, b.entries[k]? = some e ∧ e.outcome? = some o ∧ ∀ c, x = some c ↔ o = .error c
  /-- The batch is announced as complete if it succeeded, and as interrupted if it failed. -/
  ending : told.filterMap Event.ending? = b.ending?.toList

namespace Protocol

theorem ne_nil (h : Protocol commands limit b told) : told ≠ [] := by
  rintro rfl
  exact absurd h.started (by simp)

theorem ending_eq_nil (h : Protocol commands limit b told) (hp : b.aggregate.outcome = none) :
    told.filterMap Event.ending? = [] := by
  rw [h.ending, ending?, hp]
  rfl

/-- Observers are told of an item once. -/
theorem nodup_itemDone (h : Lawful commands limit told) :
    (told.filterMap Event.itemDone?).Nodup := by
  induction told using List.reverseRecOn with
  | nil => exact List.nodup_nil
  | append_singleton told e ih =>
    have hinit : Lawful commands limit told := by
      rintro before e' after rfl
      exact h before e' (after ++ [e]) (by simp)
    have he := h told e [] rfl
    rw [List.filterMap_append]
    cases e with
    | itemDone n k x =>
      refine List.Nodup.append (ih hinit) (List.nodup_singleton k) ?_
      exact List.disjoint_singleton.2 he.2.2.1
    | _ =>
      rw [show List.filterMap Event.itemDone? [_] = [] from rfl, List.append_nil]
      exact ih hinit

/-- Before dispatching goes on, every command that was handled was dispatched, or its item could not
be made and is done. -/
theorem length_entries (h : Protocol commands limit b told) (hv : Valid commands b)
    (hc : b.control = .ready) : b.entries.length = (told.filterMap Event.dispatched?).length +
      ((told.filterMap Event.itemDone?).filter fun k => !makes commands k).length := by
  have hperm : ((told.filterMap Event.itemDone?).filter fun k => !makes commands k).Perm
      ((List.range b.entries.length).filter fun k => !makes commands k) := by
    refine (List.perm_ext_iff_of_nodup ((nodup_itemDone h.lawful).filter _)
      (List.nodup_range.filter _)).2 fun k => ?_
    rw [List.mem_filter, List.mem_filter, h.itemDone, List.mem_range, Bool.not_eq_true']
    constructor
    · rintro ⟨⟨e, he, -⟩, hm⟩
      exact ⟨(List.getElem?_eq_some_iff.1 he).1, hm⟩
    · rintro ⟨hk, hm⟩
      exact ⟨hv.hasTold_of_ready hc hk hm, hm⟩
  rw [hperm.length_eq, h.dispatched, ← List.length_eq_length_filter_add, List.length_range]

/-- What a step tells may follow what was told before. -/
theorem mayFollow (h : Protocol commands limit b told) (hv : Valid commands b) (hs : Step b m r)
    {e : Event} (he : e ∈ Notice.events r.2) : e.MayFollow commands limit told := by
  have htells := hv.tells_step hs
  generalize hes : Notice.events r.2 = es at he htells
  cases htells with
  | nothing => cases he
  | dispatched hc hm =>
    obtain rfl := List.mem_singleton.1 he
    refine ⟨h.ne_nil, h.ending_eq_nil (hv.outcome_eq_none_of_ready hc), hm, fun j hj => ?_⟩
    rw [h.dispatched, List.mem_filter, List.mem_range] at hj
    exact hj.1
  | @itemDone k x hx hdue =>
    obtain rfl := List.mem_singleton.1 he
    have hlt := (List.getElem?_eq_some_iff.1 hx).1
    refine ⟨h.ne_nil, Nat.lt_of_lt_of_le hlt hv.length_le, ?_, fun hm => ?_⟩
    · rw [h.itemDone]
      rintro ⟨y, hy, htold⟩
      rw [hx] at hy
      cases hy
      rw [hdue] at htold
      cases htold
    · rw [h.dispatched]
      exact List.mem_filter.2 ⟨List.mem_range.2 hlt, hm⟩
  | completed hp hz =>
    obtain rfl := List.mem_singleton.1 he
    refine ⟨h.ne_nil, h.ending_eq_nil hp, rfl, fun k hk => ?_⟩
    -- the step that completes the batch reports no item
    have hreports : b.reports m = [] := by
      rw [← hs.itemDone_events, hes]
      rfl
    obtain ⟨x, hx, hcounted⟩ := (hv.step hs).remaining_eq_zero_iff.1 hz k hk
    have htold : r.1.HasTold k := ⟨x, hx, by rw [hcounted]; rfl⟩
    rw [hv.hasTold_step hs, hreports] at htold
    exact (h.itemDone k).2 (htold.resolve_right (List.not_mem_nil))
  | interrupted hc =>
    obtain rfl := List.mem_singleton.1 he
    exact ⟨h.ne_nil, h.ending_eq_nil (hv.outcome_eq_none_of_ready hc), rfl,
      h.length_entries hv hc⟩

theorem lawful_step (h : Protocol commands limit b told) (hv : Valid commands b)
    (hs : Step b m r) : Lawful commands limit (told ++ Notice.events r.2) := by
  have hmay {e : Event} (he : e ∈ Notice.events r.2) := h.mayFollow hv hs he
  have htells := hv.tells_step hs
  generalize Notice.events r.2 = es at hmay htells
  cases htells with
  | nothing =>
    rw [List.append_nil]
    exact h.lawful
  | _ => exact h.lawful.append_singleton (hmay (List.mem_singleton.2 rfl))

theorem dispatched_step (h : Protocol commands limit b told) (hv : Valid commands b)
    (hs : Step b m r) : (told ++ Notice.events r.2).filterMap Event.dispatched? =
      (List.range r.1.entries.length).filter (makes commands) := by
  have hnext : b.nextIsOk = makes commands b.entries.length := by
    rw [nextIsOk, hv.rest, List.head?_drop, makes]
  rw [List.filterMap_append, h.dispatched, hs.dispatched_events, hs.grows.length, hnext]
  cases b.handles m with
  | false => simp
  | true => simp [List.range_succ, List.filter_append, List.filter_singleton]

/-- The outcome that was announced stays. -/
theorem outcome_step (h : Protocol commands limit b told) (hv : Valid commands b)
    (hs : Step b m r) {n k : Nat} {x : Option Cause}
    (hx : .itemDone n k x ∈ told ++ Notice.events r.2) : ∃ e o, r.1.entries[k]? = some e ∧
      e.outcome? = some o ∧ ∀ c, x = some c ↔ o = .error c := by
  have hbefore : ∃ e o, b.entries[k]? = some e ∧ e.outcome? = some o ∧
      ∀ c, x = some c ↔ o = .error c := by
    rcases List.mem_append.1 hx with hx | hx
    · exact h.outcome hx
    · have htells := hv.tells_step hs
      generalize Notice.events r.2 = es at hx htells
      cases htells with
      | @itemDone k' e he hdue =>
        cases List.mem_singleton.1 hx
        obtain ⟨o, ho⟩ := Option.isSome_iff_exists.1
          ((hv.fits he).isSome (by simp [hdue]) (by simp [hdue]))
        refine ⟨e, o, he, ho, fun c => ?_⟩
        unfold Entry.cause?
        rw [ho]
        cases o <;> simp
      | nothing => cases hx
      | _ => cases List.mem_singleton.1 hx
  obtain ⟨e, o, he, ho, hcause⟩ := hbefore
  obtain ⟨e', he', hop⟩ := hs.operation he
  refine ⟨e', o, he', ?_, hcause⟩
  unfold Entry.outcome? at ho ⊢
  rw [hop]
  cases hop' : e.operation with
  | error c =>
    rw [hop'] at ho
    exact ho
  | ok op =>
    rw [hop'] at ho
    exact Operation.outcome_answerAll_of_some ho _

/-- Every step keeps to the protocol. -/
theorem step (h : Protocol commands limit b told) (hv : Valid commands b) (hs : Step b m r) :
    Protocol commands limit r.1 (told ++ Notice.events r.2) where
  lawful := h.lawful_step hv hs
  started := by
    rw [List.head?_append, h.started, hs.grows.id]
    rfl
  dispatched := h.dispatched_step hv hs
  itemDone k := by
    rw [List.filterMap_append, List.mem_append, h.itemDone, hs.itemDone_events,
      hv.hasTold_step hs]
  outcome hx := h.outcome_step hv hs hx
  ending := by
    rw [List.filterMap_append, h.ending, hv.ending?_step hs]

/-- So does every run. -/
theorem run (h : Protocol commands limit b told) (hv : Valid commands b) (ms : List Move) :
    Protocol commands limit (b.run ms).1 (told ++ Notice.events (b.run ms).2) := by
  induction ms generalizing b told with
  | nil =>
    rw [show (b.run []).2 = [] from rfl, Notice.events_nil, List.append_nil]
    exact h
  | cons m ms ih =>
    have hnext := ih (h.step hv (step_perform b m)) (hv.perform m)
    rw [List.append_assoc, ← Notice.events_append] at hnext
    exact hnext

end Protocol

end StoreClient.Batch
