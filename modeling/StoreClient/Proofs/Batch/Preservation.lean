import StoreClient.Proofs.Batch.Steps
import StoreClient.Proofs.Batch.Validity

/-!
# Every move keeps a batch valid

The moves of the transport and of the listeners exchange one entry; what they have in common is
`Valid.exchange`. The moves of dispatching add an entry (`Valid.handle`), register its listener
(`Valid.watch`), wait, or stop (`Valid.stop`). The last step of a listener is the one that may
complete the batch (`Valid.count`).
-/

namespace StoreClient.Batch

variable {σ : Signature} {commands : List (Command σ)} {b : Batch σ}

/-! ## Gathered items -/

theorem gathered_of_pending (h : b.aggregate.outcome = none) : b.gathered = b.collected := by
  simp [gathered, h]

/-- An entry whose item is not collected, or stays the same, can be exchanged. -/
theorem IsGathered.set {entries : List (Entry σ)} {items : List (Item σ)}
    (h : IsGathered entries items) {index : Nat} {e e' : Entry σ} (he : entries[index]? = some e)
    (hs : e'.stage.hasCollected = e.stage.hasCollected)
    (hitem : e.stage.hasCollected = true → e'.item? index = e.item? index) :
    IsGathered (entries.set index e') items where
  nodup := h.nodup
  mem_iff item := by
    have hlt := (List.getElem?_eq_some_iff.1 he).1
    rw [h.mem_iff]
    constructor
    · rintro ⟨x, hx, hc, hi⟩
      by_cases hn : item.index = index
      · rw [hn, he] at hx
        cases hx
        rw [hn] at hi ⊢
        exact ⟨e', List.getElem?_set_self hlt, hs.trans hc, (hitem hc).trans hi⟩
      · exact ⟨x, by rwa [List.getElem?_set_ne (Ne.symm hn)], hc, hi⟩
    · rintro ⟨x, hx, hc, hi⟩
      rcases getElem?_set_cases hx with ⟨hn, rfl⟩ | ⟨-, hx⟩
      · rw [hn] at hi ⊢
        rw [hs] at hc
        exact ⟨e, he, hc, (hitem hc).symm.trans hi⟩
      · exact ⟨x, hx, hc, hi⟩

/-- A listener that collects its item adds it to the items. -/
theorem IsGathered.collect {entries : List (Entry σ)} {items : List (Item σ)}
    (h : IsGathered entries items) {index : Nat} {e e' : Entry σ} {item : Item σ}
    (he : entries[index]? = some e) (hs : e.stage.hasCollected = false)
    (hs' : e'.stage.hasCollected = true) (hitem : e'.item? index = some item) :
    IsGathered (entries.set index e') (items ++ [item]) where
  nodup := by
    have hnot : item.index ∉ items.map (·.index) := by
      rw [List.mem_map]
      rintro ⟨x, hx, hxi⟩
      obtain ⟨y, hy, hc, -⟩ := (h.mem_iff x).1 hx
      rw [hxi, Entry.index_of_item? hitem, he] at hy
      cases hy
      rw [hs] at hc
      exact Bool.false_ne_true hc
    simpa [List.nodup_append, h.nodup] using hnot
  mem_iff x := by
    have hlt := (List.getElem?_eq_some_iff.1 he).1
    have hindex := Entry.index_of_item? hitem
    rw [List.mem_append, List.mem_singleton, h.mem_iff]
    constructor
    · rintro (⟨y, hy, hc, hi⟩ | rfl)
      · have hn : x.index ≠ index := by
          intro hn
          rw [hn, he] at hy
          cases hy
          rw [hs] at hc
          exact Bool.false_ne_true hc
        exact ⟨y, by rwa [List.getElem?_set_ne (Ne.symm hn)], hc, hi⟩
      · rw [hindex]
        exact ⟨e', List.getElem?_set_self hlt, hs', hitem⟩
    · rintro ⟨y, hy, hc, hi⟩
      rcases getElem?_set_cases hy with ⟨hn, rfl⟩ | ⟨-, hy⟩
      · rw [hn, hitem] at hi
        exact .inr (Option.some.inj hi).symm
      · exact .inl ⟨y, hy, hc, hi⟩

/-- An entry whose item is not collected can be added. -/
theorem IsGathered.append {entries : List (Entry σ)} {items : List (Item σ)}
    (h : IsGathered entries items) {e : Entry σ} (hs : e.stage.hasCollected = false) :
    IsGathered (entries ++ [e]) items where
  nodup := h.nodup
  mem_iff item := by
    rw [h.mem_iff]
    constructor
    · rintro ⟨x, hx, hc, hi⟩
      have hlt := (List.getElem?_eq_some_iff.1 hx).1
      exact ⟨x, by rwa [List.getElem?_append_left hlt], hc, hi⟩
    · rintro ⟨x, hx, hc, hi⟩
      rcases getElem?_append_singleton_cases hx with ⟨-, rfl⟩ | hx
      · rw [hs] at hc
        exact absurd hc Bool.false_ne_true
      · exact ⟨x, hx, hc, hi⟩

/-- Completing a batch that is pending sets the outcome to what was collected. -/
theorem complete_of_pending (h : b.aggregate.outcome = none) :
    b.complete.1 =
      { b with collected := [], aggregate := ⟨some (.ok b.collected), []⟩ } := by
  unfold complete
  simp only [Handle.complete?_of_pending h]

/-- Interrupting a batch that is pending fails it. -/
theorem interrupt_of_pending (h : b.aggregate.outcome = none) :
    b.interrupt.1 = { b with
      interrupted := true
      collected := []
      aggregate := ⟨some (.error (.dispatchInterrupted b.dispatched b.total)), []⟩ } := by
  unfold interrupt
  simp only [Handle.complete?_of_pending h]
  rfl

/-- A new batch without commands is complete. -/
theorem valid_complete_ofCommands (σ : Signature) (id limit : Nat) :
    Valid [] ({ ofCommands (σ := σ) id limit [] with control := .ended }.complete.1) := by
  rw [complete_of_pending rfl]
  exact {
    toFollows := .nil []
    toSteers := .of_settled (by simp [ofCommands]) (.inr rfl)
    held := rfl
    remaining := rfl
    queries := rfl
    rest := rfl
    ended := fun _ _ => rfl
    interrupted := fun h => by simp [ofCommands] at h
    pending := fun _ h => absurd h (Nat.lt_irrefl 0)
    completed := fun _ _ => rfl
    gathered := fun _ => ⟨List.nodup_nil, by simp [ofCommands, Batch.gathered]⟩ }

namespace Valid

/-! ## Exchanging an entry -/

/-- An entry can be exchanged for one that is as far from the point of view of dispatching, if the
permits and the items collected agree with it. -/
theorem exchange (h : Valid commands b) {index : Nat} {e e' : Entry σ} {permits : Permits}
    {collected : List (Item σ)} (he : b.entries[index]? = some e)
    (hof : ∀ c, e.IsOf c → e'.IsOf c) (hfits : e'.Fits)
    (hwatch : e'.stage = .unwatched ↔ e.stage = .unwatched)
    (hrun : e.stage.isRunning = true → e'.stage.isRunning = true)
    (hcount : e'.stage = .counted ↔ e.stage = .counted)
    (hheld : permits.unheld + e'.stage.holdsPermit.toNat =
      b.permits.unheld + e.stage.holdsPermit.toNat)
    (hgath : b.interrupted = false → IsGathered (b.entries.set index e')
      { b with collected := collected }.gathered) :
    Valid commands { b.setEntry index e' with permits := permits, collected := collected } where
  toFollows := h.toFollows.set he hof hfits
  toSteers := by
    refine h.toSteers.set he ?_ hwatch.2 fun hc => hrun (h.noting hc he)
    rintro ⟨hu, hn⟩
    obtain ⟨c, -, hec⟩ := h.isOf he
    refine ⟨fun hs => hu (hwatch.1 hs), fun hs => hcount.2 (hn ?_)⟩
    rw [hec.isSubmitted, ← (hof c hec).isSubmitted, hs]
  toBalances := by
    refine h.toBalances.set he e' hheld ?_
    simp only [hcount]
    rfl
  queries := h.queries
  rest := by simpa [setEntry] using h.rest
  ended hc hi := by simpa [setEntry] using h.ended hc hi
  interrupted hi := by simpa [setEntry] using h.interrupted hi
  pending hi hr := h.pending hi hr
  completed hi hr := by
    obtain ⟨items, ho⟩ : ∃ items, b.aggregate.outcome = some (.ok items) :=
      ⟨_, h.completed hi hr⟩
    simp [Batch.gathered, setEntry, ho]
  gathered hi := hgath hi

/-! ## Answers -/

theorem answer (h : Valid commands b) {index : Nat} {e : Entry σ}
    (he : b.entries[index]? = some e) (a : Answer) :
    Valid commands (b.setEntry index (e.answer a).1) := by
  have hstage := e.stage_answer a
  refine h.exchange he (fun c hc => hc.answer a) ((h.fits he).answer a) ?_ ?_ ?_ ?_ ?_
  · rcases hstage with hs | ⟨hs, hs'⟩ <;> simp [*]
  · rcases hstage with hs | ⟨hs, hs'⟩ <;> simp [*, Stage.isRunning]
  · rcases hstage with hs | ⟨hs, hs'⟩ <;> simp [*]
  · rcases hstage with hs | ⟨hs, hs'⟩ <;> simp [*, Stage.holdsPermit]
  · intro hi
    refine (h.gathered hi).set he ?_ fun hc => ?_
    · rcases hstage with hs | ⟨hs, hs'⟩ <;> simp [*, Stage.hasCollected]
    · refine Entry.item?_answer_of_isSome ((h.fits he).isSome ?_ ?_) a index
      · rintro hs
        simp [hs, Stage.hasCollected] at hc
      · rintro hs
        simp [hs, Stage.hasCollected] at hc

/-! ## Listeners -/

/-- A listener that runs can take a step that changes neither what is counted nor what is held. -/
theorem exchange_stage (h : Valid commands b) {index : Nat} {e : Entry σ} {s : Stage}
    {permits : Permits} {collected : List (Item σ)} (he : b.entries[index]? = some e)
    (hrun : e.stage.isRunning = true) (hrun' : s.isRunning = true)
    (hheld : permits.unheld + s.holdsPermit.toNat =
      b.permits.unheld + e.stage.holdsPermit.toNat)
    (hgath : b.interrupted = false → IsGathered (b.entries.set index { e with stage := s })
      { b with collected := collected }.gathered) :
    Valid commands { b.setEntry index { e with stage := s } with
      permits := permits, collected := collected } := by
  have hsome : e.outcome?.isSome = true := by
    refine (h.fits he).isSome ?_ ?_ <;> intro hs <;> simp [hs, Stage.isRunning] at hrun
  refine h.exchange he (fun c hc => hc) (Entry.fits_of_isSome hsome ?_) ?_ (fun _ => hrun') ?_
    hheld hgath
  · rintro rfl
    simp [Stage.isRunning] at hrun'
  · constructor <;> intro hs <;> simp_all [Stage.isRunning]
  · constructor <;> intro hs <;> simp_all [Stage.isRunning]

theorem report (h : Valid commands b) {index : Nat} {e : Entry σ}
    (he : b.entries[index]? = some e) (hs : e.stage = .due) :
    Valid commands (b.setEntry index { e with stage := .reported }) := by
  refine h.exchange_stage (s := .reported) he (by simp [hs, Stage.isRunning]) rfl ?_ fun hi => ?_
  · simp [hs, Stage.holdsPermit]
  · exact (h.gathered hi).set he (by simp [hs, Stage.hasCollected]) fun _ => rfl

theorem collect (h : Valid commands b) {index : Nat} {e : Entry σ}
    (he : b.entries[index]? = some e) (hs : e.stage = .reported) :
    Valid commands { b.setEntry index { e with stage := .collected } with
      collected := b.collected ++ if b.interrupted then [] else (e.item? index).toList } := by
  refine h.exchange_stage (s := .collected) he (by simp [hs, Stage.isRunning]) rfl ?_ fun hi => ?_
  · rw [hs]
    rfl
  · have hp := h.pending hi (h.remaining_pos he (by simp [hs]))
    obtain ⟨item, hitem⟩ := Entry.isSome_item?
      ((h.fits he).isSome (by simp [hs]) (by simp [hs])) index
    have hg := h.gathered hi
    rw [gathered_of_pending hp] at hg
    rw [gathered_of_pending (by exact hp), hi, hitem]
    exact hg.collect he (by simp [hs, Stage.hasCollected]) rfl hitem

theorem release (h : Valid commands b) {index : Nat} {e : Entry σ}
    (he : b.entries[index]? = some e) (hs : e.stage = .collected) :
    Valid commands { b.setEntry index { e with stage := .released } with
      permits := b.permits.giveBack } := by
  refine h.exchange_stage (s := .released) he (by simp [hs, Stage.isRunning]) rfl ?_ fun hi => ?_
  · simp [hs, Stage.holdsPermit]
  · exact (h.gathered hi).set he (by simp [hs, Stage.hasCollected]) fun _ => rfl

/-- After a command dispatching has the next one before it, or has ended with the last. -/
theorem onward_cases (h : Valid commands b) :
    b.onward = .ready ∧ b.entries.length < commands.length ∨
      b.onward = .ended ∧ b.entries.length = commands.length := by
  have hle := h.length_le
  unfold onward
  rw [h.rest]
  split
  · next hr =>
    rw [List.isEmpty_iff, List.drop_eq_nil_iff] at hr
    exact .inr ⟨rfl, Nat.le_antisymm hle hr⟩
  · next hr =>
    rw [List.isEmpty_iff, List.drop_eq_nil_iff] at hr
    exact .inl ⟨rfl, Nat.not_le.1 hr⟩

/-- Dispatching goes on when all entries are settled. -/
theorem steers_onward (h : Valid commands b) {index : Nat} {e' : Entry σ}
    (hb : b.control.busy? = some index) (hs : e'.Settled) :
    Steers commands.length (b.entries.set index e') b.onward b.entries.length := by
  have hlen : (b.entries.set index e').length = b.entries.length := List.length_set
  rw [← hlen]
  refine .of_settled (h.settled_set hb hs) ?_
  rw [hlen]
  exact h.onward_cases.imp_right And.left

/-- Dispatching goes on if the listener that it runs was the one to be counted. -/
theorem steers_counted (h : Valid commands b) {index : Nat} {e : Entry σ}
    (he : b.entries[index]? = some e) (hs : e.stage = .released) :
    Steers commands.length (b.entries.set index { e with stage := .counted })
      (if b.control = .noting index then b.onward else b.control) b.dispatched := by
  have hsettled : Entry.Settled { e with stage := .counted } := ⟨by simp, fun _ => rfl⟩
  split
  · next hn =>
    have hd : b.dispatched = b.entries.length := by simpa [hn, Control.through] using h.dispatched
    rw [hd]
    exact h.steers_onward (by simp [hn, Control.busy?]) hsettled
  · next hn =>
    refine h.toSteers.set he (fun _ => hsettled) (fun hu => ?_) fun hc => absurd hc hn
    simp [hs] at hu

/-- The item of a listener that gave its permit back can be counted, if the aggregate agrees. -/
theorem tally (h : Valid commands b) {index : Nat} {e : Entry σ} {collected : List (Item σ)}
    {aggregate : Handle (List (Item σ)) Listener} (he : b.entries[index]? = some e)
    (hs : e.stage = .released)
    (hint : b.interrupted = true → aggregate.outcome = b.aggregate.outcome)
    (hpend : b.interrupted = false → 0 < b.remaining - 1 → aggregate.outcome = none)
    (hcomp : b.interrupted = false → b.remaining - 1 = 0 →
      aggregate.outcome = some (.ok b.gathered))
    (hgath : b.interrupted = false →
      { b with collected := collected, aggregate := aggregate }.gathered = b.gathered) :
    Valid commands { b.setEntry index { e with stage := .counted } with
      remaining := b.remaining - 1
      control := if b.control = .noting index then b.onward else b.control
      collected := collected
      aggregate := aggregate } := by
  have hpos := h.remaining_pos he (by simp [hs])
  have hfits : Entry.Fits { e with stage := .counted } :=
    Entry.fits_of_isSome ((h.fits he).isSome (by simp [hs]) (by simp [hs])) (by simp)
  exact {
    toFollows := h.toFollows.set he (fun _ hc => hc) hfits
    toSteers := h.steers_counted he hs
    toBalances := by
      refine h.toBalances.set he _ ?_ ?_
      · rw [hs]
        rfl
      · simp only [hs, reduceCtorEq, decide_false, decide_true, Bool.toNat_false, Bool.toNat_true]
        exact Nat.sub_add_cancel hpos
    queries := h.queries
    rest := by simpa [setEntry] using h.rest
    ended := fun hc hi => by
      by_cases hn : b.control = .noting index
      · rcases h.onward_cases with ⟨ho, -⟩ | ⟨-, ho⟩
        · simp [hn, ho] at hc
        · simpa [setEntry] using ho
      · simpa [setEntry] using h.ended (by simpa [hn] using hc) hi
    interrupted := fun hi => by
      obtain ⟨hc, hl, ho⟩ := h.interrupted hi
      refine ⟨by simp [hc], by simpa [setEntry] using hl, ?_⟩
      simpa [setEntry] using (hint hi).trans ho
    pending := fun hi hr => hpend hi hr
    completed := fun hi hr => by
      have := hgath hi
      have := hcomp hi hr
      simp_all [Batch.gathered, setEntry]
    gathered := fun hi => by
      have hset : IsGathered (b.entries.set index { e with stage := .counted }) b.gathered :=
        (h.gathered hi).set he (by simp [hs, Stage.hasCollected]) fun _ => rfl
      rw [← hgath hi] at hset
      exact hset }

/-- The last step of a listener keeps a batch valid. If its item was the last that remained, the
batch is completed with what was collected. -/
theorem count (h : Valid commands b) {index : Nat} {e : Entry σ}
    (he : b.entries[index]? = some e) (hs : e.stage = .released) :
    Valid commands ((b.setEntry index { e with stage := .counted }).count index).1 := by
  have hpos := h.remaining_pos he (by simp [hs])
  unfold Batch.count
  dsimp only
  split
  · next hlast =>
    have hlast : b.remaining = 1 := hlast
    have hall : b.entries.length = commands.length := by
      have := h.length_lt_of_stage he (by simp [hs])
      have := h.length_le
      omega
    have hint : b.interrupted = false :=
      Bool.eq_false_iff.2 fun hi => absurd hall (Nat.ne_of_lt (h.interrupted hi).2.1)
    have hp := h.pending hint hpos
    have hg := gathered_of_pending hp
    rw [complete_of_pending (by exact hp)]
    refine h.tally he hs ?_ ?_ ?_ ?_
    · intro hi
      simp [hint] at hi
    · intro _ hr
      omega
    · intro _ _
      rw [hg]
      rfl
    · intro _
      rw [hg]
      rfl
  · next hlast =>
    have hlast : b.remaining ≠ 1 := hlast
    refine h.tally he hs (fun _ => rfl) (fun hi _ => h.pending hi hpos) (fun _ hr => ?_)
      (fun _ => rfl)
    omega

/-! ## Dispatching -/

/-- Handling a command adds its entry, for which a permit was taken. -/
theorem handle (h : Valid commands b) (hc : b.control = .ready) {permits : Permits}
    (ht : b.permits.take = (permits, true)) (ordinal : Nat) {c : Command σ}
    {rest : List (Command σ)} (hr : b.rest = c :: rest) :
    Valid commands ({ b with permits := permits, rest := rest }.handle ordinal c).1 := by
  have hint := h.interrupted_eq_false (by simp [hc])
  have hdrop : commands.drop b.entries.length = c :: rest := h.rest.symm.trans hr
  have hlt : b.entries.length < commands.length := h.ready hc
  have hcmd : commands[b.entries.length]? = some c := by
    rw [← List.head?_drop, hdrop]
    rfl
  have hp := h.pending hint (h.remaining_pos_of_lt hlt)
  rw [handle_fields]
  exact {
    toFollows := h.toFollows.append hcmd
    settled := fun {i x} hx hb => by
      rcases getElem?_append_singleton_cases hx with ⟨rfl, rfl⟩ | hx
      · exact absurd rfl hb
      · exact h.settled hx (by simp [hc, Control.busy?])
    busy := fun {i} hb => by
      obtain rfl : b.entries.length = i := by simpa [Control.busy?] using hb
      simp
    submitting := fun {i x} hs hx => by
      obtain rfl : b.entries.length = i := by simpa using hs
      rw [List.getElem?_concat_length] at hx
      cases hx
      rfl
    noting := fun {i x} hs _ => by simp at hs
    dispatched := by
      have := h.dispatched
      rw [hc] at this
      exact this
    ready := fun hs => by simp at hs
    held := by
      have hu := (Permits.unheld_of_take ht).1
      have hnew : (Entry.ofCommand c).stage.holdsPermit = true := rfl
      have := h.held
      simp only [List.countP_append, List.countP_singleton, hnew, if_true]
      omega
    remaining := by
      have hnew : (Entry.ofCommand c).stage = .unwatched := rfl
      simpa [hnew] using h.remaining
    queries := h.queries
    rest := by
      have := congrArg List.tail hdrop
      simpa [List.tail_drop] using this.symm
    ended := fun hs => by simp at hs
    interrupted := fun hi => by simp [hint] at hi
    pending := fun hi hr => h.pending hi hr
    completed := fun hi hr => h.completed hi hr
    gathered := fun hi => (h.gathered hi).append rfl }

/-- To wait for a permit changes nothing that others see. -/
theorem wait (h : Valid commands b) {permits : Permits} (ht : b.permits.take = (permits, false)) :
    Valid commands { b with permits := permits } := by
  obtain ⟨rfl, hu⟩ := Permits.unheld_of_not_take ht
  have hheld := h.held
  rw [hu] at hheld
  exact { h with held := hheld }

/-- Dispatching that leaves the entry it submitted runs its listener or goes on. -/
theorem steers_registered (h : Valid commands b) {index : Nat} {e : Entry σ} {s : Stage}
    {control : Control} (hc : b.control = .submitting index)
    (hs : s = .due ∧ control = .noting index ∨
      s = .awaited ∧ e.isSubmitted = true ∧ control = b.onward) :
    Steers commands.length (b.entries.set index { e with stage := s }) control
      (b.dispatched + 1) := by
  have hbusy : b.control.busy? = some index := by simp [hc, Control.busy?]
  have hlen : index + 1 = b.entries.length := h.busy hbusy
  have hd : b.dispatched + 1 = b.entries.length := by
    rw [h.dispatched, hc]
    exact hlen
  rw [hd]
  rcases hs with ⟨rfl, rfl⟩ | ⟨rfl, hsub, rfl⟩
  · exact {
      settled := fun {i x} hx hb => by
        rcases getElem?_set_cases hx with ⟨rfl, rfl⟩ | ⟨hi, hx⟩
        · exact absurd rfl hb
        · refine h.settled hx fun hb' => hi ?_
          exact Option.some.inj (hb'.symm.trans hbusy)
      busy := fun {i} hb => by
        obtain rfl : index = i := by simpa [Control.busy?] using hb
        simpa using hlen
      submitting := fun hc' => by simp at hc'
      noting := fun {i x} hc' hx => by
        obtain rfl : index = i := by simpa using hc'
        rcases getElem?_set_cases hx with ⟨-, rfl⟩ | ⟨hi, -⟩
        · rfl
        · exact absurd rfl hi
      dispatched := by simp [Control.through]
      ready := fun hr => by simp at hr }
  · refine h.steers_onward hbusy ⟨by simp, fun hn => ?_⟩
    rw [show Entry.isSubmitted { e with stage := .awaited } = e.isSubmitted from rfl, hsub] at hn
    cases hn

/-- Dispatching that leaves the entry it submitted keeps a batch valid, if the listener is fit for
the item, and either runs or waits. -/
theorem register (h : Valid commands b) {index : Nat} {e : Entry σ} {s : Stage} {control : Control}
    (hc : b.control = .submitting index) (he : b.entries[index]? = some e)
    (hfits : Entry.Fits { e with stage := s })
    (hs : s = .due ∧ control = .noting index ∨
      s = .awaited ∧ e.isSubmitted = true ∧ control = b.onward) :
    Valid commands { b.setEntry index { e with stage := s } with
      dispatched := b.dispatched + 1, control := control } := by
  have hunwatched := h.submitting hc he
  have hint := h.interrupted_eq_false (by simp [hc])
  have hp := h.pending hint (h.remaining_pos he (by simp [hunwatched]))
  have hheld : s.holdsPermit = true := by rcases hs with ⟨rfl, -⟩ | ⟨rfl, -⟩ <;> rfl
  have hnot : s ≠ .counted := by rcases hs with ⟨rfl, -⟩ | ⟨rfl, -⟩ <;> simp
  have hcollected : s.hasCollected = false := by rcases hs with ⟨rfl, -⟩ | ⟨rfl, -⟩ <;> rfl
  exact {
    toFollows := h.toFollows.set he (fun _ hc => hc) hfits
    toSteers := h.steers_registered hc hs
    toBalances := by
      refine h.toBalances.set he _ ?_ ?_
      · rw [hunwatched, hheld]
        rfl
      · simp [hunwatched, hnot, setEntry]
    queries := h.queries
    rest := by simpa [setEntry] using h.rest
    ended := fun hr _ => by
      rcases hs with ⟨-, rfl⟩ | ⟨-, -, rfl⟩
      · simp at hr
      · rcases h.onward_cases with ⟨ho, -⟩ | ⟨-, hl⟩
        · simp [ho] at hr
        · simpa [setEntry] using hl
    interrupted := fun hi => by simp [setEntry, hint] at hi
    pending := fun _ _ => hp
    completed := fun hi hr => h.completed hi hr
    gathered := fun hi => by
      refine (h.gathered hi).set he ?_ fun hcol => ?_
      · rw [hunwatched]
        exact hcollected
      · simp [hunwatched, Stage.hasCollected] at hcol }

theorem watch (h : Valid commands b) {index : Nat} (hc : b.control = .submitting index) :
    Valid commands (b.watch index) := by
  unfold Batch.watch
  split
  · exact h
  · next e he =>
    dsimp only
    split
    · next hd => exact h.register hc he (Entry.fits_of_isSome hd (by simp)) (.inl ⟨rfl, rfl⟩)
    · next hd =>
      have hnone : e.outcome? = none := by simpa using hd
      have hsub : e.isSubmitted = true := by
        unfold Entry.isSubmitted
        cases hop : e.operation with
        | ok op => rfl
        | error x => simp [Entry.outcome?, hop] at hnone
      exact h.register hc he hnone (.inr ⟨rfl, hsub, rfl⟩)

/-- To stop dispatching before the next command fails the batch. -/
theorem stop (h : Valid commands b) (hc : b.control = .ready) :
    Valid commands { b with control := .ended, permits := b.permits.leave }.interrupt.1 := by
  have hint := h.interrupted_eq_false (by simp [hc])
  have hlt := h.ready hc
  have hp := h.pending hint (h.remaining_pos_of_lt hlt)
  have hd : b.dispatched = b.entries.length := by simpa [hc, Control.through] using h.dispatched
  have hsettled {i : Nat} {e : Entry σ} (he : b.entries[i]? = some e) : e.Settled :=
    h.settled he (by simp [hc, Control.busy?])
  rw [interrupt_of_pending (by exact hp)]
  exact {
    toFollows := h.toFollows
    toSteers := by
      rw [hd]
      exact .of_settled hsettled (.inr rfl)
    held := by simpa using h.held
    remaining := h.remaining
    queries := h.queries
    rest := h.rest
    ended := fun _ hi => by simp at hi
    interrupted := fun _ => ⟨rfl, hlt, by rw [← h.total_eq, ← hd]; rfl⟩
    pending := fun hi => by simp at hi
    completed := fun hi => by simp at hi
    gathered := fun hi => by simp at hi }

/-- While dispatching has the next command before it, there is one. -/
theorem rest_ne_nil (h : Valid commands b) (hc : b.control = .ready) : b.rest ≠ [] := by
  have := h.ready hc
  rw [h.rest, ne_eq, List.drop_eq_nil_iff]
  omega

/-! ## Moves -/

theorem listen (h : Valid commands b) (l : Listener) : Valid commands (b.listen l).1 := by
  have ho : (b.aggregate.listen l).1.outcome = b.aggregate.outcome := by simp
  have hg : (b.listen l).1.gathered = b.gathered := gathered_congr ho rfl
  exact { h with
    interrupted := fun hi => by
      obtain ⟨hc, hl, hx⟩ := h.interrupted hi
      exact ⟨hc, hl, ho.trans hx⟩
    pending := fun hi hr => ho.trans (h.pending hi hr)
    completed := fun hi hr => by
      rw [hg]
      exact ho.trans (h.completed hi hr)
    gathered := fun hi => by
      rw [hg]
      exact h.gathered hi }

/-- Every step keeps a batch valid. -/
theorem step (h : Valid commands b) {m : Move} {r : Batch σ × List Notice} (hs : Step b m r) :
    Valid commands r.1 := by
  cases hs with
  | stop hc hs => exact h.stop hc
  | finish hc hl hr => exact absurd hr (h.rest_ne_nil hc)
  | wait hc hl hr ht => exact h.wait ht
  | handle hc hl hr ht => exact h.handle hc ht _ hr
  | watch hc => exact h.watch hc
  | answer he => exact h.answer he _
  | report he hs => exact h.report he hs
  | collect he hs => exact h.collect he hs
  | release he hs => exact h.release he hs
  | count he hs => exact h.count he hs
  | listen => exact h.listen _
  | rest | unanswered | still | keep => exact h

theorem perform (h : Valid commands b) (m : Move) : Valid commands (b.perform m).1 :=
  h.step (step_perform b m)

/-- So do any moves. -/
theorem run (h : Valid commands b) (ms : List Move) : Valid commands (b.run ms).1 := by
  induction ms generalizing b with
  | nil => exact h
  | cons m ms ih => exact ih (h.perform m)

end Valid

end StoreClient.Batch
