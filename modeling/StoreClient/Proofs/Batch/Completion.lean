import Mathlib.Data.List.Nodup
import StoreClient.Proofs.Batch.Events
import StoreClient.Proofs.Batch.Interruption

/-!
# Completed batches

Nothing remains of a batch exactly when the listener of every command is through
(`Valid.remaining_eq_zero_iff`). Unless it was interrupted, the batch is completed then, and not
before. Its value has the item of every command once (`Valid.perm_range`), in the `order` in which
the listeners collected them (`Valid.gathered_run`). Where listeners run one at a time, that is the
order in which they told the observer (`Valid.announced_step`).
-/

namespace StoreClient.Batch

variable {σ : Signature} {commands : List (Command σ)} {b : Batch σ}

/-! ## Counting -/

namespace Valid

/-- Nothing remains when every command was handled and its listener is through. -/
theorem remaining_eq_zero_iff (h : Valid commands b) : b.remaining = 0 ↔
    ∀ k < commands.length, ∃ e, b.entries[k]? = some e ∧ e.stage = .counted := by
  have hr := h.remaining
  have hle := h.length_le
  have hcount : b.entries.countP (·.stage = .counted) ≤ b.entries.length := List.countP_le_length
  constructor
  · intro hz k hk
    have hall : b.entries.countP (·.stage = .counted) = b.entries.length := by omega
    have hlt : k < b.entries.length := by omega
    refine ⟨b.entries[k], List.getElem?_eq_getElem hlt, ?_⟩
    simpa using List.countP_eq_length.1 hall _ (List.getElem_mem hlt)
  · intro hall
    have hlen : b.entries.length = commands.length := by
      rcases Nat.lt_or_ge b.entries.length commands.length with hlt | hge
      · obtain ⟨e, he, -⟩ := hall _ hlt
        simp at he
      · omega
    have : b.entries.countP (·.stage = .counted) = b.entries.length := by
      rw [List.countP_eq_length]
      intro e he
      obtain ⟨k, hk, rfl⟩ := List.getElem_of_mem he
      obtain ⟨e', he', hs⟩ := hall k (hlen ▸ hk)
      rw [List.getElem?_eq_getElem hk] at he'
      cases he'
      simpa using hs
    omega

/-- When nothing remains, every command was handled. -/
theorem length_eq_of_remaining (h : Valid commands b) (hr : b.remaining = 0) :
    b.entries.length = commands.length := by
  have := h.remaining
  have := h.length_le
  have : b.entries.countP (·.stage = .counted) ≤ b.entries.length := List.countP_le_length
  omega

/-- A batch of which nothing remains was not interrupted. -/
theorem interrupted_eq_false_of_remaining (h : Valid commands b) (hr : b.remaining = 0) :
    b.interrupted = false := by
  refine Bool.eq_false_iff.2 fun hi => ?_
  have := h.remaining_pos_of_lt (h.interrupted hi).2.1
  omega

/-- The value of a batch has the item of every command once. -/
theorem perm_range (h : Valid commands b) (hr : b.remaining = 0) :
    (b.gathered.map (·.index)).Perm (List.range commands.length) := by
  have hg := h.gathered (h.interrupted_eq_false_of_remaining hr)
  refine (List.perm_ext_iff_of_nodup hg.nodup List.nodup_range).2 fun k => ?_
  have hall := h.remaining_eq_zero_iff.1 hr
  rw [List.mem_map, List.mem_range]
  constructor
  · rintro ⟨item, hitem, rfl⟩
    obtain ⟨e, he, -⟩ := (hg.mem_iff item).1 hitem
    exact Nat.lt_of_lt_of_le (List.getElem?_eq_some_iff.1 he).1 h.length_le
  · intro hk
    obtain ⟨e, he, hs⟩ := hall k hk
    obtain ⟨item, hitem⟩ := Entry.isSome_item?
      ((h.fits he).isSome (by simp [hs]) (by simp [hs])) k
    have hindex := Entry.index_of_item? hitem
    refine ⟨item, (hg.mem_iff item).2 ⟨e, ?_, ?_, ?_⟩, hindex⟩
    · rwa [hindex]
    · rw [hs]
      rfl
    · rwa [hindex]

end Valid

/-! ## The order of the items -/

/-- The position of the item that a listener collects. -/
def collects (b : Batch σ) : Move → List Nat
  | .proceed index => match b.entries[index]? with
    | some e => if e.stage = .reported then [index] else []
    | none => []
  | _ => []

/-- The positions of the items in the order in which listeners collect them. -/
def order (b : Batch σ) : List Move → List Nat
  | [] => []
  | m :: ms => b.collects m ++ (b.perform m).1.order ms

theorem collects_eq_nil {index : Nat}
    (h : ∀ e, b.entries[index]? = some e → e.stage ≠ .reported) :
    b.collects (.proceed index) = [] := by
  simp only [collects]
  split
  · next e he => rw [if_neg (h e he)]
  · rfl

theorem gathered_watch (b : Batch σ) (index : Nat) : (b.watch index).gathered = b.gathered := by
  unfold watch
  split
  · rfl
  · dsimp only
    split <;> rfl

namespace Valid

/-- Counting an item leaves what was gathered, also where it completes the batch. -/
theorem gathered_count (h : Valid commands b) {index : Nat} {e : Entry σ}
    (he : b.entries[index]? = some e) (hs : e.stage = .released) (hi : b.interrupted = false) :
    ((b.setEntry index { e with stage := .counted }).count index).1.gathered = b.gathered := by
  have hp := h.pending hi (h.remaining_pos he (by simp [hs]))
  unfold Batch.count
  dsimp only
  split
  · rw [complete_of_pending (by exact hp), gathered_of_pending hp]
    rfl
  · rfl

/-- What is gathered grows by what a listener collects. -/
theorem gathered_step (h : Valid commands b) {m : Move} {r : Batch σ × List Notice}
    (hs : Step b m r) (hi : r.1.interrupted = false) :
    r.1.gathered.map (·.index) = b.gathered.map (·.index) ++ b.collects m := by
  have hint := h.interrupted_step hs
  rw [hi, eq_comm, Bool.or_eq_false_iff] at hint
  have hsame : ∀ {b' : Batch σ}, b'.gathered = b.gathered → b.collects m = [] →
      b'.gathered.map (·.index) = b.gathered.map (·.index) ++ b.collects m := by
    intro b' hg hc
    rw [hg, hc, List.append_nil]
  cases hs with
  | stop hc hs => exact absurd (hs.symm.trans hint.2) (by simp)
  | handle hc hl hr ht =>
    rw [handle_fields]
    exact hsame rfl rfl
  | watch hc => exact hsame (gathered_watch b _) rfl
  | @collect index e he hs =>
    have hp := h.pending hint.1 (h.remaining_pos he (by simp [hs]))
    obtain ⟨item, hitem⟩ := Entry.isSome_item?
      ((h.fits he).isSome (by simp [hs]) (by simp [hs])) index
    have hcollects : b.collects (.proceed index) = [index] := by simp [collects, he, hs]
    rw [gathered_of_pending hp, gathered_of_pending (by exact hp), hcollects]
    simp [hint.1, hitem, Entry.index_of_item? hitem]
  | count he hs =>
    exact hsame (h.gathered_count he hs hint.1) (by simp [collects, he, hs])
  | @still index hs =>
    refine hsame rfl (collects_eq_nil fun e he hr => ?_)
    simpa [hr, Stage.isRunning] using hs e he
  | listen => exact hsame (gathered_congr (by simp [Batch.listen]) rfl) rfl
  | report he hs => exact hsame rfl (by simp [collects, he, hs])
  | release he hs => exact hsame rfl (by simp [collects, he, hs])
  | _ => exact hsame rfl rfl

/-- So the items are gathered in the order in which the listeners collect them. -/
theorem gathered_run (h : Valid commands b) (ms : List Move)
    (hi : (b.run ms).1.interrupted = false) :
    (b.run ms).1.gathered.map (·.index) = b.gathered.map (·.index) ++ b.order ms := by
  induction ms generalizing b with
  | nil => simp [Batch.run, order]
  | cons m ms ih =>
    have hm : (b.perform m).1.interrupted = false := by
      refine Bool.eq_false_iff.2 fun hm => ?_
      have := ((h.perform m).run_of_interrupted hm ms).1
      rw [show ((b.perform m).1.run ms).1 = (b.run (m :: ms)).1 from rfl, hi] at this
      simp at this
    have hstep := h.gathered_step (step_perform b m) hm
    have hrun := ih (h.perform m) hi
    rw [show (b.run (m :: ms)).1 = ((b.perform m).1.run ms).1 from rfl, hrun, hstep, order,
      List.append_assoc]

end Valid

/-! ## How far listeners are -/

/-- The listener of the item is at a stage of which `q` holds. -/
def HasStage (b : Batch σ) (q : Stage → Prop) (k : Nat) : Prop :=
  ∃ e, b.entries[k]? = some e ∧ q e.stage

section HasStage

variable {q : Stage → Prop}

/-- An exchange of an entry brings nobody to such a stage but this one. -/
theorem hasStage_of_set {b' : Batch σ} {index k : Nat} {e f : Entry σ}
    (he : b.entries[index]? = some e) (hb : b'.entries = b.entries.set index f)
    (hq : q f.stage → q e.stage) (h : b'.HasStage q k) : b.HasStage q k := by
  obtain ⟨x, hx, hstage⟩ := h
  rw [hb] at hx
  rcases getElem?_set_cases hx with ⟨rfl, rfl⟩ | ⟨-, hx⟩
  · exact ⟨e, he, hq hstage⟩
  · exact ⟨x, hx, hstage⟩

/-- An exchange of an entry changes who is at such a stage only if it changes whether this one is.
-/
theorem hasStage_set {b' : Batch σ} {index : Nat} {e f : Entry σ}
    (he : b.entries[index]? = some e) (hb : b'.entries = b.entries.set index f)
    (hs : q e.stage ↔ q f.stage) (k : Nat) : b'.HasStage q k ↔ b.HasStage q k := by
  constructor
  · exact hasStage_of_set he hb hs.2
  · rintro ⟨x, hx, hq⟩
    unfold HasStage
    rw [hb]
    obtain ⟨z, hz, ⟨rfl, rfl, rfl⟩ | ⟨-, rfl⟩⟩ := exists_getElem?_set f he hx
    · exact ⟨_, hz, hs.1 hq⟩
    · exact ⟨_, hz, hq⟩

/-- A command that is handled has no listener yet. -/
theorem hasStage_append (hq : ¬ q .unwatched) {c : Command σ} {b' : Batch σ}
    (he : b'.entries = b.entries ++ [Entry.ofCommand c]) (k : Nat) :
    b'.HasStage q k ↔ b.HasStage q k := by
  unfold HasStage
  rw [he]
  constructor
  · rintro ⟨x, hx, hstage⟩
    rcases getElem?_append_singleton_cases hx with ⟨-, rfl⟩ | hx
    · exact absurd hstage hq
    · exact ⟨x, hx, hstage⟩
  · rintro ⟨x, hx, hstage⟩
    exact ⟨x, by rwa [List.getElem?_append_left (List.getElem?_eq_some_iff.1 hx).1], hstage⟩

/-- A listener that is registered has not taken a step. -/
theorem hasStage_watch (hu : ¬ q .unwatched) (hd : ¬ q .due) (ha : ¬ q .awaited)
    (h : Valid commands b) {index : Nat} (hc : b.control = .submitting index) (k : Nat) :
    (b.watch index).HasStage q k ↔ b.HasStage q k := by
  unfold watch
  split
  · rfl
  · next e he =>
    have hs := h.submitting hc he
    dsimp only
    split
    · exact hasStage_set he rfl (by simp [hs, hu, hd]) k
    · exact hasStage_set he rfl (by simp [hs, hu, ha]) k

end HasStage

/-! ## Listeners that run one at a time -/

/-- No two listeners run. -/
def IsSerial (b : Batch σ) : Prop :=
  ∀ ⦃k k' : Nat⦄ ⦃e e' : Entry σ⦄, b.entries[k]? = some e → b.entries[k']? = some e' →
    e.stage.isRunning = true → e'.stage.isRunning = true → k = k'

/-- The listener of the item has told the observer, and not yet collected it. -/
def HasReported (b : Batch σ) (k : Nat) : Prop :=
  ∃ e, b.entries[k]? = some e ∧ e.stage = .reported

/-- The items that observers were told of are those gathered, in their order, and at most one more,
which its listener has still to collect. -/
def Announced (b : Batch σ) (told : List Nat) : Prop :=
  ∃ late : Option Nat, told = b.gathered.map (·.index) ++ late.toList ∧
    ∀ k, late = some k ↔ b.HasReported k

theorem hasReported_setEntry {index : Nat} {e f : Entry σ} (he : b.entries[index]? = some e)
    (hs : e.stage = .reported ↔ f.stage = .reported) (k : Nat) :
    (b.setEntry index f).HasReported k ↔ b.HasReported k :=
  hasStage_set (q := (· = .reported)) he rfl hs k

namespace Announced

variable {b' : Batch σ} {index : Nat} {e : Entry σ} {told : List Nat}

/-- Most steps neither report nor collect. -/
theorem keep (h : b.Announced told) (hg : b'.gathered.map (·.index) = b.gathered.map (·.index))
    (hk : ∀ k, b'.HasReported k ↔ b.HasReported k) : b'.Announced told := by
  obtain ⟨late, rfl, hmem⟩ := h
  refine ⟨late, by rw [hg], fun k => ?_⟩
  rw [hmem, hk]

/-- A listener that tells the observer is the only one that runs. -/
theorem report (h : b.Announced told) (hser : b.IsSerial) (he : b.entries[index]? = some e)
    (hs : e.stage = .due) :
    (b.setEntry index { e with stage := .reported }).Announced (told ++ [index]) := by
  obtain ⟨late, rfl, hmem⟩ := h
  have hnone : ∀ k, ¬ b.HasReported k := by
    rintro k ⟨x, hx, hrep⟩
    obtain rfl : k = index := hser hx he (by rw [hrep]; rfl) (by rw [hs]; rfl)
    rw [he] at hx
    cases hx
    simp [hs] at hrep
  have hlate : late = none := Option.eq_none_iff_forall_ne_some.2 fun k hk =>
    hnone k ((hmem k).1 hk)
  rw [hlate, Option.toList_none, List.append_nil]
  refine ⟨some index, rfl, fun k => ?_⟩
  rw [Option.some.injEq]
  constructor
  · rintro rfl
    exact ⟨_, List.getElem?_set_self (List.getElem?_eq_some_iff.1 he).1, rfl⟩
  · rintro ⟨x, hx, hrep⟩
    rcases getElem?_set_cases hx with ⟨hk, -⟩ | ⟨-, hx⟩
    · exact hk.symm
    · exact absurd ⟨x, hx, hrep⟩ (hnone k)

/-- A listener that has told the observer is the next to collect its item. -/
theorem collect (h : b.Announced told) (he : b.entries[index]? = some e)
    (hs : e.stage = .reported)
    (hb : b'.entries = b.entries.set index { e with stage := .collected })
    (hg : b'.gathered.map (·.index) = b.gathered.map (·.index) ++ [index]) :
    b'.Announced told := by
  obtain ⟨late, rfl, hmem⟩ := h
  have hlate : late = some index := (hmem index).2 ⟨e, he, hs⟩
  refine ⟨none, ?_, fun k => ?_⟩
  · rw [hlate, hg, Option.toList_none, List.append_nil, Option.toList_some]
  constructor
  · intro hk
    cases hk
  · rintro ⟨x, hx, hrep⟩
    rw [hb] at hx
    rcases getElem?_set_cases hx with ⟨-, rfl⟩ | ⟨hk, hx⟩
    · cases hrep
    · have := (hmem k).2 ⟨x, hx, hrep⟩
      rw [hlate, Option.some.injEq] at this
      exact absurd this.symm hk

end Announced

namespace Valid

/-- While listeners run one at a time, at most one of them has told the observer and not yet
collected its item, so that items are collected in the order in which observers are told. -/
theorem announced_step (h : Valid commands b) {m : Move} {r : Batch σ × List Notice}
    (hs : Step b m r) (hi : r.1.interrupted = false) (hser : b.IsSerial) {told : List Nat}
    (ha : b.Announced told) : r.1.Announced (told ++ b.reports m) := by
  have hgath := h.gathered_step hs hi
  have hsame (hc : b.collects m = []) (hr : b.reports m = [])
      (hk : ∀ k, r.1.HasReported k ↔ b.HasReported k) : r.1.Announced (told ++ b.reports m) := by
    rw [hc, List.append_nil] at hgath
    rw [hr, List.append_nil]
    exact ha.keep hgath hk
  cases hs with
  | stop hc hs =>
    rw [interrupted_interrupt] at hi
    cases hi
  | handle hc hl hr ht =>
    exact hsame rfl rfl (hasStage_append (q := (· = .reported)) (by simp) (by rw [handle_fields]))
  | watch hc =>
    exact hsame rfl rfl
      (hasStage_watch (q := (· = .reported)) (by simp) (by simp) (by simp) h hc)
  | @answer index a e he =>
    refine hsame rfl rfl (hasReported_setEntry he ?_)
    rcases e.stage_answer a with hs | ⟨hs, hs'⟩ <;> simp [*]
  | @report index e he hst =>
    have hreports : b.reports (.proceed index) = [index] := by simp [reports, he, hst]
    rw [hreports]
    exact ha.report hser he hst
  | @collect index e he hst =>
    have hcollects : b.collects (.proceed index) = [index] := by simp [collects, he, hst]
    have hreports : b.reports (.proceed index) = [] := by simp [reports, he, hst]
    rw [hcollects] at hgath
    rw [hreports, List.append_nil]
    exact ha.collect he hst rfl hgath
  | release he hst =>
    refine hsame (by simp [collects, he, hst]) (by simp [reports, he, hst]) fun k => ?_
    exact hasReported_setEntry he (by simp [hst]) k
  | @count index e he hst =>
    refine hsame (by simp [collects, he, hst]) (by simp [reports, he, hst]) fun k => ?_
    have hk := hasReported_setEntry (f := { e with stage := .counted }) he (by simp [hst]) k
    unfold HasReported at hk ⊢
    rw [(count_fields _ _).2.2]
    exact hk
  | @still index hst =>
    refine hsame (collects_eq_nil fun e he hr => ?_) (reports_eq_nil fun e he hd => ?_)
      fun k => Iff.rfl
    · simpa [hr, Stage.isRunning] using hst e he
    · simpa [hd, Stage.isRunning] using hst e he
  | _ => exact hsame rfl rfl fun k => Iff.rfl

end Valid

/-! ## The event of completion -/

theorem remaining_count (b : Batch σ) (index : Nat) :
    (b.count index).1.remaining = b.remaining - 1 := by
  unfold count complete
  dsimp only
  split
  · split <;> rfl
  · rfl

theorem remaining_interrupt (b : Batch σ) : b.interrupt.1.remaining = b.remaining := by
  unfold interrupt
  dsimp only
  split <;> rfl

theorem remaining_watch (b : Batch σ) (index : Nat) :
    (b.watch index).remaining = b.remaining := by
  unfold watch
  split
  · rfl
  · dsimp only
    split <;> rfl

theorem Step.remaining_le {m : Move} {r : Batch σ × List Notice} (hs : Step b m r) :
    r.1.remaining ≤ b.remaining := by
  cases hs with
  | stop hc hs => exact Nat.le_of_eq (remaining_interrupt _)
  | handle hc hl hr ht =>
    exact Nat.le_of_eq (by rw [handle_fields])
  | watch hc => exact Nat.le_of_eq (remaining_watch b _)
  | count he hs =>
    rw [remaining_count]
    exact Nat.sub_le _ _
  | _ => exact Nat.le_refl _

theorem remaining_run_le (b : Batch σ) (ms : List Move) :
    (b.run ms).1.remaining ≤ b.remaining := by
  induction ms generalizing b with
  | nil => exact Nat.le_refl _
  | cons m ms ih => exact Nat.le_trans (ih (b.perform m).1) (step_perform b m).remaining_le

namespace Valid

/-- A batch is announced as complete, with all its items, by the step after which nothing remains.
-/
theorem completed_events (h : Valid commands b) {m : Move} {r : Batch σ × List Notice}
    (hs : Step b m r) : (Notice.events r.2).filterMap Event.completed? =
      if b.remaining ≠ 0 ∧ r.1.remaining = 0 then [commands.length] else [] := by
  have hvalid := h.step hs
  have hsame : r.1.remaining = b.remaining →
      (Notice.events r.2).filterMap Event.completed? = [] →
      (Notice.events r.2).filterMap Event.completed? =
        if b.remaining ≠ 0 ∧ r.1.remaining = 0 then [commands.length] else [] := by
    intro hr he
    rw [he, hr, if_neg fun hz => hz.1 hz.2]
  cases hs with
  | stop hc hs =>
    refine hsame (remaining_interrupt _) ?_
    rw [events_interrupt]
    split <;> rfl
  | handle hc hl hr ht =>
    refine hsame (by rw [handle_fields]) ?_
    rw [events_handle]
    split <;> rfl
  | watch hc => exact hsame (remaining_watch b _) rfl
  | @count index e he hs =>
    have hpos := h.remaining_pos he (by simp [hs])
    have hrem := remaining_count (b.setEntry index { e with stage := .counted }) index
    simp only [events_count, hrem, remaining_setEntry, aggregate_setEntry, collected_setEntry,
      id_setEntry]
    by_cases hlast : b.remaining = 1
    · have hz : ((b.setEntry index { e with stage := .counted }).count index).1.remaining = 0 := by
        rw [hrem]
        exact Nat.sub_eq_zero_of_le (Nat.le_of_eq hlast)
      have hint := hvalid.interrupted_eq_false_of_remaining hz
      rw [interrupted_count, interrupted_setEntry] at hint
      have hp := h.pending hint hpos
      have hlen : b.collected.length = commands.length := by
        have hperm := (hvalid.perm_range hz).length_eq
        rw [List.length_map, List.length_range, h.gathered_count he hs hint,
          gathered_of_pending hp] at hperm
        exact hperm
      simp [hlast, hp, hlen, Event.completed?]
    · have : b.remaining - 1 ≠ 0 := by omega
      simp [hlast, this]
  | answer he => exact hsame rfl (by simp)
  | listen => exact hsame rfl (by simp)
  | _ => exact hsame rfl rfl

/-- So a run announces it once if nothing remains after it, and never if something does. -/
theorem completed_run (h : Valid commands b) (ms : List Move) :
    (Notice.events (b.run ms).2).filterMap Event.completed? =
      if b.remaining ≠ 0 ∧ (b.run ms).1.remaining = 0 then [commands.length] else [] := by
  induction ms generalizing b with
  | nil =>
    rw [if_neg fun hz => hz.1 hz.2]
    rfl
  | cons m ms ih =>
    have hs := step_perform b m
    have hle := hs.remaining_le
    have hrun := ih (h.perform m)
    rw [show (b.run (m :: ms)).2 = (b.perform m).2 ++ ((b.perform m).1.run ms).2 from rfl,
      show (b.run (m :: ms)).1 = ((b.perform m).1.run ms).1 from rfl, Notice.events_append,
      List.filterMap_append, hrun, h.completed_events hs]
    by_cases hz : (b.perform m).1.remaining = 0
    · have hle' := remaining_run_le (b.perform m).1 ms
      have hz' : ((b.perform m).1.run ms).1.remaining = 0 := by omega
      simp [hz, hz']
    · have hb : b.remaining ≠ 0 := by omega
      simp [hz, hb]

/-- While a batch was not interrupted, it is pending as long as an item remains. -/
theorem pending_iff (h : Valid commands b) (hi : b.interrupted = false) :
    b.aggregate.outcome = none ↔ b.remaining ≠ 0 := by
  constructor
  · intro hp hr
    rw [h.completed hi hr] at hp
    cases hp
  · exact fun hr => h.pending hi (Nat.pos_of_ne_zero hr)

end Valid

/-! ## The account of a batch -/

/-- The listener of the item is through. -/
def IsThrough (b : Batch σ) (k : Nat) : Prop := ∃ e, b.entries[k]? = some e ∧ e.stage = .counted

/-- What a batch of the commands amounts to that was not interrupted, if its listeners collected
their items in the given order, and observers were told of the events. -/
structure Accounts (commands : List (Command σ)) (b : Batch σ) (order : List Nat)
    (events : List Event) : Prop where
  /-- It is known by what identifies the commands, in their order. -/
  queries : b.queries = commands.map (·.query)
  /-- An item is done before its listener is through. -/
  done : ∀ {k : Nat}, b.IsThrough k → ∃ e x, b.entries[k]? = some e ∧ e.outcome? = some x
  /-- It is pending as long as the listener of an item is not through. -/
  pending_iff : b.aggregate.outcome = none ↔ ∃ k < commands.length, ¬ b.IsThrough k
  /-- After that it has a value, with one item for each command, in the order in which they were
  collected. Each is the item of the command at its index as it is now. -/
  value : (∀ k < commands.length, b.IsThrough k) → ∃ items,
    b.aggregate.outcome = some (.ok items) ∧
    (items.map (·.index)).Perm (List.range commands.length) ∧ items.map (·.index) = order ∧
    ∀ item ∈ items, ∃ e c, commands[item.index]? = some c ∧ b.entries[item.index]? = some e ∧
      e.IsOf c ∧ e.item? item.index = some item
  /-- The observers are told so once. -/
  completed : events.filterMap Event.completed? =
    if b.aggregate.outcome = none then [] else [commands.length]
  /-- The item of a command that makes no operation has failed for the reason why there is none. -/
  unbuildable : ∀ {k : Nat} {c : Command σ} {x : Cause} {e : Entry σ}, commands[k]? = some c →
    c.operation = .error x → b.entries[k]? = some e → e.outcome? = some (.error x)

theorem Valid.isThrough_iff (h : Valid commands b) :
    b.remaining ≠ 0 ↔ ∃ k < commands.length, ¬ b.IsThrough k := by
  rw [ne_eq, h.remaining_eq_zero_iff]
  unfold IsThrough
  constructor
  · intro hn
    by_contra hall
    exact hn fun k hk => by_contra fun hk' => hall ⟨k, hk, hk'⟩
  · rintro ⟨k, hk, hn⟩ hall
    exact hn (hall k hk)

/-- A valid batch that was not interrupted amounts to what it should. -/
theorem Valid.accounts (h : Valid commands b) (hi : b.interrupted = false) {order : List Nat}
    {events : List Event} (ho : b.gathered.map (·.index) = order)
    (he : events.filterMap Event.completed? = if b.remaining ≠ 0 then [] else [commands.length]) :
    Accounts commands b order events where
  queries := h.queries
  done {k} hk := by
    obtain ⟨e, he, hs⟩ := hk
    obtain ⟨x, hx⟩ := Option.isSome_iff_exists.1
      ((h.fits he).isSome (by simp [hs]) (by simp [hs]))
    exact ⟨e, x, he, hx⟩
  pending_iff := (h.pending_iff hi).trans h.isThrough_iff
  value hall := by
    have hr : b.remaining = 0 := h.remaining_eq_zero_iff.2 hall
    refine ⟨b.gathered, h.completed hi hr, h.perm_range hr, ho, fun item hitem => ?_⟩
    obtain ⟨e, he, -, hx⟩ := ((h.gathered hi).mem_iff item).1 hitem
    obtain ⟨c, hc, hof⟩ := h.isOf he
    exact ⟨e, c, hc, he, hof, hx⟩
  completed := by
    rw [he]
    by_cases hr : b.remaining = 0
    · have hp : b.aggregate.outcome ≠ none := fun hp => (h.pending_iff hi).1 hp hr
      rw [if_neg (not_not_intro hr), if_neg hp]
    · rw [if_pos hr, if_pos ((h.pending_iff hi).2 hr)]
  unbuildable {k c x e} hc hx he := by
    obtain ⟨c', hc', hof⟩ := h.isOf he
    rw [hc] at hc'
    cases hc'
    exact hof.outcome?_of_error hx

/-- When the listeners of all items are through, observers were told of every item in the order in
which they were gathered. -/
theorem Valid.told_eq (h : Valid commands b) (hr : b.remaining = 0) {told : List Nat}
    (ha : b.Announced told) : told = b.gathered.map (·.index) := by
  obtain ⟨late, rfl, hmem⟩ := ha
  have hlate : late = none := by
    refine Option.eq_none_iff_forall_ne_some.2 fun k hk => ?_
    obtain ⟨e, he, hs⟩ := (hmem k).1 hk
    have hk := Nat.lt_of_lt_of_le (List.getElem?_eq_some_iff.1 he).1 h.length_le
    obtain ⟨e', he', hs'⟩ := h.remaining_eq_zero_iff.1 hr k hk
    rw [he] at he'
    cases he'
    rw [hs] at hs'
    cases hs'
  rw [hlate, Option.toList_none, List.append_nil]

/-- A batch without entries has gathered nothing. -/
theorem Valid.gathered_eq_nil (h : Valid commands b) (hi : b.interrupted = false)
    (he : b.entries = []) : b.gathered = [] := by
  refine List.eq_nil_iff_forall_not_mem.2 fun item hitem => ?_
  obtain ⟨e, hx, -⟩ := ((h.gathered hi).mem_iff item).1 hitem
  simp [he] at hx

theorem announced_nil (hg : b.gathered = []) (he : b.entries = []) : b.Announced [] := by
  refine ⟨none, by simp [hg], fun k => ?_⟩
  simp [HasReported, he]

end StoreClient.Batch
