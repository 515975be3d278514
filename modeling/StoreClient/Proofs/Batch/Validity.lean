import StoreClient.Proofs.Batch.Entries

/-!
# Valid batches

`Valid commands b` is what holds of a batch of the given commands after any moves. It ties the
counters of the batch to its entries:

* every permit is held by an entry or by nobody (`held`);
* every command is counted or remains (`remaining`);
* what was collected is what the listeners have collected, each item once (`gathered`);
* the batch is interrupted only while commands are left, so that it can no more be completed
  (`interrupted`), and otherwise it is completed as soon as nothing remains (`completed`).

The rest says that the entries are those of the leading commands (`Follows`), and what dispatching
is at (`Steers`): an entry that it is not busy with is `Settled`.

One lemma for each kind of change shows that `Valid` is kept; `Valid.perform` and `Valid.run` put
them together.
-/

namespace StoreClient.Batch

variable {σ : Signature}

/-! ## Lists with an exchanged member -/

theorem countP_set_add {α : Type} (p : α → Bool) {l : List α} {n : Nat} {a : α} (b : α)
    (h : l[n]? = some a) :
    (l.set n b).countP p + (p a).toNat = l.countP p + (p b).toNat := by
  induction l generalizing n with
  | nil => simp at h
  | cons x l ih =>
    cases n with
    | zero =>
      simp only [List.getElem?_cons_zero, Option.some.injEq] at h
      subst h
      simp only [List.set_cons_zero, List.countP_cons]
      cases p x <;> cases p b <;> simp
    | succ n =>
      have := ih (by simpa using h)
      simp only [List.set_cons_succ, List.countP_cons]
      omega

theorem getElem?_set_cases {α : Type} {l : List α} {n i : Nat} {b x : α}
    (h : (l.set n b)[i]? = some x) : i = n ∧ x = b ∨ i ≠ n ∧ l[i]? = some x := by
  by_cases hi : i = n
  · subst hi
    have hlt : i < l.length := by
      have := (List.getElem?_eq_some_iff.1 h).1
      simpa using this
    rw [List.getElem?_set_self hlt] at h
    exact .inl ⟨rfl, (Option.some.inj h).symm⟩
  · rw [List.getElem?_set_ne (Ne.symm hi)] at h
    exact .inr ⟨hi, h⟩

/-- What an exchange of one entry does to any entry. -/
theorem exists_getElem?_set {α : Type} {l : List α} {n i : Nat} {a x : α} (y : α)
    (hn : l[n]? = some a) (hi : l[i]? = some x) :
    ∃ z, (l.set n y)[i]? = some z ∧ (n = i ∧ a = x ∧ z = y ∨ n ≠ i ∧ z = x) := by
  by_cases h : n = i
  · subst h
    obtain rfl : a = x := Option.some.inj (hn.symm.trans hi)
    exact ⟨y, List.getElem?_set_self (List.getElem?_eq_some_iff.1 hi).1, .inl ⟨rfl, rfl, rfl⟩⟩
  · exact ⟨x, by rwa [List.getElem?_set_ne h], .inr ⟨h, rfl⟩⟩

theorem getElem?_append_singleton_cases {α : Type} {l : List α} {i : Nat} {a x : α}
    (h : (l ++ [a])[i]? = some x) : i = l.length ∧ x = a ∨ l[i]? = some x := by
  rcases Nat.lt_trichotomy i l.length with hi | hi | hi
  · rw [List.getElem?_append_left hi] at h
    exact .inr h
  · subst hi
    simp only [List.getElem?_concat_length, Option.some.injEq] at h
    exact .inl ⟨rfl, h.symm⟩
  · have := (List.getElem?_eq_some_iff.1 h).1
    simp only [List.length_append, List.length_singleton] at this
    omega

/-! ## Valid batches -/

/-- The entry that dispatching is busy with. -/
def Control.busy? : Control → Option Nat
  | submitting index => some index
  | noting index => some index
  | _ => none

/-- How many of the commands that have an entry dispatching is through with. -/
def Control.through (control : Control) (entries : Nat) : Nat :=
  match control with
  | submitting index => index
  | _ => entries

/-- Dispatching is done with the entry: its listener is registered, and through if there is no
operation. -/
def Entry.Settled (e : Entry σ) : Prop :=
  e.stage ≠ .unwatched ∧ (e.isSubmitted = false → e.stage = .counted)

/-- The items collected; of a completed batch, its value. -/
def gathered (b : Batch σ) : List (Item σ) :=
  match b.aggregate.outcome with
  | some (.ok items) => items
  | _ => b.collected

theorem gathered_congr {b b' : Batch σ} (ho : b'.aggregate.outcome = b.aggregate.outcome)
    (hc : b'.collected = b.collected) : b'.gathered = b.gathered := by
  simp [Batch.gathered, ho, hc]

/-- The items are those that listeners have collected, each once. -/
structure IsGathered (entries : List (Entry σ)) (items : List (Item σ)) : Prop where
  nodup : (items.map (·.index)).Nodup
  mem_iff : ∀ item, item ∈ items ↔ ∃ e, entries[item.index]? = some e ∧
    e.stage.hasCollected = true ∧ e.item? item.index = some item

/-- The entries are those of the leading commands. -/
structure Follows (commands : List (Command σ)) (entries : List (Entry σ)) : Prop where
  length_le : entries.length ≤ commands.length
  isOf : ∀ {i : Nat} {e : Entry σ}, entries[i]? = some e → ∃ c, commands[i]? = some c ∧ e.IsOf c
  fits : ∀ {i : Nat} {e : Entry σ}, entries[i]? = some e → e.Fits

/-- What dispatching of `total` commands is at, and what it made of the entries. -/
structure Steers (total : Nat) (entries : List (Entry σ)) (control : Control) (number : Nat) :
    Prop where
  settled : ∀ {i : Nat} {e : Entry σ}, entries[i]? = some e → control.busy? ≠ some i → e.Settled
  busy : ∀ {i : Nat}, control.busy? = some i → i + 1 = entries.length
  submitting : ∀ {i : Nat} {e : Entry σ}, control = .submitting i → entries[i]? = some e →
    e.stage = .unwatched
  noting : ∀ {i : Nat} {e : Entry σ}, control = .noting i → entries[i]? = some e →
    e.stage.isRunning = true
  dispatched : number = control.through entries.length
  ready : control = .ready → entries.length < total

/-- Every permit is held by an entry or by nobody, and every command is counted or remains. -/
structure Balances (total limit : Nat) (entries : List (Entry σ)) (permits : Permits)
    (number : Nat) : Prop where
  held : permits.unheld + entries.countP (·.stage.holdsPermit) = limit
  remaining : number + entries.countP (·.stage = .counted) = total

/-- What holds of a batch of the commands after any moves. -/
structure Valid (commands : List (Command σ)) (b : Batch σ) : Prop extends
    Follows commands b.entries, Steers commands.length b.entries b.control b.dispatched,
    Balances commands.length b.limit b.entries b.permits b.remaining where
  queries : b.queries = commands.map (·.query)
  rest : b.rest = commands.drop b.entries.length
  ended : b.control = .ended → b.interrupted = false → b.entries.length = commands.length
  interrupted : b.interrupted = true → b.control = .ended ∧ b.entries.length < commands.length ∧
    b.aggregate.outcome = some (.error (.dispatchInterrupted b.entries.length commands.length))
  pending : b.interrupted = false → 0 < b.remaining → b.aggregate.outcome = none
  completed : b.interrupted = false → b.remaining = 0 → b.aggregate.outcome = some (.ok b.gathered)
  gathered : b.interrupted = false → IsGathered b.entries b.gathered

variable {commands : List (Command σ)} {b : Batch σ}

/-! ## The parts of validity -/

theorem Follows.nil (commands : List (Command σ)) : Follows commands [] where
  length_le := Nat.zero_le _
  isOf h := by simp at h
  fits h := by simp at h

/-- An entry can be exchanged for one of the same command. -/
theorem Follows.set {entries : List (Entry σ)} (h : Follows commands entries) {index : Nat}
    {e e' : Entry σ} (he : entries[index]? = some e) (hof : ∀ c, e.IsOf c → e'.IsOf c)
    (hfits : e'.Fits) : Follows commands (entries.set index e') where
  length_le := by simpa using h.length_le
  isOf {i x} hx := by
    rcases getElem?_set_cases hx with ⟨rfl, rfl⟩ | ⟨-, hx⟩
    · obtain ⟨c, hc, hec⟩ := h.isOf he
      exact ⟨c, hc, hof c hec⟩
    · exact h.isOf hx
  fits {i x} hx := by
    rcases getElem?_set_cases hx with ⟨rfl, rfl⟩ | ⟨-, hx⟩
    · exact hfits
    · exact h.fits hx

/-- The entry of the next command can be added. -/
theorem Follows.append {entries : List (Entry σ)} (h : Follows commands entries) {c : Command σ}
    (hc : commands[entries.length]? = some c) :
    Follows commands (entries ++ [Entry.ofCommand c]) where
  length_le := by simpa using Nat.succ_le_of_lt (List.getElem?_eq_some_iff.1 hc).1
  isOf {i x} hx := by
    rcases getElem?_append_singleton_cases hx with ⟨rfl, rfl⟩ | hx
    · exact ⟨c, hc, Entry.isOf_ofCommand c⟩
    · exact h.isOf hx
  fits {i x} hx := by
    rcases getElem?_append_singleton_cases hx with ⟨rfl, rfl⟩ | hx
    · trivial
    · exact h.fits hx

section Steers

variable {total : Nat} {entries : List (Entry σ)} {control : Control} {number : Nat}

/-- Dispatching may have the next command before it, or have ended, when all entries are settled. -/
theorem Steers.of_settled
    (hs : ∀ {i : Nat} {e : Entry σ}, entries[i]? = some e → e.Settled)
    (hc : control = .ready ∧ entries.length < total ∨ control = .ended) :
    Steers total entries control entries.length where
  settled he _ := hs he
  busy hb := by rcases hc with ⟨rfl, -⟩ | rfl <;> simp [Control.busy?] at hb
  submitting hc' := by rcases hc with ⟨rfl, -⟩ | rfl <;> simp at hc'
  noting hc' := by rcases hc with ⟨rfl, -⟩ | rfl <;> simp at hc'
  dispatched := by rcases hc with ⟨rfl, -⟩ | rfl <;> rfl
  ready hr := by
    rcases hc with ⟨-, hl⟩ | rfl
    · exact hl
    · cases hr

/-- Once the entry that dispatching is busy with is settled, all are. -/
theorem Steers.settled_set (h : Steers total entries control number) {index : Nat}
    {e' : Entry σ} (hb : control.busy? = some index) (hs : e'.Settled) {i : Nat} {x : Entry σ}
    (hx : (entries.set index e')[i]? = some x) : x.Settled := by
  rcases getElem?_set_cases hx with ⟨-, rfl⟩ | ⟨hi, hx⟩
  · exact hs
  · refine h.settled hx fun hb' => hi ?_
    exact Option.some.inj (hb'.symm.trans hb)

/-- An entry can be exchanged for one that is as far from the point of view of dispatching. -/
theorem Steers.set (h : Steers total entries control number) {index : Nat} {e e' : Entry σ}
    (he : entries[index]? = some e) (hs : e.Settled → e'.Settled)
    (hwatch : e.stage = .unwatched → e'.stage = .unwatched)
    (hrun : control = .noting index → e'.stage.isRunning = true) :
    Steers total (entries.set index e') control number where
  settled {i x} hx hb := by
    rcases getElem?_set_cases hx with ⟨rfl, rfl⟩ | ⟨-, hx⟩
    · exact hs (h.settled he hb)
    · exact h.settled hx hb
  busy hb := by simpa using h.busy hb
  submitting {i x} hc hx := by
    rcases getElem?_set_cases hx with ⟨rfl, rfl⟩ | ⟨-, hx⟩
    · exact hwatch (h.submitting hc he)
    · exact h.submitting hc hx
  noting {i x} hc hx := by
    rcases getElem?_set_cases hx with ⟨rfl, rfl⟩ | ⟨-, hx⟩
    · exact hrun hc
    · exact h.noting hc hx
  dispatched := by
    rw [List.length_set]
    exact h.dispatched
  ready hc := by simpa using h.ready hc

end Steers

/-- An entry can be exchanged if what it held and what it counted moves elsewhere. -/
theorem Balances.set {total limit : Nat} {entries : List (Entry σ)} {permits : Permits}
    {number : Nat} (h : Balances total limit entries permits number) {index : Nat} {e : Entry σ}
    (he : entries[index]? = some e) (e' : Entry σ) {permits' : Permits} {number' : Nat}
    (hheld : permits'.unheld + e'.stage.holdsPermit.toNat =
      permits.unheld + e.stage.holdsPermit.toNat)
    (hcount : number' + (decide (e'.stage = .counted)).toNat =
      number + (decide (e.stage = .counted)).toNat) :
    Balances total limit (entries.set index e') permits' number' where
  held := by
    have := countP_set_add (fun x : Entry σ => x.stage.holdsPermit) e' he
    have := h.held
    omega
  remaining := by
    have := countP_set_add (fun x : Entry σ => decide (x.stage = .counted)) e' he
    have := h.remaining
    omega

/-- A new batch with commands is valid. -/
theorem valid_ofCommands (id limit : Nat) (h : commands ≠ []) :
    Valid commands (ofCommands id limit commands) where
  toFollows := .nil commands
  toSteers := .of_settled (by simp [ofCommands]) (.inl ⟨rfl, List.length_pos_iff.2 h⟩)
  held := rfl
  remaining := rfl
  queries := rfl
  rest := rfl
  ended h := by simp [ofCommands] at h
  interrupted h := by simp [ofCommands] at h
  pending _ _ := rfl
  completed _ hr := absurd (List.length_eq_zero_iff.1 hr) h
  gathered _ := ⟨List.nodup_nil, by simp [ofCommands, Batch.gathered]⟩

namespace Valid

/-! ## What validity tells -/

/-- The entry that dispatching is busy with is there. -/
theorem exists_entry (h : Valid commands b) {i : Nat} (hb : b.control.busy? = some i) :
    ∃ e, b.entries[i]? = some e :=
  ⟨_, List.getElem?_eq_getElem (Nat.lt_of_succ_le (Nat.le_of_eq (h.busy hb)))⟩

/-- While a listener is not through, items remain; if one remains, it is the last of all. -/
theorem length_lt_of_stage (h : Valid commands b) {i : Nat} {e : Entry σ}
    (he : b.entries[i]? = some e) (hs : e.stage ≠ .counted) :
    commands.length < b.entries.length + b.remaining := by
  have hlt : b.entries.countP (·.stage = .counted) < b.entries.length := by
    refine Nat.lt_of_le_of_ne List.countP_le_length fun heq => hs ?_
    simpa using List.countP_eq_length.1 heq e (List.mem_of_getElem? he)
  have := h.remaining
  omega

theorem remaining_pos (h : Valid commands b) {i : Nat} {e : Entry σ}
    (he : b.entries[i]? = some e) (hs : e.stage ≠ .counted) : 0 < b.remaining := by
  have := h.length_lt_of_stage he hs
  have := h.length_le
  omega

/-- While commands are left, items remain. -/
theorem remaining_pos_of_lt (h : Valid commands b) (hl : b.entries.length < commands.length) :
    0 < b.remaining := by
  have := h.remaining
  have : b.entries.countP (·.stage = .counted) ≤ b.entries.length := List.countP_le_length
  omega

/-- Dispatching that has not ended was not interrupted. -/
theorem interrupted_eq_false (h : Valid commands b) (hc : b.control ≠ .ended) :
    b.interrupted = false :=
  Bool.eq_false_iff.2 fun hi => hc (h.interrupted hi).1

theorem total_eq (h : Valid commands b) : b.total = commands.length := by
  simp [total, h.queries]

end Valid

end StoreClient.Batch
