import Mathlib.Data.List.Perm.Basic
import Mathlib.Logic.Function.Basic
import StoreClient.Proofs.Handle.Nesting

/-!
# Listeners run once

Whatever programs and their listeners do with handles, as long as nothing panics, their deeds are
lawful (`Lawful`): who registers a listener on a handle that is done runs it at once and before
anything else, who completes a handle runs the listeners that wait for it, in the order in which
they were registered, and nobody else runs listeners. So each listener runs once if its handle is
done, and not at all before that (`listeners_run_once`).
-/

namespace StoreClient.Program

variable {α : Type} {w w' w₁ w₂ : World α}

/-! ## Books -/

/-- The handle of each cell; a cell that is not there yet is as one that was just created. -/
abbrev Book (α : Type) := Nat → Handle α (Listener α)

/-- The handles of a world. -/
def World.book (w : World α) : Book α := fun n => (w.cells[n]?.map (·.handle)).getD {}

namespace World

theorem outcome?_eq (w : World α) (n : Nat) : w.outcome? n = (w.book n).outcome := by
  unfold outcome? book
  cases w.cells[n]? <;> rfl

theorem book_of_cell {n : Nat} {cell : Cell α} (h : w.cells[n]? = some cell) :
    w.book n = cell.handle := by
  simp [book, h]

@[simp] theorem book_create (w : World α) (query : String) : (w.create query).1.book = w.book := by
  funext n
  simp only [book, create]
  rcases Nat.lt_trichotomy n w.cells.length with hlt | rfl | hgt
  · rw [List.getElem?_append_left hlt]
  · simp
  · rw [List.getElem?_eq_none (by simp; omega), List.getElem?_eq_none (by omega)]

theorem book_setHandle {n : Nat} {cell : Cell α} (handle : Handle α (Listener α))
    (h : w.cells[n]? = some cell) :
    (w.setHandle n cell handle).book = Function.update w.book n handle := by
  have hn : n < w.cells.length := (List.getElem?_eq_some_iff.1 h).1
  funext m
  by_cases hm : m = n
  · subst hm
    simp [book, setHandle, hn]
  · rw [Function.update_of_ne hm]
    simp [book, setHandle, List.getElem?_set_ne (Ne.symm hm)]

end World

/-- What a deed makes of the handles. -/
def Book.note (b : Book α) : Mark α → Book α
  | .registered n l => Function.update b n ((b n).listen l).1
  | .completed n o => Function.update b n ⟨some o, []⟩
  | _ => b

/-! ## Lawful deeds -/

/-- Whether a listener ran. -/
def Mark.isRun : Mark α → Bool
  | ran _ _ _ => true
  | _ => false

/-- What may be done directly within a deed. -/
def Mark.Allows (b : Book α) (inside : List (Mark α)) : Mark α → Prop
  -- only a listener on a handle that is done runs at once
  | registered n l => inside = (b n).outcome.toList.map fun o => .ran n l (some o)
  -- the listeners that wait run in the order in which they were registered
  | completed n o => (b n).outcome = none ∧ inside = (b n).listeners.map fun l => .ran n l (some o)
  | refused n => (b n).isDone = true ∧ inside = []
  -- a listener makes calls of its own
  | ran n _ seen => (b n).isDone = true ∧ seen = (b n).outcome ∧ ∀ m ∈ inside, m.isRun = false

/-- Deeds that lead from the handles as they are in one book to those in another, with all that is
done within them. -/
inductive Lawful : Book α → List (Deed α) → Book α → Prop where
  | nothing {b : Book α} : Lawful b [] b
  | deed {b b₁ b₂ : Book α} {mark : Mark α} {inside ds : List (Deed α)}
      (hm : mark.Allows b (inside.map (·.mark))) (hi : Lawful (b.note mark) inside b₁)
      (hr : Lawful b₁ ds b₂) : Lawful b (⟨mark, inside⟩ :: ds) b₂

theorem Lawful.append {b b₁ b₂ : Book α} {ds later : List (Deed α)} (h : Lawful b ds b₁)
    (hr : Lawful b₁ later b₂) : Lawful b (ds ++ later) b₂ := by
  induction h with
  | nothing => exact hr
  | deed hm hi _ _ ih => exact .deed hm hi (ih hr)

/-! ## Steps and listeners -/

/-- Whether a frame runs listeners. -/
def Frame.isNotify : Frame α → Bool
  | notify _ _ => true
  | _ => false

/-- What a step or a listener does in a world: what it does itself, the world after it, and what it
leaves to be done. -/
inductive Acts (w : World α) : Option (Mark α) → World α → List (Frame α) → Prop where
  | calls {w' : World α} {fs : List (Frame α)} (hb : w'.book = w.book)
      (hfs : ∀ f ∈ fs, f.isNotify = false) : Acts w none w' fs
  | registers {w' : World α} {n : Nat} {l : Listener α} {a : Answer α}
      (hb : w'.book = Function.update w.book n ((w.book n).listen l).1) :
      Acts w (some (.registered n l)) w' [.notify n ((w.book n).listen l).2, .give a]
  | completes {w' : World α} {n : Nat} {o : Outcome α} {fs : List (Frame α)}
      (ho : (w.book n).outcome = none) (hb : w'.book = Function.update w.book n ⟨some o, []⟩)
      (hfs : fs = [] ∨ ∃ a, fs = [.give a]) :
      Acts w (some (.completed n o)) w' (.notify n (w.book n).listeners :: fs)
  | refuses {n : Nat} {a : Answer α} (hd : (w.book n).isDone = true) :
      Acts w (some (.refused n)) w [.give a]
  | panics {mark : Option (Mark α)} {text : String} : Acts w mark w [.panic text]

theorem isNotify_frames (name : String) (i : Nat) (body : List (Step α)) :
    ∀ f ∈ frames name i body, f.isNotify = false := by
  induction body generalizing i with
  | nil => exact List.forall_mem_nil _
  | cons s body ih =>
    intro f hf
    rcases List.mem_cons.1 hf with rfl | hf
    · rfl
    · rcases List.mem_cons.1 hf with rfl | hf
      · rfl
      · exact ih _ f hf

theorem Acts.give (w : World α) {w' : World α} (hb : w'.book = w.book) (a : Answer α) :
    Acts w none w' [.give a] :=
  .calls hb fun f hf => by
    rw [List.mem_singleton.1 hf]
    rfl

/-- To register a listener in the world that a cell is found in. -/
theorem Acts.register {n : Nat} {cell : Cell α} {w' : World α} (hc : w'.cells[n]? = some cell)
    (hb : w'.book = w.book) (l : Listener α) (a : Answer α) :
    Acts w (some (.registered n l)) (w'.setHandle n cell (cell.handle.listen l).1)
      [.notify n (cell.handle.listen l).2, .give a] := by
  have hcell : cell.handle = w.book n := by rw [← World.book_of_cell hc, hb]
  rw [hcell]
  refine .registers ?_
  rw [World.book_setHandle _ hc, hb]

/-- To complete a handle that is pending. -/
theorem Acts.complete {n : Nat} {cell : Cell α} (hc : w.cells[n]? = some cell)
    {handle : Handle α (Listener α)} {due : List (Listener α)} {o : Outcome α}
    (hcomplete : cell.handle.complete? o = some (handle, due)) {fs : List (Frame α)}
    (hfs : fs = [] ∨ ∃ a, fs = [.give a]) :
    Acts w (some (.completed n o)) (w.setHandle n cell handle) (.notify n due :: fs) := by
  obtain ⟨hpending, -, -, rfl⟩ := Handle.outcome_of_complete? hcomplete
  rw [Handle.complete?_of_pending hpending] at hcomplete
  cases hcomplete
  rw [← World.book_of_cell hc] at hpending ⊢
  exact .completes hpending (World.book_setHandle _ hc) hfs

theorem Step.acts (w : World α) (s : Step α) :
    Acts w (s.mark? w) (s.carryOut w).1 (s.carryOut w).2 := by
  cases s with
  | create query => exact .give w (w.book_create query) _
  | copy h =>
    simp only [carryOut, mark?]
    split
    · exact .give w rfl _
    · refine .give w ?_ _
      rfl
  | map h f =>
    simp only [carryOut, mark?]
    cases hf : w.find? h with
    | none => exact .give w rfl _
    | some found =>
      obtain ⟨n, cell⟩ := found
      exact .register (World.cell_create cell.query (World.cell_of_find? hf)) (w.book_create _) _ _
  | complete h o strict =>
    simp only [carryOut, mark?]
    cases hf : w.find? h with
    | none => exact .give w rfl _
    | some found =>
      obtain ⟨n, cell⟩ := found
      have hc := World.cell_of_find? hf
      dsimp only
      cases hcomplete : cell.handle.complete? o with
      | none =>
        have hd : cell.handle.isDone = true := (Handle.complete?_eq_none_iff _ o).1 hcomplete
        simp only [Option.map_some, hd, if_true]
        cases strict with
        | true => exact .panics
        | false => exact .refuses ((World.book_of_cell hc).symm ▸ hd)
      | some completed =>
        obtain ⟨handle, due⟩ := completed
        have hd : cell.handle.isDone = false := by
          simp [Handle.isDone, (Handle.outcome_of_complete? hcomplete).1]
        simp only [Option.map_some, hd, Bool.false_eq_true, if_false]
        exact .complete hc hcomplete (.inr ⟨_, rfl⟩)
  | ask h q =>
    simp only [carryOut, mark?]
    split <;> exact .give w rfl _
  | same h other => exact .give w rfl _
  | listen h name body panics =>
    simp only [carryOut, mark?]
    cases hf : w.find? h with
    | none => exact .give w rfl _
    | some found =>
      obtain ⟨n, cell⟩ := found
      exact .register (World.cell_of_find? hf) rfl _ _
  | await h =>
    simp only [carryOut, mark?]
    split
    · exact .give w rfl _
    · refine .give w ?_ _
      rfl
  | join number =>
    simp only [carryOut, mark?]
    repeat' split
    all_goals
      refine .give w ?_ _
      rfl

theorem Listener.acts (w : World α) (n : Nat) (l : Listener α) :
    Acts w (l.mark? w n) (l.carryOut w n).1 (l.carryOut w n).2.2 := by
  cases l with
  | observe name body panics =>
    refine .calls rfl fun f hf => ?_
    rcases List.mem_append.1 hf with hf | hf
    · exact isNotify_frames name 0 body f hf
    · cases panics with
      | true =>
        rw [List.mem_singleton.1 hf]
        rfl
      | false => cases hf
  | forward target f =>
    simp only [carryOut, mark?, World.outcome?]
    have hidle : Acts w none w [] := .calls rfl (List.forall_mem_nil _)
    cases w.cells[n]?.bind fun cell => cell.handle.outcome with
    | none => exact hidle
    | some o =>
      cases hc : w.cells[target]? with
      | none => exact hidle
      | some cell =>
        dsimp only
        cases hcomplete : cell.handle.complete? (o.bind f) with
        | none => exact .panics
        | some completed => exact .complete hc hcomplete (.inl rfl)

/-! ## What is done is lawful -/

variable {mark : Option (Mark α)} {fs rest : List (Frame α)} {ds inside : List (Deed α)}

/-- Whatever is done leaves an outcome as it is. -/
theorem Acts.outcome (h : Acts w mark w' fs) {n : Nat} {o : Outcome α}
    (ho : (w.book n).outcome = some o) : (w'.book n).outcome = some o := by
  cases h with
  | calls hb => rw [hb, ho]
  | @registers _ m l _ hb =>
    rw [hb]
    by_cases hn : n = m
    · subst hn
      rw [Function.update_self, Handle.outcome_listen, ho]
    · rw [Function.update_of_ne hn, ho]
  | @completes _ m _ _ hpending hb =>
    have hn : n ≠ m := by
      rintro rfl
      rw [hpending] at ho
      cases ho
    rw [hb, Function.update_of_ne hn, ho]
  | refuses => exact ho
  | panics => exact ho

theorem Does.outcome (h : Does w fs ds w') {n : Nat} {o : Outcome α}
    (ho : (w.book n).outcome = some o) : (w'.book n).outcome = some o := by
  induction h with
  | nothing => exact ho
  | perform _ _ ihi ihr => exact ihr (ihi ((Step.acts _ _).outcome ho))
  | run _ _ ihi ihr => exact ihr (ihi ((Listener.acts _ _ _).outcome ho))
  | notified _ ih => exact ih ho
  | report _ ih => exact ih ho
  | give _ ih => exact ih ho

/-- Nothing is done with an answer. -/
theorem Does.of_give {a : Answer α} (h : Does w [.give a] ds w') : ds = [] ∧ w' = w := by
  cases h with
  | give hr =>
    cases hr
    exact ⟨rfl, rfl⟩

/-- Listeners that are due run one after another, and see the outcome. -/
theorem Does.notify {n : Nat} {due : List (Listener α)} (h : Does w (.notify n due :: rest) ds w')
    {o : Outcome α} (ho : (w.book n).outcome = some o) : ∃ w₁ later, Does w₁ rest later w' ∧
      ds.map (·.mark) = due.map (.ran n · (some o)) ++ later.map (·.mark) := by
  induction due generalizing w ds with
  | nil =>
    cases h with
    | notified hr => exact ⟨_, _, hr, rfl⟩
  | cons l due ih =>
    cases h with
    | run hi hr =>
      obtain ⟨w₂, last, hlast, hmarks⟩ := ih hr (hi.outcome ((l.acts w n).outcome ho))
      refine ⟨w₂, last, hlast, ?_⟩
      rw [List.map_cons, hmarks, w.outcome?_eq, ho]
      rfl

/-- What a step or a listener does itself is allowed, and so is what is done within it. -/
theorem Acts.allows {m : Mark α} (h : Acts w (some m) w₁ fs) (hd : Does w₁ fs inside w') :
    m.isRun = false ∧ w₁.book = w.book.note m ∧ m.Allows w.book (inside.map (·.mark)) := by
  cases h with
  | @registers _ n l a hb =>
    refine ⟨rfl, hb, ?_⟩
    cases ho : (w.book n).outcome with
    | none =>
      have hlisten : ((w.book n).listen l).2 = [] := by simp [Handle.listen, ho]
      rw [hlisten] at hd
      cases hd with
      | notified hr =>
        obtain ⟨rfl, -⟩ := hr.of_give
        simp [Mark.Allows, ho]
    | some o =>
      have hlisten : ((w.book n).listen l).2 = [l] := by simp [Handle.listen, ho]
      have ho' : (w₁.book n).outcome = some o := by
        rw [hb, Function.update_self, Handle.outcome_listen, ho]
      rw [hlisten] at hd
      obtain ⟨w₂, later, hlater, hmarks⟩ := hd.notify ho'
      obtain ⟨rfl, -⟩ := hlater.of_give
      simpa [Mark.Allows, ho] using hmarks
  | @completes _ n o rest ho hb hrest =>
    have ho' : (w₁.book n).outcome = some o := by rw [hb, Function.update_self]
    obtain ⟨w₂, later, hlater, hmarks⟩ := hd.notify ho'
    have hnil : later = [] := by
      rcases hrest with rfl | ⟨a, rfl⟩
      · cases hlater
        rfl
      · exact hlater.of_give.1
    subst hnil
    exact ⟨rfl, hb, ho, by simpa using hmarks⟩
  | refuses hdone =>
    obtain ⟨rfl, -⟩ := hd.of_give
    exact ⟨rfl, rfl, hdone, rfl⟩
  | panics => cases hd

/-- What is done within a step or a listener is done by calls, if it does nothing itself. -/
theorem Acts.marks_within (h : Acts w mark w₁ fs) (hd : Does w₁ fs inside w')
    (hcalls : (∀ f ∈ fs, f.isNotify = false) → ∀ d ∈ inside, d.mark.isRun = false) :
    ∀ d ∈ within inside mark, d.mark.isRun = false := by
  cases mark with
  | none =>
    cases h with
    | calls _ hfs => exact hcalls hfs
    | panics => cases hd
  | some m =>
    intro d hmem
    rw [List.mem_singleton.1 hmem]
    exact (h.allows hd).1

/-- Calls run no listeners but within themselves. -/
theorem Does.marks_of_calls (h : Does w fs ds w') (hfs : ∀ f ∈ fs, f.isNotify = false) :
    ∀ d ∈ ds, d.mark.isRun = false := by
  induction h with
  | nothing => exact List.forall_mem_nil _
  | @perform w _ _ s _ _ _ hi _ ihi ihr =>
    have hrest := ihr fun f hf => hfs f (List.mem_cons_of_mem _ hf)
    exact List.forall_mem_append.2 ⟨(s.acts w).marks_within hi ihi, hrest⟩
  | run => cases hfs _ List.mem_cons_self
  | notified => cases hfs _ List.mem_cons_self
  | report _ ih => exact ih fun f hf => hfs f (List.mem_cons_of_mem _ hf)
  | give _ ih => exact ih fun f hf => hfs f (List.mem_cons_of_mem _ hf)

/-- Listeners are due only on handles that are done. -/
def DueDone (w : World α) (fs : List (Frame α)) : Prop :=
  ∀ n l due, .notify n (l :: due) ∈ fs → (w.book n).isDone = true

theorem DueDone.mono (h : DueDone w fs)
    (ho : ∀ n o, (w.book n).outcome = some o → (w'.book n).outcome = some o) : DueDone w' fs := by
  intro n l due hmem
  obtain ⟨o, hn⟩ := Option.isSome_iff_exists.1 (h n l due hmem)
  exact Option.isSome_iff_exists.2 ⟨o, ho n o hn⟩

theorem DueDone.tail {f : Frame α} (h : DueDone w (f :: fs)) : DueDone w fs :=
  fun n l due hmem => h n l due (List.mem_cons_of_mem _ hmem)

theorem Acts.dueDone (h : Acts w mark w' fs) : DueDone w' fs := by
  intro n l due hmem
  cases h with
  | calls _ hfs => cases hfs _ hmem
  | @registers _ m l' a hb =>
    rcases List.mem_cons.1 hmem with heq | hmem
    · injection heq with hn hdue
      subst hn
      rw [hb, Function.update_self, Handle.isDone, Handle.outcome_listen]
      cases ho : (w.book n).outcome with
      | none => simp [Handle.listen, ho] at hdue
      | some o => rfl
    · simp at hmem
  | @completes _ m o rest _ hb hrest =>
    rcases List.mem_cons.1 hmem with heq | hmem
    · injection heq with hn
      subst hn
      rw [hb, Function.update_self]
      rfl
    · rcases hrest with rfl | ⟨a, rfl⟩
      · cases hmem
      · simp at hmem
  | refuses => simp at hmem
  | panics => simp at hmem

theorem Acts.lawful (h : Acts w mark w₁ fs) (hd : Does w₁ fs inside w')
    (hl : Lawful w₁.book inside w'.book) : Lawful w.book (within inside mark) w'.book := by
  cases mark with
  | none =>
    cases h with
    | calls hb => exact hb ▸ hl
    | panics => exact hl
  | some m =>
    obtain ⟨-, hb, hm⟩ := h.allows hd
    exact .deed hm (hb ▸ hl) .nothing

/-- What is done is lawful. -/
theorem Does.lawful (h : Does w fs ds w') (hfs : DueDone w fs) : Lawful w.book ds w'.book := by
  induction h with
  | nothing => exact .nothing
  | @perform w w₁ w₂ s rest inside later hi hr ihi ihr =>
    have hacts := s.acts w
    have hstays (n : Nat) (o : Outcome α) (ho : (w.book n).outcome = some o) :
        (w₁.book n).outcome = some o := hi.outcome (hacts.outcome ho)
    exact (hacts.lawful hi (ihi hacts.dueDone)).append (ihr (hfs.tail.mono hstays))
  | @run w w₁ w₂ n l due rest inside later hi hr ihi ihr =>
    have hacts := l.acts w n
    have hstays (n : Nat) (o : Outcome α) (ho : (w.book n).outcome = some o) :
        (w₁.book n).outcome = some o := hi.outcome (hacts.outcome ho)
    have hdone := hfs n l due List.mem_cons_self
    have hrest : DueDone w (.notify n due :: rest) := by
      intro m l' due' hmem
      rcases List.mem_cons.1 hmem with heq | hmem
      · injection heq with hm
        rwa [hm]
      · exact hfs.tail m l' due' hmem
    have hcalls : ∀ m ∈ (within inside (l.mark? w n)).map (·.mark), m.isRun = false := by
      have hwithin := hacts.marks_within hi hi.marks_of_calls
      intro m hm
      obtain ⟨d, hd, rfl⟩ := List.mem_map.1 hm
      exact hwithin d hd
    exact .deed ⟨hdone, w.outcome?_eq n, hcalls⟩ (hacts.lawful hi (ihi hacts.dueDone))
      (ihr (hrest.mono hstays))
  | notified _ ih => exact ih hfs.tail
  | report _ ih => exact ih hfs.tail
  | give _ ih => exact ih hfs.tail

/-! ## Each listener runs once -/

section Counts

variable {b b' b₁ : Book α} {n : Nat}

/-- The listener that is registered on the handle in a cell. -/
def Mark.registered? (n : Nat) : Mark α → Option (Listener α)
  | registered m l => if m = n then some l else none
  | _ => none

/-- The outcome that the handle in a cell is completed with. -/
def Mark.completed? (n : Nat) : Mark α → Option (Outcome α)
  | completed m o => if m = n then some o else none
  | _ => none

/-- The listener on the handle in a cell that runs, and what it sees. -/
def Mark.ran? (n : Nat) : Mark α → Option (Listener α × Option (Outcome α))
  | ran m l seen => if m = n then some (l, seen) else none
  | _ => none

/-- The listeners that are registered on the handle in a cell, in their order. -/
def registrations (n : Nat) (ms : List (Mark α)) : List (Listener α) :=
  ms.filterMap (Mark.registered? n)

/-- The outcomes that the handle in a cell is completed with. -/
def completions (n : Nat) (ms : List (Mark α)) : List (Outcome α) :=
  ms.filterMap (Mark.completed? n)

/-- The listeners on the handle in a cell that run, in the order in which they begin, and what they
see. -/
def runs (n : Nat) (ms : List (Mark α)) : List (Listener α × Option (Outcome α)) :=
  ms.filterMap (Mark.ran? n)

theorem registrations_cons (n : Nat) (m : Mark α) (inside ds : List (Deed α)) :
    registrations n (marks (⟨m, inside⟩ :: ds)) =
      (m.registered? n).toList ++ registrations n (marks inside) ++ registrations n (marks ds) := by
  simp [registrations, List.filterMap_eq_flatMap_toList]

theorem completions_cons (n : Nat) (m : Mark α) (inside ds : List (Deed α)) :
    completions n (marks (⟨m, inside⟩ :: ds)) =
      (m.completed? n).toList ++ completions n (marks inside) ++ completions n (marks ds) := by
  simp [completions, List.filterMap_eq_flatMap_toList]

theorem runs_cons (n : Nat) (m : Mark α) (inside ds : List (Deed α)) :
    runs n (marks (⟨m, inside⟩ :: ds)) =
      (m.ran? n).toList ++ runs n (marks inside) ++ runs n (marks ds) := by
  simp [runs, List.filterMap_eq_flatMap_toList]

/-- A deed changes a handle if it registers a listener on it, or completes it. -/
theorem Book.note_cases (b : Book α) (m : Mark α) (n : Nat) :
    (∃ l, m = .registered n l ∧ (b.note m) n = ((b n).listen l).1) ∨
      (∃ o, m = .completed n o ∧ (b.note m) n = ⟨some o, []⟩) ∨
      m.registered? n = none ∧ m.completed? n = none ∧ (b.note m) n = b n := by
  cases m with
  | registered m l =>
    by_cases hn : n = m
    · subst hn
      exact .inl ⟨l, rfl, Function.update_self ..⟩
    · exact .inr (.inr ⟨if_neg (Ne.symm hn), rfl, Function.update_of_ne hn ..⟩)
  | completed m o =>
    by_cases hn : n = m
    · subst hn
      exact .inr (.inl ⟨o, rfl, Function.update_self ..⟩)
    · exact .inr (.inr ⟨rfl, if_neg (Ne.symm hn), Function.update_of_ne hn ..⟩)
  | _ => exact .inr (.inr ⟨rfl, rfl, rfl⟩)

/-- A handle is completed once, if at all. -/
theorem Lawful.completions_eq (h : Lawful b ds b') (n : Nat) :
    (b n).outcome.toList ++ completions n (marks ds) = (b' n).outcome.toList := by
  induction h with
  | nothing => exact List.append_nil _
  | @deed b b₁ b₂ m inside ds hm _ _ ihi ihr =>
    have hnote : (b n).outcome.toList ++ (m.completed? n).toList =
        ((b.note m) n).outcome.toList := by
      rcases b.note_cases m n with ⟨l, rfl, hn⟩ | ⟨o, rfl, hn⟩ | ⟨-, hnone, hn⟩
      · rw [hn, Handle.outcome_listen]
        exact List.append_nil _
      · simp [hn, Mark.completed?, hm.1]
      · rw [hn, hnone]
        exact List.append_nil _
    rw [completions_cons, ← List.append_assoc, ← List.append_assoc, hnote, ihi, ihr]

theorem Lawful.outcome (h : Lawful b ds b') {o : Outcome α} (ho : (b n).outcome = some o) :
    (b' n).outcome = some o := by
  have hall := h.completions_eq n
  rw [ho] at hall
  cases ho' : (b' n).outcome with
  | none =>
    rw [ho'] at hall
    cases hall
  | some o' =>
    rw [ho'] at hall
    exact congrArg some (List.cons.inj hall).1.symm

theorem Lawful.isDone (h : Lawful b ds b') (hd : (b n).isDone = true) : (b' n).isDone = true := by
  obtain ⟨o, ho⟩ := Option.isSome_iff_exists.1 hd
  exact Option.isSome_iff_exists.2 ⟨o, h.outcome ho⟩

/-- A listener that runs sees the outcome. -/
theorem Lawful.seen (h : Lawful b ds b') {l : Listener α} {seen : Option (Outcome α)}
    (hr : (l, seen) ∈ runs n (marks ds)) : seen = (b' n).outcome ∧ (b' n).isDone = true := by
  induction h with
  | nothing => cases hr
  | @deed b b₁ b₂ m inside ds hm hi hl ihi ihr =>
    rw [runs_cons, List.append_assoc, List.mem_append, List.mem_append] at hr
    rcases hr with hr | hr | hr
    · cases m with
      | ran m l' seen' =>
        obtain ⟨hdone, rfl, -⟩ := hm
        simp only [Mark.ran?, Option.mem_toList] at hr
        split at hr
        · next hn =>
          cases hr
          subst hn
          obtain ⟨o, ho⟩ := Option.isSome_iff_exists.1 hdone
          rw [ho, hl.outcome (hi.outcome ho)]
          exact ⟨rfl, hl.isDone (hi.isDone hdone)⟩
        · cases hr
      | _ => cases hr
    · obtain ⟨hseen, hdone⟩ := ihi hr
      obtain ⟨o, ho⟩ := Option.isSome_iff_exists.1 hdone
      rw [hseen, ho, hl.outcome ho]
      exact ⟨rfl, hl.isDone hdone⟩
    · exact ihr hr

theorem runs_ran (n m : Nat) (ls : List (Listener α)) (seen : Option (Outcome α)) :
    runs n (ls.map (.ran m · seen)) = if m = n then ls.map (·, seen) else [] := by
  induction ls with
  | nil => simp [runs]
  | cons l ls ih =>
    unfold runs at ih ⊢
    rw [List.map_cons, List.filterMap_cons, ih]
    by_cases hn : m = n
    · simp [Mark.ran?, hn]
    · simp [Mark.ran?, hn]

/-- Calls are no runs. -/
theorem runs_of_calls {ms : List (Mark α)} (h : ∀ m ∈ ms, m.isRun = false) (n : Nat) :
    runs n ms = [] := by
  refine List.filterMap_eq_nil_iff.2 fun m hm => ?_
  cases m with
  | ran => cases h _ hm
  | _ => rfl

/-- Listeners with a property that wait, are registered, or are due, run or wait. -/
theorem Lawful.countP (h : Lawful b ds b') (n : Nat) (p : Listener α → Bool) :
    (b n).listeners.countP p + (registrations n (marks ds)).countP p +
        (runs n (ds.map (·.mark))).countP (p ·.1) =
      (runs n (marks ds)).countP (p ·.1) + (b' n).listeners.countP p := by
  induction h with
  | nothing => simp [registrations, runs]
  | @deed b b₁ b₂ m inside ds hm hi hl ihi ihr =>
    have hmark : (b n).listeners.countP p + (m.registered? n).toList.countP p =
        ((b.note m) n).listeners.countP p + (runs n (inside.map (·.mark))).countP (p ·.1) := by
      cases m with
      | registered m l =>
        have hinside : inside.map (·.mark) = (b m).outcome.toList.map fun o => .ran m l (some o) := hm
        rw [hinside]
        by_cases hn : m = n
        · subst hn
          cases ho : (b m).outcome <;>
            simp [Mark.registered?, Book.note, Handle.listen, ho, runs, Mark.ran?]
        · have hidle : runs n ((b m).outcome.toList.map fun o => .ran m l (some o)) = [] := by
            cases (b m).outcome <;> simp [runs, Mark.ran?, hn]
          rw [hidle]
          simp [Mark.registered?, Book.note, Function.update_of_ne (Ne.symm hn), hn]
      | completed m o =>
        rw [hm.2, runs_ran]
        by_cases hn : m = n
        · subst hn
          simp [Mark.registered?, Book.note, List.countP_map, Function.comp_def]
        · simp [Mark.registered?, Book.note, Function.update_of_ne (Ne.symm hn), hn]
      | refused m =>
        rw [hm.2]
        rfl
      | ran m l seen =>
        rw [runs_of_calls hm.2.2]
        rfl
    have hruns : runs n ((⟨m, inside⟩ :: ds : List (Deed α)).map (·.mark)) =
        (m.ran? n).toList ++ runs n (ds.map (·.mark)) := by
      simp [runs, List.filterMap_eq_flatMap_toList]
    rw [registrations_cons, runs_cons, hruns]
    simp only [List.countP_append]
    omega

/-- As long as a handle is pending, the listeners registered on it wait, in their order. -/
theorem Lawful.listeners_of_pending (h : Lawful b ds b') (ho : (b' n).outcome = none) :
    (b' n).listeners = (b n).listeners ++ registrations n (marks ds) := by
  induction h with
  | nothing => exact (List.append_nil _).symm
  | @deed b b₁ b₂ m inside ds hm hi hl ihi ihr =>
    have hpending {b b' : Book α} {ds : List (Deed α)} (h : Lawful b ds b')
        (ho : (b' n).outcome = none) : (b n).outcome = none := by
      refine Option.eq_none_iff_forall_ne_some.2 fun o hsome => ?_
      rw [h.outcome hsome] at ho
      cases ho
    have ho₁ := hpending hl ho
    have hnote : ((b.note m) n).listeners = (b n).listeners ++ (m.registered? n).toList := by
      have hnone := hpending hi ho₁
      rcases b.note_cases m n with ⟨l, rfl, hn⟩ | ⟨o, rfl, hn⟩ | ⟨hidle, -, hn⟩
      · rw [hn, Handle.outcome_listen] at hnone
        simp [hn, Handle.listen, hnone, Mark.registered?]
      · rw [hn] at hnone
        cases hnone
      · rw [hn, hidle]
        exact (List.append_nil _).symm
    rw [ihr ho, ihi ho₁, hnote, registrations_cons, List.append_assoc, List.append_assoc,
      List.append_assoc]

/-- Handles that are done have no listeners that wait. -/
def Book.IsTidy (b : Book α) : Prop := ∀ n, (b n).isDone = true → (b n).listeners = []

theorem Lawful.isTidy (h : Lawful b ds b') (hb : b.IsTidy) : b'.IsTidy := by
  induction h with
  | nothing => exact hb
  | @deed b _ _ m _ _ _ _ _ ihi ihr =>
    have hnote : (b.note m).IsTidy := by
      intro n hd
      rcases b.note_cases m n with ⟨l, rfl, hn⟩ | ⟨o, rfl, hn⟩ | ⟨-, -, hn⟩
      · rw [hn, Handle.isDone, Handle.outcome_listen] at hd
        obtain ⟨o, ho⟩ := Option.isSome_iff_exists.1 hd
        rw [hn]
        simpa [Handle.listen, ho] using hb n hd
      · rw [hn]
      · rw [hn] at hd ⊢
        exact hb n hd
    exact ihr (ihi hnote)

/-- If of any kind as many listeners ran as were registered, and all saw the same, these are the
same listeners. -/
theorem perm_of_countP {rs : List (Listener α × Option (Outcome α))} {ls : List (Listener α)}
    {seen : Option (Outcome α)} (hcount : ∀ p : Listener α → Bool, ls.countP p = rs.countP (p ·.1))
    (hseen : ∀ r ∈ rs, r.2 = seen) : rs.Perm (ls.map (·, seen)) := by
  have hperm : (rs.map (·.1)).Perm ls := by
    classical
    refine List.perm_iff_count.2 fun l => ?_
    rw [List.count_eq_countP, List.countP_map, List.count_eq_countP]
    exact (hcount (· == l)).symm
  have hmap : rs = (rs.map (·.1)).map (·, seen) := by
    rw [List.map_map]
    refine (List.map_id _).symm.trans (List.map_congr_left fun r hr => ?_)
    exact Prod.ext rfl (hseen r hr)
  rw [hmap]
  exact hperm.map _

/-- From the start, the listeners that run on a handle that is done are those that were registered.
-/
theorem Lawful.runs_perm (h : Lawful (fun _ => {}) ds b')
    (hcalls : ∀ d ∈ ds, d.mark.isRun = false) {o : Outcome α} (ho : (b' n).outcome = some o) :
    (runs n (marks ds)).Perm ((registrations n (marks ds)).map (·, some o)) := by
  have hnone : (b' n).listeners = [] :=
    h.isTidy (fun _ hd => by cases hd) n (Option.isSome_iff_exists.2 ⟨o, ho⟩)
  refine perm_of_countP (fun p => ?_) fun r hr => ?_
  · have hall := h.countP n p
    rw [hnone, runs_of_calls (List.forall_mem_map.2 hcalls)] at hall
    simpa using hall
  · obtain ⟨l, seen⟩ := r
    exact (h.seen hr).1.trans ho

end Counts

/-! ## Programs -/

/-- Runs the steps of a program, one after another. -/
def World.performAll (w : World α) : List (Step α) → World α × List (Answer α) × List (Event α)
  | [] => (w, [], [])
  | s :: rest =>
    let (w, answer, events) := w.perform s
    let (w, answers, later) := w.performAll rest
    (w, answer :: answers, events ++ later)

theorem IsCalm.of_cons {a : Answer α} {as : List (Answer α)} {es later : List (Event α)}
    (h : IsCalm (a :: as) (es ++ later)) : IsCalm [a] es ∧ IsCalm as later where
  left := {
    answers := fun a' ha => h.answers a' (List.mem_cons.2 (.inl (List.mem_singleton.1 ha)))
    events := fun e he => h.events e (List.mem_append_left _ he) }
  right := {
    answers := fun a' ha => h.answers a' (List.mem_cons_of_mem _ ha)
    events := fun e he => h.events e (List.mem_append_right _ he) }

/-- Without a panic, a program does what its steps say. -/
theorem does_performAll (w : World α) {program : List (Step α)}
    (h : IsCalm (w.performAll program).2.1 (w.performAll program).2.2) :
    ∃ ds, Does w (program.map .perform) ds (w.performAll program).1 ∧
      (w.performAll program).2.2.filterMap Event.heard? =
        (marks ds).filterMap Mark.heard? := by
  induction program generalizing w with
  | nil => exact ⟨[], .nothing, rfl⟩
  | cons s rest ih =>
    obtain ⟨hfirst, hrest⟩ := h.of_cons
    obtain ⟨ds, es, hdoes, hes, hheard⟩ :=
      Run.does_of_calm (r := { world := w, agenda := [.perform s] }) hfirst
    obtain ⟨later, hlater, hlast⟩ := ih _ hrest
    refine ⟨ds ++ later, hdoes.append hlater, ?_⟩
    have hevents : (w.perform s).2.2 = es := hes
    rw [marks_append, List.filterMap_append, ← hheard, ← hlast, ← hevents]
    exact List.filterMap_append

/-- An outcome stays, whatever is done, and even if something panics. -/
theorem Run.outcome_next (r : Run α) {n : Nat} {o : Outcome α}
    (ho : (r.world.book n).outcome = some o) : (r.next.world.book n).outcome = some o := by
  unfold next
  split
  · exact ho
  · exact (Step.acts _ _).outcome ho
  · exact ho
  · exact ho
  · exact (Listener.acts _ _ _).outcome ho
  · exact ho
  · exact ho

theorem Run.outcome_finish (r : Run α) {n : Nat} {o : Outcome α}
    (ho : (r.world.book n).outcome = some o) : (r.finish.world.book n).outcome = some o := by
  induction r using next_induction with
  | done r hnil => rwa [finish_of_nil hnil]
  | next r hne ih =>
    rw [finish_next hne]
    exact ih (r.outcome_next ho)

theorem World.outcome_performAll (w : World α) (program : List (Step α)) {n : Nat} {o : Outcome α}
    (ho : (w.book n).outcome = some o) : ((w.performAll program).1.book n).outcome = some o := by
  induction program generalizing w with
  | nil => exact ho
  | cons s rest ih => exact ih _ (Run.outcome_finish { world := w, agenda := [.perform s] } ho)

/-- To complete a handle that is done is refused, and changes nothing. -/
theorem Run.finish_of_refused {r : Run α} {h n : Nat} {cell : Cell α} {o : Outcome α}
    {rest : List (Frame α)} (ha : r.agenda = .perform (.complete h o false) :: rest)
    (hf : r.world.find? h = some (n, cell)) (hd : cell.handle.isDone = true) :
    r.finish = { r with agenda := rest, answer := .refused : Run α }.finish := by
  have hnone : cell.handle.complete? o = none := (Handle.complete?_eq_none_iff _ o).2 hd
  have hstep : (Step.complete h o false).carryOut r.world = (r.world, [.give .refused]) := by
    simp [Step.carryOut, hf, hnone]
  have hnext : r.next = { r with agenda := .give .refused :: rest } := by
    unfold next
    rw [ha]
    dsimp only
    rw [hstep]
    rfl
  rw [finish_next (by simp [ha]), hnext, finish_next (by simp)]
  rfl

/-- **Listeners run once, however calls are nested.** -/
theorem listeners_run_once (program : List (Step α))
    (h : IsCalm (({} : World α).performAll program).2.1 (({} : World α).performAll program).2.2) :
    let w := (({} : World α).performAll program).1
    -- what is done, each within the call or the listener that does it
    (∃ ds, Does {} (program.map .perform) ds w ∧
      (({} : World α).performAll program).2.2.filterMap Event.heard? =
        (marks ds).filterMap Mark.heard? ∧
      (∀ d ∈ ds, d.mark.isRun = false) ∧ Lawful (fun _ => {}) ds w.book ∧
      ∀ n, completions n (marks ds) = (w.book n).outcome.toList ∧
        match (w.book n).outcome with
        | none => runs n (marks ds) = [] ∧ (w.book n).listeners = registrations n (marks ds)
        | some o => (runs n (marks ds)).Perm ((registrations n (marks ds)).map (·, some o))) ∧
    -- an outcome stays
    (∀ (more : List (Step α)) (n : Nat) (o : Outcome α), (w.book n).outcome = some o →
      ((w.performAll more).1.book n).outcome = some o) ∧
    -- wherever a handle that is done is to be completed again
    ∀ (r : Run α) (h n : Nat) (cell : Cell α) (o : Outcome α) (rest : List (Frame α)),
      r.agenda = .perform (.complete h o false) :: rest → r.world.find? h = some (n, cell) →
      cell.handle.isDone = true →
      r.finish = { r with agenda := rest, answer := .refused : Run α }.finish := by
  intro w
  refine ⟨?_, fun more n o => w.outcome_performAll more, fun r h n cell o rest =>
    Run.finish_of_refused⟩
  obtain ⟨ds, hdoes, hheard⟩ := does_performAll {} h
  have hcalls : ∀ d ∈ ds, d.mark.isRun = false := hdoes.marks_of_calls (by simp [Frame.isNotify])
  have hlawful : Lawful (fun _ => {}) ds w.book := by
    have hstart : ({} : World α).book = fun _ => {} := rfl
    rw [← hstart]
    exact hdoes.lawful (by simp [DueDone])
  refine ⟨ds, hdoes, hheard, hcalls, hlawful, fun n => ⟨hlawful.completions_eq n, ?_⟩⟩
  cases ho : (w.book n).outcome with
  | none =>
    refine ⟨List.eq_nil_iff_forall_not_mem.2 fun r hr => ?_, hlawful.listeners_of_pending ho⟩
    have hdone := (hlawful.seen hr).2
    rw [Handle.isDone, ho] at hdone
    cases hdone
  | some o => exact hlawful.runs_perm hcalls ho

/-- A listener tries to complete its handle again, and registers another listener on it. -/
def reentrant : List (Step Nat) :=
  [.create "keys",
    .listen 0 "first" [.complete 0 (.ok 2) false, .listen 0 "late" [] false] false,
    .listen 0 "second" [] false, .complete 0 (.ok 1) false]

theorem listeners_run_once_reentrant : ∃ ds,
    Does {} (reentrant.map .perform) ds (({} : World Nat).performAll reentrant).1 ∧
      (marks ds).filterMap Mark.heard? =
        [("first", some (.ok 1)), ("late", some (.ok 1)), ("second", some (.ok 1))] := by
  obtain ⟨ds, hdoes, hheard, -⟩ := (listeners_run_once reentrant ⟨by decide, by decide⟩).1
  exact ⟨ds, hdoes, hheard.symm⟩

end StoreClient.Program
