import Mathlib.Logic.Function.Iterate
import StoreClient.Proofs.Handle.Derivation

/-!
# First completions

To complete a handle for the first time runs the listeners that wait for it, and is answered when
they have run. `first_completion` tells when this holds, and when it does not.

As long as derived handles are completed by their sources only, a call that completes a handle
panics only if the handle was done before the call, wherever in a program or a listener it is made,
and every listener runs once. But a listener that is to complete a derived handle which someone
else has completed panics (`IsDoomed`), and nobody catches that before it comes out of the call that
completes the source: the call panics though the source was pending, and of the listeners that
waited for the source those after that listener never run.
-/

namespace StoreClient.Program

variable {α : Type} {w w' : World α} {f : Frame α} {fs rest : List (Frame α)} {ms : List (Mark α)}
  {n m : Nat} {g : α → Outcome α} {pre post : List (Listener α)} {a : Answer α} {r : Run α}

/-! ## Calls return -/

/-- What a frame leaves to be done comes before everything else. -/
theorem Run.agenda_next (hg : IsGuarded (f :: rest)) (ha : r.agenda = f :: rest) :
    ∃ todo, r.next.agenda = todo ++ rest := by
  obtain ⟨w, agenda, answer, events⟩ := r
  dsimp only at ha
  subst ha
  cases f with
  | perform s => exact ⟨_, rfl⟩
  | panic text => exact ⟨[], hg.1.unwind_eq⟩
  | report label => exact ⟨[], rfl⟩
  | give a => exact ⟨[], rfl⟩
  | notify k due =>
    cases due with
    | nil => exact ⟨[], rfl⟩
    | cons l due => exact ⟨(l.carryOut w k).2.2 ++ [.notify k due], by simp [next]⟩

/-- To complete a handle that is done is answered at once. -/
theorem Run.answer_complete_of_done {h : Nat} {cell : Cell α} {o : Outcome α} {strict : Bool}
    (ha : r.agenda = .perform (.complete h o strict) :: rest)
    (hf : r.world.find? h = some (n, cell)) (hd : cell.handle.isDone = true)
    (hc : Catches rest) : (next^[2] r).agenda = rest ∧
      (next^[2] r).answer = if strict then .panicked doubleCompletion else .refused := by
  obtain ⟨w, agenda, answer, events⟩ := r
  dsimp only at ha hf
  subst ha
  have hcarry := Step.carryOut_complete_of_done hf hd o strict
  cases strict with
  | true => simp [next, hcarry, hc.unwind_eq]
  | false => simp [next, hcarry]

namespace Consistent

/-- Wherever a run has come to, what was done before is consistent with where it is. -/
theorem iterate (h : Consistent ms r.world r.agenda) (hu : IsUndisturbed (ms ++ r.history))
    (k : Nat) : ∃ past, r.history = past ++ (Run.next^[k] r).history ∧
      Consistent (ms ++ past) (Run.next^[k] r).world (Run.next^[k] r).agenda := by
  induction k generalizing r ms with
  | zero => exact ⟨[], rfl, (List.append_nil ms).symm ▸ h⟩
  | succ k ih =>
    rw [Function.iterate_succ_apply]
    cases ha : r.agenda with
    | nil =>
      rw [Run.next_of_nil ha]
      exact ih h hu
    | cons f rest =>
      rw [Run.history_of_cons ha, ← List.append_assoc] at hu
      obtain ⟨past, hpast, hk⟩ := ih (h.next ha hu.of_append) hu
      refine ⟨f.marks r.world ++ past, ?_, ?_⟩
      · rw [Run.history_of_cons ha, hpast, List.append_assoc]
      · rw [← List.append_assoc]
        exact hk

/-- An answer is given when all that comes before it is done. -/
theorem returns (h : Consistent ms r.world r.agenda) (hu : IsUndisturbed (ms ++ r.history))
    (ha : r.agenda = fs ++ .give a :: rest) :
    ∃ k, (Run.next^[k] r).agenda = rest ∧ (Run.next^[k] r).answer = a := by
  induction r using Run.next_induction generalizing ms fs with
  | done r hnil => simp [hnil] at ha
  | next r hne ih =>
    cases fs with
    | nil =>
      have hnext : r.next = { r with agenda := rest, answer := a } := by
        unfold Run.next
        rw [ha]
        rfl
      exact ⟨1, congrArg Run.agenda hnext, congrArg Run.answer hnext⟩
    | cons f fs =>
      rw [List.cons_append] at ha
      obtain ⟨todo, htodo⟩ := Run.agenda_next (ha ▸ h.guarded) ha
      rw [Run.history_of_cons ha, ← List.append_assoc] at hu
      rw [← List.append_assoc] at htodo
      obtain ⟨k, hk⟩ := ih (h.next ha hu.of_append) hu htodo
      exact ⟨k + 1, hk⟩

/-- A call that completes a handle panics only if the handle is done. -/
theorem answer_complete (h : Consistent ms r.world r.agenda) (hu : IsUndisturbed (ms ++ r.history))
    {c : Nat} {cell : Cell α} {o : Outcome α} {strict : Bool}
    (ha : r.agenda = .perform (.complete c o strict) :: rest)
    (hf : r.world.find? c = some (n, cell)) : ∃ k, (Run.next^[k] r).agenda = rest ∧
      (Run.next^[k] r).answer = if cell.handle.isDone then
        (if strict then .panicked doubleCompletion else .refused) else .completed := by
  have hguard : IsGuarded (.perform (.complete c o strict) :: rest) := ha ▸ h.guarded
  cases hd : cell.handle.isDone with
  | true => exact ⟨2, Run.answer_complete_of_done ha hf hd hguard.1⟩
  | false =>
    have hp : cell.handle.outcome = none := by simpa [Handle.isDone] using hd
    have hnext : r.next.agenda = [.notify n cell.handle.listeners] ++ .give .completed :: rest := by
      unfold Run.next
      rw [ha]
      dsimp only
      rw [Step.carryOut_complete hf hp]
      rfl
    rw [Run.history_of_cons ha, ← List.append_assoc] at hu
    obtain ⟨k, hk⟩ := (h.next ha hu.of_append).returns hu hnext
    exact ⟨k + 1, hk⟩

end Consistent

/-! ## Listeners that are lost -/

/-- What is left after a panic are the last frames of the agenda. -/
theorem unwind_append (fs tail : List (Frame α)) : unwind (fs ++ tail) = unwind tail ∨
    ∃ fs', fs' <:+ fs ∧ unwind (fs ++ tail) = fs' ++ tail := by
  induction fs with
  | nil => exact .inl rfl
  | cons f fs ih =>
    have hskip {fs' : List (Frame α)} (hs : fs' <:+ fs) : fs' <:+ f :: fs :=
      hs.trans (List.suffix_cons f fs)
    cases f with
    | report label => exact .inr ⟨_, List.suffix_refl _, rfl⟩
    | _ => exact ih.imp_right fun ⟨fs', hs, heq⟩ => ⟨fs', hskip hs, heq⟩

/-- On a handle that is done, only a listener that is registered becomes due. -/
theorem Acts.countP_due_le {mark : Option (Mark α)} (h : Acts w mark w' fs)
    (hd : (w.book n).isDone = true) (p : Listener α → Bool) :
    (due n fs).countP p ≤ (registrations n mark.toList).countP p := by
  cases h with
  | calls _ hfs => simp [due_of_calls hfs]
  | @registers _ k l a hb =>
    by_cases hk : k = n
    · subst hk
      obtain ⟨o, ho⟩ := Option.isSome_iff_exists.1 hd
      simp [Frame.due, Handle.listen, ho, Mark.registered?]
    · simp [Frame.due, hk]
  | @completes _ k o fs' ho _ hgive =>
    have hk : k ≠ n := by
      rintro rfl
      rw [Handle.isDone, ho] at hd
      cases hd
    rcases hgive with rfl | ⟨a, rfl⟩ <;> simp [Frame.due, hk]
  | refuses => simp [Frame.due]
  | panics => simp [Frame.due]

/-- A listener makes no listener due on a handle that is done. -/
theorem Listener.due_carryOut (hd : (w.book n).isDone = true) (l : Listener α) (k : Nat) :
    due n (l.carryOut w k).2.2 = [] := by
  have hmark : registrations n (l.mark? w k).toList = [] := by
    cases l with
    | observe name body panics => rfl
    | forward t g =>
      simp only [mark?]
      split <;> rfl
  have hdue := (l.acts w k).countP_due_le hd fun _ => true
  rw [hmark] at hdue
  simpa using hdue

theorem Run.isDone_next (hd : (r.world.book n).isDone = true) :
    (r.next.world.book n).isDone = true := by
  obtain ⟨o, ho⟩ := Option.isSome_iff_exists.1 hd
  exact Option.isSome_iff_exists.2 ⟨o, r.outcome_next ho⟩

/-- One of the listeners that are due at the end is to complete a handle that is done. -/
structure IsDoomed (n m : Nat) (g : α → Outcome α) (post : List (Listener α)) (a : Answer α)
    (fs : List (Frame α)) (pre : List (Listener α)) (r : Run α) : Prop where
  agenda : r.agenda = fs ++ [.notify n (pre ++ .forward m g :: post), .give a]
  done : (r.world.book n).isDone = true
  target : (r.world.book m).isDone = true

/-- The run ends with a panic, and of the listeners on a handle only those run that are due before
some others, and those that are registered. -/
def Loses (n : Nat) (fs : List (Frame α)) (before : List (Listener α)) (r : Run α) : Prop :=
  r.finish.answer.isPanic = true ∧ ∀ p : Listener α → Bool, (runs n r.history).countP (p ·.1) ≤
    (due n fs).countP p + before.countP p + (registrations n r.history).countP p

theorem Loses.of_next {fs' : List (Frame α)} {before before' : List (Listener α)}
    (h : Loses n fs' before' r.next) (ha : r.agenda = f :: rest)
    (hcount : ∀ p : Listener α → Bool, (runs n (f.marks r.world)).countP (p ·.1) +
      (due n fs').countP p + before'.countP p ≤ (due n fs).countP p + before.countP p +
        (registrations n (f.marks r.world)).countP p) : Loses n fs before r := by
  refine ⟨?_, fun p => ?_⟩
  · rw [Run.finish_next (by simp [ha])]
    exact h.1
  · have hlater := h.2 p
    have hnow := hcount p
    rw [Run.history_of_cons ha, runs_append, registrations_append, List.countP_append,
      List.countP_append]
    omega

/-- A run that has come to its end with a panic. -/
theorem Loses.of_panic {text : String} {before : List (Listener α)} (ha : r.agenda = [])
    (hp : r.answer = .panicked text) : Loses n fs before r := by
  refine ⟨?_, fun p => ?_⟩
  · rw [Run.finish_of_nil ha, hp]
    rfl
  · rw [Run.history_of_nil ha]
    exact Nat.zero_le _

/-- To complete a derived handle that is done is a panic. -/
theorem Listener.carryOut_of_done (hn : (w.book n).isDone = true)
    (hm : (w.book m).isDone = true) :
    (Listener.forward m g).carryOut w n = (w, [], [.panic doubleCompletion]) := by
  obtain ⟨o, ho⟩ := Option.isSome_iff_exists.1 hn
  have hseen : w.cells[n]?.bind (·.handle.outcome) = some o := (w.outcome?_eq n).trans ho
  cases hc : w.cells[m]? with
  | none =>
    simp [World.book, hc, Handle.isDone] at hm
  | some cell =>
    rw [World.book_of_cell hc] at hm
    have hnone := (Handle.complete?_eq_none_iff cell.handle (o.bind g)).2 hm
    simp only [carryOut, hseen, hc, hnone]

/-- A listener that is to complete a handle that is done panics, and nobody catches that. -/
theorem Loses.of_forward (ha : r.agenda = [.notify n (.forward m g :: post), .give a])
    (hn : (r.world.book n).isDone = true) (hm : (r.world.book m).isDone = true) :
    Loses n [] [.forward m g] r := by
  have hnext : r.next.agenda = .panic doubleCompletion :: [.notify n post, .give a] := by
    unfold Run.next
    rw [ha]
    dsimp only
    rw [Listener.carryOut_of_done hn hm]
    rfl
  have hlast := Run.next_of_panic hnext
  have hend : Loses n [] [] r.next.next := .of_panic (congrArg Run.agenda hlast)
    (congrArg Run.answer hlast)
  have hstep : Loses n [] [] r.next := hend.of_next hnext fun p => Nat.le_refl _
  refine hstep.of_next ha fun p => ?_
  simp [Frame.marks, Mark.ran?]

/-- A call runs no listener itself. -/
theorem Step.runs_mark? (w : World α) (s : Step α) (n : Nat) : runs n (s.mark? w).toList = [] := by
  refine runs_of_calls (fun x hx => ?_) n
  rw [Option.mem_toList] at hx
  cases s with
  | map h g =>
    obtain ⟨_, _, rfl⟩ := Option.map_eq_some_iff.1 hx
    rfl
  | listen h name body panics =>
    obtain ⟨_, _, rfl⟩ := Option.map_eq_some_iff.1 hx
    rfl
  | complete h o strict =>
    obtain ⟨_, _, rfl⟩ := Option.map_eq_some_iff.1 hx
    dsimp only
    split <;> rfl
  | _ => cases hx

/-- The panic of a listener that is doomed is not caught, and drops the listeners after it. -/
theorem IsDoomed.loses (h : IsDoomed n m g post a fs pre r) :
    Loses n fs (pre ++ [.forward m g]) r := by
  induction r using Run.next_induction generalizing fs pre with
  | done r hnil =>
    have ha := h.agenda
    simp [hnil] at ha
  | next r hne ih =>
    have hdone := Run.isDone_next h.done
    have htarget := Run.isDone_next h.target
    obtain ⟨w, agenda, answer, events⟩ := r
    obtain ⟨ha, hn, hm⟩ := h
    dsimp only at ha hn hm
    subst ha
    cases fs with
    | nil =>
      cases pre with
      | nil =>
        exact Loses.of_forward rfl hn hm
      | cons l pre =>
        have hlater : Loses n (l.carryOut w n).2.2 (pre ++ [.forward m g]) _ :=
          ih ⟨rfl, hdone, htarget⟩
        refine hlater.of_next rfl fun p => ?_
        simp [Frame.marks, Mark.ran?, Mark.registered?, l.due_carryOut hn, List.countP_cons]
        omega
    | cons f fs =>
      cases f with
      | perform s =>
        have hlater : Loses n ((s.carryOut w).2 ++ fs) (pre ++ [.forward m g]) _ :=
          ih ⟨(List.append_assoc ..).symm, hdone, htarget⟩
        refine hlater.of_next rfl fun p => ?_
        have hdue := (s.acts w).countP_due_le hn p
        rw [Frame.marks, s.runs_mark?]
        simp [Frame.due] at hdue ⊢
        omega
      | notify k due =>
        cases due with
        | nil =>
          have hlater : Loses n fs (pre ++ [.forward m g]) _ := ih ⟨rfl, hdone, htarget⟩
          refine hlater.of_next rfl fun p => ?_
          simp [Frame.due, Frame.marks]
        | cons l due =>
          have hlater : Loses n ((l.carryOut w k).2.2 ++ .notify k due :: fs)
              (pre ++ [.forward m g]) _ := ih ⟨by simp [Run.next], hdone, htarget⟩
          refine hlater.of_next rfl fun p => ?_
          by_cases hk : k = n
          · subst hk
            simp [Frame.marks, Frame.due, Mark.ran?, Mark.registered?, l.due_carryOut hn,
              List.countP_cons]
            omega
          · simp [Frame.marks, Frame.due, Mark.ran?, Mark.registered?, l.due_carryOut hn, hk]
      | report | give =>
        have hlater : Loses n fs (pre ++ [.forward m g]) _ := ih ⟨rfl, hdone, htarget⟩
        refine hlater.of_next rfl fun p => ?_
        simp [Frame.due, Frame.marks]
      | panic text =>
        rcases unwind_append fs [.notify n (pre ++ .forward m g :: post), .give a] with
          hnil | ⟨fs', ⟨dropped, rfl⟩, hcaught⟩
        · have hlater : Loses n fs pre (Run.next ⟨w, .panic text :: fs ++
              [.notify n (pre ++ .forward m g :: post), .give a], answer, events⟩) :=
            Loses.of_panic hnil rfl
          refine hlater.of_next rfl fun p => ?_
          simp [Frame.due, Frame.marks]
        · have hlater : Loses n fs' (pre ++ [.forward m g]) _ := ih ⟨hcaught, hdone, htarget⟩
          refine hlater.of_next rfl fun p => ?_
          simp [Frame.due, Frame.marks]

/-- To complete a pending handle panics if one of its listeners is to complete a handle that is
done. -/
theorem World.loses_complete {h : Nat} {cell : Cell α} (hf : w.find? h = some (n, cell))
    (hp : cell.handle.outcome = none) (hl : cell.handle.listeners = pre ++ .forward m g :: post)
    (hm : (w.book m).isDone = true) (o : Outcome α) (strict : Bool) :
    Loses n [] (pre ++ [.forward m g])
        { world := w, agenda := [.perform (.complete h o strict)] } ∧
      ((w.perform (.complete h o strict)).1.book n).outcome = some o := by
  have hcell := World.cell_of_find? hf
  have hbook := World.book_setHandle ⟨some o, []⟩ hcell
  have hnext : Run.next { world := w, agenda := [.perform (.complete h o strict)] } =
      { world := w.setHandle n cell ⟨some o, []⟩
        agenda := [] ++ [.notify n (pre ++ .forward m g :: post), .give .completed] } := by
    simp only [Run.next, Step.carryOut_complete hf hp, hl]
    rfl
  have hne : m ≠ n := by
    rintro rfl
    rw [World.book_of_cell hcell, Handle.isDone, hp] at hm
    cases hm
  have hself : ((w.setHandle n cell ⟨some o, []⟩).book n).outcome = some o := by
    rw [hbook, Function.update_self]
  have hdoomed : IsDoomed n m g post .completed [] pre
      { world := w.setHandle n cell ⟨some o, []⟩
        agenda := [] ++ [.notify n (pre ++ .forward m g :: post), .give .completed] } :=
    { agenda := rfl
      done := Option.isSome_iff_exists.2 ⟨o, hself⟩
      target := by rwa [hbook, Function.update_of_ne hne] }
  constructor
  · refine Loses.of_next (hnext ▸ hdoomed.loses) rfl fun p => ?_
    simp [Frame.marks, (Step.complete h o strict).runs_mark?]
  · show ((Run.finish _).world.book n).outcome = some o
    rw [Run.finish_next (List.cons_ne_nil _ _), hnext]
    exact Run.outcome_finish _ hself

/-! ## First completions -/

/-- **First completions.** -/
theorem first_completion :
    -- a listener that is to complete a derived handle which is done
    (∀ (w : World α) (h n m : Nat) (cell : Cell α) (o : Outcome α) (strict : Bool)
        (pre post : List (Listener α)) (g : α → Outcome α), w.find? h = some (n, cell) →
      cell.handle.outcome = none → cell.handle.listeners = pre ++ .forward m g :: post →
      (w.book m).isDone = true →
      (w.perform (.complete h o strict)).2.1.isPanic = true ∧
      ((w.perform (.complete h o strict)).1.book n).outcome = some o ∧
      ∀ p : Listener α → Bool, (runs n (w.history [.complete h o strict])).countP (p ·.1) ≤
        (pre ++ [Listener.forward m g]).countP p +
          (registrations n (w.history [.complete h o strict])).countP p) ∧
    -- derived handles that are completed by their sources only
    (∀ program : List (Step α), IsUndisturbed (({} : World α).history program) →
      (∀ before s after, program = before ++ s :: after → ∀ k,
        let r := Run.next^[k]
          { world := (({} : World α).performAll before).1, agenda := [.perform s] }
        ∀ (h n : Nat) (cell : Cell α) (o : Outcome α) (strict : Bool) (rest : List (Frame α)),
          r.agenda = .perform (.complete h o strict) :: rest →
          r.world.find? h = some (n, cell) →
          ∃ j, (Run.next^[j] r).agenda = rest ∧
            (Run.next^[j] r).answer = if cell.handle.isDone then
              (if strict then .panicked doubleCompletion else .refused) else .completed) ∧
      ∀ n, match ((({} : World α).performAll program).1.book n).outcome with
        | none => runs n (({} : World α).history program) = [] ∧
          ((({} : World α).performAll program).1.book n).listeners.Perm
            (registrations n (({} : World α).history program))
        | some o => (runs n (({} : World α).history program)).Perm
          ((registrations n (({} : World α).history program)).map (·, some o))) := by
  refine ⟨fun w h n m cell o strict pre post g hf hp hl hm => ?_, fun program hu =>
    ⟨?_, fun n => ?_⟩⟩
  · obtain ⟨⟨hpanic, hcount⟩, ho⟩ := World.loses_complete hf hp hl hm o strict
    refine ⟨hpanic, ho, fun p => ?_⟩
    simpa [World.history] using hcount p
  · rintro before s after rfl k r h n cell o strict rest ha hf
    rw [World.history_append, World.history, ← List.append_assoc] at hu
    have hbefore : Consistent _ (({} : World α).performAll before).1 [] :=
      consistent_nil.performAll hu.of_append.of_append
    obtain ⟨past, hpast, hr⟩ := (hbefore.start s).iterate
      (r := { world := _, agenda := [.perform s] }) hu.of_append k
    refine hr.answer_complete ?_ ha hf
    rw [List.append_assoc, ← hpast]
    exact hu.of_append
  · have hw : Consistent (({} : World α).history program)
        (({} : World α).performAll program).1 [] := consistent_nil.performAll hu
    cases ho : ((({} : World α).performAll program).1.book n).outcome with
    | none => exact ⟨hw.runs_of_pending ho, hw.listeners_perm ho⟩
    | some o => exact hw.runs_perm ho

/-- A derived handle is completed before its source. -/
def overtaken : List (Step Nat) :=
  [.create "keys", .map 0 .ok, .listen 0 "after" [] false, .complete 1 (.ok 5) true]

theorem first_completion_overtaken :
    ((({} : World Nat).performAll overtaken).1.perform
      (.complete 0 (.ok 1) true)).2.1.isPanic = true ∧
    (runs 0 (({} : World Nat).history derivations)).Perm
      ((registrations 0 (({} : World Nat).history derivations)).map (·, some (.ok 3))) :=
  ⟨(first_completion.1 (({} : World Nat).performAll overtaken).1 0 0 1
      _ (.ok 1) true [] _ .ok rfl rfl rfl rfl).1,
    (first_completion.2 derivations ⟨by decide, by decide⟩).2 0⟩

/-- The source is pending, and completing it panics all the same. Its other listener does not run,
and does not wait any more. -/
theorem first_completion_panics :
    let w := (({} : World Nat).performAll overtaken).1
    (w.book 0).outcome = none ∧ (w.book 0).listeners.length = 2 ∧
      (w.perform (.complete 0 (.ok 1) true)).2.1 = .panicked doubleCompletion ∧
      (w.perform (.complete 0 (.ok 1) true)).2.2 = [] ∧
      ((w.perform (.complete 0 (.ok 1) true)).1.book 0).outcome = some (.ok 1) ∧
      ((w.perform (.complete 0 (.ok 1) true)).1.book 0).listeners = [] :=
  ⟨rfl, rfl, rfl, rfl, rfl, rfl⟩

end StoreClient.Program
