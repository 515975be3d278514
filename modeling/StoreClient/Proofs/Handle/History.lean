import StoreClient.Proofs.Handle.Listeners

/-!
# Histories of programs

The history of a program lists, in the order in which its frames are done, the calls that it and its
listeners make, and the listeners that run. Unlike the deeds of a program, it is there also if
something panics.

Where no listener panics, no panic drops anything from an agenda (`IsGuarded`). Then, at any time,
every listener that was registered ran, waits or is due, and those that ran saw the outcome of their
handle (`Balanced`). Each call keeps that balance, and so does each listener that is heard.
-/

namespace StoreClient.Program

variable {α : Type} {w w' : World α} {f : Frame α} {fs rest : List (Frame α)} {ms : List (Mark α)}

/-! ## Histories -/

/-- What a frame does itself: the call that it makes, or the listener that it runs. -/
def Frame.marks (w : World α) : Frame α → List (Mark α)
  | .perform s => (s.mark? w).toList
  | .notify n (l :: _) => [.ran n l (w.outcome? n)]
  | _ => []

namespace Run

/-- What is done in a run with so much fuel. -/
def historyFor : (fuel : Nat) → Run α → List (Mark α)
  | 0, _ => []
  | fuel + 1, r => match r.agenda with
    | [] => []
    | f :: _ => f.marks r.world ++ historyFor fuel r.next

/-- What is done in a run. -/
def history (r : Run α) : List (Mark α) := historyFor r.weight r

/-- More fuel than a run weighs makes no difference. -/
theorem historyFor_of_le {fuel fuel' : Nat} {r : Run α} (h : r.weight ≤ fuel)
    (h' : r.weight ≤ fuel') : historyFor fuel r = historyFor fuel' r := by
  induction fuel generalizing fuel' r with
  | zero =>
    have hnil : r.agenda = [] := agenda_runFor (show r.weight ≤ 0 from h)
    cases fuel' with
    | zero => rfl
    | succ fuel' => simp [historyFor, hnil]
  | succ fuel ih =>
    cases ha : r.agenda with
    | nil => cases fuel' <;> simp [historyFor, ha]
    | cons f rest =>
      have hlt := weight_next_lt (r := r) (by simp [ha])
      cases fuel' with
      | zero => omega
      | succ fuel' =>
        have hnext : historyFor fuel r.next = historyFor fuel' r.next := ih (by omega) (by omega)
        simp only [historyFor, ha, hnext]

theorem history_of_nil {r : Run α} (h : r.agenda = []) : r.history = [] := by
  unfold history
  cases r.weight with
  | zero => rfl
  | succ n => simp [historyFor, h]

theorem history_of_cons {r : Run α} (h : r.agenda = f :: rest) :
    r.history = f.marks r.world ++ r.next.history := by
  have hlt := weight_next_lt (r := r) (by simp [h])
  calc r.history = historyFor (r.weight + 1) r := historyFor_of_le (Nat.le_refl _) (Nat.le_succ _)
    _ = f.marks r.world ++ historyFor r.weight r.next := by simp only [historyFor, h]
    _ = f.marks r.world ++ r.next.history :=
      congrArg _ (historyFor_of_le (Nat.le_of_lt hlt) (Nat.le_refl _))

theorem next_of_nil {r : Run α} (h : r.agenda = []) : r.next = r := by
  unfold next
  rw [h]

end Run

/-- What is done by a program. -/
def World.history (w : World α) : List (Step α) → List (Mark α)
  | [] => []
  | s :: rest =>
    Run.history { world := w, agenda := [.perform s] } ++ (w.perform s).1.history rest

theorem World.history_append (w : World α) (program more : List (Step α)) :
    w.history (program ++ more) =
      w.history program ++ (w.performAll program).1.history more := by
  induction program generalizing w with
  | nil => rfl
  | cons s rest ih =>
    rw [List.cons_append, history, history, ih, List.append_assoc]
    rfl

/-! ## Guarded agendas -/

/-- A panic before the frames is caught before any of them is dropped. -/
def Catches : List (Frame α) → Prop
  | [] => True
  | .report _ :: _ => True
  | _ => False

/-- No panic drops any of the frames. -/
def IsGuarded : List (Frame α) → Prop
  | [] => True
  | .perform _ :: rest => Catches rest ∧ IsGuarded rest
  | .panic _ :: rest => Catches rest ∧ IsGuarded rest
  | _ :: rest => IsGuarded rest

theorem Catches.unwind_eq (h : Catches fs) : unwind fs = fs := by
  match fs, h with
  | [], _ => rfl
  | .report _ :: _, _ => rfl

theorem IsGuarded.tail (h : IsGuarded (f :: rest)) : IsGuarded rest := by
  cases f with
  | perform s => exact h.2
  | panic text => exact h.2
  | _ => exact h

theorem isGuarded_frames (name : String) (i : Nat) (body : List (Step α)) (h : IsGuarded rest) :
    IsGuarded (frames name i body ++ rest) := by
  induction body generalizing i with
  | nil => exact h
  | cons s body ih => exact ⟨trivial, ih (i + 1)⟩

/-- A call that does nothing to a handle is answered at once. -/
theorem Step.todo_of_none {s : Step α} (h : s.mark? w = none) :
    ∃ a, (s.carryOut w).2 = [.give a] := by
  cases s with
  | create query => exact ⟨_, rfl⟩
  | same h other => exact ⟨_, rfl⟩
  | map n g =>
    rw [mark?, Option.map_eq_none_iff] at h
    exact ⟨.nothing, by simp only [carryOut, h]⟩
  | complete n o strict =>
    rw [mark?, Option.map_eq_none_iff] at h
    exact ⟨.nothing, by simp only [carryOut, h]⟩
  | listen n name body panics =>
    rw [mark?, Option.map_eq_none_iff] at h
    exact ⟨.nothing, by simp only [carryOut, h]⟩
  | copy n =>
    simp only [carryOut]
    split <;> exact ⟨_, rfl⟩
  | ask n q =>
    simp only [carryOut]
    split <;> exact ⟨_, rfl⟩
  | await n =>
    simp only [carryOut]
    split <;> exact ⟨_, rfl⟩
  | join number =>
    simp only [carryOut]
    repeat' split
    all_goals exact ⟨_, rfl⟩

/-- To complete a pending handle sets its outcome, and makes its listeners due. -/
theorem Step.carryOut_complete {h n : Nat} {cell : Cell α} (hf : w.find? h = some (n, cell))
    (hp : cell.handle.outcome = none) (o : Outcome α) (strict : Bool) :
    (Step.complete h o strict).carryOut w = (w.setHandle n cell ⟨some o, []⟩,
      [.notify n cell.handle.listeners, .give .completed]) := by
  simp only [carryOut, hf, Handle.complete?_of_pending hp]

/-- To complete a handle that is done is a panic or a refusal. -/
theorem Step.carryOut_complete_of_done {h n : Nat} {cell : Cell α}
    (hf : w.find? h = some (n, cell)) (hd : cell.handle.isDone = true) (o : Outcome α)
    (strict : Bool) : (Step.complete h o strict).carryOut w =
      (w, [if strict then .panic doubleCompletion else .give .refused]) := by
  have hnone : cell.handle.complete? o = none := (Handle.complete?_eq_none_iff _ o).2 hd
  simp only [carryOut, hf, hnone]

/-- A call panics only if it completes a handle that is done. -/
theorem Step.mark?_of_panic {s : Step α} {text : String} (h : (s.carryOut w).2 = [.panic text]) :
    ∃ n, s.mark? w = some (.refused n) := by
  have hacts := s.acts w
  cases hm : s.mark? w with
  | none =>
    obtain ⟨a, ha⟩ := Step.todo_of_none hm
    rw [h] at ha
    cases ha
  | some m =>
    cases s with
    | complete n o strict =>
      rw [mark?, Option.map_eq_some_iff] at hm
      obtain ⟨⟨k, cell⟩, hf, rfl⟩ := hm
      cases hd : cell.handle.isDone with
      | true => exact ⟨k, by simp [hd]⟩
      | false =>
        rw [carryOut_complete hf (by simpa [Handle.isDone] using hd)] at h
        cases h
    | map n g =>
      rw [mark?, Option.map_eq_some_iff] at hm
      obtain ⟨⟨k, cell⟩, hf, -⟩ := hm
      simp [carryOut, hf] at h
    | listen n name body panics =>
      rw [mark?, Option.map_eq_some_iff] at hm
      obtain ⟨⟨k, cell⟩, hf, -⟩ := hm
      simp [carryOut, hf] at h
    | _ => cases hm

/-- What a call leaves to be done is guarded where the call was. -/
theorem Step.isGuarded_carryOut (s : Step α) (h : IsGuarded (.perform s :: rest)) :
    IsGuarded ((s.carryOut w).2 ++ rest) := by
  have hacts := s.acts w
  generalize hw : (s.carryOut w).1 = w' at hacts
  generalize hfs : (s.carryOut w).2 = fs at hacts
  generalize hm : s.mark? w = mark at hacts
  cases hacts with
  | calls =>
    obtain ⟨a, ha⟩ := Step.todo_of_none hm
    rw [ha] at hfs
    subst hfs
    exact h.2
  | registers => exact h.2
  | completes _ _ hgive =>
    rcases hgive with rfl | ⟨a, rfl⟩
    · exact h.2
    · exact h.2
  | refuses => exact h.2
  | panics => exact h

/-! ## Listeners ran, wait or are due -/

/-- The listeners on the handle in a cell that a frame runs. -/
def Frame.due (n : Nat) : Frame α → List (Listener α)
  | .notify k ls => if k = n then ls else []
  | _ => []

/-- The listeners on the handle in a cell that are due. -/
def due (n : Nat) (fs : List (Frame α)) : List (Listener α) := fs.flatMap (Frame.due n)

@[simp] theorem due_nil (n : Nat) : due n ([] : List (Frame α)) = [] := rfl

@[simp] theorem due_cons (n : Nat) (f : Frame α) (fs : List (Frame α)) :
    due n (f :: fs) = f.due n ++ due n fs := rfl

@[simp] theorem due_append (n : Nat) (fs fs' : List (Frame α)) :
    due n (fs ++ fs') = due n fs ++ due n fs' := List.flatMap_append

theorem due_of_calls (h : ∀ f ∈ fs, f.isNotify = false) (n : Nat) : due n fs = [] := by
  refine List.flatMap_eq_nil_iff.2 fun f hf => ?_
  cases f with
  | notify => cases h _ hf
  | _ => rfl

@[simp] theorem registrations_nil (n : Nat) : registrations n ([] : List (Mark α)) = [] := rfl

@[simp] theorem runs_nil (n : Nat) : runs n ([] : List (Mark α)) = [] := rfl

@[simp] theorem registrations_append (n : Nat) (ms ms' : List (Mark α)) :
    registrations n (ms ++ ms') = registrations n ms ++ registrations n ms' :=
  List.filterMap_append

@[simp] theorem completions_append (n : Nat) (ms ms' : List (Mark α)) :
    completions n (ms ++ ms') = completions n ms ++ completions n ms' :=
  List.filterMap_append

@[simp] theorem runs_append (n : Nat) (ms ms' : List (Mark α)) :
    runs n (ms ++ ms') = runs n ms ++ runs n ms' :=
  List.filterMap_append

@[simp] theorem registrations_singleton (n : Nat) (m : Mark α) :
    registrations n [m] = (m.registered? n).toList := by
  simp [registrations, List.filterMap_eq_flatMap_toList]

@[simp] theorem completions_singleton (n : Nat) (m : Mark α) :
    completions n [m] = (m.completed? n).toList := by
  simp [completions, List.filterMap_eq_flatMap_toList]

@[simp] theorem runs_singleton (n : Nat) (m : Mark α) : runs n [m] = (m.ran? n).toList := by
  simp [runs, List.filterMap_eq_flatMap_toList]

/-- A listener that is registered waits, or has to run. -/
theorem countP_listen (h : Handle α (Listener α)) (l : Listener α) (p : Listener α → Bool) :
    (h.listen l).1.listeners.countP p + (h.listen l).2.countP p =
      h.listeners.countP p + [l].countP p := by
  cases ho : h.outcome <;> simp [Handle.listen, ho]

/-- Every listener that was registered ran, waits or is due. -/
structure Balanced (ms : List (Mark α)) (w : World α) (fs : List (Frame α)) : Prop where
  tidy : w.book.IsTidy
  due : ∀ n, due n fs ≠ [] → (w.book n).isDone = true
  seen : ∀ {n : Nat} {l : Listener α} {seen : Option (Outcome α)}, (l, seen) ∈ runs n ms →
    (w.book n).isDone = true ∧ seen = (w.book n).outcome
  count : ∀ (n : Nat) (p : Listener α → Bool), (registrations n ms).countP p =
    (runs n ms).countP (p ·.1) + (w.book n).listeners.countP p +
      (Program.due n fs).countP p

namespace Balanced

/-- What neither registers nor runs a listener keeps the balance. -/
theorem congr {ms' : List (Mark α)} {fs' : List (Frame α)} (h : Balanced ms w fs)
    (hb : w'.book = w.book) (hd : ∀ n, Program.due n fs' = Program.due n fs)
    (hreg : ∀ n, registrations n ms' = registrations n ms) (hrun : ∀ n, runs n ms' = runs n ms) :
    Balanced ms' w' fs' where
  tidy := hb ▸ h.tidy
  due n hn := by
    rw [hd] at hn
    rw [hb]
    exact h.due n hn
  seen hr := by
    rw [hrun] at hr
    rw [hb]
    exact h.seen hr
  count n p := by
    rw [hreg, hrun, hb, hd]
    exact h.count n p

/-- To complete a pending handle makes the listeners due that wait for it. -/
theorem complete (h : Balanced ms w fs) {k : Nat} {o : Outcome α}
    (ho : (w.book k).outcome = none) (hb : w'.book = Function.update w.book k ⟨some o, []⟩) :
    Balanced ms w' (.notify k (w.book k).listeners :: fs) := by
  have hself : w'.book k = ⟨some o, []⟩ := by rw [hb, Function.update_self]
  have hother : ∀ n, n ≠ k → w'.book n = w.book n := fun n hn => by
    rw [hb, Function.update_of_ne hn]
  constructor
  · intro n hd
    by_cases hn : n = k
    · rw [hn, hself]
    · rw [hother n hn] at hd ⊢
      exact h.tidy n hd
  · intro n hd
    by_cases hn : n = k
    · rw [hn, hself]
      rfl
    · rw [hother n hn]
      exact h.due n (by simpa [Frame.due, Ne.symm hn] using hd)
  · intro n l seen hr
    by_cases hn : n = k
    · subst hn
      have hdone := (h.seen hr).1
      rw [Handle.isDone, ho] at hdone
      cases hdone
    · rw [hother n hn]
      exact h.seen hr
  · intro n p
    have hcount := h.count n p
    by_cases hn : n = k
    · subst hn
      rw [hself]
      simp only [due_cons, Frame.due, if_true, List.countP_append, List.countP_nil]
      omega
    · rw [hother n hn]
      simpa [Frame.due, Ne.symm hn] using hcount

/-- A listener that is registered waits or is due. -/
theorem register (h : Balanced ms w fs) {k : Nat} {l : Listener α}
    (hb : w'.book = Function.update w.book k ((w.book k).listen l).1) :
    Balanced (ms ++ [.registered k l]) w' (.notify k ((w.book k).listen l).2 :: fs) := by
  have hself : w'.book k = ((w.book k).listen l).1 := by rw [hb, Function.update_self]
  have hother : ∀ n, n ≠ k → w'.book n = w.book n := fun n hn => by
    rw [hb, Function.update_of_ne hn]
  have hrun : ∀ n, runs n (ms ++ [Mark.registered k l]) = runs n ms := fun n => by
    simp [Mark.ran?]
  have hdone : ∀ n, (w'.book n).outcome = (w.book n).outcome := fun n => by
    by_cases hn : n = k
    · rw [hn, hself, Handle.outcome_listen]
    · rw [hother n hn]
  constructor
  · intro n hd
    rw [Handle.isDone, hdone] at hd
    by_cases hn : n = k
    · subst hn
      obtain ⟨o, ho⟩ := Option.isSome_iff_exists.1 hd
      rw [hself]
      simpa [Handle.listen, ho] using h.tidy n hd
    · rw [hother n hn]
      exact h.tidy n hd
  · intro n hd
    rw [Handle.isDone, hdone]
    by_cases hn : n = k
    · subst hn
      cases ho : (w.book n).outcome with
      | none =>
        have hrest := h.due n (by simpa [Frame.due, Handle.listen, ho] using hd)
        rwa [Handle.isDone, ho] at hrest
      | some o => rfl
    · exact h.due n (by simpa [Frame.due, Ne.symm hn] using hd)
  · intro n m seen hr
    rw [hrun] at hr
    rw [Handle.isDone, hdone]
    exact h.seen hr
  · intro n p
    have hcount := h.count n p
    rw [hrun]
    by_cases hn : n = k
    · subst hn
      have hlisten := countP_listen (w.book n) l p
      rw [hself]
      simp only [registrations_append, registrations_singleton, Mark.registered?, if_true,
        Option.toList_some, due_cons, Frame.due, List.countP_append]
      omega
    · rw [hother n hn]
      simpa [Mark.registered?, Frame.due, Ne.symm hn] using hcount

/-- A listener that was due runs, and sees the outcome. -/
theorem hear {k : Nat} {l : Listener α} {ds : List (Listener α)}
    (h : Balanced ms w (.notify k (l :: ds) :: fs)) :
    Balanced (ms ++ [.ran k l (w.outcome? k)]) w (.notify k ds :: fs) := by
  have hdone : (w.book k).isDone = true := h.due k (by simp [Frame.due])
  constructor
  · exact h.tidy
  · intro n hd
    by_cases hn : n = k
    · rwa [hn]
    · exact h.due n (by simpa [Frame.due, Ne.symm hn] using hd)
  · intro n l' seen hr
    rw [runs_append, List.mem_append] at hr
    rcases hr with hr | hr
    · exact h.seen hr
    · by_cases hn : k = n
      · subst hn
        simp only [runs_singleton, Mark.ran?, if_true, Option.toList_some, List.mem_singleton,
          Prod.mk.injEq] at hr
        rw [hr.2, w.outcome?_eq]
        exact ⟨hdone, rfl⟩
      · simp [Mark.ran?, hn] at hr
  · intro n p
    have hcount := h.count n p
    by_cases hn : k = n
    · subst hn
      simp [Frame.due, List.countP_cons] at hcount
      simp [Mark.registered?, Mark.ran?, Frame.due, List.countP_cons]
      omega
    · simpa [Mark.registered?, Mark.ran?, Frame.due, hn] using hcount

variable {s : Step α}

/-- Calls keep the balance. -/
theorem perform (h : Balanced ms w (.perform s :: rest)) :
    Balanced (ms ++ (s.mark? w).toList) (s.carryOut w).1 ((s.carryOut w).2 ++ rest) := by
  have hrest : Balanced ms w rest := h.congr rfl (fun _ => rfl) (fun _ => rfl) (fun _ => rfl)
  have hacts := s.acts w
  have hpanic : ∀ text, (s.carryOut w).2 = [.panic text] → ∃ n, s.mark? w = some (.refused n) :=
    fun _ => Step.mark?_of_panic
  generalize (s.carryOut w).1 = w' at hacts ⊢
  generalize (s.carryOut w).2 = fs at hacts hpanic ⊢
  generalize s.mark? w = mark at hacts hpanic ⊢
  cases hacts with
  | calls hb hfs =>
    refine hrest.congr hb (fun n => ?_) (fun n => by simp) (fun n => by simp)
    rw [due_append, due_of_calls hfs]
    rfl
  | registers hb =>
    exact (hrest.register hb).congr rfl (fun _ => rfl) (fun _ => rfl) (fun _ => rfl)
  | completes ho hb hgive =>
    refine (hrest.complete ho hb).congr rfl (fun n => ?_) (fun n => ?_) (fun n => ?_)
    · rcases hgive with rfl | ⟨a, rfl⟩ <;> rfl
    · simp [Mark.registered?]
    · simp [Mark.ran?]
  | refuses =>
    exact hrest.congr rfl (fun _ => rfl) (fun n => by simp [Mark.registered?])
      (fun n => by simp [Mark.ran?])
  | panics =>
    obtain ⟨k, rfl⟩ := hpanic _ rfl
    exact hrest.congr rfl (fun _ => rfl) (fun n => by simp [Mark.registered?])
      (fun n => by simp [Mark.ran?])

end Balanced

end StoreClient.Program
