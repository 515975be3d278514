import StoreClient.Handle.Termination

/-!
# Runs as nested calls

On the agenda of a run, everything that is still to be done stands in one row. But a call returns
only when the listeners have run that it makes run, and a listener has run only when its own calls
have returned. `Does` puts this nesting back: it says what calls and listeners do to handles, as
trees (`Deed`) in which whatever is done within a call or within a listener hangs below it.

Without a panic, a run does what its agenda says (`Run.does_of_calm`): what a frame puts on the
agenda is done before anything that was there already (`Does.split`). An agenda says only one thing
(`Does.unique`).
-/

namespace StoreClient.Program

variable {α : Type} {w w' w₁ w₂ : World α}

/-! ## Deeds -/

/-- What is done to the handle in a cell. -/
inductive Mark (α : Type) where
  | registered (n : Nat) (l : Listener α)
  | completed (n : Nat) (o : Outcome α)
  /-- Someone tried to complete the handle, which was done already. -/
  | refused (n : Nat)
  /-- A listener on the handle ran, and saw this. -/
  | ran (n : Nat) (l : Listener α) (seen : Option (Outcome α))

/-- What is done, with all that is done within it. -/
structure Deed (α : Type) where
  mark : Mark α
  inside : List (Deed α)

mutual

/-- A deed and all within it, in the order in which they begin. -/
def Deed.marks : Deed α → List (Mark α)
  | ⟨mark, inside⟩ => mark :: marks inside

/-- All that is done, in the order in which it begins. -/
def marks : List (Deed α) → List (Mark α)
  | [] => []
  | d :: ds => d.marks ++ marks ds

end

@[simp] theorem marks_nil : marks ([] : List (Deed α)) = [] := rfl

@[simp] theorem marks_cons (mark : Mark α) (inside ds : List (Deed α)) :
    marks (⟨mark, inside⟩ :: ds) = mark :: (marks inside ++ marks ds) := by
  simp [marks, Deed.marks]

@[simp] theorem marks_append (ds ds' : List (Deed α)) :
    marks (ds ++ ds') = marks ds ++ marks ds' := by
  induction ds with
  | nil => rfl
  | cons d ds ih => simp [marks, ih]

/-- Puts deeds within another, if there is one. -/
def within (ds : List (Deed α)) : Option (Mark α) → List (Deed α)
  | none => ds
  | some mark => [⟨mark, ds⟩]

/-! ## Calls and listeners -/

/-- The outcome of the handle in a cell. -/
def World.outcome? (w : World α) (n : Nat) : Option (Outcome α) :=
  w.cells[n]?.bind (·.handle.outcome)

/-- What a step itself does to a handle. -/
def Step.mark? (w : World α) : Step α → Option (Mark α)
  | listen h name body panics =>
    (w.find? h).map fun (n, _) => .registered n (.observe name body panics)
  | map h f => (w.find? h).map fun (n, _) => .registered n (.forward w.cells.length f)
  | complete h o _ =>
    (w.find? h).map fun (n, cell) => if cell.handle.isDone then .refused n else .completed n o
  | _ => none

/-- What a listener itself does to a handle. -/
def Listener.mark? (w : World α) (n : Nat) : Listener α → Option (Mark α)
  | observe _ _ _ => none
  | forward target f => match w.outcome? n, w.cells[target]? with
    | some o, some _ => some (.completed target (o.bind f))
    | _, _ => none

/-- What is done when frames are done to their end and nothing panics: the deeds, and the world
after them. -/
inductive Does : World α → List (Frame α) → List (Deed α) → World α → Prop where
  | nothing {w : World α} : Does w [] [] w
  | perform {w w₁ w₂ : World α} {s : Step α} {rest : List (Frame α)} {inside later : List (Deed α)}
      (hi : Does (s.carryOut w).1 (s.carryOut w).2 inside w₁) (hr : Does w₁ rest later w₂) :
      Does w (.perform s :: rest) (within inside (s.mark? w) ++ later) w₂
  -- the listeners of a cell run one after another
  | run {w w₁ w₂ : World α} {n : Nat} {l : Listener α} {due : List (Listener α)}
      {rest : List (Frame α)} {inside later : List (Deed α)}
      (hi : Does (l.carryOut w n).1 (l.carryOut w n).2.2 inside w₁)
      (hr : Does w₁ (.notify n due :: rest) later w₂) :
      Does w (.notify n (l :: due) :: rest)
        (⟨.ran n l (w.outcome? n), within inside (l.mark? w n)⟩ :: later) w₂
  | notified {w w' : World α} {n : Nat} {rest : List (Frame α)} {ds : List (Deed α)}
      (hr : Does w rest ds w') : Does w (.notify n [] :: rest) ds w'
  | report {w w' : World α} {label : String} {rest : List (Frame α)} {ds : List (Deed α)}
      (hr : Does w rest ds w') : Does w (.report label :: rest) ds w'
  | give {w w' : World α} {a : Answer α} {rest : List (Frame α)} {ds : List (Deed α)}
      (hr : Does w rest ds w') : Does w (.give a :: rest) ds w'

/-- What is done later comes after. -/
theorem Does.append {fs rest : List (Frame α)} {ds later : List (Deed α)} (h : Does w fs ds w₁)
    (hr : Does w₁ rest later w₂) : Does w (fs ++ rest) (ds ++ later) w₂ := by
  induction h with
  | nothing => exact hr
  | perform hi _ _ ih =>
    rw [List.append_assoc]
    exact .perform hi (ih hr)
  | run hi _ _ ih => exact .run hi (ih hr)
  | notified _ ih => exact .notified (ih hr)
  | report _ ih => exact .report (ih hr)
  | give _ ih => exact .give (ih hr)

/-- The first frame is done first. -/
theorem Does.head {f : Frame α} {rest : List (Frame α)} {ds : List (Deed α)}
    (h : Does w (f :: rest) ds w') :
    ∃ w₁ first later, Does w [f] first w₁ ∧ Does w₁ rest later w' ∧ ds = first ++ later := by
  generalize hfs : f :: rest = fs at h
  induction h generalizing f with
  | nothing => cases hfs
  | perform hi hr =>
    obtain ⟨rfl, rfl⟩ := List.cons.inj hfs
    exact ⟨_, _, _, .perform hi .nothing, hr, by rw [List.append_nil]⟩
  | run hi _ _ ih =>
    obtain ⟨rfl, rfl⟩ := List.cons.inj hfs
    obtain ⟨w₁, first, later, hfirst, hlater, rfl⟩ := ih rfl
    exact ⟨w₁, _, later, .run hi hfirst, hlater, rfl⟩
  | notified hr =>
    obtain ⟨rfl, rfl⟩ := List.cons.inj hfs
    exact ⟨_, [], _, .notified .nothing, hr, rfl⟩
  | report hr =>
    obtain ⟨rfl, rfl⟩ := List.cons.inj hfs
    exact ⟨_, [], _, .report .nothing, hr, rfl⟩
  | give hr =>
    obtain ⟨rfl, rfl⟩ := List.cons.inj hfs
    exact ⟨_, [], _, .give .nothing, hr, rfl⟩

/-- What comes first is done first. -/
theorem Does.split {todo rest : List (Frame α)} {ds : List (Deed α)}
    (h : Does w (todo ++ rest) ds w') :
    ∃ w₁ first later, Does w todo first w₁ ∧ Does w₁ rest later w' ∧ ds = first ++ later := by
  induction todo generalizing w ds with
  | nil => exact ⟨w, [], ds, .nothing, h, rfl⟩
  | cons f todo ih =>
    obtain ⟨w₁, first, others, hfirst, hothers, rfl⟩ := h.head
    obtain ⟨w₂, second, later, hsecond, hlater, rfl⟩ := ih hothers
    exact ⟨w₂, first ++ second, later, hfirst.append hsecond, hlater,
      (List.append_assoc _ _ _).symm⟩

/-- There is one account only of what is done. -/
theorem Does.unique {fs : List (Frame α)} {ds ds' : List (Deed α)} (h : Does w fs ds w₁)
    (h' : Does w fs ds' w₂) : ds = ds' ∧ w₁ = w₂ := by
  induction h generalizing ds' w₂ with
  | nothing =>
    cases h'
    exact ⟨rfl, rfl⟩
  | perform _ _ ihi ihr =>
    cases h' with
    | perform hi' hr' =>
      obtain ⟨rfl, rfl⟩ := ihi hi'
      obtain ⟨rfl, rfl⟩ := ihr hr'
      exact ⟨rfl, rfl⟩
  | run _ _ ihi ihr =>
    cases h' with
    | run hi' hr' =>
      obtain ⟨rfl, rfl⟩ := ihi hi'
      obtain ⟨rfl, rfl⟩ := ihr hr'
      exact ⟨rfl, rfl⟩
  | notified _ ih =>
    cases h' with
    | notified hr' => exact ih hr'
  | report _ ih =>
    cases h' with
    | report hr' => exact ih hr'
  | give _ ih =>
    cases h' with
    | give hr' => exact ih hr'

/-! ## Runs -/

namespace Run

/-- Does everything on the agenda. -/
def finish (r : Run α) : Run α := runFor r.weight r

/-- More fuel than a run weighs makes no difference. -/
theorem runFor_of_le {fuel fuel' : Nat} {r : Run α} (h : r.weight ≤ fuel) (h' : r.weight ≤ fuel') :
    runFor fuel r = runFor fuel' r := by
  induction fuel generalizing fuel' r with
  | zero =>
    have hnil : r.agenda = [] := agenda_runFor (show r.weight ≤ 0 from h)
    cases fuel' with
    | zero => rfl
    | succ fuel' => simp [runFor, hnil]
  | succ fuel ih =>
    by_cases hnil : r.agenda = []
    · cases fuel' with
      | zero => simp [runFor, hnil]
      | succ fuel' => simp [runFor, hnil]
    · have hlt := weight_next_lt hnil
      cases fuel' with
      | zero => omega
      | succ fuel' =>
        have hnext : runFor fuel r.next = runFor fuel' r.next := ih (by omega) (by omega)
        unfold runFor
        split
        · rfl
        · exact hnext

theorem finish_of_nil {r : Run α} (h : r.agenda = []) : r.finish = r := by
  unfold finish
  cases r.weight with
  | zero => rfl
  | succ n => simp [runFor, h]

theorem finish_next {r : Run α} (h : r.agenda ≠ []) : r.finish = r.next.finish := by
  have hlt := weight_next_lt h
  calc r.finish = runFor (r.weight + 1) r := runFor_of_le (Nat.le_refl _) (Nat.le_succ _)
    _ = runFor r.weight r.next := by
      rw [runFor]
      split
      · contradiction
      · rfl
    _ = r.next.finish := runFor_of_le (Nat.le_of_lt hlt) (Nat.le_refl _)

/-- Induction over the frames that a run does. -/
@[elab_as_elim]
theorem next_induction {P : Run α → Prop} (r : Run α) (done : ∀ r, r.agenda = [] → P r)
    (next : ∀ r, r.agenda ≠ [] → P r.next → P r) : P r := by
  induction hw : r.weight using Nat.strongRecOn generalizing r with
  | ind weight ih =>
    by_cases hnil : r.agenda = []
    · exact done r hnil
    · exact next r hnil (ih _ (hw ▸ weight_next_lt hnil) r.next rfl)

end Run

/-! ## Panics -/

/-- Whether an answer is a panic. -/
def Answer.isPanic : Answer α → Bool
  | panicked _ => true
  | _ => false

/-- Whether a step of a listener was answered with a panic. -/
def Event.isPanic : Event α → Bool
  | answered _ a => a.isPanic
  | heard _ _ => false

/-- Nothing is seen of a panic. -/
structure IsCalm (answers : List (Answer α)) (es : List (Event α)) : Prop where
  answers : ∀ a ∈ answers, a.isPanic = false
  events : ∀ e ∈ es, e.isPanic = false

/-- What listeners report that ran. -/
def Event.heard? : Event α → Option (String × Option (Outcome α))
  | heard name o => some (name, o)
  | answered _ _ => none

/-- What a listener reports when it runs. -/
def Mark.heard? : Mark α → Option (String × Option (Outcome α))
  | ran _ (.observe name _ _) seen => some (name, seen)
  | _ => none

theorem heard_within (ds : List (Deed α)) {m : Option (Mark α)}
    (hm : ∀ mark, m = some mark → mark.heard? = none) :
    (marks (within ds m)).filterMap Mark.heard? = (marks ds).filterMap Mark.heard? := by
  cases m with
  | none => rfl
  | some mark => simp [within, hm mark rfl]

/-- What a step does itself is no report. -/
theorem Step.heard?_mark? (w : World α) (s : Step α) :
    ∀ mark, s.mark? w = some mark → mark.heard? = none := by
  intro mark hmark
  cases s with
  | listen h name body panics =>
    obtain ⟨_, _, rfl⟩ := Option.map_eq_some_iff.1 hmark
    rfl
  | map h f =>
    obtain ⟨_, _, rfl⟩ := Option.map_eq_some_iff.1 hmark
    rfl
  | complete h o strict =>
    obtain ⟨_, _, rfl⟩ := Option.map_eq_some_iff.1 hmark
    dsimp only
    split <;> rfl
  | _ => cases hmark

/-- What a listener does itself is no report. -/
theorem Listener.heard?_mark? (w : World α) (n : Nat) (l : Listener α) :
    ∀ mark, l.mark? w n = some mark → mark.heard? = none := by
  intro mark hmark
  cases l with
  | observe name body panics => cases hmark
  | forward target f =>
    simp only [mark?] at hmark
    split at hmark
    · cases hmark
      rfl
    · cases hmark

/-- A listener reports that it runs. -/
theorem Listener.heard?_carryOut (w : World α) (n : Nat) (l : Listener α) :
    (l.carryOut w n).2.1.filterMap Event.heard? = (Mark.ran n l (w.outcome? n)).heard?.toList := by
  cases l with
  | observe name body panics => rfl
  | forward target f =>
    simp only [carryOut]
    repeat' split
    all_goals rfl

namespace Run

/-- What is reported stays. -/
theorem events_finish (r : Run α) : ∃ es, r.finish.events = r.events ++ es := by
  induction r using next_induction with
  | done r hnil => exact ⟨[], by rw [finish_of_nil hnil, List.append_nil]⟩
  | next r hne ih =>
    obtain ⟨later, hlater⟩ := ih
    have hnext : ∃ es, r.next.events = r.events ++ es := by
      unfold next
      split
      · exact ⟨[], (List.append_nil _).symm⟩
      · exact ⟨[], (List.append_nil _).symm⟩
      · exact ⟨_, rfl⟩
      · exact ⟨[], (List.append_nil _).symm⟩
      · exact ⟨_, rfl⟩
      · exact ⟨[], (List.append_nil _).symm⟩
      · exact ⟨[], (List.append_nil _).symm⟩
    obtain ⟨es, hes⟩ := hnext
    exact ⟨es ++ later, by rw [finish_next hne, hlater, hes, List.append_assoc]⟩

/-- A panic is caught by a report, or by nobody. -/
theorem unwind_cases (agenda : List (Frame α)) :
    unwind agenda = [] ∨ ∃ label rest, unwind agenda = .report label :: rest := by
  fun_induction unwind agenda with
  | case1 => exact .inl rfl
  | case2 label rest => exact .inr ⟨label, rest, rfl⟩
  | case3 _ _ _ ih => exact ih

theorem next_of_panic {r : Run α} {text : String} {rest : List (Frame α)}
    (h : r.agenda = .panic text :: rest) :
    r.next = { r with agenda := unwind rest, answer := .panicked text } := by
  unfold next
  rw [h]

/-- A panic is seen. -/
theorem not_isCalm_of_panic {r : Run α} {text : String} {rest : List (Frame α)}
    (h : r.agenda = .panic text :: rest) : ¬ IsCalm [r.finish.answer] r.finish.events := by
  intro hcalm
  rw [finish_next (by simp [h]), next_of_panic h] at hcalm
  rcases unwind_cases rest with hnil | ⟨label, rest', hreport⟩
  · rw [finish_of_nil hnil] at hcalm
    cases hcalm.answers _ (List.mem_singleton.2 rfl)
  · rw [finish_next (by simp [hreport])] at hcalm
    obtain ⟨es, hes⟩ := events_finish
      (next { r with agenda := unwind rest, answer := .panicked text })
    have hpanic := hcalm.events (.answered label (.panicked text)) (by
      rw [hes]
      simp [next, hreport])
    cases hpanic

/-- Without a panic, a run does what its agenda says, and listeners report that they ran. -/
theorem does_of_calm {r : Run α} (h : IsCalm [r.finish.answer] r.finish.events) :
    ∃ ds es, Does r.world r.agenda ds r.finish.world ∧ r.finish.events = r.events ++ es ∧
      es.filterMap Event.heard? = (marks ds).filterMap Mark.heard? := by
  induction r using next_induction with
  | done r hnil =>
    refine ⟨[], [], ?_, ?_, rfl⟩
    · rw [finish_of_nil hnil, hnil]
      exact .nothing
    · rw [finish_of_nil hnil, List.append_nil]
  | next r hne ih =>
    obtain ⟨w, agenda, answer, events⟩ := r
    rw [finish_next hne] at h
    obtain ⟨ds, es, hdoes, hes, hheard⟩ := ih h
    rw [finish_next hne]
    cases agenda with
    | nil => exact absurd rfl hne
    | cons f rest =>
      cases f with
      | perform s =>
        obtain ⟨w₁, inside, later, hi, hr, rfl⟩ := hdoes.split
        refine ⟨_, es, .perform hi hr, hes, ?_⟩
        rw [hheard, marks_append, marks_append, List.filterMap_append, List.filterMap_append,
          heard_within inside (s.heard?_mark? w)]
      | report label =>
        refine ⟨ds, .answered label answer :: es, .report hdoes, ?_, hheard⟩
        rw [hes]
        exact List.append_assoc _ _ _
      | notify n due =>
        cases due with
        | nil => exact ⟨ds, es, .notified hdoes, hes, hheard⟩
        | cons l due =>
          obtain ⟨w₁, inside, later, hi, hr, rfl⟩ := hdoes.split
          refine ⟨_, (l.carryOut w n).2.1 ++ es, .run hi hr, ?_, ?_⟩
          · rw [hes]
            exact List.append_assoc _ _ _
          · rw [List.filterMap_append, hheard, l.heard?_carryOut, marks_append, marks_cons,
              List.filterMap_cons, List.filterMap_append, List.filterMap_append,
              heard_within inside (l.heard?_mark? w n)]
            cases (Mark.ran n l (w.outcome? n)).heard? <;> rfl
      | give a => exact ⟨ds, es, .give hdoes, hes, hheard⟩
      | panic text =>
        rw [← finish_next hne] at h
        exact absurd h (not_isCalm_of_panic rfl)

end Run

end StoreClient.Program
