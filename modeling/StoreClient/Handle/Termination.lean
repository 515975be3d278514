import StoreClient.Handle.World

/-!
# Programs on handles come to an end

Every frame that is done makes a run lighter (`Run.weight_next_lt`): what a step or a listener
leaves to be done weighs less than the step or the listener itself. So a run with as much fuel as it
weighs leaves nothing to be done (`Run.agenda_runFor`).
-/

namespace StoreClient.Program

variable {α : Type}

/-! ## Sums of weights -/

@[simp] theorem Listener.totalWeight_nil : totalWeight ([] : List (Listener α)) = 0 := rfl

@[simp] theorem Listener.totalWeight_cons (l : Listener α) (due : List (Listener α)) :
    totalWeight (l :: due) = l.weight + totalWeight due := by
  simp [totalWeight]

@[simp] theorem Frame.totalWeight_nil : totalWeight ([] : List (Frame α)) = 0 := rfl

@[simp] theorem Frame.totalWeight_cons (f : Frame α) (agenda : List (Frame α)) :
    totalWeight (f :: agenda) = f.weight + totalWeight agenda := by
  simp [totalWeight]

@[simp] theorem Frame.totalWeight_append (a b : List (Frame α)) :
    totalWeight (a ++ b) = totalWeight a + totalWeight b := by
  simp [totalWeight]

theorem Frame.totalWeight_frames (name : String) (i : Nat) (body : List (Step α)) :
    totalWeight (frames name i body) = weights body := by
  induction body generalizing i with
  | nil => simp [frames, weights]
  | cons s body ih => simp [frames, weights, ih, Frame.weight, Nat.add_assoc]

/-- Unwinding only takes frames off an agenda. -/
theorem Frame.totalWeight_unwind (agenda : List (Frame α)) :
    totalWeight (unwind agenda) ≤ totalWeight agenda := by
  fun_induction unwind agenda with
  | case1 => exact Nat.le_refl _
  | case2 => exact Nat.le_refl _
  | case3 frame rest _ ih =>
    rw [totalWeight_cons]
    omega

theorem Frame.weight_pos (f : Frame α) : 0 < f.weight := by
  cases f with
  | perform s => cases s <;> simp [weight, Step.weight]
  | _ => simp [weight]

/-! ## Worlds -/

namespace World

/-- To put a handle into a cell exchanges the weight of its listeners. -/
theorem weight_setHandle {w : World α} {n : Nat} {cell : Cell α}
    (handle : Handle α (Listener α)) (h : w.cells[n]? = some cell) :
    (w.setHandle n cell handle).weight + Listener.totalWeight cell.handle.listeners =
      w.weight + Listener.totalWeight handle.listeners :=
  sumOf_set (f := fun c : Cell α => Listener.totalWeight c.handle.listeners) _ h

theorem cell_of_find? {w : World α} {h n : Nat} {cell : Cell α}
    (hf : w.find? h = some (n, cell)) : w.cells[n]? = some cell := by
  simp only [find?, bind, Option.bind_eq_some_iff, pure, Option.some.injEq, Prod.mk.injEq] at hf
  obtain ⟨_, _, _, hc, rfl, rfl⟩ := hf
  exact hc

theorem cell_create {w : World α} {n : Nat} {cell : Cell α} (query : String)
    (h : w.cells[n]? = some cell) : (w.create query).1.cells[n]? = some cell := by
  have hn : n < w.cells.length := (List.getElem?_eq_some_iff.1 h).1
  simp only [create, List.getElem?_append_left hn, h]

@[simp] theorem weight_create (w : World α) (query : String) :
    (w.create query).1.weight = w.weight := by
  simp [create, weight]

/-- To complete a handle moves the weight of its listeners from those registered to those due. -/
theorem weight_complete {w : World α} {n : Nat} {cell : Cell α}
    {handle : Handle α (Listener α)} {o : Outcome α} {due : List (Listener α)}
    (h : w.cells[n]? = some cell) (hc : cell.handle.complete? o = some (handle, due)) :
    (w.setHandle n cell handle).weight + Listener.totalWeight due = w.weight := by
  obtain ⟨_, _, hnil, rfl⟩ := Handle.outcome_of_complete? hc
  simpa [hnil] using weight_setHandle handle h

/-- To register a listener adds its weight to those registered or due. -/
theorem weight_listen {w : World α} {n : Nat} {cell : Cell α} (l : Listener α)
    (h : w.cells[n]? = some cell) :
    (w.setHandle n cell (cell.handle.listen l).1).weight +
      Listener.totalWeight (cell.handle.listen l).2 = w.weight + l.weight := by
  have hw := weight_setHandle (cell.handle.listen l).1 h
  unfold Handle.listen at hw ⊢
  split at hw <;> simp [Listener.totalWeight] at hw ⊢ <;> omega

end World

/-! ## Steps and listeners -/

/-- What a step leaves to be done weighs less than the step. -/
theorem Step.weight_carryOut (w : World α) (s : Step α) :
    (s.carryOut w).1.weight + Frame.totalWeight (s.carryOut w).2 < w.weight + s.weight := by
  cases s with
  | map h f =>
    simp only [carryOut]
    split
    · simp [Frame.weight, weight]
    · next n cell hf =>
      have hc := World.cell_create cell.query (World.cell_of_find? hf)
      have hw := w.weight_create cell.query
      rcases hcr : w.create cell.query with ⟨w', target, number⟩
      rw [hcr] at hc hw
      have := World.weight_listen (.forward target f) hc
      simp only [Listener.weight] at this hw
      simp only [Frame.totalWeight_cons, Frame.totalWeight_nil, Frame.weight, weight]
      omega
  | complete h o strict =>
    simp only [carryOut]
    split
    · simp [Frame.weight, weight]
    · next n cell hf =>
      split
      · next handle due hc =>
        have := World.weight_complete (World.cell_of_find? hf) hc
        simp only [Frame.totalWeight_cons, Frame.totalWeight_nil, Frame.weight, weight]
        omega
      · cases strict <;> simp [Frame.weight, weight]
  | listen h name body panics =>
    simp only [carryOut]
    split
    · simp [Frame.weight, weight]
    · next n cell hf =>
      have := World.weight_listen (.observe name body panics) (World.cell_of_find? hf)
      simp only [Listener.weight] at this
      simp only [Frame.totalWeight_cons, Frame.totalWeight_nil, Frame.weight, weight]
      omega
  | create query => simp [carryOut, Frame.weight, weight]
  | copy h =>
    simp only [carryOut]
    split <;> simp [Frame.weight, weight, World.weight]
  | ask h q =>
    simp only [carryOut]
    split <;> simp [Frame.weight, weight]
  | same h other => simp [carryOut, Frame.weight, weight]
  | await h =>
    simp only [carryOut]
    split <;> simp [Frame.weight, weight, World.weight]
  | join number =>
    simp only [carryOut]
    split
    · simp [Frame.weight, weight]
    · split
      · simp [Frame.weight, weight]
      · split <;> simp [Frame.weight, weight, World.weight]

/-- What a listener leaves to be done weighs less than the listener. -/
theorem Listener.weight_carryOut (w : World α) (n : Nat) (l : Listener α) :
    (l.carryOut w n).1.weight + Frame.totalWeight (l.carryOut w n).2.2 < w.weight + l.weight := by
  cases l with
  | observe name body panics =>
    cases panics <;>
      simp [carryOut, weight, Frame.weight, Frame.totalWeight_frames]
  | forward target f =>
    simp only [carryOut]
    split
    · next o cell _ ht =>
      split
      · next handle due hc =>
        have := World.weight_complete ht hc
        simp only [Frame.totalWeight_cons, Frame.totalWeight_nil, Frame.weight, weight]
        omega
      · simp [Frame.weight, weight]
    · simp [weight]

/-! ## Runs -/

namespace Run

/-- Every frame that is done makes a run lighter. -/
theorem weight_next_lt {r : Run α} (h : r.agenda ≠ []) : r.next.weight < r.weight := by
  obtain ⟨w, agenda, answer, events⟩ := r
  cases agenda with
  | nil => exact absurd rfl h
  | cons frame rest =>
    cases frame with
    | perform s =>
      have := s.weight_carryOut w
      simp only [next, weight, Frame.totalWeight_append, Frame.totalWeight_cons, Frame.weight]
      omega
    | notify n due =>
      cases due with
      | nil => simp [next, weight, Frame.weight]
      | cons l due =>
        have := l.weight_carryOut w n
        rcases hl : l.carryOut w n with ⟨w', reports, todo⟩
        simp only [hl] at this
        simp only [next, hl, weight, Frame.totalWeight_append, Frame.totalWeight_cons, Frame.weight,
          Listener.totalWeight_cons]
        omega
    | panic text =>
      have := Frame.totalWeight_unwind rest
      simp only [next, weight, Frame.totalWeight_cons, Frame.weight]
      omega
    | report label => simp [next, weight, Frame.weight]
    | give a => simp [next, weight, Frame.weight]

/-- A run with as much fuel as it weighs leaves nothing to be done. -/
theorem agenda_runFor {fuel : Nat} {r : Run α} (h : r.weight ≤ fuel) :
    (runFor fuel r).agenda = [] := by
  induction fuel generalizing r with
  | zero =>
    obtain ⟨w, agenda, answer, events⟩ := r
    cases agenda with
    | nil => rfl
    | cons frame rest =>
      have := frame.weight_pos
      simp only [weight, Frame.totalWeight_cons] at h
      omega
  | succ fuel ih =>
    rw [runFor]
    split
    · assumption
    · next ha =>
      have := weight_next_lt ha
      exact ih (by omega)

end Run

end StoreClient.Program
