import Mathlib.Data.List.Pairwise
import StoreClient.Proofs.Handle.History

/-!
# Consistent histories

A handle is derived from one other, once, and shares its query (`Linked`).

As long as no listener panics of its own accord, and derived handles are completed by their sources
only (`IsUndisturbed`), every completion has its account in the history: a call that completed the
handle, or a listener that passed on the outcome of its source (`Accounts`). So a derived handle is
still pending when its source comes to complete it, and that listener does not panic either
(`Consistent.pending_of_due`). With the balance of the listeners this is kept by every frame
(`Consistent.next`), and so by runs and programs (`Consistent.finish`, `Consistent.performAll`).
-/

namespace StoreClient.Program

variable {α : Type} {w w' : World α} {f : Frame α} {fs rest : List (Frame α)} {ms : List (Mark α)}

/-! ## Queries -/

/-- The queries of the handles, one for each cell. -/
def World.queries (w : World α) : List String := w.cells.map (·.query)

theorem World.queries_setHandle {n : Nat} {cell : Cell α} (handle : Handle α (Listener α))
    (h : w.cells[n]? = some cell) : (w.setHandle n cell handle).queries = w.queries := by
  obtain ⟨hn, rfl⟩ := List.getElem?_eq_some_iff.1 h
  simp only [queries, setHandle, List.map_set]
  refine List.ext_getElem? fun i => ?_
  by_cases hi : n = i
  · subst hi
    simp [hn]
  · rw [List.getElem?_set_ne hi]

@[simp] theorem World.queries_create (w : World α) (query : String) :
    (w.create query).1.queries = w.queries ++ [query] := by
  simp [queries, create]

theorem World.query_of_cell {n : Nat} {cell : Cell α} (h : w.cells[n]? = some cell) :
    w.queries[n]? = some cell.query := by
  simp [queries, h]

theorem World.exists_cell {n : Nat} {query : String} (h : w.queries[n]? = some query) :
    ∃ cell, w.cells[n]? = some cell := by
  obtain ⟨cell, hc, -⟩ := Option.map_eq_some_iff.1 (List.getElem?_map ▸ h)
  exact ⟨cell, hc⟩

/-- To derive a handle adds its query, which is that of its source. -/
theorem Step.queries_map {h n : Nat} {g : α → Outcome α} {cell : Cell α}
    (hf : w.find? h = some (n, cell)) :
    ((Step.map h g).carryOut w).1.queries = w.queries ++ [cell.query] := by
  have hc := World.cell_create cell.query (World.cell_of_find? hf)
  simp only [carryOut, hf]
  exact (World.queries_setHandle _ hc).trans (w.queries_create _)

/-- Calls add queries, and change none. -/
theorem Step.queries_carryOut (w : World α) (s : Step α) :
    ∃ added, (s.carryOut w).1.queries = w.queries ++ added := by
  have hsame : ∃ added, w.queries = w.queries ++ added := ⟨[], (List.append_nil _).symm⟩
  cases s with
  | create query => exact ⟨_, w.queries_create query⟩
  | same h other => exact hsame
  | map h g =>
    cases hf : w.find? h with
    | none => simpa only [carryOut, hf] using hsame
    | some found => exact ⟨_, queries_map hf⟩
  | complete h o strict =>
    simp only [carryOut]
    split
    · exact hsame
    · next n cell hf =>
      split
      · exact ⟨[], by rw [World.queries_setHandle _ (World.cell_of_find? hf), List.append_nil]⟩
      · exact hsame
  | listen h name body panics =>
    simp only [carryOut]
    split
    · exact hsame
    · next n cell hf =>
      exact ⟨[], by rw [World.queries_setHandle _ (World.cell_of_find? hf), List.append_nil]⟩
  | copy h =>
    simp only [carryOut]
    split <;> exact hsame
  | ask h q =>
    simp only [carryOut]
    split <;> exact hsame
  | await h =>
    simp only [carryOut]
    split <;> exact hsame
  | join number =>
    simp only [carryOut]
    repeat' split
    all_goals exact hsame

/-! ## Links -/

/-- The cell of the handle that is derived. -/
def Mark.target? : Mark α → Option Nat
  | .registered _ (.forward m _) => some m
  | _ => none

/-- The cells of the handles that are derived. -/
def derived (ms : List (Mark α)) : List Nat := ms.filterMap Mark.target?

/-- The outcome that a derived handle is completed with by its source. -/
def Mark.passed? (m : Nat) : Mark α → Option (Outcome α)
  | .ran _ (.forward t g) (some o) => if t = m then some (o.bind g) else none
  | _ => none

/-- The outcomes that a derived handle is completed with by its source. -/
def passes (m : Nat) (ms : List (Mark α)) : List (Outcome α) := ms.filterMap (Mark.passed? m)

/-- Whether the listener completes the handle in a cell. -/
def Listener.forwardsTo (m : Nat) : Listener α → Bool
  | .forward t _ => t == m
  | .observe _ _ _ => false

/-- Whether a listener ran that panics of its own accord. -/
def Mark.panics : Mark α → Bool
  | .ran _ (.observe _ _ panics) _ => panics
  | _ => false

@[simp] theorem derived_append (ms ms' : List (Mark α)) :
    derived (ms ++ ms') = derived ms ++ derived ms' :=
  List.filterMap_append

@[simp] theorem passes_append (m : Nat) (ms ms' : List (Mark α)) :
    passes m (ms ++ ms') = passes m ms ++ passes m ms' :=
  List.filterMap_append

@[simp] theorem derived_singleton (m : Mark α) : derived [m] = m.target?.toList := by
  simp [derived, List.filterMap_eq_flatMap_toList]

@[simp] theorem passes_singleton (n : Nat) (m : Mark α) : passes n [m] = (m.passed? n).toList := by
  simp [passes, List.filterMap_eq_flatMap_toList]

theorem Listener.forwardsTo_iff {m : Nat} {l : Listener α} :
    l.forwardsTo m = true ↔ ∃ g, l = .forward m g := by
  cases l with
  | observe name body panics => simp [forwardsTo]
  | forward t g =>
    rw [forwardsTo, beq_iff_eq]
    constructor
    · rintro rfl
      exact ⟨g, rfl⟩
    · rintro ⟨_, heq⟩
      cases heq
      rfl

theorem Mark.target?_iff {x : Mark α} {m : Nat} :
    x.target? = some m ↔ ∃ n g, x = .registered n (.forward m g) := by
  constructor
  · intro h
    cases x with
    | registered n l =>
      cases l with
      | forward t g =>
        cases h
        exact ⟨n, g, rfl⟩
      | observe name body panics => cases h
    | _ => cases h
  · rintro ⟨n, g, rfl⟩
    rfl

theorem mem_registrations {n : Nat} {l : Listener α} :
    l ∈ registrations n ms ↔ .registered n l ∈ ms := by
  simp only [registrations, List.mem_filterMap]
  constructor
  · rintro ⟨x, hx, h⟩
    cases x with
    | registered k l' =>
      simp only [Mark.registered?, Option.ite_none_right_eq_some, Option.some.injEq] at h
      obtain ⟨rfl, rfl⟩ := h
      exact hx
    | _ => cases h
  · intro h
    exact ⟨_, h, if_pos rfl⟩

theorem mem_runs {n : Nat} {l : Listener α} {seen : Option (Outcome α)} :
    (l, seen) ∈ runs n ms ↔ .ran n l seen ∈ ms := by
  simp only [runs, List.mem_filterMap]
  constructor
  · rintro ⟨x, hx, h⟩
    cases x with
    | ran k l' seen' =>
      simp only [Mark.ran?, Option.ite_none_right_eq_some, Option.some.injEq,
        Prod.mk.injEq] at h
      obtain ⟨rfl, rfl, rfl⟩ := h
      exact hx
    | _ => cases h
  · intro h
    exact ⟨_, h, if_pos rfl⟩

theorem mem_passes {m : Nat} {o : Outcome α} :
    o ∈ passes m ms ↔ ∃ n g o', .ran n (.forward m g) (some o') ∈ ms ∧ o = o'.bind g := by
  simp only [passes, List.mem_filterMap]
  constructor
  · rintro ⟨x, hx, h⟩
    unfold Mark.passed? at h
    split at h
    · next n t g o' =>
      simp only [Option.ite_none_right_eq_some, Option.some.injEq] at h
      obtain ⟨rfl, rfl⟩ := h
      exact ⟨n, g, o', hx, rfl⟩
    · cases h
  · rintro ⟨n, g, o', hx, rfl⟩
    exact ⟨_, hx, if_pos rfl⟩

/-- Only a call to derive a handle registers a listener that completes it. The handle is new. -/
theorem Step.eq_map_of_target? {s : Step α} {x : Mark α} {m : Nat} (hs : s.mark? w = some x)
    (hx : x.target? = some m) : ∃ h g n cell, s = .map h g ∧ w.find? h = some (n, cell) ∧
      x = .registered n (.forward m g) ∧ m = w.cells.length := by
  cases s with
  | map h g =>
    rw [mark?, Option.map_eq_some_iff] at hs
    obtain ⟨⟨n, cell⟩, hf, rfl⟩ := hs
    cases hx
    exact ⟨h, g, n, cell, rfl, hf, rfl, rfl⟩
  | listen h name body panics =>
    rw [mark?, Option.map_eq_some_iff] at hs
    obtain ⟨_, _, rfl⟩ := hs
    cases hx
  | complete h o strict =>
    rw [mark?, Option.map_eq_some_iff] at hs
    obtain ⟨⟨n, cell⟩, -, rfl⟩ := hs
    dsimp only at hx
    split at hx <;> cases hx
  | _ => cases hs

/-- Handles are derived once, and share the query of their source. -/
structure Linked (ms : List (Mark α)) (w : World α) : Prop where
  nodup : (derived ms).Nodup
  query : ∀ {n m : Nat} {g : α → Outcome α}, .registered n (.forward m g) ∈ ms →
    ∃ query, w.queries[n]? = some query ∧ w.queries[m]? = some query

namespace Linked

/-- A derived handle has one source. -/
theorem unique (h : Linked ms w) {n n' m : Nat} {g g' : α → Outcome α}
    (hl : .registered n (.forward m g) ∈ ms) (hl' : .registered n' (.forward m g') ∈ ms) :
    n = n' := by
  by_contra hne
  have hpair : ms.Pairwise fun x y =>
      ∀ t, x.target? = some t → ∀ t', y.target? = some t' → t ≠ t' :=
    List.pairwise_filterMap.1 h.nodup
  have : Std.Symm fun x y : Mark α =>
      ∀ t, x.target? = some t → ∀ t', y.target? = some t' → t ≠ t' :=
    ⟨fun x y hxy t ht t' ht' => (hxy t' ht' t ht).symm⟩
  exact hpair.forall hl hl' (by simp [hne]) m rfl m rfl rfl

/-- Only one listener is registered that completes a derived handle. -/
theorem countP_registrations_le (h : Linked ms w) (n m : Nat) :
    (registrations n ms).countP (·.forwardsTo m) ≤ 1 := by
  have hle : (registrations n ms).countP (·.forwardsTo m) ≤ (derived ms).count m := by
    rw [registrations, List.countP_filterMap, derived, List.count_filterMap]
    refine List.countP_mono_left fun x _ hx => ?_
    cases x with
    | registered k l =>
      simp only [Mark.registered?] at hx
      split at hx
      · obtain ⟨g, rfl⟩ := Listener.forwardsTo_iff.1 hx
        simp [Mark.target?]
      · cases hx
    | _ => cases hx
  exact Nat.le_trans hle (List.nodup_iff_count.1 h.nodup m)

/-- Calls derive new handles only, with the query of their source. -/
theorem perform (h : Linked ms w) (s : Step α) :
    Linked (ms ++ (s.mark? w).toList) (s.carryOut w).1 := by
  obtain ⟨added, hadded⟩ := s.queries_carryOut w
  have hkeep : ∀ {k : Nat} {query : String}, w.queries[k]? = some query →
      (s.carryOut w).1.queries[k]? = some query := fun hk => by
    rw [hadded, List.getElem?_append_left (List.getElem?_eq_some_iff.1 hk).1, hk]
  have hlt : ∀ t ∈ derived ms, t < w.cells.length := by
    intro t ht
    obtain ⟨x, hx, hxt⟩ := List.mem_filterMap.1 ht
    obtain ⟨n, g, rfl⟩ := Mark.target?_iff.1 hxt
    obtain ⟨query, -, hq⟩ := h.query hx
    simpa [World.queries] using (List.getElem?_eq_some_iff.1 hq).1
  have hold : ∀ {n m : Nat} {g : α → Outcome α}, .registered n (.forward m g) ∈ ms →
      ∃ query, (s.carryOut w).1.queries[n]? = some query ∧
        (s.carryOut w).1.queries[m]? = some query := fun hl => by
    obtain ⟨query, hn, hm⟩ := h.query hl
    exact ⟨query, hkeep hn, hkeep hm⟩
  constructor
  · rw [derived_append]
    cases hs : s.mark? w with
    | none => exact (List.append_nil (derived ms)).symm ▸ h.nodup
    | some x =>
      rw [Option.toList_some, derived_singleton]
      cases hx : x.target? with
      | none => exact (List.append_nil (derived ms)).symm ▸ h.nodup
      | some m =>
        obtain ⟨_, _, _, _, -, -, -, rfl⟩ := Step.eq_map_of_target? hs hx
        have hnew : w.cells.length ∉ derived ms := fun hm => Nat.lt_irrefl _ (hlt _ hm)
        exact List.nodup_append.2 ⟨h.nodup, by simp, fun t ht t' ht' heq =>
          hnew (List.mem_singleton.1 ht' ▸ heq ▸ ht)⟩
  · intro n m g hl
    rcases List.mem_append.1 hl with hl | hl
    · exact hold hl
    · have hs := Option.mem_toList.1 hl
      obtain ⟨k, g', n', cell, rfl, hf, heq, rfl⟩ := Step.eq_map_of_target? hs rfl
      cases heq
      refine ⟨cell.query, hkeep (World.query_of_cell (World.cell_of_find? hf)), ?_⟩
      rw [Step.queries_map hf]
      simp [World.queries]

end Linked

/-! ## Consistent worlds -/

/-- No listener that runs panics of its own accord, and derived handles are completed by their
sources only. -/
structure IsUndisturbed (ms : List (Mark α)) : Prop where
  gentle : ∀ m ∈ ms, m.panics = false
  derived : ∀ n ∈ derived ms, completions n ms = []

theorem IsUndisturbed.of_append {ms' : List (Mark α)} (h : IsUndisturbed (ms ++ ms')) :
    IsUndisturbed ms where
  gentle m hm := h.gentle m (List.mem_append_left _ hm)
  derived n hn := by
    have hnil := h.derived n (by rw [derived_append]; exact List.mem_append_left _ hn)
    rw [completions_append] at hnil
    exact (List.append_eq_nil_iff.1 hnil).1

/-- Handles are completed by calls, and by the listeners that pass an outcome on. -/
def Accounts (ms : List (Mark α)) (b : Book α) : Prop :=
  ∀ n, (b n).outcome.toList = completions n ms ++ passes n ms

/-- To complete a pending handle is accounted for by what says so. -/
theorem Accounts.complete {b : Book α} {ms' : List (Mark α)} (h : Accounts ms b) {k : Nat}
    {o : Outcome α} (hk : (b k).outcome = none) (hself : completions k ms' ++ passes k ms' = [o])
    (hother : ∀ n, n ≠ k → completions n ms' ++ passes n ms' = []) :
    Accounts (ms ++ ms') (Function.update b k ⟨some o, []⟩) := by
  intro n
  have hn := h n
  rw [completions_append, passes_append]
  by_cases hnk : n = k
  · subst hnk
    rw [hk] at hn
    obtain ⟨hc, hp⟩ := List.append_eq_nil_iff.1 hn.symm
    rw [hc, hp, Function.update_self]
    exact hself.symm
  · obtain ⟨hc, hp⟩ := List.append_eq_nil_iff.1 (hother n hnk)
    rw [hc, hp, Function.update_of_ne hnk, List.append_nil, List.append_nil]
    exact hn

/-- What completes nothing needs no account. -/
theorem Accounts.congr {b b' : Book α} {ms' : List (Mark α)} (h : Accounts ms b)
    (hb : ∀ n, (b' n).outcome = (b n).outcome) (hms : ∀ n, completions n ms' ++ passes n ms' = []) :
    Accounts (ms ++ ms') b' := by
  intro n
  obtain ⟨hc, hp⟩ := List.append_eq_nil_iff.1 (hms n)
  rw [hb, completions_append, passes_append, hc, hp, List.append_nil, List.append_nil]
  exact h n

/-- What is true of the worlds, and of what is still to be done, while a program runs. -/
structure Consistent (ms : List (Mark α)) (w : World α) (fs : List (Frame α)) : Prop extends
    Balanced ms w fs, Linked ms w where
  guarded : IsGuarded fs
  outcome : Accounts ms w.book

namespace Consistent

/-- Calls are accounted for. -/
theorem accounts_perform (h : Accounts ms w.book) (s : Step α) :
    Accounts (ms ++ (s.mark? w).toList) (s.carryOut w).1.book := by
  have hacts := s.acts w
  have hpanic : ∀ text, (s.carryOut w).2 = [.panic text] → ∃ n, s.mark? w = some (.refused n) :=
    fun _ => Step.mark?_of_panic
  generalize (s.carryOut w).1 = w' at hacts ⊢
  generalize (s.carryOut w).2 = fs at hacts hpanic
  generalize s.mark? w = mark at hacts hpanic ⊢
  cases hacts with
  | calls hb => exact h.congr (fun n => by rw [hb]) fun _ => rfl
  | @registers _ k l a hb =>
    refine h.congr (fun n => ?_) fun n => by simp [Mark.completed?, Mark.passed?]
    by_cases hn : n = k
    · rw [hb, hn, Function.update_self, Handle.outcome_listen]
    · rw [hb, Function.update_of_ne hn]
  | completes ho hb =>
    rw [hb]
    refine h.complete ho ?_ fun n hn => ?_
    · simp [Mark.completed?, Mark.passed?]
    · simp [Mark.completed?, Mark.passed?, Ne.symm hn]
  | refuses => exact h.congr (fun _ => rfl) fun n => by simp [Mark.completed?, Mark.passed?]
  | panics =>
    obtain ⟨k, rfl⟩ := hpanic _ rfl
    exact h.congr (fun _ => rfl) fun n => by simp [Mark.completed?, Mark.passed?]

variable {n m : Nat} {g : α → Outcome α} {ds : List (Listener α)}

theorem perform {s : Step α} (h : Consistent ms w (.perform s :: rest)) :
    Consistent (ms ++ (s.mark? w).toList) (s.carryOut w).1 ((s.carryOut w).2 ++ rest) where
  toBalanced := h.toBalanced.perform
  toLinked := h.toLinked.perform s
  guarded := s.isGuarded_carryOut h.guarded
  outcome := accounts_perform h.outcome s

/-- A listener that ran, or that is due, was registered. -/
theorem exists_registered (h : Consistent ms w fs)
    (hpos : 0 < (runs n ms).countP (·.1.forwardsTo m) +
      (Program.due n fs).countP (·.forwardsTo m)) :
    ∃ g, .registered n (.forward m g) ∈ ms := by
  have hcount := h.count n (·.forwardsTo m)
  obtain ⟨l, hl, hm⟩ := List.countP_pos_iff.1 (show
    0 < (registrations n ms).countP (·.forwardsTo m) by omega)
  obtain ⟨g, rfl⟩ := Listener.forwardsTo_iff.1 hm
  exact ⟨g, mem_registrations.1 hl⟩

/-- What is passed on to a derived handle comes from its source. -/
theorem exists_of_mem_passes (h : Consistent ms w fs) {o : Outcome α} (ho : o ∈ passes m ms)
    (hl : .registered n (.forward m g) ∈ ms) :
    ∃ g' o', (.forward m g', some o') ∈ runs n ms := by
  obtain ⟨n', g', o', hran, -⟩ := mem_passes.1 ho
  have hrun := mem_runs.2 hran
  have hpos : 0 < (runs n' ms).countP (·.1.forwardsTo m) :=
    List.countP_pos_iff.2 ⟨_, hrun, Listener.forwardsTo_iff.2 ⟨g', rfl⟩⟩
  obtain ⟨g'', hl'⟩ := h.exists_registered (Nat.lt_of_lt_of_le hpos (Nat.le_add_right _ _))
  rw [h.unique hl hl']
  exact ⟨g', o', hrun⟩

/-- A derived handle that nobody else completes is pending when its source passes its outcome on. -/
theorem pending_of_due (h : Consistent ms w (.notify n (.forward m g :: ds) :: rest))
    (hu : IsUndisturbed ms) : m ∈ derived ms ∧ (w.book m).outcome = none := by
  have hdue : 0 < (Program.due n (.notify n (.forward m g :: ds) :: rest)).countP
      (·.forwardsTo m) :=
    List.countP_pos_iff.2 ⟨_, by simp [Frame.due], Listener.forwardsTo_iff.2 ⟨g, rfl⟩⟩
  obtain ⟨g', hl⟩ := h.exists_registered (Nat.lt_of_lt_of_le hdue (Nat.le_add_left _ _))
  have hm : m ∈ derived ms := List.mem_filterMap.2 ⟨_, hl, rfl⟩
  have hnone : passes m ms = [] := by
    refine List.eq_nil_iff_forall_not_mem.2 fun o ho => ?_
    obtain ⟨g'', o', hrun⟩ := h.exists_of_mem_passes ho hl
    have hran : 0 < (runs n ms).countP (·.1.forwardsTo m) :=
      List.countP_pos_iff.2 ⟨_, hrun, Listener.forwardsTo_iff.2 ⟨g'', rfl⟩⟩
    have hcount := h.count n (·.forwardsTo m)
    have hle := h.countP_registrations_le n m
    omega
  have houtcome := h.outcome m
  rw [hu.derived m hm, hnone] at houtcome
  refine ⟨hm, ?_⟩
  cases ho : (w.book m).outcome with
  | none => rfl
  | some o =>
    rw [ho] at houtcome
    cases houtcome

/-- A listener with steps of its own completes nothing itself. -/
theorem observe {name : String} {body : List (Step α)}
    (h : Consistent ms w (.notify n (.observe name body false :: ds) :: rest)) :
    Consistent (ms ++ [.ran n (.observe name body false) (w.outcome? n)]) w
      (frames name 0 body ++ .notify n ds :: rest) where
  toBalanced := h.toBalanced.hear.congr rfl
    (fun k => by rw [due_append, due_of_calls (isNotify_frames name 0 body), List.nil_append])
    (fun _ => rfl) (fun _ => rfl)
  toLinked := {
    nodup := by simpa [Mark.target?] using h.nodup
    query := fun hl => h.query (by simpa using hl) }
  guarded := isGuarded_frames name 0 body h.guarded
  outcome := h.outcome.congr (fun _ => rfl) fun k => by simp [Mark.completed?, Mark.passed?]

/-- A listener that passes the outcome on completes the derived handle. -/
theorem forward (h : Consistent ms w (.notify n (.forward m g :: ds) :: rest))
    (hu : IsUndisturbed ms) :
    Consistent (ms ++ [.ran n (.forward m g) (w.outcome? n)])
      ((Listener.forward m g).carryOut w n).1
      (((Listener.forward m g).carryOut w n).2.2 ++ .notify n ds :: rest) := by
  obtain ⟨hm, hpending⟩ := h.pending_of_due hu
  obtain ⟨o, ho⟩ := Option.isSome_iff_exists.1 (h.due n (by simp [Frame.due]))
  obtain ⟨x, hx, hxm⟩ := List.mem_filterMap.1 hm
  obtain ⟨n', g', rfl⟩ := Mark.target?_iff.1 hxm
  obtain ⟨query, -, hq⟩ := h.query hx
  obtain ⟨cell, hc⟩ := World.exists_cell hq
  have hcell := World.book_of_cell hc
  have hcarry : (Listener.forward m g).carryOut w n =
      (w.setHandle m cell ⟨some (o.bind g), []⟩, [], [.notify m cell.handle.listeners]) := by
    have hseen : w.cells[n]?.bind (·.handle.outcome) = some o := (w.outcome?_eq n).trans ho
    simp only [Listener.carryOut, hseen, hc, Handle.complete?_of_pending (hcell ▸ hpending)]
  have hbook := World.book_setHandle ⟨some (o.bind g), []⟩ hc
  have hqueries := World.queries_setHandle ⟨some (o.bind g), []⟩ hc
  rw [hcarry, ← hcell]
  exact {
    toBalanced := h.toBalanced.hear.complete hpending hbook
    toLinked := {
      nodup := by simpa [Mark.target?] using h.nodup
      query := fun hl => hqueries ▸ h.query (by simpa using hl) }
    guarded := h.guarded
    outcome := by
      rw [hbook, w.outcome?_eq, ho]
      refine h.outcome.complete hpending ?_ fun k hk => ?_
      · simp [Mark.completed?, Mark.passed?]
      · simp [Mark.completed?, Mark.passed?, Ne.symm hk] }

/-- What neither is done to a handle nor runs a listener leaves a world consistent. -/
theorem tail (h : Consistent ms w (f :: rest)) (hf : ∀ n, f.due n = []) : Consistent ms w rest where
  toBalanced := h.toBalanced.congr rfl (fun n => by rw [due_cons, hf, List.nil_append])
    (fun _ => rfl) (fun _ => rfl)
  toLinked := h.toLinked
  guarded := h.guarded.tail
  outcome := h.outcome

/-- Every frame leaves a world consistent. -/
theorem next {r : Run α} (h : Consistent ms r.world r.agenda) (ha : r.agenda = f :: rest)
    (hu : IsUndisturbed (ms ++ f.marks r.world)) :
    Consistent (ms ++ f.marks r.world) r.next.world r.next.agenda := by
  obtain ⟨w, agenda, answer, events⟩ := r
  dsimp only at h ha hu ⊢
  subst ha
  have hnil : ∀ {fs : List (Frame α)}, Consistent ms w fs → Consistent (ms ++ []) w fs := fun h =>
    (List.append_nil ms).symm ▸ h
  cases f with
  | perform s => exact h.perform
  | report label => exact hnil (h.tail fun _ => rfl)
  | give a => exact hnil (h.tail fun _ => rfl)
  | panic text =>
    have hrest := h.tail fun _ => rfl
    rw [← h.guarded.1.unwind_eq] at hrest
    exact hnil hrest
  | notify n due =>
    cases due with
    | nil => exact hnil (h.tail fun k => by simp [Frame.due])
    | cons l due =>
      cases l with
      | observe name body panics =>
        have hp : panics = false := hu.gentle _ (List.mem_append_right _ List.mem_cons_self)
        subst hp
        simpa [Run.next, Listener.carryOut, Frame.marks] using h.observe
      | forward m g => exact h.forward hu.of_append

/-- So does a whole run. -/
theorem finish {r : Run α} (h : Consistent ms r.world r.agenda)
    (hu : IsUndisturbed (ms ++ r.history)) :
    Consistent (ms ++ r.history) r.finish.world [] := by
  induction r using Run.next_induction generalizing ms with
  | done r hnil =>
    rw [Run.finish_of_nil hnil, Run.history_of_nil hnil, List.append_nil]
    rwa [hnil] at h
  | next r hne ih =>
    obtain ⟨f, rest, ha⟩ := List.exists_cons_of_ne_nil hne
    rw [Run.history_of_cons ha, ← List.append_assoc] at hu ⊢
    rw [Run.finish_next hne]
    exact ih (h.next ha hu.of_append) hu

/-- A call can be made when nothing else is to be done. -/
theorem start (h : Consistent ms w []) (s : Step α) : Consistent ms w [.perform s] where
  toBalanced := h.toBalanced.congr rfl (fun _ => rfl) (fun _ => rfl) (fun _ => rfl)
  toLinked := h.toLinked
  guarded := ⟨trivial, trivial⟩
  outcome := h.outcome

/-- So do all the calls of a program. -/
theorem performAll {program : List (Step α)} (h : Consistent ms w [])
    (hu : IsUndisturbed (ms ++ w.history program)) :
    Consistent (ms ++ w.history program) (w.performAll program).1 [] := by
  induction program generalizing w ms with
  | nil => exact (List.append_nil ms).symm ▸ h
  | cons s rest ih =>
    rw [World.history, ← List.append_assoc] at hu ⊢
    exact ih (finish (r := { world := w, agenda := [.perform s] }) (h.start s) hu.of_append) hu

end Consistent

/-- The world is consistent in which programs start. -/
theorem consistent_nil : Consistent [] ({} : World α) [] where
  tidy := fun _ _ => rfl
  due := fun _ hd => absurd rfl hd
  seen := fun hr => by cases hr
  count := fun _ _ => rfl
  nodup := List.nodup_nil
  query := fun hl => by cases hl
  guarded := trivial
  outcome := fun _ => rfl

end StoreClient.Program
