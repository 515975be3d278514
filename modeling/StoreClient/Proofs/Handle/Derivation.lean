import StoreClient.Proofs.Handle.Consistency

/-!
# The laws of derived handles

A handle is derived from another by a function, before or after the other is done, by a program or
by its listeners, and handles are derived from derived handles in turn. `derivation_laws` is about
all of them at once, as long as derived handles are completed by their sources only: a derived handle
is done exactly when its source is, its outcome is what the function makes of that of the source,
and the function is applied once, to the value of the source, if there is one. So the handle at the
end of a path of functions has the outcome that these make, one after another, of the outcome at
its beginning, and a failure on the way is that of all handles that come after.
-/

namespace StoreClient.Program

variable {α : Type} {w : World α} {fs : List (Frame α)} {ms : List (Mark α)} {n m t : Nat}
  {g : α → Outcome α}

/-! ## Links -/

/-- The value that the function of a derived handle is applied to. -/
def Mark.applied? (m : Nat) : Mark α → Option α
  | .ran _ (.forward t _) (some (.ok v)) => if t = m then some v else none
  | _ => none

/-- The values that the function of a derived handle is applied to. -/
def applications (m : Nat) (ms : List (Mark α)) : List α := ms.filterMap (Mark.applied? m)

theorem mem_applications {v : α} :
    v ∈ applications m ms ↔ ∃ n g, .ran n (.forward m g) (some (.ok v)) ∈ ms := by
  simp only [applications, List.mem_filterMap]
  constructor
  · rintro ⟨x, hx, h⟩
    unfold Mark.applied? at h
    split at h
    · simp only [Option.ite_none_right_eq_some, Option.some.injEq] at h
      obtain ⟨rfl, rfl⟩ := h
      exact ⟨_, _, hx⟩
    · cases h
  · rintro ⟨n, g, hx⟩
    exact ⟨_, hx, if_pos rfl⟩

/-- Where a function is applied, an outcome is passed on. -/
theorem length_applications_le (m : Nat) (ms : List (Mark α)) :
    (applications m ms).length ≤ (passes m ms).length := by
  rw [applications, passes, List.length_filterMap_eq_countP, List.length_filterMap_eq_countP]
  refine List.countP_mono_left ?_
  rintro x - hx
  unfold Mark.applied? at hx
  split at hx
  · next k t g v =>
    by_cases ht : t = m
    · simp [Mark.passed?, ht]
    · simp [ht] at hx
  · cases hx

namespace Balanced

/-- As long as a handle is pending, no listener on it ran. -/
theorem runs_of_pending (h : Balanced ms w fs) (ho : (w.book n).outcome = none) :
    runs n ms = [] := by
  refine List.eq_nil_iff_forall_not_mem.2 fun r hr => ?_
  have hdone := (h.seen hr).1
  rw [Handle.isDone, ho] at hdone
  cases hdone

/-- When nothing is left to be done, the listeners on a handle that is pending wait. -/
theorem listeners_perm (h : Balanced ms w []) (ho : (w.book n).outcome = none) :
    (w.book n).listeners.Perm (registrations n ms) := by
  classical
  refine List.perm_iff_count.2 fun l => ?_
  have hcount := h.count n (· == l)
  rw [h.runs_of_pending ho] at hcount
  simpa [List.count_eq_countP] using hcount.symm

/-- When nothing is left to be done, the listeners on a handle that is done ran, once each. -/
theorem runs_perm (h : Balanced ms w []) {o : Outcome α} (ho : (w.book n).outcome = some o) :
    (runs n ms).Perm ((registrations n ms).map (·, some o)) := by
  have hnone : (w.book n).listeners = [] := h.tidy n (Option.isSome_iff_exists.2 ⟨o, ho⟩)
  refine perm_of_countP (fun p => ?_) fun r hr => (h.seen hr).2.trans ho
  simpa [hnone] using h.count n p

end Balanced

namespace Consistent

/-- When nothing is left to be done, a derived handle has the outcome that its function makes of
that of its source. -/
theorem outcome_link (h : Consistent ms w []) (hu : IsUndisturbed ms)
    (hl : .registered n (.forward m g) ∈ ms) :
    (w.book m).outcome = (w.book n).outcome.map (·.bind g) := by
  have hpasses := h.outcome m
  rw [hu.derived m (List.mem_filterMap.2 ⟨_, hl, rfl⟩), List.nil_append] at hpasses
  cases ho : (w.book n).outcome with
  | none =>
    cases hm : (w.book m).outcome with
    | none => rfl
    | some o =>
      have ho' : o ∈ passes m ms := by rw [← hpasses, hm, Option.mem_toList]
      obtain ⟨g', o', hrun⟩ := h.exists_of_mem_passes ho' hl
      rw [h.runs_of_pending ho] at hrun
      cases hrun
  | some o =>
    have hrun : (.forward m g, some o) ∈ runs n ms :=
      (h.runs_perm ho).mem_iff.2 (List.mem_map.2 ⟨_, mem_registrations.2 hl, rfl⟩)
    have hpass : o.bind g ∈ passes m ms := mem_passes.2 ⟨n, g, o, mem_runs.1 hrun, rfl⟩
    rw [← hpasses, Option.mem_toList] at hpass
    exact hpass

/-- The function of a derived handle is applied to the value of its source, once. -/
theorem applications_link (h : Consistent ms w []) (hu : IsUndisturbed ms)
    (hl : .registered n (.forward m g) ∈ ms) :
    applications m ms = ((w.book n).outcome.bind Except.toOption).toList := by
  have hvalue : ∀ v, v ∈ applications m ms → (w.book n).outcome = some (.ok v) := by
    intro v hv
    obtain ⟨n', g', hran⟩ := mem_applications.1 hv
    have hrun := mem_runs.2 hran
    have hpos : 0 < (runs n' ms).countP (·.1.forwardsTo m) :=
      List.countP_pos_iff.2 ⟨_, hrun, Listener.forwardsTo_iff.2 ⟨g', rfl⟩⟩
    obtain ⟨g'', hl'⟩ := h.exists_registered (Nat.lt_of_lt_of_le hpos (Nat.le_add_right _ _))
    obtain rfl := h.unique hl hl'
    exact (h.seen hrun).2.symm
  have hone : (applications m ms).length ≤ 1 := by
    have hpasses := h.outcome m
    rw [hu.derived m (List.mem_filterMap.2 ⟨_, hl, rfl⟩), List.nil_append] at hpasses
    refine Nat.le_trans (length_applications_le m ms) ?_
    rw [← hpasses]
    cases (w.book m).outcome <;> simp
  cases ho : (w.book n).outcome with
  | none =>
    refine List.eq_nil_iff_forall_not_mem.2 fun v hv => ?_
    rw [hvalue v hv] at ho
    cases ho
  | some o =>
    cases o with
    | error c =>
      refine List.eq_nil_iff_forall_not_mem.2 fun v hv => ?_
      rw [hvalue v hv] at ho
      cases ho
    | ok v =>
      have hrun : (.forward m g, some (.ok v)) ∈ runs n ms :=
        (h.runs_perm ho).mem_iff.2 (List.mem_map.2 ⟨_, mem_registrations.2 hl, rfl⟩)
      have hv : v ∈ applications m ms := mem_applications.2 ⟨n, g, mem_runs.1 hrun⟩
      cases happ : applications m ms with
      | nil =>
        rw [happ] at hv
        cases hv
      | cons v' vs =>
        rw [happ] at hone hv
        obtain rfl : vs = [] := List.length_eq_zero_iff.1 (by simpa using hone)
        obtain rfl := List.mem_singleton.1 hv
        rfl

end Consistent

/-! ## Paths -/

/-- The handle in one cell is derived from that in another by functions, one after another. -/
inductive Derives (ms : List (Mark α)) (n : Nat) : List (α → Outcome α) → Nat → Prop where
  | refl : Derives ms n [] n
  | step {gs : List (α → Outcome α)} {m t : Nat} {g : α → Outcome α} (h : Derives ms n gs m)
      (hl : .registered m (.forward t g) ∈ ms) : Derives ms n (gs ++ [g]) t

variable {gs : List (α → Outcome α)}

/-- All handles on a path have the same query. -/
theorem Derives.query (h : Derives ms n gs m) (hw : Linked ms w) :
    w.queries[m]? = w.queries[n]? := by
  induction h with
  | refl => rfl
  | step _ hl ih =>
    obtain ⟨query, hm, ht⟩ := hw.query hl
    rw [← ih, hm, ht]

/-- The functions on a path make an outcome of an outcome, one after another. -/
theorem Derives.outcome (h : Derives ms n gs m) (hw : Consistent ms w [])
    (hu : IsUndisturbed ms) :
    (w.book m).outcome = (w.book n).outcome.map (gs.foldl Except.bind ·) := by
  induction h with
  | refl => exact Option.map_id'.symm
  | step _ hl ih =>
    rw [hw.outcome_link hu hl, ih, Option.map_map]
    refine Option.map_congr fun o _ => ?_
    simp [Function.comp]

/-- A failure is that of all functions that come after. -/
theorem foldl_bind_error (gs : List (α → Outcome α)) (c : Cause) :
    gs.foldl Except.bind (.error c) = (.error c : Outcome α) := by
  induction gs with
  | nil => rfl
  | cons g gs ih => exact ih

/-- To derive a handle registers a listener that completes the handle whose number is given. -/
theorem Step.map_gives {h : Nat} {cell : Cell α} (hf : w.find? h = some (n, cell))
    (g : α → Outcome α) : ∃ m number due,
      (Step.map h g).mark? w = some (.registered n (.forward m g)) ∧
      ((Step.map h g).carryOut w).2 = [.notify n due, .give (.number number)] ∧
      ((Step.map h g).carryOut w).1.handles[number]? = some m := by
  refine ⟨w.cells.length, w.handles.length,
    (cell.handle.listen (.forward w.cells.length g)).2, ?_, ?_, ?_⟩
  · simp only [mark?, hf, Option.map_some]
  · simp only [carryOut, hf, World.create]
  · simp [carryOut, hf, World.create, World.setHandle]

/-- **The laws of derived handles.** -/
theorem derivation_laws (program : List (Step α))
    (hu : IsUndisturbed (({} : World α).history program)) :
    let ms := ({} : World α).history program
    let w := (({} : World α).performAll program).1
    -- each handle is derived from one other, by the call that gives its number
    ((∀ (w₀ : World α) (h n : Nat) (cell : Cell α) (g : α → Outcome α),
        w₀.find? h = some (n, cell) → ∃ m number due,
          (Step.map h g).mark? w₀ = some (.registered n (.forward m g)) ∧
          ((Step.map h g).carryOut w₀).2 = [.notify n due, .give (.number number)] ∧
          ((Step.map h g).carryOut w₀).1.handles[number]? = some m) ∧
      (derived ms).Nodup) ∧
    -- at the end of a path of functions
    (∀ (n m : Nat) (gs : List (α → Outcome α)), Derives ms n gs m →
      w.queries[m]? = w.queries[n]? ∧
      (w.book m).isDone = (w.book n).isDone ∧
      (w.book m).outcome = (w.book n).outcome.map (gs.foldl Except.bind ·) ∧
      ∀ c, (w.book n).outcome = some (.error c) → (w.book m).outcome = some (.error c)) ∧
    -- what a function is applied to
    (∀ (n m : Nat) (g : α → Outcome α), .registered n (.forward m g) ∈ ms →
      applications m ms = ((w.book n).outcome.bind Except.toOption).toList) ∧
    -- two functions one after another, and both at once
    ∀ (n m t u : Nat) (g g' : α → Outcome α), .registered n (.forward m g) ∈ ms →
      .registered m (.forward t g') ∈ ms →
      .registered n (.forward u fun v => (g v).bind g') ∈ ms →
      (w.book t).outcome = (w.book u).outcome := by
  intro ms w
  have hw : Consistent ms w [] := consistent_nil.performAll hu
  refine ⟨⟨fun w₀ h n cell g hf => Step.map_gives hf g, hw.nodup⟩, fun n m gs hd => ?_,
    fun n m g hl => hw.applications_link hu hl, fun n m t u g g' hl hl' hboth => ?_⟩
  · have houtcome := hd.outcome hw hu
    refine ⟨hd.query hw.toLinked, ?_, houtcome, fun c hc => ?_⟩
    · rw [Handle.isDone, houtcome, Option.isSome_map]
      rfl
    · rw [houtcome, hc, Option.map_some, foldl_bind_error]
  · rw [hw.outcome_link hu hl', hw.outcome_link hu hl, hw.outcome_link hu hboth, Option.map_map]
    refine Option.map_congr fun o _ => ?_
    cases o <;> rfl

/-- Doubles small numbers. -/
def doubleSmall (v : Nat) : Outcome Nat := if v < 8 then .ok (2 * v) else .error (.server "large")

/-- Handles are derived before, while and after the handle is done, and from each other. -/
def derivations : List (Step Nat) :=
  [.create "keys", .map 0 doubleSmall, .listen 0 "during" [.map 1 doubleSmall] false,
    .complete 0 (.ok 3) true, .map 2 doubleSmall, .map 3 doubleSmall]

theorem derivation_laws_derivations :
    let ms := ({} : World Nat).history derivations
    let w := (({} : World Nat).performAll derivations).1
    (w.book 2).outcome = some (.ok 12) ∧ (w.book 4).outcome = some (.error (.server "large")) ∧
      applications 3 ms = [12] ∧ applications 4 ms = [] := by
  intro ms w
  have hlinks : ∀ x ∈ [(0, 1), (1, 2), (2, 3), (3, 4)],
      .registered x.1 (.forward x.2 doubleSmall) ∈ ms := by
    simp only [List.forall_mem_cons]
    exact ⟨List.mem_of_getElem? (i := 0) rfl, List.mem_of_getElem? (i := 5) rfl,
      List.mem_of_getElem? (i := 7) rfl, List.mem_of_getElem? (i := 9) rfl,
      List.forall_mem_nil _⟩
  obtain ⟨-, hpaths, happlied, -⟩ := derivation_laws derivations ⟨by decide, by decide⟩
  have hsmall : Derives ms 0 [doubleSmall, doubleSmall] 2 :=
    (Derives.refl.step (hlinks (0, 1) (by decide))).step (hlinks (1, 2) (by decide))
  have hlarge : Derives ms 0 [doubleSmall, doubleSmall, doubleSmall, doubleSmall] 4 :=
    (hsmall.step (hlinks (2, 3) (by decide))).step (hlinks (3, 4) (by decide))
  exact ⟨(hpaths 0 2 _ hsmall).2.2.1, (hpaths 0 4 _ hlarge).2.2.1,
    happlied 2 3 _ (hlinks (2, 3) (by decide)), happlied 3 4 _ (hlinks (3, 4) (by decide))⟩

end StoreClient.Program
