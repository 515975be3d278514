import StoreClient.Proofs.Coordinator.Runs

/-!
# The numbers of batches and requests

Batches are numbered from one in the order in which they are accepted, and nothing else is
(`started_run`). The transport takes each request once (`Reachable.nodup_submissions`), and the
requests it took stay as they are (`submissions_prefix_run`); so the number of a request tells the
batch and the command that it belongs to.
-/

namespace StoreClient.Coordinator

variable {Index : Type} {kinds : Index → Signature} {c : Coordinator kinds} {p : Nat} {i : Index}
  {b : Batch (kinds i)}

/-! ## Batches -/

/-- The numbers of the batches that were accepted, in the order in which they were. -/
def started (ns : List Notice) : List Nat :=
  (Notice.events ns).filterMap Batch.Event.started?

theorem started_append (ns ns' : List Notice) :
    started (ns ++ ns') = started ns ++ started ns' := by
  rw [started, Notice.events_append, List.filterMap_append]
  rfl

theorem started_dispatch (c : Coordinator kinds) (i : Index) (commands : List (Command (kinds i)))
    (limit : Nat) : started (c.dispatch i commands limit).2 = [c.batches.length + 1] := by
  rw [started, events_dispatch]
  split
  · rfl
  · split <;> rfl

theorem started_move (c : Coordinator kinds) (p : Nat) (m : Batch.Move) :
    started (c.move p m).2 = [] := by
  cases hb : c.batches[p]? with
  | none =>
    simp only [move, hb]
    rfl
  | some e =>
    rw [notices_move hb]
    exact (Batch.step_perform e.2 m).started_events

/-- An act accepts at most one batch, whose number is the next one. -/
theorem started_perform (c : Coordinator kinds) (a : Act kinds) :
    ∃ n, (c.perform a).1.batches.length = c.batches.length + n ∧
      started (c.perform a).2 = List.range' (c.batches.length + 1) n := by
  have hd := does_perform c a
  generalize c.perform a = r at hd
  cases hd with
  | dispatch i commands limit hm =>
    obtain ⟨b, hb⟩ := c.batches_dispatch i commands limit
    refine ⟨1, ?_, started_dispatch c i commands limit⟩
    rw [hb, List.length_append, List.length_singleton]
  | move p m hm => exact ⟨0, length_batches_move c p m, started_move c p m⟩
  | other hb hs hm => exact ⟨0, congrArg List.length hb, rfl⟩

/-- **Batches are numbered in the order in which they are accepted.** -/
theorem started_run (c : Coordinator kinds) (acts : List (Act kinds)) :
    ∃ n, (c.run acts).1.batches.length = c.batches.length + n ∧
      started (c.run acts).2 = List.range' (c.batches.length + 1) n := by
  induction acts generalizing c with
  | nil => exact ⟨0, rfl, rfl⟩
  | cons a acts ih =>
    obtain ⟨n, hlen, hstarted⟩ := started_perform c a
    obtain ⟨k, hlen', hstarted'⟩ := ih (c.perform a).1
    refine ⟨n + k, ?_, ?_⟩
    · rw [show (c.run (a :: acts)).1 = ((c.perform a).1.run acts).1 from rfl, hlen', hlen,
        Nat.add_assoc]
    · rw [show (c.run (a :: acts)).2 = (c.perform a).2 ++ ((c.perform a).1.run acts).2 from rfl,
        started_append, hstarted, hstarted', hlen, Nat.add_right_comm, ← List.range'_append_1]

/-! ## Requests -/

/-- An act makes at most one request, of a command that has none yet. -/
theorem submissions_perform (h : Reachable c) (a : Act kinds) :
    (c.perform a).1.submissions = c.submissions ∨
    ∃ s, s ∉ c.submissions ∧ (c.perform a).1.submissions = c.submissions ++ [s] := by
  have hd := does_perform c a
  generalize c.perform a = r at hd
  cases hd with
  | dispatch i commands limit hm =>
    exact .inl (c.submissions_dispatch i commands limit)
  | other hb hs hm => exact .inl hs
  | move p m hm =>
    cases hb : c.batches[p]? with
    | none =>
      left
      simp only [move, hb]
    | some e =>
      obtain ⟨i, b⟩ := e
      rw [submissions_move hb]
      split
      · refine .inr ⟨(p, b.entries.length), ?_, rfl⟩
        intro hmem
        obtain ⟨commands, hhas⟩ := h.exists_commands hb
        have hsub : b.entries.length ∈ c.submitted p :=
          List.mem_filterMap.2 ⟨_, hmem, by rw [if_pos rfl]⟩
        rw [hhas.submitted, buildable, List.mem_filter, List.mem_range] at hsub
        exact Nat.lt_irrefl _ hsub.1
      · rw [List.append_nil]
        exact .inl rfl

/-- The transport takes the request of a command once. -/
theorem Reachable.nodup_submissions (h : Reachable c) : c.submissions.Nodup := by
  induction h with
  | empty hb hs =>
    rw [hs]
    exact .nil
  | @dispatch c h i commands limit ih =>
    rwa [submissions_dispatch]
  | perform h a ih =>
    rcases submissions_perform h a with hs | ⟨s, hnot, hs⟩
    · rwa [hs]
    · rw [hs, List.nodup_append]
      refine ⟨ih, List.nodup_singleton s, ?_⟩
      rintro x hx y hy rfl
      exact hnot (List.mem_singleton.1 hy ▸ hx)
  | reschedule h schedule waiting ih => exact ih

/-- The requests that the transport took stay. -/
theorem submissions_prefix_run (h : Reachable c) (acts : List (Act kinds)) :
    c.submissions <+: (c.run acts).1.submissions := by
  induction acts generalizing c with
  | nil => exact List.prefix_refl _
  | cons a acts ih =>
    have hnext : c.submissions <+: (c.perform a).1.submissions := by
      rcases submissions_perform h a with hs | ⟨s, -, hs⟩
      · exact ⟨[], by rw [List.append_nil, hs]⟩
      · rw [hs]
        exact List.prefix_append _ _
    exact hnext.trans (ih (h.perform a))

end StoreClient.Coordinator
