import StoreClient.Proofs.Coordinator.Moves

/-!
# Runs of a coordinator

`Reachable` coordinators are those that come of acts from a coordinator without batches. In them
batches are numbered from one and requests belong to batches (`Numbered`), and a batch that was
given keeps its place, while the transport takes the requests of those of its commands that are
handled (`Has`). The events of a batch are those of its own moves (`eventsOf_run`).
-/

namespace StoreClient.Coordinator

variable {Index : Type} {kinds : Index → Signature}

/-! ## Reachable coordinators -/

/-- A coordinator that comes of batches that are given and of acts, from one without batches. Its
turns may be given in any order. -/
inductive Reachable : Coordinator kinds → Prop where
  | empty {c : Coordinator kinds} (hb : c.batches = []) (hs : c.submissions = []) : Reachable c
  | dispatch {c : Coordinator kinds} (h : Reachable c) (i : Index)
      (commands : List (Command (kinds i))) (limit : Nat) :
      Reachable (c.dispatch i commands limit).1
  | perform {c : Coordinator kinds} (h : Reachable c) (a : Act kinds) : Reachable (c.perform a).1
  | reschedule {c : Coordinator kinds} (h : Reachable c) (schedule : Schedule)
      (waiting : List Nat) : Reachable { c with schedule := schedule, waiting := waiting }

/-- Batches are numbered from one, and requests belong to batches. -/
structure Numbered (c : Coordinator kinds) : Prop where
  id_eq : ∀ {p : Nat} {i : Index} {b : Batch (kinds i)}, c.batches[p]? = some ⟨i, b⟩ →
    b.id = p + 1
  position_lt : ∀ {s : Nat × Nat}, s ∈ c.submissions → s.1 < c.batches.length

theorem length_batches_move (c : Coordinator kinds) (p : Nat) (m : Batch.Move) :
    (c.move p m).1.batches.length = c.batches.length := by
  unfold move
  split
  · rfl
  · simp

/-- What is true of a batch that was just given. -/
structure IsGiven (c : Coordinator kinds) {i : Index} (commands : List (Command (kinds i)))
    (limit : Nat) (b : Batch (kinds i)) : Prop where
  id : b.id = c.batches.length + 1
  limit : b.limit = limit
  valid : Batch.Valid commands b
  entries : b.entries = []
  interrupted : b.interrupted = true ↔ commands ≠ [] ∧ c.runtime ≠ .live

/-- A batch that nothing dispatches is given up. -/
theorem isGiven_abandon {c : Coordinator kinds} {i : Index} {commands : List (Command (kinds i))}
    {limit : Nat} (hne : commands ≠ []) (hr : c.runtime ≠ .live) : c.IsGiven commands limit
      (Batch.ofCommands (c.batches.length + 1) limit commands).abandon.1 := by
  have hvalid := Batch.valid_ofCommands (c.batches.length + 1) limit hne
  have hs : (Batch.ofCommands (c.batches.length + 1) limit commands).stops .abandon = true := rfl
  have hint := hvalid.interrupted_step (Batch.step_perform _ .abandon)
  rw [hs, Bool.or_true] at hint
  exact {
    id := Batch.id_perform _ .abandon
    limit := Batch.limit_perform _ .abandon
    valid := hvalid.perform .abandon
    entries := List.length_eq_zero_iff.1 (Batch.length_perform _ .abandon)
    interrupted := ⟨fun _ => ⟨hne, hr⟩, fun _ => hint⟩ }

/-- A batch that is given comes after those there are, and leaves their requests. -/
theorem dispatch_cases (c : Coordinator kinds) (i : Index) (commands : List (Command (kinds i)))
    (limit : Nat) : ∃ b, (c.dispatch i commands limit).1.batches = c.batches ++ [⟨i, b⟩] ∧
      (c.dispatch i commands limit).1.submissions = c.submissions ∧
      c.IsGiven commands limit b := by
  unfold dispatch
  dsimp only
  split
  · next hnil =>
    obtain rfl : commands = [] := List.isEmpty_iff.1 hnil
    refine ⟨_, rfl, rfl, rfl, rfl, Batch.valid_complete_ofCommands _ _ _, rfl, ?_⟩
    exact ⟨nofun, fun hi => absurd rfl hi.1⟩
  · next hne =>
    have hne : commands ≠ [] := by simpa using hne
    split
    · next hr =>
      refine ⟨_, rfl, rfl, rfl, rfl, Batch.valid_ofCommands _ _ hne, rfl, ?_⟩
      exact ⟨nofun, fun hi => absurd hr hi.2⟩
    · next hr => exact ⟨_, rfl, rfl, isGiven_abandon hne (by simp [hr])⟩
    · next hr => exact ⟨_, rfl, rfl, isGiven_abandon hne (by simp [hr])⟩

/-- The events that a batch begins with. -/
theorem events_dispatch (c : Coordinator kinds) (i : Index) (commands : List (Command (kinds i)))
    (limit : Nat) : Notice.events (c.dispatch i commands limit).2 =
      .started (c.batches.length + 1) commands.length limit ::
        if commands = [] then [.completed (c.batches.length + 1) 0]
        else if c.runtime = .live then []
        else [.interrupted (c.batches.length + 1) 0 commands.length] := by
  unfold dispatch
  dsimp only
  split
  · next hnil =>
    obtain rfl : commands = [] := List.isEmpty_iff.1 hnil
    rfl
  · next hne =>
    have hne : commands ≠ [] := by simpa using hne
    have htotal : (Batch.ofCommands (c.batches.length + 1) limit commands).total =
        commands.length := by
      simp [Batch.total, Batch.ofCommands]
    have habandon : Notice.events
        (Batch.ofCommands (c.batches.length + 1) limit commands).abandon.2 =
          [.interrupted (c.batches.length + 1) 0 commands.length] := by
      rw [← htotal]
      rfl
    have hid : (Batch.ofCommands (c.batches.length + 1) limit commands).id =
        c.batches.length + 1 := rfl
    rw [if_neg hne]
    split
    · next hr => simp [hr, htotal, hid]
    · next hr => simp [hr, htotal, habandon, hid]
    · next hr => simp [hr, htotal, habandon, hid]

namespace Numbered

theorem move {c : Coordinator kinds} (h : c.Numbered) (p : Nat) (m : Batch.Move) :
    (c.move p m).1.Numbered where
  id_eq {q i b} hb := by
    have hlt : q < c.batches.length := by
      rw [← length_batches_move c p m]
      exact (List.getElem?_eq_some_iff.1 hb).1
    have hq := List.getElem?_eq_getElem hlt
    rw [getElem?_move (i := c.batches[q].1) (b := c.batches[q].2) hq, Option.some.injEq] at hb
    cases hb
    split
    · rw [Batch.id_perform]
      exact h.id_eq hq
    · exact h.id_eq hq
  position_lt {s} hs := by
    rw [length_batches_move]
    rcases position_of_mem_submissions_move hs with hs | ⟨hs, hlt⟩
    · exact h.position_lt hs
    · rwa [hs]

theorem dispatch {c : Coordinator kinds} (h : c.Numbered) (i : Index)
    (commands : List (Command (kinds i))) (limit : Nat) :
    (c.dispatch i commands limit).1.Numbered := by
  obtain ⟨b, hb, hs, hgiven⟩ := c.dispatch_cases i commands limit
  constructor
  · intro p j x hx
    rw [hb] at hx
    rcases Batch.getElem?_append_singleton_cases hx with ⟨rfl, heq⟩ | hx
    · cases heq
      exact hgiven.id
    · exact h.id_eq hx
  · intro s hx
    rw [hs] at hx
    rw [hb, List.length_append, List.length_singleton]
    exact Nat.lt_succ_of_lt (h.position_lt hx)

theorem perform {c : Coordinator kinds} (h : c.Numbered) (a : Act kinds) :
    (c.perform a).1.Numbered := by
  have hd := does_perform c a
  generalize c.perform a = r at hd
  cases hd with
  | dispatch i commands limit hm => exact h.dispatch i commands limit
  | move p m hm => exact h.move p m
  | other hb hs hm =>
    constructor
    · intro p i b hx
      rw [hb] at hx
      exact h.id_eq hx
    · intro s hx
      rw [hs] at hx
      rw [hb]
      exact h.position_lt hx

end Numbered

theorem Reachable.numbered {c : Coordinator kinds} (h : Reachable c) : c.Numbered := by
  induction h with
  | empty hb hs => exact ⟨by simp [hb], by simp [hs]⟩
  | dispatch h i commands limit ih => exact ih.dispatch i commands limit
  | perform h a ih => exact ih.perform a
  | reschedule h schedule waiting ih => exact ⟨ih.id_eq, ih.position_lt⟩

theorem Reachable.run {c : Coordinator kinds} (h : Reachable c) (acts : List (Act kinds)) :
    Reachable (c.run acts).1 := by
  induction acts generalizing c with
  | nil => exact h
  | cons a acts ih => exact ih (h.perform a)

/-! ## One batch of a coordinator -/

/-- A coordinator has the batch at a position, and the transport took the requests of those of its
commands that were handled. -/
structure Has (c : Coordinator kinds) (position : Nat) {i : Index}
    (commands : List (Command (kinds i))) (b : Batch (kinds i)) : Prop where
  batch : c.batches[position]? = some ⟨i, b⟩
  valid : Batch.Valid commands b
  submitted : c.submitted position = buildable commands b.entries.length

namespace Has

variable {c : Coordinator kinds} {position : Nat} {i : Index} {commands : List (Command (kinds i))}
  {b : Batch (kinds i)}

theorem nextIsOk (h : Batch.Valid commands b) :
    b.nextIsOk = commands[b.entries.length]?.any (·.operation.isOk) := by
  simp [Batch.nextIsOk, h.rest, List.head?_drop]

/-- An operation that was submitted is that of a command that makes one. -/
theorem mem_buildable (h : c.Has position commands b) {k : Nat} {e : Batch.Entry (kinds i)}
    (he : b.entries[k]? = some e) (hs : e.isSubmitted = true) :
    k ∈ buildable commands b.entries.length := by
  obtain ⟨x, hx, hof⟩ := h.valid.isOf he
  rw [buildable, List.mem_filter, List.mem_range, hx, Option.any_some, ← hof.isSubmitted]
  exact ⟨(List.getElem?_eq_some_iff.1 he).1, hs⟩

/-- The move of an act is one of its batch, and no other act changes the batch or its requests. -/
theorem perform (h : c.Has position commands b) (a : Act kinds) :
    (c.perform a).1.Has position commands (b.run (a.move? c position).toList).1 where
  batch := batch_perform h.batch a
  valid := h.valid.run _
  submitted := by
    cases hm : a.move? c position with
    | none =>
      rw [submitted_perform_of_none hm]
      exact h.submitted
    | some m =>
      rw [perform_eq_move hm, submitted_move_self h.batch, h.submitted, nextIsOk h.valid]
      simp only [Option.toList_some, Batch.run, Batch.length_perform]
      cases b.handles m with
      | false => simp
      | true => rw [Bool.true_and, Bool.toNat_true, buildable_succ]

/-- A command is submitted by a move that handles it. -/
theorem exists_handles (h : c.Has position commands b) {a : Act kinds} {k : Nat}
    (hk : k ∈ (c.perform a).1.submitted position) (hnot : k ∉ c.submitted position) :
    ∃ m, a.move? c position = some m ∧ b.handles m = true ∧ k = b.entries.length := by
  cases hm : a.move? c position with
  | none =>
    rw [submitted_perform_of_none hm] at hk
    exact absurd hk hnot
  | some m =>
    rw [perform_eq_move hm, submitted_move_self h.batch, List.mem_append] at hk
    have hk := hk.resolve_left hnot
    split at hk
    · next hh =>
      rw [Bool.and_eq_true] at hh
      exact ⟨m, rfl, hh.1, List.mem_singleton.1 hk⟩
    · cases hk

/-- So any acts keep it. -/
theorem run (h : c.Has position commands b) (acts : List (Act kinds)) :
    (c.run acts).1.Has position commands (b.run (c.moves position acts)).1 := by
  induction acts generalizing c b with
  | nil => exact h
  | cons a acts ih =>
    rw [moves, Batch.run_append]
    exact ih (h.perform a)

end Has

/-- A batch that was given is there. -/
theorem Reachable.exists_has {c : Coordinator kinds} (h : Reachable c) (i : Index)
    (commands : List (Command (kinds i))) (limit : Nat) :
    ∃ b, c.IsGiven commands limit b ∧
      (c.dispatch i commands limit).1.Has c.batches.length commands b := by
  obtain ⟨b, hb, hs, hgiven⟩ := c.dispatch_cases i commands limit
  refine ⟨b, hgiven, ?_, hgiven.valid, ?_⟩
  · rw [hb, List.getElem?_concat_length]
  · rw [hgiven.entries, submitted, hs]
    refine List.filterMap_eq_nil_iff.2 fun s hs => ?_
    rw [if_neg (Nat.ne_of_lt (h.numbered.position_lt hs))]

/-- A batch that is given leaves those there are, and their requests. -/
theorem Has.dispatch {c : Coordinator kinds} {position : Nat} {i : Index}
    {commands : List (Command (kinds i))} {b : Batch (kinds i)} (h : c.Has position commands b)
    (j : Index) (others : List (Command (kinds j))) (limit : Nat) :
    (c.dispatch j others limit).1.Has position commands b where
  batch := getElem?_dispatch h.batch j others limit
  valid := h.valid
  submitted := by
    rw [Coordinator.submitted, submissions_dispatch]
    exact h.submitted

/-- A batch that an act leaves behind was there before, or was given by the act. -/
theorem getElem?_perform_cases {c : Coordinator kinds} {a : Act kinds} {p : Nat} {i : Index}
    {b : Batch (kinds i)} (hb : (c.perform a).1.batches[p]? = some ⟨i, b⟩) :
    (∃ x : Batch (kinds i), c.batches[p]? = some ⟨i, x⟩ ∧
      b = (x.run (a.move? c p).toList).1) ∨
    p = c.batches.length ∧ ∃ commands limit,
      (c.perform a).1 = (c.dispatch i commands limit).1 := by
  cases hbefore : c.batches[p]? with
  | some e =>
    obtain ⟨j, x⟩ := e
    have hnow := batch_perform hbefore a
    rw [hb, Option.some.injEq] at hnow
    cases hnow
    exact .inl ⟨x, rfl, rfl⟩
  | none =>
    have hd := does_perform c a
    generalize c.perform a = r at hd hb
    cases hd with
    | dispatch j commands limit hm =>
      obtain ⟨x, hx⟩ := c.batches_dispatch j commands limit
      rw [hx] at hb
      rcases Batch.getElem?_append_singleton_cases hb with ⟨hp, heq⟩ | hold
      · cases heq
        exact .inr ⟨hp, commands, limit, rfl⟩
      · rw [hbefore] at hold
        cases hold
    | move q m hm =>
      have hlt := (List.getElem?_eq_some_iff.1 hb).1
      rw [length_batches_move] at hlt
      exact absurd hlt (Nat.not_lt.2 (List.getElem?_eq_none_iff.1 hbefore))
    | other hbatches hs hm =>
      rw [hbatches, hbefore] at hb
      cases hb

/-- Every batch was given with some commands. -/
theorem Reachable.exists_commands {c : Coordinator kinds} (h : Reachable c) {p : Nat} {i : Index}
    {b : Batch (kinds i)} (hb : c.batches[p]? = some ⟨i, b⟩) :
    ∃ commands : List (Command (kinds i)), c.Has p commands b := by
  induction h generalizing i with
  | empty hbatches hs => simp [hbatches] at hb
  | @dispatch c h j others limit ih =>
    obtain ⟨x, hx⟩ := c.batches_dispatch j others limit
    rw [hx] at hb
    rcases Batch.getElem?_append_singleton_cases hb with ⟨rfl, heq⟩ | hold
    · obtain ⟨y, -, hhas⟩ := h.exists_has j others limit
      have hy := hhas.batch
      rw [hx, hb] at hy
      cases heq
      cases hy
      exact ⟨others, hhas⟩
    · obtain ⟨commands, hhas⟩ := ih hold
      exact ⟨commands, hhas.dispatch j others limit⟩
  | @perform c h a ih =>
    rcases getElem?_perform_cases hb with ⟨x, hx, rfl⟩ | ⟨rfl, commands, limit, heq⟩
    · obtain ⟨commands, hhas⟩ := ih hx
      exact ⟨commands, hhas.perform a⟩
    · obtain ⟨y, -, hhas⟩ := h.exists_has i commands limit
      have hy := hhas.batch
      rw [← heq, hb] at hy
      cases hy
      exact ⟨commands, heq ▸ hhas⟩
  | reschedule h schedule waiting ih =>
    obtain ⟨commands, hhas⟩ := ih hb
    exact ⟨commands, hhas.batch, hhas.valid, hhas.submitted⟩

/-! ## Events of one batch -/

/-- The events of the batch with the number `id`, in their order. -/
def eventsOf (id : Nat) (ns : List Notice) : List Batch.Event :=
  (Notice.events ns).filter (·.batch = id)

@[simp] theorem eventsOf_append (id : Nat) (ns ns' : List Notice) :
    eventsOf id (ns ++ ns') = eventsOf id ns ++ eventsOf id ns' := by
  simp [eventsOf]

theorem eventsOf_eq_self {id : Nat} {ns : List Notice}
    (h : ∀ e ∈ Notice.events ns, e.batch = id) : eventsOf id ns = Notice.events ns :=
  List.filter_eq_self.2 fun e he => by simpa using h e he

theorem eventsOf_eq_nil {id : Nat} {ns : List Notice}
    (h : ∀ e ∈ Notice.events ns, e.batch ≠ id) : eventsOf id ns = [] :=
  List.filter_eq_nil_iff.2 fun e he => by simpa using h e he

theorem batch_of_event_dispatch {c : Coordinator kinds} {i : Index}
    {commands : List (Command (kinds i))} {limit : Nat} {e : Batch.Event}
    (he : e ∈ Notice.events (c.dispatch i commands limit).2) :
    e.batch = c.batches.length + 1 := by
  rw [events_dispatch, List.mem_cons] at he
  rcases he with rfl | he
  · rfl
  · split at he
    · rw [List.mem_singleton] at he
      rw [he]
      rfl
    · split at he
      · cases he
      · rw [List.mem_singleton] at he
        rw [he]
        rfl

theorem notices_move {c : Coordinator kinds} {p : Nat} {i : Index} {b : Batch (kinds i)}
    (hb : c.batches[p]? = some ⟨i, b⟩) (m : Batch.Move) :
    (c.move p m).2 = (b.perform m).2 := by
  simp [move, hb]

theorem batch_of_event_move {c : Coordinator kinds} (h : c.Numbered) {p : Nat} {m : Batch.Move}
    {e : Batch.Event} (he : e ∈ Notice.events (c.move p m).2) : e.batch = p + 1 := by
  cases hb : c.batches[p]? with
  | none => simp [move, hb] at he
  | some x =>
    rw [notices_move hb] at he
    rw [← h.id_eq hb]
    exact (Batch.step_perform x.2 m).batch_of_event he

/-- The events of a batch that acts bring are those of its moves. -/
theorem eventsOf_perform {c : Coordinator kinds} (h : c.Numbered) {p : Nat} {i : Index}
    {b : Batch (kinds i)} (hb : c.batches[p]? = some ⟨i, b⟩) (a : Act kinds) :
    eventsOf (p + 1) (c.perform a).2 = Notice.events (b.run (a.move? c p).toList).2 := by
  have hd := does_perform c a
  generalize c.perform a = r at hd
  cases hd with
  | dispatch j cs limit hm =>
    rw [hm]
    refine eventsOf_eq_nil fun e he => ?_
    have := (List.getElem?_eq_some_iff.1 hb).1
    have := batch_of_event_dispatch he
    omega
  | other hbs hs hm =>
    rw [hm]
    rfl
  | move q m hm =>
    rw [hm]
    by_cases hq : q = p
    · subst hq
      rw [if_pos rfl, eventsOf_eq_self fun e he => batch_of_event_move h he, notices_move hb]
      simp [Batch.run]
    · rw [if_neg hq]
      refine eventsOf_eq_nil fun e he => ?_
      have := batch_of_event_move h he
      omega

theorem eventsOf_run {c : Coordinator kinds} (h : Reachable c) {p : Nat} {i : Index}
    {b : Batch (kinds i)} (hb : c.batches[p]? = some ⟨i, b⟩) (acts : List (Act kinds)) :
    eventsOf (p + 1) (c.run acts).2 = Notice.events (b.run (c.moves p acts)).2 := by
  induction acts generalizing c b with
  | nil => rfl
  | cons a acts ih =>
    rw [moves, Batch.notices_run_append, Notice.events_append,
      ← ih (h.perform a) (batch_perform hb a), ← eventsOf_perform h.numbered hb a,
      ← eventsOf_append]
    rfl

/-! ## Notices of one batch -/

/-- The notices that acts bring by their moves of the batch at a position. -/
def noticesOf (c : Coordinator kinds) (p : Nat) : List (Act kinds) → List Notice
  | [] => []
  | a :: acts => (if (a.move? c p).isSome then (c.perform a).2 else []) ++
      (c.perform a).1.noticesOf p acts

/-- The notices of an act that makes a move of a batch are those of the move. -/
theorem notices_perform {c : Coordinator kinds} {p : Nat} {i : Index} {b : Batch (kinds i)}
    (hb : c.batches[p]? = some ⟨i, b⟩) (a : Act kinds) :
    (if (a.move? c p).isSome then (c.perform a).2 else []) = (b.run (a.move? c p).toList).2 := by
  cases hm : a.move? c p with
  | none => rfl
  | some m =>
    rw [Option.isSome_some, if_pos rfl, perform_eq_move hm, notices_move hb]
    simp [Batch.run]

/-- The notices of a batch are those of its run. -/
theorem noticesOf_eq {c : Coordinator kinds} {p : Nat} {i : Index} {b : Batch (kinds i)}
    (hb : c.batches[p]? = some ⟨i, b⟩) (acts : List (Act kinds)) :
    c.noticesOf p acts = (b.run (c.moves p acts)).2 := by
  induction acts generalizing c b with
  | nil => rfl
  | cons a acts ih =>
    rw [noticesOf, moves, Batch.notices_run_append, notices_perform hb, ih (batch_perform hb a)]

/-! ## Echoes -/

/-- An operation that ends with what identifies it at its first reply. -/
def echo (n : Nat) : Kind ⟨Unit, Nat, Nat⟩ where
  query := n
  request := .empty 1
  expects := 2
  decode _ := .ok ()
  isFinal _ := true
  convert _ := .ok n

/-- Two equal commands, and one between them that cannot be made. -/
def echoes : List (Command ⟨Unit, Nat, Nat⟩) :=
  [.ofKind 7 (.ok (echo 7)), .ofKind 8 (.error (.buildFailed "")), .ofKind 7 (.ok (echo 7))]

/-- A coordinator that was not given a batch yet. -/
def idle : Coordinator (fun _ : Unit => ⟨Unit, Nat, Nat⟩) := { limit := 1, runtime := .live }

theorem reachable_idle : Reachable idle := .empty rfl rfl

end StoreClient.Coordinator
