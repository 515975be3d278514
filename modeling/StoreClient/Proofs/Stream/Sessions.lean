import StoreClient.Proofs.Stream.Completeness
import StoreClient.Stream.Session

/-!
# Sessions are made of moves

What is done in a session makes moves of its stream, and shows what the moves show
(`Session.step_isRun`), unless a reply is fed while the producer waits in the midst of another. So
what a reader reports in a session is faithful (`Session.faithful`).
-/

namespace StoreClient.Stream

variable {σ : Signature} {ι : Type} {s s' s'' : Stream σ ι} {es fs : List (Event σ ι)}

/-- Some moves lead from the first stream to the second, and show the events. -/
def IsRun (s s' : Stream σ ι) (es : List (Event σ ι)) : Prop := ∃ ms, s.run ms = (s', es)

namespace IsRun

theorem refl (s : Stream σ ι) : s.IsRun s [] := ⟨[], rfl⟩

theorem trans (h : s.IsRun s' es) (h' : s'.IsRun s'' fs) : s.IsRun s'' (es ++ fs) := by
  obtain ⟨ms, hms⟩ := h
  obtain ⟨ms', hms'⟩ := h'
  exact ⟨ms ++ ms', by rw [run_append, hms, hms']⟩

theorem of_run (s : Stream σ ι) (ms : List Move) : s.IsRun (s.run ms).1 (s.run ms).2 := ⟨ms, rfl⟩

theorem of_perform (s : Stream σ ι) (m : Move) : s.IsRun (s.perform m).1 (s.perform m).2 :=
  ⟨[m], by simp [run]⟩

end IsRun

/-! ## Producers -/

theorem follow_isRun (s : Stream σ ι) (n : Nat) : s.IsRun (s.follow n).1 (s.follow n).2 := by
  induction n generalizing s with
  | zero => exact .refl s
  | succ n ih => exact (IsRun.of_run s s.nextMoves).trans (ih _)

theorem start_isRun (s : Stream σ ι) (m : Message) : s.IsRun (s.start m).1 (s.start m).2 :=
  (IsRun.of_perform s (.take m)).trans (follow_isRun _ 4)

theorem giveUp_isRun (s : Stream σ ι) : s.IsRun s.giveUp.1 s.giveUp.2 :=
  (IsRun.of_perform s .stall).trans (follow_isRun _ 1)

theorem receive_isRun (s : Stream σ ι) (m : Message) : s.IsRun (s.receive m).1 (s.receive m).2 :=
  (start_isRun s m).trans (giveUp_isRun _)

theorem drop_isRun (s : Stream σ ι) : s.IsRun s.drop.1 [] := by
  have h := IsRun.of_perform s .drop
  have hnil : (s.perform .drop).2 = [] := by
    simp only [perform, drop]
    split <;> rfl
  rwa [hnil] at h

theorem feed_isRun (s : Stream σ ι) (answers : List Bool) (ms : List Message) :
    s.IsRun (s.feed answers ms).1 (s.feed answers ms).2.2 := by
  induction ms generalizing s answers with
  | nil => exact .refl s
  | cons m ms ih =>
    simp only [feed]
    split
    · exact start_isRun s m
    · exact (start_isRun s m).trans (ih _ _)

theorem advance_isRun (s : Stream σ ι) (p : Producer) :
    s.IsRun (s.advance p).1 (s.advance p).2.2 := by
  simp only [advance]
  split
  · exact follow_isRun s 2
  · exact (follow_isRun s 2).trans (feed_isRun _ _ _)

theorem receiveAll_isRun (s : Stream σ ι) (answers : List Bool) (ms : List Message) :
    s.IsRun (s.receiveAll answers ms).1 (s.receiveAll answers ms).2.2 := by
  induction ms generalizing s answers with
  | nil => exact .refl s
  | cons m ms ih => exact (receive_isRun s m).trans (ih _ _)

theorem complete_isRun (s : Stream σ ι) (p : Producer) :
    s.IsRun (s.complete p).1 (s.complete p).2.2 := by
  have h := (advance_isRun s p).trans (giveUp_isRun _)
  exact h.trans (receiveAll_isRun _ _ _)

/-! ## Sessions -/

namespace Session

variable {x x' : Session σ ι} {step : Step}

theorem ask_isRun (x : Session σ ι) (m : Move) (otherwise : Answer σ ι) :
    x.stream.IsRun (x.ask m otherwise).1.stream (x.ask m otherwise).2.2 := .of_run x.stream [m]

theorem advance_isRun (x : Session σ ι) : x.stream.IsRun x.advance.1.stream x.advance.2 := by
  unfold advance
  split
  · exact .refl _
  · next p _ =>
    have h := Stream.advance_isRun x.stream p
    dsimp only
    split
    · simpa using h.trans (drop_isRun _)
    · exact h

theorem join_isRun (x : Session σ ι) : x.stream.IsRun x.join.1.stream x.join.2.2 := by
  unfold join
  split
  · exact .refl _
  · next p _ =>
    have h := complete_isRun x.stream p
    dsimp only
    split
    · simpa using h.trans (drop_isRun _)
    · exact h

theorem dropOperation_isRun (x : Session σ ι) : x.stream.IsRun x.dropOperation.stream [] := by
  unfold dropOperation
  split
  · exact .refl _
  · exact drop_isRun _
  · exact .refl _

theorem execute_isRun (x : Session σ ι) : x.stream.IsRun x.execute.1.stream x.execute.2.2 := by
  unfold execute
  split
  · exact .of_run x.stream _
  · exact dropOperation_isRun x

theorem drain_isRun (fuel : Nat) (x : Session σ ι) :
    x.stream.IsRun (drain fuel x).1.stream (drain fuel x).2.2 := by
  induction fuel generalizing x with
  | zero => exact .refl _
  | succ fuel ih =>
    have h := (advance_isRun x).trans (ask_isRun x.advance.1 (.read .next) .gone)
    simp only [drain]
    split
    · exact h
    · exact h.trans (ih _)
    · exact h

theorem performReader_isRun (x : Session σ ι) (r : Reader ι) (step : Step) :
    x.stream.IsRun (x.performReader r step).1.stream (x.performReader r step).2.2 := by
  cases step with
  | hasNext n => exact ask_isRun x _ _
  | nextItem n => exact ask_isRun x _ _
  | next n => exact ask_isRun x _ _
  | drain n => exact drain_isRun (x.stream.queue.length + x.backlog + 3) x
  | setTimeout n d => exact ask_isRun x _ _
  | _ => exact .refl _

theorem performOutside_isRun (x : Session σ ι) (step : Step) :
    x.stream.IsRun (x.performOutside step).1.stream (x.performOutside step).2.2 := by
  cases step with
  | listen l => exact ask_isRun x _ _
  | drop => exact dropOperation_isRun x
  | join => exact join_isRun x
  | copyResults n => exact ask_isRun x _ _
  | dropResults n => exact ask_isRun x _ _
  | claim n => exact ask_isRun x _ _
  | dropReader n =>
    cases n with
    | zero => exact ask_isRun x _ _
    | succ n => exact .refl _
  | _ => exact .refl _

/-- No reply is fed while the producer waits in the midst of another. -/
def FeedsAlone (x : Session σ ι) : Step → Prop
  | .receive _ => x.stream.delivery = none
  | _ => True

theorem performOperation_isRun (x : Session σ ι) (h : x.FeedsAlone step) :
    x.stream.IsRun (x.performOperation step).1.stream (x.performOperation step).2.2 := by
  cases step with
  | submit => exact ask_isRun x _ _
  | receive m =>
    have hd : x.stream.delivery = none := h
    simp only [performOperation, receive, hd]
    exact receive_isRun _ m
  | fail c => exact .of_run x.stream (failing c)
  | feed messages =>
    exact advance_isRun { x with producer := some { messages := messages } }
  | _ => exact .refl _

theorem performCaller_isRun (x : Session σ ι) (step : Step) :
    x.stream.IsRun (x.performCaller step).1.stream (x.performCaller step).2.2 := by
  cases step with
  | takeResults => exact ask_isRun x _ _
  | execute => exact execute_isRun x
  | _ => exact .refl _

theorem performIn_isRun (x : Session σ ι) (h : x.FeedsAlone step) :
    x.stream.IsRun (x.performIn step).1.stream (x.performIn step).2.2 := by
  unfold performIn
  split
  · split
    · exact performCaller_isRun x step
    · exact .refl _
  · split
    · exact .refl _
    · exact performOperation_isRun x h
  · exact performOutside_isRun x step
  · split
    · next r _ _ => exact performReader_isRun x r step
    · exact .refl _

/-- A step of a session is a run of its stream. -/
theorem step_isRun (x : Session σ ι) (h : x.advance.1.FeedsAlone step) :
    x.stream.IsRun (x.step step).1.stream (x.step step).2.2 :=
  (advance_isRun x).trans (performIn_isRun _ h)

/-- What a session comes to by steps, and what was seen of them, while replies are fed one at a
time. -/
inductive IsHistory (x : Session σ ι) : Session σ ι → List (Event σ ι) → Prop where
  | start : IsHistory x x []
  | step {x' : Session σ ι} {es : List (Event σ ι)} (h : IsHistory x x' es) (step : Step)
      (hf : x'.advance.1.FeedsAlone step) :
      IsHistory x (x'.step step).1 (es ++ (x'.step step).2.2)

theorem IsHistory.isRun (h : x.IsHistory x' es) : x.stream.IsRun x'.stream es := by
  induction h with
  | start => exact .refl _
  | step h step hf ih => exact ih.trans (step_isRun _ hf)

/-- What the reader of a session reports is faithful. -/
theorem faithful {k : StreamKind σ ι} {config : StreamConfig}
    (h : IsHistory { stream := ofKind k config } x es) : Faithful k x.stream es := by
  obtain ⟨ms, hms⟩ := h.isRun
  have hrun := (sound_ofKind k config).run ms
  have hi := items_run (ofKind k config) ms
  have hk := kind_run (ofKind k config) ms
  rw [show (ofKind k config).run ms = (x.stream, es) from hms] at hrun hi hk
  exact hrun.faithful hi hk

end Session

end StoreClient.Stream
