/-!
# Schedules

Tasks, known by their numbers, take turns, and a schedule tells whose turn is next. A task that
becomes *ready* joins the end of a line. A turn may be cut short; such a task is set aside until
`resume` makes it *resumed*, in a line of its own, the last one that was set aside first.

Who is resumed goes before who is ready, so that a task that was cut short does not start again at
the end of a long line. That tasks which come back again and again cannot keep the others waiting
for ever, every `fairness`th look goes to the line of the ready ones first.
-/

namespace StoreClient

/-- The tasks that have turns to come. -/
structure Schedule where
  /-- The tasks that became ready, in order. -/
  ready : List Nat := []
  /-- The tasks that go on after a turn that was cut short, in order. -/
  resumed : List Nat := []
  /-- The tasks that were set aside, the latest first. -/
  aside : List Nat := []
  /-- How often the next task was looked for. -/
  looks : Nat := 0
  deriving DecidableEq, Repr

namespace Schedule

/-- Of so many looks, one prefers the tasks that became ready. -/
def fairness : Nat := 31

/-- How many turns are to come. -/
def size (s : Schedule) : Nat := s.ready.length + s.resumed.length + s.aside.length

/-- Puts tasks that became ready at the end of their line. -/
def add (s : Schedule) (tasks : List Nat) : Schedule := { s with ready := s.ready ++ tasks }

/-- Sets a task aside whose turn was cut short. -/
def setAside (s : Schedule) (task : Nat) : Schedule := { s with aside := task :: s.aside }

/-- Resumes the tasks that were set aside. -/
def resume (s : Schedule) : Schedule := { s with resumed := s.resumed ++ s.aside, aside := [] }

/-- Looks for the task whose turn is next, and takes it off its line. -/
def next (s : Schedule) : Schedule × Option Nat :=
  let s := { s with looks := s.looks + 1 }
  match s.ready, s.resumed with
  | [], [] => (s, none)
  | task :: ready, [] => ({ s with ready := ready }, some task)
  | [], task :: resumed => ({ s with resumed := resumed }, some task)
  | first :: ready, second :: resumed =>
    if s.looks % fairness = 0 then ({ s with ready := ready }, some first)
    else ({ s with resumed := resumed }, some second)

/-! ## Sizes -/

@[simp] theorem size_setAside (s : Schedule) (task : Nat) :
    (s.setAside task).size = s.size + 1 := by
  simp only [setAside, size, List.length_cons]
  omega

@[simp] theorem size_resume (s : Schedule) : s.resume.size = s.size := by
  simp only [resume, size, List.length_append, List.length_nil]
  omega

/-- To take a task off leaves one turn less. -/
theorem size_next_of_some {s s' : Schedule} {task : Nat} (h : s.next = (s', some task)) :
    s'.size + 1 = s.size := by
  unfold next at h
  dsimp only at h
  split at h
  · simp at h
  · next hr hq =>
    obtain rfl := (Prod.mk.inj h).1
    simp only [size, hr, hq, List.length_cons]
    omega
  · next hr hq =>
    obtain rfl := (Prod.mk.inj h).1
    simp only [size, hr, hq, List.length_cons]
    omega
  · next hr hq =>
    split at h
    all_goals
      obtain rfl := (Prod.mk.inj h).1
      simp only [size, hr, hq, List.length_cons]
      omega

/-- No task is found if the only turns to come are of tasks that were set aside. -/
theorem size_next_of_none {s s' : Schedule} (h : s.next = (s', none)) :
    s'.size = s.aside.length := by
  unfold next at h
  dsimp only at h
  split at h
  · next hr hq =>
    obtain rfl := (Prod.mk.inj h).1
    simp [size, hr, hq]
  · simp at h
  · simp at h
  · split at h <;> simp at h

end Schedule

end StoreClient
