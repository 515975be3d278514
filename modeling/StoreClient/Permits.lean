/-!
# Permits

A pool of permits with one taker. The taker asks for one permit after another, and waits if there is
none; whoever holds a permit gives it back at any time. A permit that is given back while the taker
waits is set apart for it, and no longer free, until the taker comes for it or stops waiting.

The taker waits only where no permit is free, which is why `awaited` has no count.

`unheld` counts the permits that nobody holds. It goes down by one when one is taken, goes up by one
when one is given back, and nothing else changes it.
-/

namespace StoreClient

/-- The permits of a pool that nobody holds. -/
inductive Permits where
  /-- So many are free, and the taker does not wait. -/
  | free (count : Nat)
  /-- None is free, and the taker waits for one. -/
  | awaited
  /-- One is set apart for the taker, and so many others are free. -/
  | granted (count : Nat)
  deriving DecidableEq, Repr

namespace Permits

/-- How many permits are free. -/
def available : Permits → Nat
  | free n => n
  | awaited => 0
  | granted n => n

/-- How many permits nobody holds, with the one that is set apart. -/
def unheld : Permits → Nat
  | free n => n
  | awaited => 0
  | granted n => n + 1

/-- Asks for a permit, and tells whether the taker got one. If not, it waits. -/
def take : Permits → Permits × Bool
  | free 0 => (awaited, false)
  | free (n + 1) => (free n, true)
  | awaited => (awaited, false)
  | granted n => (free n, true)

/-- Gives a permit back. -/
def giveBack : Permits → Permits
  | free n => free (n + 1)
  | awaited => granted 0
  | granted n => granted (n + 1)

/-- Lets the taker stop waiting. -/
def leave : Permits → Permits
  | free n => free n
  | awaited => free 0
  | granted n => free (n + 1)

/-! ## Counting -/

theorem available_le_unheld (p : Permits) : p.available ≤ p.unheld := by
  cases p <;> simp [available, unheld]

/-- A permit that was taken is one that nobody held; the others are free then. -/
theorem unheld_of_take {p p' : Permits} (h : p.take = (p', true)) :
    p'.unheld + 1 = p.unheld ∧ p'.available = p'.unheld := by
  unfold take at h
  split at h <;> cases h <;> simp [unheld, available]

/-- The taker waits only if every permit is held. -/
theorem unheld_of_not_take {p p' : Permits} (h : p.take = (p', false)) :
    p' = awaited ∧ p.unheld = 0 := by
  unfold take at h
  split at h <;> cases h <;> simp [unheld]

@[simp] theorem unheld_giveBack (p : Permits) : p.giveBack.unheld = p.unheld + 1 := by
  cases p <;> rfl

@[simp] theorem unheld_leave (p : Permits) : p.leave.unheld = p.unheld := by
  cases p <;> rfl

end Permits

end StoreClient
