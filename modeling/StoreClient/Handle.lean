import StoreClient.Cause

/-!
# Result handles

A handle holds the outcome of one operation, or of a batch, once there is one. It is completed at
most once. Listeners that are registered before run on completion, in the order of registration; one
that is registered later runs at once.

Here running a listener is left to the caller: `complete?` and `listen` give the listeners that have
to run now. What a listener is, is a parameter.
-/

namespace StoreClient

/-- The outcome of an operation, once it is there, and the listeners that wait for it. -/
structure Handle (α κ : Type) where
  outcome : Option (Outcome α) := none
  listeners : List κ := []

namespace Handle

variable {α κ : Type}

/-- Whether there is an outcome. -/
def isDone (h : Handle α κ) : Bool := h.outcome.isSome

/-- Whether there is an outcome and it is a value. -/
def isSuccess (h : Handle α κ) : Bool :=
  match h.outcome with
  | some (.ok _) => true
  | _ => false

/-- The cause of the failure, if there is one. -/
def cause? (h : Handle α κ) : Option Cause :=
  match h.outcome with
  | some (.error c) => some c
  | _ => none

/-- Sets the outcome and detaches the listeners, which have to run now; nothing if there is an
outcome already. -/
def complete? (h : Handle α κ) (o : Outcome α) : Option (Handle α κ × List κ) :=
  match h.outcome with
  | some _ => none
  | none => some (⟨some o, []⟩, h.listeners)

/-- Registers a listener, which has to run now if there is an outcome already. -/
def listen (h : Handle α κ) (l : κ) : Handle α κ × List κ :=
  match h.outcome with
  | some _ => (h, [l])
  | none => ({ h with listeners := h.listeners ++ [l] }, [])

theorem complete?_eq_none_iff (h : Handle α κ) (o : Outcome α) :
    h.complete? o = none ↔ h.isDone = true := by
  cases h with
  | mk outcome listeners => cases outcome <;> simp [complete?, isDone]

theorem complete?_of_pending {h : Handle α κ} (hp : h.outcome = none) (o : Outcome α) :
    h.complete? o = some (⟨some o, []⟩, h.listeners) := by
  simp [complete?, hp]

theorem outcome_of_complete? {h h' : Handle α κ} {o : Outcome α} {due : List κ}
    (hc : h.complete? o = some (h', due)) :
    h.outcome = none ∧ h'.outcome = some o ∧ h'.listeners = [] ∧ due = h.listeners := by
  cases h with
  | mk outcome listeners =>
    cases outcome with
    | some _ => simp [complete?] at hc
    | none =>
      simp only [complete?, Option.some.injEq, Prod.mk.injEq] at hc
      obtain ⟨rfl, rfl⟩ := hc
      simp

/-- Listening does not change the outcome. -/
@[simp] theorem outcome_listen (h : Handle α κ) (l : κ) : (h.listen l).1.outcome = h.outcome := by
  cases h with
  | mk outcome listeners => cases outcome <;> rfl

end Handle

/-- The text of the error that a second completion is. -/
def doubleCompletion : String := "result handle completed twice"

end StoreClient
