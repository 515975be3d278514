import Mathlib.Data.List.Basic

/-!
# Infinite sequences

The finite beginnings of an infinite sequence of acts or moves, and the descent along one: what
never grows and is lowered again and again, unless it is zero, is zero some time.
-/

namespace StoreClient

variable {α : Type}

/-- The first `t` terms of a sequence. -/
def firsts (f : Nat → α) (t : Nat) : List α := (List.range t).map f

theorem firsts_succ (f : Nat → α) (t : Nat) : firsts f (t + 1) = firsts f t ++ [f t] := by
  simp [firsts, List.range_succ]

theorem firsts_add (f : Nat → α) (t n : Nat) :
    firsts f (t + n) = firsts f t ++ firsts (fun k => f (t + k)) n := by
  induction n with
  | zero => simp [firsts]
  | succ n ih => rw [← Nat.add_assoc, firsts_succ, ih, firsts_succ, List.append_assoc]

theorem forall_mem_firsts {f : Nat → α} {q : α → Prop} (h : ∀ t, q (f t)) (t : Nat) :
    ∀ a ∈ firsts f t, q a := by
  intro a ha
  obtain ⟨u, -, rfl⟩ := List.mem_map.1 ha
  exact h u

/-- What never grows from some time on stays below what it was. -/
theorem le_of_never_grows (rank : Nat → Nat) {t : Nat}
    (h : ∀ u, t ≤ u → rank (u + 1) ≤ rank u) {u v : Nat} (hu : t ≤ u) (hv : u ≤ v) :
    rank v ≤ rank u := by
  induction hv with
  | refl => exact Nat.le_refl _
  | step hv ih => exact Nat.le_trans (h _ (Nat.le_trans hu hv)) ih

theorem exists_eq_zero_of_descent (rank : Nat → Nat) {t : Nat}
    (hmono : ∀ u, t ≤ u → rank (u + 1) ≤ rank u)
    (hdescent : ∀ u, t ≤ u → rank u ≠ 0 → ∃ v, u ≤ v ∧ (rank (v + 1) < rank v ∨ rank v = 0)) :
    ∃ u, t ≤ u ∧ rank u = 0 := by
  suffices hmain : ∀ n u, t ≤ u → rank u = n → ∃ v, t ≤ v ∧ rank v = 0 from
    hmain _ t (Nat.le_refl t) rfl
  intro n
  induction n using Nat.strongRecOn with
  | ind n ih =>
    rintro u hu rfl
    by_cases hr : rank u = 0
    · exact ⟨u, hu, hr⟩
    · obtain ⟨v, huv, hlt | hz⟩ := hdescent u hu hr
      · have hle := le_of_never_grows rank hmono hu huv
        exact ih (rank (v + 1)) (Nat.lt_of_lt_of_le hlt hle) (v + 1) (by omega) rfl
      · exact ⟨v, Nat.le_trans hu huv, hz⟩

end StoreClient
