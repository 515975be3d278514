/-!
# Sums over lists

The sum of what the members of a list weigh, and how it changes when one member is exchanged: what
a state weighs is such a sum, and a step exchanges one of its parts.
-/

namespace StoreClient

variable {β γ : Type} {f : β → Nat} {l : List β}

/-- The sum of what the members of a list weigh. -/
def sumOf (f : β → Nat) : List β → Nat
  | [] => 0
  | b :: l => f b + sumOf f l

@[simp] theorem sumOf_nil : sumOf f [] = 0 := rfl

@[simp] theorem sumOf_cons (b : β) : sumOf f (b :: l) = f b + sumOf f l := rfl

@[simp] theorem sumOf_append (l' : List β) : sumOf f (l ++ l') = sumOf f l + sumOf f l' := by
  induction l with
  | nil => simp
  | cons b l ih => rw [List.cons_append, sumOf_cons, ih, sumOf_cons, Nat.add_assoc]

theorem sumOf_map (g : γ → β) (l : List γ) : sumOf f (l.map g) = sumOf (fun c => f (g c)) l := by
  induction l with
  | nil => rfl
  | cons c l ih => rw [List.map_cons, sumOf_cons, ih, sumOf_cons]

/-- To exchange a member of a list exchanges its share of the sum. -/
theorem sumOf_set {n : Nat} {a : β} (b : β) (h : l[n]? = some a) :
    sumOf f (l.set n b) + f a = sumOf f l + f b := by
  induction l generalizing n with
  | nil => simp at h
  | cons x l ih =>
    cases n with
    | zero =>
      simp only [List.getElem?_cons_zero, Option.some.injEq] at h
      subst h
      rw [List.set_cons_zero, sumOf_cons, sumOf_cons]
      omega
    | succ n =>
      have := ih (by simpa using h)
      rw [List.set_cons_succ, sumOf_cons, sumOf_cons]
      omega

end StoreClient
