/-!
Tables: lists of keys with values, in which each key stands once, in the order of its first setting.
-/

namespace Provenance

variable {α β : Type} [DecidableEq α]

/-- Sets the value of a key. A key keeps the place where it was first set. -/
def put (key : α) (value : β) : List (α × β) → List (α × β)
  | [] => [(key, value)]
  | (k, v) :: r => if k = key then (key, value) :: r else (k, v) :: put key value r

theorem lookup_put (key k : α) (value : β) (xs : List (α × β)) :
    (put key value xs).lookup k = if k = key then some value else xs.lookup k := by
  induction xs with
  | nil => by_cases h : k = key <;> simp [put, List.lookup_cons, h, beq_eq_false_iff_ne.2]
  | cons x xs ih =>
    obtain ⟨x, v⟩ := x
    by_cases hx : x = key <;> by_cases hk : k = key <;> by_cases hkx : k = x <;>
      simp_all [put, List.lookup_cons, beq_eq_false_iff_ne.2]

end Provenance
