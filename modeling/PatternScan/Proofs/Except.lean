/-!
# Computations that may fail

When a computation made of smaller ones succeeds.
-/

namespace PatternScan

variable {ε α β : Type}

theorem bind_eq_ok_iff {x : Except ε α} {f : α → Except ε β} {b : β} :
    (x >>= f) = .ok b ↔ ∃ a, x = .ok a ∧ f a = .ok b := by
  cases x <;> simp [bind, Except.bind]

theorem ite_throw_eq_ok_iff {c : Prop} [Decidable c] {e : ε} {f : α → Except ε β}
    {y : Except ε β} {b : β} :
    (if c then throw e >>= f else y) = .ok b ↔ ¬c ∧ y = .ok b := by
  split <;> simp_all [bind, Except.bind, throw, throwThe, MonadExceptOf.throw]

end PatternScan
