/-!
# Computations that may fail

What a computation made of parts returns comes from what its parts return.
-/

namespace Vigil

variable {ε α β : Type}

/-- A step that returns is followed by what returns after it: the inversion of a bind. -/
theorem exists_of_bind_eq_ok {x : Except ε α} {f : α → Except ε β} {b : β}
    (h : (x >>= f) = .ok b) : ∃ a, x = .ok a ∧ f a = .ok b := by
  cases x with
  | error e => cases h
  | ok a => exact ⟨a, rfl, h⟩

/-- What is returned of a changed result is the change of what is returned: the inversion of
`map`. -/
theorem exists_of_map_eq_ok {x : Except ε α} {f : α → β} {b : β} (h : x.map f = .ok b) :
    ∃ a, x = .ok a ∧ f a = b := by
  cases x with
  | error e => cases h
  | ok a => exact ⟨a, rfl, Except.ok.inj h⟩

end Vigil
