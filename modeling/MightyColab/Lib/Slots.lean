import Mathlib.Logic.Function.Basic

/-!
# Tables of processes

A table from keys to what each of them is doing, of which one entry changes at a time.
-/

namespace MightyColab
namespace Lib

universe u v

variable {key : Type u} [DecidableEq key] {entry : Type v} {entries : key -> Option entry}
variable {p q : key} {x y : entry}

theorem update_some_cases {new : Option entry} (h : Function.update entries p new q = some y) :
    q = p ∧ new = some y ∨ q ≠ p ∧ entries q = some y := by
  by_cases hq : q = p
  · subst hq
    rw [Function.update_self] at h
    exact Or.inl ⟨rfl, h⟩
  · rw [Function.update_of_ne hq] at h
    exact Or.inr ⟨hq, h⟩

theorem update_cases (h : Function.update entries p (some x) q = some y) :
    q = p ∧ y = x ∨ q ≠ p ∧ entries q = some y := by
  rcases update_some_cases h with ⟨hq, hnew⟩ | hold
  · exact Or.inl ⟨hq, (Option.some.inj hnew).symm⟩
  · exact Or.inr hold

theorem update_none (h : Function.update entries p none q = some y) :
    q ≠ p ∧ entries q = some y := by
  rcases update_some_cases h with ⟨_, hnew⟩ | hold
  · cases hnew
  · exact hold

theorem update_free {new : Option entry} (h : entries q = none) (hne : q ≠ p) :
    Function.update entries p new q = none := by
  rw [Function.update_of_ne hne]
  exact h

end Lib
end MightyColab
