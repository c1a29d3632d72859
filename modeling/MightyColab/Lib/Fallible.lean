import Mathlib.Data.List.Forall2

/-!
# Steps and items that may fail

A sequence of steps that may raise: what it returned came from each of them. A list
comprehension whose expression may raise for an item: there is a result where there is one
for each item.
-/

namespace MightyColab
namespace Lib
namespace Fallible

section Steps

variable {error alpha beta : Type} {x : Except error alpha} {b : beta}

theorem ok_bind (a : alpha) (f : alpha -> Except error beta) : (Except.ok a >>= f) = f a := rfl

theorem bind_ok {f : alpha -> Except error beta} (h : x >>= f = .ok b) :
    exists a, x = .ok a ∧ f a = .ok b := by
  cases x with
  | error e => cases h
  | ok a => exact ⟨a, rfl, h⟩

theorem map_ok {f : alpha -> beta} (h : x.map f = .ok b) : exists a, x = .ok a ∧ f a = b := by
  cases x with
  | error e => cases h
  | ok a => exact ⟨a, rfl, Except.ok.inj h⟩

theorem forM_ok {item : Type} {f : item -> Except error Unit} {items : List item} :
    forM items f = .ok ⟨⟩ <-> forall x, x ∈ items -> f x = .ok ⟨⟩ := by
  induction items with
  | nil => exact iff_of_true rfl fun _ hx => absurd hx List.not_mem_nil
  | cons first rest ih =>
      rw [List.forall_mem_cons, ← ih, List.forM_cons]
      constructor
      · intro h
        rcases bind_ok h with ⟨_, hfirst, hrest⟩
        exact ⟨hfirst, hrest⟩
      · intro h
        rw [h.left, ok_bind]
        exact h.right

theorem mapM_ok_iff {item : Type} {f : item -> Except error beta} {items : List item}
    {results : List beta} :
    items.mapM f = .ok results <-> List.Forall₂ (fun x y => f x = .ok y) items results := by
  induction items generalizing results with
  | nil =>
      rw [List.mapM_nil]
      constructor
      · intro h
        cases h
        exact .nil
      · intro h
        cases h
        rfl
  | cons x items ih =>
      rw [List.mapM_cons]
      constructor
      · intro h
        rcases bind_ok h with ⟨y, hy, h⟩
        rcases bind_ok h with ⟨rest, hrest, h⟩
        cases h
        exact .cons hy (ih.mp hrest)
      · intro h
        cases h with
        | cons hy hrest =>
            rw [hy, ok_bind, ih.mpr hrest]
            rfl

theorem mapM_ok_exists {item : Type} {f : item -> Except error beta} {items : List item} :
    (exists results, items.mapM f = .ok results) <->
      forall x, x ∈ items -> exists y, f x = .ok y := by
  constructor
  · rintro ⟨results, h⟩ x hx
    rw [mapM_ok_iff] at h
    induction h with
    | nil => cases hx
    | cons hy _ ih =>
        rcases List.mem_cons.mp hx with rfl | hx
        · exact ⟨_, hy⟩
        · exact ih hx
  · intro h
    induction items with
    | nil => exact ⟨[], rfl⟩
    | cons x items ih =>
        have hall := List.forall_mem_cons.mp h
        rcases hall.left with ⟨y, hy⟩
        rcases ih hall.right with ⟨results, hresults⟩
        exact ⟨y :: results, mapM_ok_iff.mpr (.cons hy (mapM_ok_iff.mp hresults))⟩

end Steps

variable {alpha beta key : Type} {f : alpha -> Option beta} {xs : List alpha} {ys : List beta}

theorem mapM_some_iff :
    xs.mapM f = some ys <-> List.Forall₂ (fun x y => f x = some y) xs ys := by
  induction xs generalizing ys with
  | nil =>
      rw [List.mapM_nil]
      constructor
      · intro h
        cases h
        exact .nil
      · intro h
        cases h
        rfl
  | cons x xs ih =>
      rw [List.mapM_cons]
      constructor
      · intro h
        rcases Option.bind_eq_some_iff.mp h with ⟨y, hy, h⟩
        rcases Option.bind_eq_some_iff.mp h with ⟨rest, hrest, h⟩
        cases h
        exact .cons hy (ih.mp hrest)
      · intro h
        cases h with
        | cons hy hrest =>
            rw [hy, Option.bind_eq_bind, Option.bind_some, ih.mpr hrest]
            rfl

theorem mapM_isSome (f : alpha -> Option beta) (xs : List alpha) :
    (xs.mapM f).isSome = true <-> forall x, x ∈ xs -> (f x).isSome = true := by
  induction xs with
  | nil => exact iff_of_true rfl nofun
  | cons x xs ih =>
      rw [List.forall_mem_cons, ← ih, List.mapM_cons]
      cases f x with
      | none => exact iff_of_false nofun fun h => by cases h.left
      | some y =>
          cases xs.mapM f with
          | none => exact iff_of_false nofun fun h => by cases h.right
          | some ys => exact iff_of_true rfl ⟨rfl, rfl⟩

theorem mapM_all (h : xs.mapM f = some ys) : forall x, x ∈ xs -> (f x).isSome = true :=
  (mapM_isSome f xs).mp (congrArg Option.isSome h)

theorem lookup_mapM [BEq key] {items : List (key × alpha)} {results : List (key × beta)}
    {k : key} (h : items.mapM (fun item => (f item.2).map (item.1, ·)) = some results) :
    results.lookup k = (items.lookup k).bind f := by
  rw [mapM_some_iff] at h
  induction h with
  | nil => rfl
  | @cons item result items results hitem _ ih =>
      rcases Option.map_eq_some_iff.mp hitem with ⟨y, hy, hresult⟩
      rw [← hresult, List.lookup_cons, List.lookup_cons, ih]
      cases k == item.1 with
      | true => exact hy.symm
      | false => rfl

end Fallible
end Lib
end MightyColab
