import Mathlib.Data.Nat.Basic

/-!
# Loops with a budget

A `while True` loop that always ends, because every way back to its top spends
part of a budget: a retry used up, a flag that can be set once. The body returns
the next loop variable together with the proof that its measure went down, so a
loop that could go on for ever cannot be written. What holds of the loop follows
from what one pass of the body does, by the rule `run_rule`.
-/

namespace MightyColab
namespace Lib

universe u v w

/-- One pass of a loop body from the loop variable `k`: go round again with less
to spend, or leave with a result. -/
inductive Turn {budget : Type u} (measure : budget -> Nat) (k : budget)
    (result : Type w) where
  | again (next : { next : budget // measure next < measure k })
  | leave (value : result)

structure Loop (budget : Type u) (state : Type v) (result : Type w) where
  measure : budget -> Nat
  body : (k : budget) -> state -> Turn measure k result × state

namespace Loop

variable {budget : Type u} {state : Type v} {result : Type w}

def runBelow (L : Loop budget state result) :
    (n : Nat) -> (k : budget) -> L.measure k < n -> state -> result × state
  | 0, _, h, _ => absurd h (Nat.not_lt_zero _)
  | n + 1, k, h, s =>
      match L.body k s with
      | (.again next, s') =>
          L.runBelow n next.val (Nat.lt_of_lt_of_le next.property (Nat.lt_succ_iff.mp h)) s'
      | (.leave value, s') => (value, s')

/-- The loop from the budget `k`, to its result. -/
def run (L : Loop budget state result) (k : budget) (s : state) : result × state :=
  L.runBelow (L.measure k + 1) k (Nat.lt_succ_self _) s

/-- The loop rule: an invariant that every pass keeps, and a postcondition that
every leaving pass establishes from it. -/
theorem run_rule (L : Loop budget state result) (inv : budget -> state -> Prop)
    (post : result -> state -> Prop)
    (hagain : forall k s next s', inv k s -> L.body k s = (.again next, s') ->
      inv next.val s')
    (hleave : forall k s value s', inv k s -> L.body k s = (.leave value, s') ->
      post value s') :
    forall (k : budget) (s : state), inv k s ->
      post (L.run k s).1 (L.run k s).2 := by
  have hbelow : forall n k (hn : L.measure k < n) s, inv k s ->
      post (L.runBelow n k hn s).1 (L.runBelow n k hn s).2 := by
    intro n
    induction n with
    | zero =>
        intro k hn
        exact absurd hn (Nat.not_lt_zero _)
    | succ n ih =>
        intro k hn s hinv
        unfold runBelow
        cases hbody : L.body k s with
        | mk turn s' =>
            cases turn with
            | again next => exact ih next.val _ s' (hagain k s next s' hinv hbody)
            | leave value => exact hleave k s value s' hinv hbody
  intro k s hinv
  exact hbelow _ k _ s hinv

end Loop
end Lib
end MightyColab
